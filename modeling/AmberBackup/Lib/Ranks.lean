import Mathlib.Data.Finset.Card
import Mathlib.Data.Finset.Range
import Mathlib.Tactic.Common

/-! # Ranks

The rank of an item of a list is the number of items before it in an order of its own, not
in that of the list. Where the order is strict and total on the list, the ranks of the
items are the numbers below its length, each the rank of one item (`exists_rank`).
-/

namespace Ranks

variable {α : Type}

/-- A strict order in which any two different items of the list are comparable. -/
structure Orders (before : α → α → Bool) (items : List α) : Prop where
  irrefl : ∀ item, before item item = false
  trans : ∀ first second third,
    before first second = true → before second third = true → before first third = true
  total : ∀ first ∈ items, ∀ second ∈ items, first ≠ second →
    before first second = true ∨ before second first = true

def rank (before : α → α → Bool) (items : List α) (item : α) : Nat :=
  items.countP (before · item)

variable {before : α → α → Bool} {items : List α} {first second item : α}

/-- A condition that is weaker, and met by an item the other is not met by, counts more. -/
theorem countP_lt {weaker stronger : α → Bool}
    (implies : ∀ item ∈ items, stronger item = true → weaker item = true)
    (member : item ∈ items) (met : weaker item = true) (unmet : stronger item = false) :
    items.countP stronger < items.countP weaker := by
  induction items with
  | nil => cases member
  | cons head rest ih =>
      have tail : rest.countP stronger ≤ rest.countP weaker :=
        List.countP_mono_left fun other listed => implies other (List.mem_cons_of_mem _ listed)
      rw [List.countP_cons, List.countP_cons]
      rcases List.mem_cons.mp member with rfl | listed
      · rw [if_pos met, if_neg (by rw [unmet]; exact Bool.false_ne_true)]
        omega
      · have later := ih (fun other listed => implies other (List.mem_cons_of_mem _ listed)) listed
        by_cases counted : stronger head = true
        · rw [if_pos counted, if_pos (implies head List.mem_cons_self counted)]
          omega
        · rw [if_neg counted]
          split <;> omega

theorem rank_lt_rank (orders : Orders before items) (member : first ∈ items)
    (earlier : before first second = true) : rank before items first < rank before items second :=
  countP_lt (fun other _ => fun sooner => orders.trans other first second sooner earlier)
    member earlier (orders.irrefl first)

theorem rank_lt_length (orders : Orders before items) (member : item ∈ items) :
    rank before items item < items.length := by
  have below : items.countP (before · item) < items.countP fun _ => true :=
    countP_lt (fun _ _ _ => rfl) member rfl (orders.irrefl item)
  rwa [List.countP_true] at below

/-- Items of one rank are the same. -/
theorem rank_injective (orders : Orders before items) (member : first ∈ items)
    (other : second ∈ items) (same : rank before items first = rank before items second) :
    first = second := by
  by_contra different
  rcases orders.total first member second other different with sooner | later
  · exact Nat.ne_of_lt (rank_lt_rank orders member sooner) same
  · exact Nat.ne_of_gt (rank_lt_rank orders other later) same

/-- Every number below the length is a rank. -/
theorem exists_rank (orders : Orders before items) (distinct : items.Nodup) {number : Nat}
    (below : number < items.length) : ∃ item ∈ items, rank before items item = number := by
  have ranksDistinct : (items.map (rank before items)).Nodup := by
    rw [List.nodup_map_iff_inj_on distinct]
    exact fun first member second other same => rank_injective orders member other same
  have within : ∀ number ∈ items.map (rank before items), number < items.length := by
    intro number listed
    obtain ⟨item, member, rfl⟩ := List.mem_map.mp listed
    exact rank_lt_length orders member
  have all : (⟨items.map (rank before items), ranksDistinct⟩ : Finset Nat) =
      Finset.range items.length := by
    refine Finset.eq_of_subset_of_card_le (fun number listed => ?_) ?_
    · exact Finset.mem_range.mpr (within number listed)
    · rw [Finset.card_range]
      exact Nat.le_of_eq (List.length_map _).symm
  have listed : number ∈ (⟨items.map (rank before items), ranksDistinct⟩ : Finset Nat) := by
    rw [all]
    exact Finset.mem_range.mpr below
  obtain ⟨item, member, same⟩ := List.mem_map.mp listed
  exact ⟨item, member, same⟩

end Ranks
