import AmberBackup.Lib.Table

/-! # Rows that get a row of their own

A migration gives each row of one table a row of its own in another. It goes through the rows one
by one, inserts a row under a fresh key and links the row it is for to it. Whatever is read of the
store while it grows, every listed key ends linked to a row of its own, and all other rows are as
they were (`copyEach_linked`).
-/

namespace Relational

namespace Table

section Mapped

variable {κ ρ σ : Type}

/-- The rows under their keys, each replaced. -/
def mapRows (table : Table κ ρ) (change : ρ → σ) : Table κ σ where
  rows := table.rows.map fun entry => (entry.1, change entry.2)
  distinct := by
    rw [List.map_map]
    exact table.distinct

theorem get?_mapRows [DecidableEq κ] {table : Table κ ρ} {change : ρ → σ} {key : κ} :
    (table.mapRows change).get? key = (table.get? key).map change := by
  unfold get? mapRows
  dsimp only
  induction table.rows with
  | nil => rfl
  | cons entry rest ih =>
      obtain ⟨other, row⟩ := entry
      rw [List.map_cons]
      unfold find
      by_cases same : other = key
      · rw [if_pos same, if_pos same]
        rfl
      · rw [if_neg same, if_neg same, ih]

end Mapped

section Copies

variable {α κ ρ σ ι : Type} [DecidableEq α] [DecidableEq κ]

/-- Inserts what each item yields under a fresh key and links the row of the item's key to it, or
to nothing where the item yields nothing. -/
def copyEach (fresh : Table α ρ → α) (make : Table α ρ → ι → Option ρ)
    (link : Option α → σ → σ) :
    List (κ × ι) → Table α ρ × Table κ σ → Table α ρ × Table κ σ
  | [], tables => tables
  | (key, item) :: rest, (store, table) =>
      match make store item with
      | none =>
          copyEach fresh make link rest
            (store, table.update (fun id _ => id = key) (link none))
      | some row =>
          copyEach fresh make link rest
            (store.insert (fresh store) row,
              table.update (fun id _ => id = key) (link (some (fresh store))))

/-- The rows of a table are all there, as they are. -/
def Extends (store later : Table α ρ) : Prop :=
  ∀ id row, store.get? id = some row → later.get? id = some row

/-- Each listed key is linked to a row of its own. -/
structure Linked (link : Option α → σ → σ) (rows : ι → ρ) (items : List (κ × ι))
    (assigned : κ → α) (store later : Table α ρ) (table linked : Table κ σ) : Prop where
  kept : store.Extends later
  link : ∀ key item, (key, item) ∈ items →
    linked.get? key = (table.get? key).map (link (some (assigned key)))
  copy : ∀ key item, (key, item) ∈ items → later.get? (assigned key) = some (rows item)
  fresh : ∀ key item, (key, item) ∈ items → store.get? (assigned key) = none
  own : ∀ key item other item', (key, item) ∈ items → (other, item') ∈ items →
    assigned key = assigned other → key = other
  others : ∀ key, key ∉ items.map Prod.fst → linked.get? key = table.get? key
  new : ∀ id row, later.get? id = some row → store.get? id = some row ∨
    ∃ key item, (key, item) ∈ items ∧ id = assigned key

variable {fresh : Table α ρ → α} {make : Table α ρ → ι → Option ρ} {link : Option α → σ → σ}
  {rows : ι → ρ} {items rest : List (κ × ι)} {store later : Table α ρ} {table linked : Table κ σ}
  {assigned : κ → α} {key : κ} {item : ι}

/-- One more row is copied before the others. -/
theorem Linked.cons (unused : store.get? (fresh store) = none)
    (new : key ∉ rest.map Prod.fst)
    (others : Linked link rows rest assigned (store.insert (fresh store) (rows item)) later
      (table.update (fun id _ => id = key) (link (some (fresh store)))) linked) :
    Linked link rows ((key, item) :: rest)
      (fun other => if other = key then fresh store else assigned other)
      store later table linked := by
  have inserted : (store.insert (fresh store) (rows item)).get? (fresh store) = some (rows item) :=
    get?_insert_self unused
  have apart : ∀ other item', (other, item') ∈ rest → other ≠ key := by
    rintro other item' member rfl
    exact new (List.mem_map_of_mem member)
  have fresh' : ∀ other item', (other, item') ∈ rest → store.get? (assigned other) = none := by
    intro other item' member
    have unusedLater := others.fresh other item' member
    cases present : store.get? (assigned other) with
    | none => rfl
    | some row =>
        rw [get?_insert_of_some present] at unusedLater
        cases unusedLater
  have notFirst : ∀ other item', (other, item') ∈ rest → assigned other ≠ fresh store := by
    intro other item' member same
    have unusedLater := others.fresh other item' member
    rw [same, inserted] at unusedLater
    cases unusedLater
  refine ⟨?_, ?_, ?_, ?_, ?_, ?_, ?_⟩
  · intro id row present
    exact others.kept id row (get?_insert_of_some present _)
  · intro other item' member
    rcases List.mem_cons.mp member with first | later
    · obtain ⟨rfl, rfl⟩ := Prod.mk.inj first
      rw [if_pos rfl, others.others other new, get?_update_self]
    · have different := apart other item' later
      rw [if_neg different, others.link other item' later, get?_update_of_ne different]
  · intro other item' member
    rcases List.mem_cons.mp member with first | later
    · obtain ⟨rfl, rfl⟩ := Prod.mk.inj first
      rw [if_pos rfl]
      exact others.kept _ _ inserted
    · rw [if_neg (apart other item' later)]
      exact others.copy other item' later
  · intro other item' member
    rcases List.mem_cons.mp member with first | later
    · obtain ⟨rfl, rfl⟩ := Prod.mk.inj first
      rw [if_pos rfl, unused]
    · rw [if_neg (apart other item' later)]
      exact fresh' other item' later
  · intro first item' second item'' member member' same
    rcases List.mem_cons.mp member with head | later <;>
      rcases List.mem_cons.mp member' with head' | later'
    · rw [(Prod.mk.inj head).1, (Prod.mk.inj head').1]
    · rw [(Prod.mk.inj head).1, if_pos rfl, if_neg (apart second item'' later')] at same
      exact absurd same.symm (notFirst second item'' later')
    · rw [(Prod.mk.inj head').1, if_pos rfl, if_neg (apart first item' later)] at same
      exact absurd same (notFirst first item' later)
    · rw [if_neg (apart first item' later), if_neg (apart second item'' later')] at same
      exact others.own first item' second item'' later later' same
  · intro other absent
    rw [List.map_cons, List.mem_cons, not_or] at absent
    rw [others.others other absent.2, get?_update_of_ne absent.1]
  · intro id row present
    rcases others.new id row present with before | ⟨other, item', member, rfl⟩
    · rcases insert_cases unused before with ⟨rfl, rfl⟩ | ⟨-, before⟩
      · exact .inr ⟨key, item, List.mem_cons_self, (if_pos rfl).symm⟩
      · exact .inl before
    · refine .inr ⟨other, item', List.mem_cons_of_mem _ member, ?_⟩
      rw [if_neg (apart other item' member)]

/-- What a migration goes through ends linked, if each item yields its row whatever has been added
to the store. -/
theorem copyEach_linked (unused : ∀ store : Table α ρ, store.get? (fresh store) = none)
    (distinct : (items.map Prod.fst).Nodup)
    (yields : ∀ key item, (key, item) ∈ items → ∀ later, store.Extends later →
      make later item = some (rows item)) :
    ∃ assigned, Linked link rows items assigned
      store (copyEach fresh make link items (store, table)).1
      table (copyEach fresh make link items (store, table)).2 := by
  induction items generalizing store table with
  | nil =>
      exact ⟨fun _ => fresh store, ⟨fun _ _ present => present,
        fun _ _ member => absurd member List.not_mem_nil,
        fun _ _ member => absurd member List.not_mem_nil,
        fun _ _ member => absurd member List.not_mem_nil,
        fun _ _ _ _ member => absurd member List.not_mem_nil,
        fun _ _ => rfl, fun _ _ present => .inl present⟩⟩
  | cons entry rest ih =>
      obtain ⟨key, item⟩ := entry
      rw [List.map_cons, List.nodup_cons] at distinct
      have made := yields key item List.mem_cons_self store fun _ _ present => present
      unfold copyEach
      rw [made]
      dsimp only
      obtain ⟨assigned, others⟩ := @ih (store.insert (fresh store) (rows item))
        (table.update (fun id _ => id = key) (link (some (fresh store)))) distinct.2 (by
          intro other item' member later extended
          refine yields other item' (List.mem_cons_of_mem _ member) later ?_
          intro id row present
          exact extended id row (get?_insert_of_some present _))
      exact ⟨_, others.cons (unused store) distinct.1⟩

end Copies

end Table

end Relational
