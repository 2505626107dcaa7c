import Mathlib.Data.List.Basic
import Mathlib.Tactic.Common

/-! # Records as lists of entries

A record is read by name, and the last entry of a name is the one that counts. What is read of
records put together, or built from a list of fields, follows from their entries.
-/

namespace AmberBackup

/-- `values[name]` of a record whose later entries overwrite earlier ones. -/
def lookupLast {α : Type} (name : String) (entries : List (String × α)) : Option α :=
  (entries.reverse.find? fun entry => entry.1 = name).map Prod.snd

variable {α : Type} {name : String} {entries later : List (String × α)} {value : α}

theorem lookupLast_append :
    lookupLast name (entries ++ later) = (lookupLast name later).or (lookupLast name entries) := by
  unfold lookupLast
  rw [List.reverse_append, List.find?_append]
  cases later.reverse.find? fun entry => entry.1 = name <;> rfl

@[simp] theorem lookupLast_nil : lookupLast name ([] : List (String × α)) = none := rfl

theorem lookupLast_singleton {key : String} :
    lookupLast name [(key, value)] = if key = name then some value else none := by
  unfold lookupLast
  by_cases same : key = name <;> simp [same]

theorem lookupLast_cons (name : String) (entry : String × α) (rest : List (String × α)) :
    lookupLast name (entry :: rest) =
      (lookupLast name rest).or (if entry.1 = name then some entry.2 else none) := by
  rw [← List.singleton_append, lookupLast_append]
  exact congrArg _ lookupLast_singleton

theorem lookupLast_eq_none :
    lookupLast name entries = none ↔ ∀ entry ∈ entries, entry.1 ≠ name := by
  unfold lookupLast
  rw [Option.map_eq_none_iff, List.find?_eq_none]
  simp only [List.mem_reverse, decide_eq_true_eq]

/-- Entries that are kept or dropped by their names. -/
theorem lookupLast_filter (keep : String → Bool) (entries : List (String × α)) :
    lookupLast name (entries.filter fun entry => keep entry.1) =
      if keep name then lookupLast name entries else none := by
  induction entries with
  | nil => exact (ite_self none).symm
  | cons entry rest ih =>
      rw [List.filter_cons, lookupLast_cons name entry]
      by_cases same : entry.1 = name
      · rw [same]
        by_cases kept : keep name = true
        · rw [if_pos kept] at ih ⊢
          rw [if_pos kept, lookupLast_cons, ih, if_pos same, if_pos rfl]
        · rw [if_neg kept] at ih ⊢
          rw [if_neg kept, ih]
      · rw [if_neg same, Option.or_none, ← ih]
        split
        · rw [lookupLast_cons, if_neg same, Option.or_none]
        · rfl

theorem mem_of_lookupLast (found : lookupLast name entries = some value) :
    (name, value) ∈ entries := by
  obtain ⟨⟨key, stored⟩, listed, rfl⟩ := Option.map_eq_some_iff.mp found
  have same : key = name := by simpa using List.find?_some listed
  exact same ▸ List.mem_reverse.mp (List.mem_of_find?_eq_some listed)

theorem lookupLast_isSome (listed : (name, value) ∈ entries) :
    (lookupLast name entries).isSome = true := by
  unfold lookupLast
  rw [Option.isSome_map, List.find?_isSome]
  exact ⟨(name, value), List.mem_reverse.mpr listed, decide_eq_true rfl⟩

/-- The entries a list of fields with distinct names yields. -/
theorem lookupLast_filterMap {β : Type} {fields : List β} (key : β → String)
    (value : β → Option α) (distinct : (fields.map key).Nodup) {field : β}
    (listed : field ∈ fields) :
    lookupLast (key field) (fields.filterMap fun field => (value field).map (key field, ·)) =
      value field := by
  induction fields with
  | nil => cases listed
  | cons first rest ih =>
      rw [List.map_cons, List.nodup_cons] at distinct
      have split : (first :: rest).filterMap (fun field => (value field).map (key field, ·)) =
          ((value first).map (key first, ·)).toList ++
            rest.filterMap fun field => (value field).map (key field, ·) := by
        cases here : value first <;> simp [here]
      rw [split, lookupLast_append]
      rcases List.mem_cons.mp listed with rfl | later
      · have absent : lookupLast (key field)
            (rest.filterMap fun field => (value field).map (key field, ·)) = none := by
          rw [Option.eq_none_iff_forall_ne_some]
          intro other found
          obtain ⟨holder, member, yields⟩ := List.mem_filterMap.mp (mem_of_lookupLast found)
          obtain ⟨_, _, same⟩ := Option.map_eq_some_iff.mp yields
          exact distinct.1 (List.mem_map.mpr ⟨holder, member, congrArg Prod.fst same⟩)
        rw [absent, Option.none_or]
        cases value field with
        | none => rfl
        | some content => exact (lookupLast_singleton).trans (if_pos rfl)
      · have other : key first ≠ key field := by
          intro same
          exact distinct.1 (same ▸ List.mem_map_of_mem later)
        rw [ih distinct.2 later]
        cases value first with
        | none => exact Option.or_none
        | some content =>
            have elsewhere : lookupLast (key field) [(key first, content)] = none :=
              lookupLast_singleton.trans (if_neg other)
            change (value field).or (lookupLast (key field) [(key first, content)]) = _
            rw [elsewhere, Option.or_none]

end AmberBackup
