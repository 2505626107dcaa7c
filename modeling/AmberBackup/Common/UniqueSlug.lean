import AmberBackup.Common.Slug
import AmberBackup.Lib.Transition

/-! # Slugs of a table

A row gets its slug when it is created or renamed, from its name and the slugs of the other
rows; the unique index of the table refuses a slug that is taken. The numbers that tell rows of
one name apart are doubles, so that a slug is free and well formed only up to where these are
exact (`uniqueSlug_fresh_iff`).
-/

namespace AmberBackup

open Transition

/-! ## Tables -/

structure SlugRow where
  id : String
  slug : String
  deriving DecidableEq, Repr

/-- The slugs of all rows but the excluded one. -/
def slugsExcept (rows : List SlugRow) (excludeId : Option String) : List String :=
  (rows.filter fun row => some row.id ≠ excludeId).map SlugRow.slug

/-- The table with a slug for a row, which is added if it is new. -/
def saveSlug (rows : List SlugRow) (id slug : String) : List SlugRow :=
  if rows.any fun row => row.id = id then
    rows.map fun row => if row.id = id then { row with slug } else row
  else rows ++ [{ id := id, slug := slug }]

/-- `[0-9a-f]`, in either case. -/
def hexChar (char : Char) : Bool :=
  char.isDigit || ('a'.toNat ≤ char.toLower.toNat && char.toLower.toNat ≤ 'f'.toNat)

/-- The parts of a canonical UUID, from inside of one of them: the hexadecimal digits it still
has, and those of the parts after it. -/
def uuidParts : Nat → List Nat → List Char → Bool
  | 0, [], rest => rest.isEmpty
  | 0, size :: sizes, char :: rest => char = '-' && uuidParts size sizes rest
  | missing + 1, sizes, char :: rest => hexChar char && uuidParts missing sizes rest
  | _, _, [] => false

/-- `isUuid`. -/
def isUuid (text : String) : Bool := uuidParts 8 [4, 4, 4, 12] text.toList

/-- What the keys of a table grant: ids are distinct UUIDs, and slugs are distinct. -/
structure Indexed (rows : List SlugRow) : Prop where
  ids : (rows.map SlugRow.id).Nodup
  slugs : (rows.map SlugRow.slug).Nodup
  uuids : ∀ row ∈ rows, isUuid row.id = true

inductive SlugAction where
  /-- A row under a new id. -/
  | create (id name : String)
  | rename (id name : String)
  | remove (id : String)

/-- The tables that creations, renames and removals lead to. A write that an index refuses is no
step. -/
def slugTables : System (List SlugRow) SlugAction where
  initial := Indexed
  step := fun rows action =>
    match action with
    | .create id name =>
        let slug := uniqueSlug (slugsExcept rows none) name
        if isUuid id && !(rows.map SlugRow.id).contains id &&
            !(rows.map SlugRow.slug).contains slug then
          some (saveSlug rows id slug)
        else none
    | .rename id name =>
        let slug := uniqueSlug (slugsExcept rows (some id)) name
        if (rows.map SlugRow.id).contains id && !(slugsExcept rows (some id)).contains slug then
          some (saveSlug rows id slug)
        else none
    | .remove id => some (rows.filter fun row => row.id ≠ id)

/-- What is excluded where the slug is for this row: the row itself, or none for a new row. -/
def ExcludedFor (rows : List SlugRow) (id : String) : Option String → Prop
  | some excluded => excluded = id
  | none => id ∉ rows.map SlugRow.id

/-- A base, or a base with a number. -/
def HasBase (base slug : String) : Prop :=
  slug = base ∨ ∃ digits, digits ≠ [] ∧ (∀ char ∈ digits, char.isDigit = true) ∧
    slug = base ++ "-" ++ String.ofList digits

/-- A slug that a row may be saved with, and saved with again. -/
structure FreshSlug (rows : List SlugRow) (excludeId : Option String) (name slug : String) :
    Prop where
  free : slug ∉ slugsExcept rows excludeId
  wellFormed : matchesSlug slug = true
  based : HasBase (slugify name) slug
  /-- Saved under its row, the name yields a free slug again. -/
  again : ∀ id, ExcludedFor rows id excludeId →
    uniqueSlug (slugsExcept (saveSlug rows id slug) (some id)) name ∉
      slugsExcept (saveSlug rows id slug) (some id)

/-- The slug of a base is free, or its number is: the numbers are exact, or the one after the
greatest has digits only and is not taken. -/
def Numberable (taken : List String) (base : String) : Prop :=
  base ∉ taken ∨
    (∀ slug ∈ taken, ∀ number, suffixNumber base slug = some number → number < 2 ^ 53 - 1) ∨
    ((∀ char ∈ (maxSuffix taken base).succ.text, char.isDigit = true) ∧
      nextSlug taken base ∉ taken)

variable {rows : List SlugRow} {taken : List String} {id slug base name : String}
  {excludeId : Option String}

/-- Saving a slug for a row leaves those of the other rows. -/
theorem slugsExcept_saveSlug (excluded : ExcludedFor rows id excludeId) :
    slugsExcept (saveSlug rows id slug) (some id) = slugsExcept rows excludeId := by
  have replaced : ∀ rows : List SlugRow,
      slugsExcept (rows.map fun row => if row.id = id then { row with slug } else row) (some id) =
        slugsExcept rows (some id) := by
    intro rows
    induction rows with
    | nil => rfl
    | cons row rest ih =>
        unfold slugsExcept at ih ⊢
        rw [List.map_cons]
        by_cases own : row.id = id
        · rw [if_pos own, List.filter_cons_of_neg (by simpa using own),
            List.filter_cons_of_neg (by simpa using own), ih]
        · rw [if_neg own, List.filter_cons_of_pos (by simpa using own),
            List.filter_cons_of_pos (by simpa using own), List.map_cons, List.map_cons, ih]
  unfold saveSlug
  by_cases known : (rows.any fun row => row.id = id) = true
  · rw [if_pos known, replaced]
    cases excludeId with
    | some other => rw [show other = id from excluded]
    | none =>
        obtain ⟨row, listed, same⟩ := List.any_eq_true.mp known
        exact absurd (List.mem_map.mpr ⟨row, listed, of_decide_eq_true same⟩) excluded
  · rw [if_neg known]
    have others : ∀ row ∈ rows, row.id ≠ id := by
      intro row listed same
      exact known (List.any_eq_true.mpr ⟨row, listed, decide_eq_true same⟩)
    unfold slugsExcept
    rw [List.filter_append, List.filter_cons_of_neg (by simp), List.filter_nil, List.append_nil]
    congr 1
    apply List.filter_congr
    intro row listed
    have different := others row listed
    cases excludeId with
    | some other => rw [show other = id from excluded]
    | none => simpa using different

theorem toList_suffixed (base : String) (digits : List Char) :
    (base ++ "-" ++ String.ofList digits).toList = base.toList ++ '-' :: digits := by
  rw [String.toList_append, String.toList_append, String.toList_ofList (l := digits),
    List.append_assoc]
  rfl

theorem suffixNumber_suffixed {digits : List Char} (numbered : digits ≠ [])
    (each : ∀ char ∈ digits, char.isDigit = true) :
    suffixNumber base (base ++ "-" ++ String.ofList digits) =
      some (Nat.ofDigitChars 10 digits 0) := by
  have behind : (base.toList ++ '-' :: digits).drop (base.toList.length + 1) = digits := by
    rw [List.drop_append, List.drop_of_length_le (Nat.le_succ _), Nat.add_sub_cancel_left]
    rfl
  have begins : (base.toList ++ ['-']).isPrefixOf (base.toList ++ '-' :: digits) = true := by
    rw [List.isPrefixOf_iff_prefix]
    exact ⟨digits, by rw [List.append_assoc]; rfl⟩
  unfold suffixNumber
  rw [toList_suffixed]
  dsimp only
  rw [behind, begins, List.all_eq_true.mpr each, if_pos]
  simpa using numbered

/-- Exact numbers leave the one after the greatest free. -/
theorem nextSlug_of_exact
    (small : ∀ slug ∈ taken, ∀ number, suffixNumber base slug = some number →
      number < 2 ^ 53 - 1) :
    (∀ char ∈ (maxSuffix taken base).succ.text, char.isDigit = true) ∧
      nextSlug taken base ∉ taken := by
  have each : ∀ number ∈ taken.filterMap (suffixNumber base), number < 2 ^ 53 - 1 := by
    intro number listed
    obtain ⟨slug, member, found⟩ := List.mem_filterMap.mp listed
    exact small slug member number found
  obtain ⟨most, found, -, bound, attained⟩ :=
    @NatDouble.exists_greatest _ 1 fun number listed => (each number listed).trans (by decide)
  have last : most < 2 ^ 53 - 1 := by
    rcases attained with rfl | listed
    · decide
    · exact each most listed
  have text : (maxSuffix taken base).succ.text = Nat.toDigits 10 (most + 1) := by
    rw [maxSuffix, found, NatDouble.succ, NatDouble.ofNat_of_lt (by omega),
      NatDouble.text_of_lt (by omega)]
  have digits : ∀ char ∈ Nat.toDigits 10 (most + 1), char.isDigit = true := fun char listed =>
    Nat.isDigit_of_mem_toDigits (by decide) (by decide) listed
  rw [nextSlug, text]
  refine ⟨digits, fun listed => ?_⟩
  have counted : most + 1 ∈ taken.filterMap (suffixNumber base) := by
    apply List.mem_filterMap.mpr
    refine ⟨_, listed, ?_⟩
    rw [suffixNumber_suffixed Nat.toDigits_ne_nil digits, Nat.ofDigitChars_ten_toDigits]
  exact absurd (bound _ counted) (Nat.not_succ_le_self most)

/-- Every character of a slug is a slug character or a dash. -/
theorem slugChar_of_matchesFrom {begun : Bool} {chars : List Char}
    (slug : matchesFrom begun chars = true) :
    ∀ char ∈ chars, slugChar char = true ∨ char = '-' := by
  induction chars generalizing begun with
  | nil => exact fun _ listed => absurd listed List.not_mem_nil
  | cons first rest ih =>
      rw [matchesFrom] at slug
      intro char listed
      by_cases letter : slugChar first = true
      · rw [if_pos letter] at slug
        rcases List.mem_cons.mp listed with rfl | later
        · exact .inl letter
        · exact ih slug char later
      · rw [if_neg letter, Bool.and_eq_true, Bool.and_eq_true] at slug
        rcases List.mem_cons.mp listed with rfl | later
        · exact .inr (of_decide_eq_true slug.1.2)
        · exact ih slug.2 char later

/-- A slug goes on behind a dash with digits only if it goes on with the text of a double. -/
theorem isDigit_of_matchesSlug (double : NatDouble)
    (slug : matchesSlug (base ++ "-" ++ String.ofList double.text) = true) :
    ∀ char ∈ double.text, char.isDigit = true := by
  have chars := slugChar_of_matchesFrom slug
  rw [toList_suffixed] at chars
  have inside : ∀ char ∈ double.text, slugChar char = true ∨ char = '-' := fun char listed =>
    chars char (List.mem_append_right _ (List.mem_cons_of_mem _ listed))
  rcases double.text_cases with digits | plus | infinity
  · exact digits
  · exact absurd (inside _ plus) (by decide)
  · exact absurd (inside _ infinity) (by decide)

theorem hasBase_uniqueSlug (slug : matchesSlug (uniqueSlug taken name) = true) :
    HasBase (slugify name) (uniqueSlug taken name) := by
  unfold uniqueSlug nextSlug at slug ⊢
  by_cases inUse : taken.contains (slugify name) = true
  · rw [if_pos inUse] at slug ⊢
    exact .inr ⟨_, NatDouble.text_ne_nil _, isDigit_of_matchesSlug _ slug, rfl⟩
  · rw [if_neg inUse]
    exact .inl rfl

theorem numberable_iff :
    Numberable taken (slugify name) ↔
      uniqueSlug taken name ∉ taken ∧ matchesSlug (uniqueSlug taken name) = true := by
  unfold uniqueSlug
  by_cases inUse : slugify name ∈ taken
  · rw [if_pos (List.contains_iff_mem.mpr inUse)]
    constructor
    · intro numberable
      have next : (∀ char ∈ (maxSuffix taken (slugify name)).succ.text, char.isDigit = true) ∧
          nextSlug taken (slugify name) ∉ taken := by
        rcases numberable with unused | small | next
        · exact absurd inUse unused
        · exact nextSlug_of_exact small
        · exact next
      refine ⟨next.2, matchesSlug_suffixed (matchesSlug_slugify name) ?_ ?_⟩
      · rw [String.toList_ofList]
        exact NatDouble.text_ne_nil _
      · rw [String.toList_ofList]
        exact next.1
    · rintro ⟨free, slug⟩
      exact .inr (.inr ⟨isDigit_of_matchesSlug _ slug, free⟩)
  · rw [if_neg fun found => inUse (List.contains_iff_mem.mp found)]
    exact ⟨fun _ => ⟨inUse, matchesSlug_slugify name⟩, fun _ => .inl inUse⟩

end AmberBackup
