import AmberBackup.Common.UniqueSlug
import AmberBackup.Targets.BackendRegistry

/-! # Rows addressed by id or slug

An id and a slug share one parameter. What is shaped like a UUID is taken for an id, so that a
row is found under its id always, and under its slug unless the slug is shaped like the id of
another row (`slugs_resolve`).
-/

namespace AmberBackup

open Transition

/-- `SlugResolverService.resolve`. -/
def resolve (rows : List SlugRow) (idOrSlug : String) : Except Failure String :=
  if isUuid idOrSlug then .ok idOrSlug
  else
    match rows.find? fun row => row.slug = idOrSlug with
    | some row => .ok row.id
    | none => .error (.notFound ("No entity with slug '" ++ idOrSlug ++ "'"))

/-- The id and the slug of a row both lead to it. -/
def Addressed (rows : List SlugRow) (row : SlugRow) : Prop :=
  resolve rows row.slug = .ok row.id ∧ resolve rows row.id = .ok row.id

/-- No slug for the name is shaped like a UUID, whatever number it gets. -/
def PlainName (name : String) : Prop :=
  isUuid (slugify name) = false ∧
    ∀ digits, (∀ char ∈ digits, char.isDigit = true) →
      isUuid (slugify name ++ "-" ++ String.ofList digits) = false

/-- The name a step gives a row is plain. -/
def PlainStep (_ : List SlugRow) : SlugAction → Prop
  | .create _ name | .rename _ name => PlainName name
  | .remove _ => True

variable {rows next : List SlugRow} {row : SlugRow} {action : SlugAction} {id slug name : String}

/-! ## Tables that are reached -/

theorem slugsExcept_none : slugsExcept rows none = rows.map SlugRow.slug := by
  unfold slugsExcept
  rw [List.filter_eq_self.mpr fun row _ => by simp]

theorem mem_slugsExcept (listed : row ∈ rows) (other : row.id ≠ id) :
    row.slug ∈ slugsExcept rows (some id) :=
  List.mem_map_of_mem (List.mem_filter.mpr ⟨listed, by simpa using other⟩)

/-- A saved slug is the one of its row, and the other rows are as they were. -/
theorem mem_saveSlug (listed : row ∈ saveSlug rows id slug) :
    row = { id := id, slug := slug } ∨ (row.id ≠ id ∧ row ∈ rows) := by
  unfold saveSlug at listed
  by_cases known : (rows.any fun row => row.id = id) = true
  · rw [if_pos known] at listed
    obtain ⟨source, member, rfl⟩ := List.mem_map.mp listed
    by_cases own : source.id = id
    · rw [if_pos own, ← own]
      exact .inl rfl
    · rw [if_neg own]
      exact .inr ⟨own, member⟩
  · rw [if_neg known] at listed
    rcases List.mem_append.mp listed with before | new
    · refine .inr ⟨fun own => ?_, before⟩
      exact known (List.any_eq_true.mpr ⟨row, before, decide_eq_true own⟩)
    · exact .inl (List.mem_singleton.mp new)

theorem saveSlug_ids (rows : List SlugRow) (id slug : String) :
    (saveSlug rows id slug).map SlugRow.id =
      if id ∈ rows.map SlugRow.id then rows.map SlugRow.id else rows.map SlugRow.id ++ [id] := by
  have known : (rows.any fun row => row.id = id) = true ↔ id ∈ rows.map SlugRow.id := by
    rw [List.any_eq_true, List.mem_map]
    simp only [decide_eq_true_eq]
  unfold saveSlug
  by_cases inside : id ∈ rows.map SlugRow.id
  · rw [if_pos (known.mpr inside), if_pos inside, List.map_map]
    apply List.map_congr_left
    intro row _
    change (if row.id = id then { row with slug } else row : SlugRow).id = row.id
    split <;> rfl
  · rw [if_neg fun found => inside (known.mp found), if_neg inside, List.map_append]
    rfl

/-- What a step does: it saves the slug of a name for a row, unless another row has it, or it
removes a row. -/
theorem slugTables_step (moved : slugTables.step rows action = some next) :
    (∃ id name excludeId, (action = .create id name ∨ action = .rename id name) ∧
      (isUuid id = true ∨ id ∈ rows.map SlugRow.id) ∧ ExcludedFor rows id excludeId ∧
      uniqueSlug (slugsExcept rows excludeId) name ∉ slugsExcept rows excludeId ∧
      next = saveSlug rows id (uniqueSlug (slugsExcept rows excludeId) name)) ∨
    ∃ id, action = .remove id ∧ next = rows.filter fun row => row.id ≠ id := by
  cases action with
  | create id name =>
      obtain ⟨met, saved⟩ := Option.ite_none_right_eq_some.mp moved
      simp only [Bool.and_eq_true, Bool.not_eq_true', List.contains_eq_mem,
        decide_eq_false_iff_not] at met
      refine .inl ⟨id, name, none, .inl rfl, .inl met.1.1, met.1.2, ?_, ?_⟩
      · rw [slugsExcept_none]
        rw [slugsExcept_none] at met
        exact met.2
      · exact (Option.some.inj saved).symm
  | rename id name =>
      obtain ⟨met, saved⟩ := Option.ite_none_right_eq_some.mp moved
      simp only [Bool.and_eq_true, Bool.not_eq_true', List.contains_eq_mem,
        decide_eq_false_iff_not, decide_eq_true_eq] at met
      exact .inl ⟨id, name, some id, .inr rfl, .inr met.1, rfl, met.2,
        (Option.some.inj saved).symm⟩
  | remove id => exact .inr ⟨id, rfl, (Option.some.inj moved).symm⟩

theorem Indexed.saved {excludeId : Option String} (indexed : Indexed rows)
    (known : isUuid id = true ∨ id ∈ rows.map SlugRow.id)
    (excluded : ExcludedFor rows id excludeId) (free : slug ∉ slugsExcept rows excludeId) :
    Indexed (saveSlug rows id slug) := by
  have ids : ((saveSlug rows id slug).map SlugRow.id).Nodup := by
    rw [saveSlug_ids]
    split
    case isTrue => exact indexed.ids
    case isFalse new =>
      exact indexed.ids.append (List.nodup_singleton id) (List.disjoint_singleton.mpr new)
  have apart : ∀ row ∈ saveSlug rows id slug, row.id ≠ id → row.slug ≠ slug := by
    rintro row listed other rfl
    rw [← slugsExcept_saveSlug excluded] at free
    exact free (mem_slugsExcept listed other)
  refine ⟨ids, ?_, ?_⟩
  · refine (List.nodup_map_iff_inj_on (List.Nodup.of_map _ ids)).mpr ?_
    intro first listed second member same
    rcases mem_saveSlug listed with rfl | ⟨other, before⟩
    · rcases mem_saveSlug member with rfl | ⟨other, -⟩
      · rfl
      · exact absurd same.symm (apart second member other)
    · rcases mem_saveSlug member with rfl | ⟨-, earlier⟩
      · exact absurd same (apart first listed other)
      · exact (List.nodup_map_iff_inj_on (List.Nodup.of_map _ indexed.ids)).mp indexed.slugs
          first before second earlier same
  · intro row listed
    rcases mem_saveSlug listed with rfl | ⟨-, before⟩
    · rcases known with shaped | inside
      · exact shaped
      · obtain ⟨source, member, rfl⟩ := List.mem_map.mp inside
        exact indexed.uuids source member
    · exact indexed.uuids row before

/-- The keys hold in every table that is reached. -/
theorem indexed_of_reachable (reached : slugTables.Reachable (fun _ _ => True) rows) :
    Indexed rows := by
  have invariant : slugTables.Invariant (fun _ _ => True) Indexed := by
    refine ⟨fun _ start => start, ?_⟩
    intro rows action next indexed _ moved
    rcases slugTables_step moved with ⟨id, name, excludeId, -, known, excluded, free, rfl⟩ |
      ⟨id, -, rfl⟩
    · exact indexed.saved known excluded free
    · have part : (rows.filter fun row => row.id ≠ id).Sublist rows := List.filter_sublist
      exact ⟨indexed.ids.sublist (part.map _), indexed.slugs.sublist (part.map _),
        fun row listed => indexed.uuids row (part.subset listed)⟩
  exact invariant.holds reached

/-! ## Addressing -/

theorem addressed_iff (indexed : Indexed rows) (listed : row ∈ rows) :
    Addressed rows row ↔ isUuid row.slug = false ∨ row.slug = row.id := by
  have byId : resolve rows row.id = .ok row.id := if_pos (indexed.uuids row listed)
  unfold Addressed
  rw [and_iff_left byId]
  unfold resolve
  cases shaped : isUuid row.slug with
  | true =>
      rw [if_pos rfl]
      constructor
      · intro same
        exact .inr (Except.ok.inj same)
      · rintro (impossible | same)
        · cases impossible
        · rw [same]
  | false =>
      refine iff_of_true ?_ (.inl rfl)
      rw [if_neg Bool.false_ne_true]
      cases found : rows.find? fun other => other.slug = row.slug with
      | none => exact absurd (decide_eq_true rfl) (List.find?_eq_none.mp found row listed)
      | some other =>
          have same : other.slug = row.slug := by
            have held := List.find?_some found
            exact of_decide_eq_true held
          have equal := (List.nodup_map_iff_inj_on (List.Nodup.of_map _ indexed.ids)).mp
            indexed.slugs other (List.mem_of_find?_eq_some found) row listed same
          rw [equal]

/-- A UUID has only hexadecimal digits and dashes. -/
theorem not_mem_of_uuidParts {missing : Nat} {sizes : List Nat} {chars : List Char} {char : Char}
    (noHex : hexChar char = false) (noDash : char ≠ '-')
    (shaped : uuidParts missing sizes chars = true) : char ∉ chars := by
  induction chars generalizing missing sizes with
  | nil => exact List.not_mem_nil
  | cons first rest ih =>
      rw [List.mem_cons, not_or]
      cases missing with
      | zero =>
          cases sizes with
          | nil => cases shaped
          | cons size sizes =>
              rw [uuidParts, Bool.and_eq_true, decide_eq_true_eq] at shaped
              exact ⟨fun same => noDash (same.trans shaped.1), ih shaped.2⟩
      | succ missing =>
          rw [uuidParts, Bool.and_eq_true] at shaped
          refine ⟨?_, ih shaped.2⟩
          rintro rfl
          rw [noHex] at shaped
          cases shaped.1

/-- A plain name gets no slug that is shaped like a UUID. -/
theorem isUuid_uniqueSlug {taken : List String} (plain : PlainName name) :
    isUuid (uniqueSlug taken name) = false := by
  unfold uniqueSlug nextSlug
  split
  · rcases (maxSuffix taken (slugify name)).succ.text_cases with digits | plus | infinity
    · exact plain.2 _ digits
    · apply Bool.eq_false_iff.mpr
      intro shaped
      refine @not_mem_of_uuidParts _ _ _ '+' (by decide) (by decide) shaped ?_
      rw [toList_suffixed]
      exact List.mem_append_right _ (List.mem_cons_of_mem _ plus)
    · apply Bool.eq_false_iff.mpr
      intro shaped
      refine @not_mem_of_uuidParts _ _ _ 'I' (by decide) (by decide) shaped ?_
      rw [toList_suffixed]
      exact List.mem_append_right _ (List.mem_cons_of_mem _ infinity)
  · exact plain.1

/-- Plain names leave no slug that is shaped like a UUID. -/
theorem isUuid_of_steps {start : List SlugRow}
    (unshaped : ∀ row ∈ start, isUuid row.slug = false)
    (steps : slugTables.Steps PlainStep start rows) : ∀ row ∈ rows, isUuid row.slug = false := by
  induction steps with
  | refl => exact unshaped
  | tail before plain moved ih =>
      intro row listed
      rcases slugTables_step moved with ⟨id, name, excludeId, named, -, -, -, rfl⟩ | ⟨id, -, rfl⟩
      · have plainName : PlainName name := by
          rcases named with rfl | rfl <;> exact plain
        rcases mem_saveSlug listed with rfl | ⟨-, earlier⟩
        · exact isUuid_uniqueSlug plainName
        · exact ih row earlier
      · exact ih row (List.mem_filter.mp listed).1

/-- **Slugs address their rows.** In every table that is reached, the id and the slug of a row
lead to it exactly if the slug is not shaped like a UUID, or is the id; and names that are plain
keep it so for every row. -/
theorem slugs_resolve (start rows : List SlugRow) :
    (slugTables.Reachable (fun _ _ => True) rows → ∀ row ∈ rows,
      (Addressed rows row ↔ isUuid row.slug = false ∨ row.slug = row.id)) ∧
    (Indexed start → (∀ row ∈ start, isUuid row.slug = false) →
      slugTables.Steps PlainStep start rows → ∀ row ∈ rows, Addressed rows row) := by
  constructor
  · intro reached row listed
    exact addressed_iff (indexed_of_reachable reached) listed
  · intro indexed unshaped steps row listed
    have reached : slugTables.Reachable (fun _ _ => True) rows :=
      ⟨start, indexed, steps.weaken fun _ _ _ => trivial⟩
    exact (addressed_iff (indexed_of_reachable reached) listed).mpr
      (.inl (isUuid_of_steps unshaped steps row listed))

/-- A name with the shape of a UUID. -/
theorem slug_taken_for_id :
    ¬ ∀ rows, slugTables.Reachable (fun _ _ => True) rows → ∀ row ∈ rows, Addressed rows row := by
  intro always
  let row : SlugRow :=
    { id := "3f6f8b2e-7c4a-4b1d-9e2f-1a2b3c4d5e6f", slug := "00000000-0000-4000-8000-000000000000" }
  have empty : slugTables.Reachable (fun _ _ => True) [] :=
    .initial ⟨List.nodup_nil, List.nodup_nil, fun _ listed => absurd listed List.not_mem_nil⟩
  have created : slugTables.Reachable (fun _ _ => True) [row] :=
    @System.Reachable.step _ _ _ _ _ _
      (.create "3f6f8b2e-7c4a-4b1d-9e2f-1a2b3c4d5e6f" "00000000-0000-4000-8000-000000000000") empty
      trivial (by decide +kernel)
  have found := (always [row] created row List.mem_cons_self).1
  exact absurd found (by decide +kernel)

/-- A creation under the name `a`. -/
theorem created_row_addressed :
    Addressed [{ id := "3f6f8b2e-7c4a-4b1d-9e2f-1a2b3c4d5e6f", slug := "a" }]
      { id := "3f6f8b2e-7c4a-4b1d-9e2f-1a2b3c4d5e6f", slug := "a" } := by
  have base : slugify "a" = "a" := by decide +kernel
  have plain : PlainName "a" := by
    refine ⟨by decide +kernel, fun digits _ => ?_⟩
    rw [base, isUuid, toList_suffixed]
    rfl
  have steps : slugTables.Steps PlainStep []
      [{ id := "3f6f8b2e-7c4a-4b1d-9e2f-1a2b3c4d5e6f", slug := "a" }] :=
    @System.Steps.tail _ _ _ _ _ _ _ (.create "3f6f8b2e-7c4a-4b1d-9e2f-1a2b3c4d5e6f" "a")
      (.refl []) plain (by decide +kernel)
  exact (slugs_resolve [] _).2
    ⟨List.nodup_nil, List.nodup_nil, fun _ listed => absurd listed List.not_mem_nil⟩
    (fun _ listed => absurd listed List.not_mem_nil) steps _ List.mem_cons_self

end AmberBackup
