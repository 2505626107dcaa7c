import AmberBackup.Database.Types
import AmberBackup.Targets.BackendRegistry

/-! # Access control

Admins bypass all grants; everyone else needs a grant on the resource. A request made
with an API key is bounded by the key's scopes as well, an admin's included.
-/

namespace AmberBackup

/-- `LEVEL_RANK`. -/
def AccessLevel.rank : AccessLevel → Nat
  | .view => 1
  | .operate => 2
  | .manage => 3

def levelToAction : AccessLevel → String
  | .view => "read"
  | .operate => "operate"
  | .manage => "manage"

def AccessLevel.name : AccessLevel → String
  | .view => "view"
  | .operate => "operate"
  | .manage => "manage"

def ResourceType.name : ResourceType → String
  | .target => "target"
  | .source => "source"
  | .job => "job"

/-- The API key's action and resource scope, independent of grants. -/
def apiKeyAllows (user : RequestUser) (type : ResourceType) (resource : Uuid)
    (level : AccessLevel) : Bool :=
  match user.apiKeyScopes with
  | none => true
  | some scopes =>
      (scopes.actions.contains "*" || scopes.actions.contains (levelToAction level)) &&
        scopes.resources.all fun resources => resources.contains (type, resource)

/-- The user's grant on a resource. -/
def Db.grant (db : Db) (user : Uuid) (type : ResourceType) (resource : Uuid) :
    Option ResourceGrant :=
  db.resourceGrants.find? fun grant =>
    grant.userId = user && grant.resourceType = type && grant.resourceId = resource

/-- Whether the user may access a resource at the given level. -/
def can (db : Db) (user : RequestUser) (type : ResourceType) (resource : Uuid)
    (level : AccessLevel) : Bool :=
  apiKeyAllows user type resource level &&
    (user.isAdmin ||
      (db.grant user.id type resource).any fun grant => level.rank ≤ grant.accessLevel.rank)

/-- Denies access by an exception. -/
def assertAccess (db : Db) (user : RequestUser) (type : ResourceType) (resource : Uuid)
    (level : AccessLevel) : Except Failure Unit :=
  if can db user type resource level then .ok ()
  else .error (.forbidden
    ("Missing '" ++ level.name ++ "' access on " ++ type.name ++ " " ++ toString resource))

end AmberBackup
