import AmberBackup.Common.AccessControl

/-! # The guard of the routes

Every route but the public ones is behind `AuthGuard`, which decides by the decorators of
the route and by how the request was authenticated. A request made with an API key is
refused where the route is closed to keys, where it is an administrator's and not opened to
keys, and where it changes something and the key's scopes name no action beyond `read`.
-/

namespace AmberBackup

inductive Method where
  | get | head | options | post | put | patch | delete
  deriving DecidableEq, Repr

/-- Whether a request is state-changing. -/
def Method.mutating : Method → Bool
  | .get | .head | .options => false
  | .post | .put | .patch | .delete => true

/-- The method and the decorators of a route, of its handler or of the controller. -/
structure Route where
  method : Method
  isPublic : Bool := false
  requireAdmin : Bool := false
  adminApiKey : Bool := false
  noApiKey : Bool := false
  anyApiKeyScope : Bool := false
  requiredAction : Option String := none
  deriving DecidableEq, Repr

inductive AuthVia where
  | session | apiKey
  deriving DecidableEq, Repr

/-- The authenticated principal, and how it authenticated. -/
structure Principal where
  user : RequestUser
  authVia : AuthVia
  deriving DecidableEq, Repr

inductive Refusal where
  | unauthorized (message : String)
  | forbidden (message : String)
  deriving DecidableEq, Repr

/-- The route's requirement of an administrator. -/
def requireAdmin (route : Route) (principal : Principal) : Except Refusal Unit := do
  if route.requireAdmin then
    if principal.authVia = .apiKey then
      if !route.adminApiKey then
        throw (.forbidden
          "Administrator operations require an interactive session, not an API key")
      if principal.user.apiKeyScopes.any fun scopes =>
          route.method.mutating && !scopes.actions.contains "*" then
        throw (.forbidden "Administrator operations via an API key require a full-access key")
    if !principal.user.isAdmin then
      throw (.forbidden "Administrator access required")

/-- The coarse bound by the actions of a key: a state-changing request needs one beyond
`read`. -/
def coarseScope (route : Route) (principal : Principal) : Except Refusal Unit :=
  if !route.anyApiKeyScope && principal.user.apiKeyScopes.any fun scopes =>
      !scopes.actions.contains "*" && route.method.mutating &&
        !scopes.actions.any fun action => action ≠ "read" then
    throw (.forbidden "API key lacks a write scope")
  else pure ()

/-- The action a route declares. -/
def declaredAction (route : Route) (principal : Principal) : Except Refusal Unit :=
  match route.requiredAction with
  | none => pure ()
  | some action =>
      if principal.user.apiKeyScopes.any fun scopes =>
          !scopes.actions.contains "*" && !scopes.actions.contains action then
        throw (.forbidden ("API key lacks '" ++ action ++ "' scope"))
      else pure ()

/-- `AuthGuard.canActivate` of a principal; an administrator may only act from an address of
the allowlist. -/
def canActivate (route : Route) (principal : Principal) (addressAllowed : Bool) :
    Except Refusal Unit := do
  if !route.isPublic then
    if principal.user.isAdmin && !addressAllowed then
      throw (.forbidden "Administrator access is not allowed from this address")
    requireAdmin route principal
    if route.noApiKey && principal.authVia = .apiKey then
      throw (.forbidden "This operation is not permitted for API keys")
    coarseScope route principal
    declaredAction route principal

section Undecorated

variable {route : Route} {principal : Principal}

theorem requireAdmin_of_not (unrestricted : route.requireAdmin = false) :
    requireAdmin route principal = .ok () := by
  simp [requireAdmin, unrestricted, pure, Except.pure]

theorem coarseScope_isOk : (coarseScope route principal).isOk =
    (route.anyApiKeyScope || principal.user.apiKeyScopes.all fun scopes =>
      scopes.actions.contains "*" || !route.method.mutating ||
        scopes.actions.any fun action => action ≠ "read") := by
  unfold coarseScope
  cases principal.user.apiKeyScopes with
  | none => simp [Except.isOk, Except.toBool, pure, Except.pure]
  | some scopes =>
      split
      case isTrue refused =>
        simp only [Option.any_some, Bool.and_eq_true, Bool.not_eq_true'] at refused
        obtain ⟨«restricted», ⟨star, mutating⟩, none⟩ := refused
        rw [Option.all_some, «restricted», star, mutating, none]
        rfl
      case isFalse admitted =>
        change true = _
        simp only [Option.any_some, Option.all_some] at admitted ⊢
        revert admitted
        cases route.anyApiKeyScope <;> cases scopes.actions.contains "*" <;>
          cases route.method.mutating <;>
          cases (scopes.actions.any fun action => decide (action ≠ "read")) <;> simp

/-- A route without decorators is only bounded by the allowlist and by the scopes. -/
theorem canActivate_undecorated (method : Method) (principal : Principal) (addressAllowed : Bool) :
    (canActivate { method } principal addressAllowed).isOk =
      ((!principal.user.isAdmin || addressAllowed) &&
        (coarseScope { method } principal).isOk) := by
  unfold canActivate
  rw [requireAdmin_of_not rfl]
  cases admin : principal.user.isAdmin <;> cases addressAllowed <;>
    cases coarseScope { method } principal <;>
    simp [declaredAction, Except.isOk, Except.toBool, pure, Except.pure, bind,
      Except.bind, throw, throwThe, MonadExceptOf.throw]

/-- An administrator's route that is not opened to keys refuses them. -/
theorem canActivate_of_admin {user : RequestUser} (addressAllowed : Bool)
    (protected' : route.isPublic = false) (required : route.requireAdmin = true)
    (closed : route.adminApiKey = false) :
    (canActivate route ⟨user, .apiKey⟩ addressAllowed).isOk = false := by
  unfold canActivate requireAdmin
  cases user.isAdmin <;> cases addressAllowed <;>
    simp [protected', required, closed, Except.isOk, Except.toBool, bind, Except.bind, throw,
      throwThe, MonadExceptOf.throw]

/-- A route that is not permitted for keys refuses them. -/
theorem canActivate_of_noApiKey {user : RequestUser} (addressAllowed : Bool)
    (protected' : route.isPublic = false) (closed : route.noApiKey = true) :
    (canActivate route ⟨user, .apiKey⟩ addressAllowed).isOk = false := by
  unfold canActivate
  cases user.isAdmin <;> cases addressAllowed <;> cases requireAdmin route ⟨user, .apiKey⟩ <;>
    simp [protected', closed, Except.isOk, Except.toBool, bind, Except.bind, throw, throwThe,
      MonadExceptOf.throw]

end Undecorated

end AmberBackup
