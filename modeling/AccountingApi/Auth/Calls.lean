import AccountingApi.Auth.Guards
import AccountingApi.Auth.LastAdmin
import AccountingApi.ReadCommitted.Admission

/-!
# The calls of the user administration and of the sessions

A call reaches a service through its handler, once the guards have let it in; the handler passes the
authenticated user on where the service acts on his behalf. Between the guards and the service, and in the
midst of the service, other requests commit.

## Main definitions

* `AuthController`, `UserAdminController`: the handlers
* `Request.origin`, `Request.caller`: where a request comes from, and on whose behalf
* `Call`, `Admits`: the calls, and which of them come in

## Main results

* `admits_handler`, `admits_admin`: who has made a call that came in
-/

namespace AccountingApi.Auth

open ReadCommitted

/-! ## Handlers -/

namespace AuthController

def metadata : Metadata := .plain

def login : Handler := ⟨Public .plain, metadata⟩

def refresh : Handler := ⟨Public .plain, metadata⟩

def logout : Handler := ⟨Public (AllowWithPendingPassword .plain), metadata⟩

def logoutAll : Handler := ⟨AllowWithPendingPassword .plain, metadata⟩

def changePassword : Handler := ⟨AllowWithPendingPassword .plain, metadata⟩

end AuthController

namespace UserAdminController

def metadata : Metadata := Roles [.admin] .plain

def create : Handler := ⟨.plain, metadata⟩

def update : Handler := ⟨.plain, metadata⟩

def resetPassword : Handler := ⟨.plain, metadata⟩

def remove : Handler := ⟨.plain, metadata⟩

end UserAdminController

/-! ## Calls -/

/-- Where a request comes from. -/
inductive Origin where
  | handler (h : Handler)
  /-- The job that purges expired tokens every night. -/
  | scheduler
  /-- A part of other requests, never one of its own. -/
  | service

def Request.origin : Request → Origin
  | .login _ _ _ _ _ => .handler AuthController.login
  | .refresh _ _ _ _ _ => .handler AuthController.refresh
  | .logout _ _ => .handler AuthController.logout
  | .logoutAll _ _ => .handler AuthController.logoutAll
  | .changePassword _ _ _ _ => .handler AuthController.changePassword
  | .createUser _ _ _ => .handler UserAdminController.create
  | .updateUser _ _ _ _ => .handler UserAdminController.update
  | .resetPassword _ _ _ => .handler UserAdminController.resetPassword
  | .removeUser _ _ _ _ => .handler UserAdminController.remove
  | .purgeExpired _ _ => .scheduler
  | .issue _ _ _ _ => .service
  | .rotate _ _ _ _ _ _ => .service
  | .revokeFamilyByJti _ _ => .service
  | .revokeAllForUser _ _ => .service

/-- The user a handler passes on as the one who calls it. -/
def Request.caller : Request → Option Uuid
  | .logoutAll userId _ => some userId
  | .changePassword id _ _ _ => some id
  | .updateUser actorId _ _ _ => some actorId
  | .removeUser actorId _ _ _ => some actorId
  | _ => none

/-- A request with the access token it comes with and the user the guards attach to it. -/
structure Call where
  request : Request
  bearer : Option JwtPayload
  user : Option AuthenticatedUser

/-- The call comes in: the guards of its handler attach the user, who is passed on. -/
def Admits (db : Db) (c : Call) : Prop :=
  match c.request.origin with
  | .handler h => canActivate db h c.bearer = .ok c.user ∧
      ∀ id ∈ c.request.caller, c.user.map (·.id) = some id
  | .scheduler => c.user = none
  | .service => False

instance (db : Db) (c : Call) : Decidable (Admits db c) := by
  unfold Admits
  split <;> infer_instance

/-- The servers that run these calls. -/
abbrev CallServer := ReadCommitted.Server Row LockName Query Failure Response Call

/-- A commit of such a server. -/
abbrev CallCommit := ReadCommitted.Commit Row LockName Query Call

/-- The user is an administrator who may use the API: in office, and without a temporary password. -/
def Administers (db : Db) (id : Uuid) : Prop :=
  ∃ u, Db.user db id = some u ∧ u.InAdminPool ∧ u.mustChangePassword = false

theorem AuthenticatedUser.InOffice.user {db : Db} {user : AuthenticatedUser} (h : user.InOffice db) :
    ∃ u, Db.user db user.id = some u ∧ u.deletedAt = none ∧ u.isActive = true ∧ u.role = user.role ∧
      u.mustChangePassword = user.mustChangePassword := by
  obtain ⟨u, hu, hactive, huser⟩ := h
  obtain ⟨hu, hlive⟩ := Option.filter_eq_some_iff.mp hu
  exact ⟨u, hu, Option.isNone_iff_eq_none.mp hlive, hactive, by rw [huser], by rw [huser]⟩

/-- **Who has made a call that came in**: where its handler is not public, a user in office with a role
the handler requires, who has no temporary password unless the handler allows it. -/
theorem admits_handler {db : Db} {c : Call} {h : Handler} (hc : Admits db c)
    (hhandler : c.request.origin = .handler h) (hpublic : h.isPublic = false) :
    ∃ user, c.user = some user ∧ user.InOffice db ∧ (h.required = [] ∨ user.role ∈ h.required) ∧
      (user.mustChangePassword = true → h.allowsPendingPassword = true) ∧
      ∀ id ∈ c.request.caller, user.id = id := by
  rw [Admits, hhandler] at hc
  obtain ⟨hok, hcaller⟩ := hc
  cases huser : c.user with
  | none =>
    rw [huser, canActivate_none, hpublic] at hok
    cases hok
  | some user =>
    rw [huser] at hok hcaller
    obtain ⟨-, -, hoffice, hroles, hpending⟩ := canActivate_some.mp hok
    exact ⟨user, rfl, hoffice, hroles, hpending, fun id hid => Option.some.inj (hcaller id hid)⟩

/-- The calls of the user administration are those of administrators. -/
theorem admits_admin {db : Db} {c : Call} {h : Handler} (hc : Admits db c)
    (hhandler : c.request.origin = .handler h) (hcontroller : h = ⟨.plain, UserAdminController.metadata⟩) :
    ∃ user, c.user = some user ∧ Administers db user.id ∧ ∀ id ∈ c.request.caller, user.id = id := by
  subst hcontroller
  obtain ⟨user, huser, hoffice, hroles, hpending, hcaller⟩ := admits_handler hc hhandler rfl
  refine ⟨user, huser, ?_, hcaller⟩
  obtain ⟨u, hu, hlive, hactive, hrole, hflag⟩ := hoffice.user
  have hadmin : user.role = .admin := by
    rcases hroles with hnone | hmem
    · cases hnone
    · exact List.mem_singleton.mp hmem
  refine ⟨u, hu, ⟨hrole.trans hadmin, hactive, hlive⟩, hflag.trans ?_⟩
  cases hflag' : user.mustChangePassword with
  | false => rfl
  | true => cases hpending hflag'

end AccountingApi.Auth
