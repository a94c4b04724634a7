import AccountingApi.Auth.Schema

/-!
# The guards

Every call of a handler passes three guards: the caller is authenticated by his bearer token and looked up
among the users, he has one of the roles the handler requires, and he has no temporary password, unless
the handler is one he may call with it. What a handler requires is said by decorators, on the handler
itself or on its controller. The rate limit between the first two guards only turns more calls away.

## Main definitions

* `Metadata`, `Handler`: what the decorators say
* `JwtStrategy.validate`: the caller as he is stored
* `JwtAuthGuard.canActivate`, `RolesGuard.canActivate`, `PasswordChangeGuard.canActivate`
* `canActivate`: the guards in their order

## Main results

* `canActivate_some`: whom the guards let in
-/

namespace AccountingApi.Auth

/-! ## Decorators -/

/-- The metadata of a handler or of a controller. -/
structure Metadata where
  isPublic : Option Bool := none
  roles : Option (List Role) := none
  allowWithPendingPassword : Option Bool := none

def Metadata.plain : Metadata := {}

def Public (m : Metadata) : Metadata := { m with isPublic := some true }

def Roles (roles : List Role) (m : Metadata) : Metadata := { m with roles := some roles }

def AllowWithPendingPassword (m : Metadata) : Metadata :=
  { m with allowWithPendingPassword := some true }

/-- A handler with its own metadata and that of its controller. -/
structure Handler where
  handler : Metadata
  controller : Metadata

/-- The metadata under a key: the handler's own, or else that of its controller. -/
def getAllAndOverride {α : Type} (key : Metadata → Option α) (h : Handler) : Option α :=
  (key h.handler).or (key h.controller)

namespace Handler

variable (h : Handler)

def isPublic : Bool := (getAllAndOverride Metadata.isPublic h).getD false

/-- The roles of whom may call the handler; none means that anybody may. -/
def required : List Role := (getAllAndOverride Metadata.roles h).getD []

def allowsPendingPassword : Bool := (getAllAndOverride Metadata.allowWithPendingPassword h).getD false

end Handler

/-! ## Guards -/

/-- What an access token carries. Only the subject is used: the role is that of the stored user. -/
structure JwtPayload where
  sub : Option Uuid
  email : String
  role : Role

structure AuthenticatedUser where
  id : Uuid
  email : String
  role : Role
  mustChangePassword : Bool
deriving DecidableEq

/-- What a guard turns a call away with. -/
inductive GuardError where
  /-- The exception of the web framework. -/
  | unauthenticated
  | unauthorized (message : String)
  | forbidden (message : String) (required : List Role) (actual : Role)
  | passwordChangeRequired (message : String)
deriving DecidableEq

/-- The user as he is stored, whatever the token says of him. -/
def JwtStrategy.validate (db : Db) (payload : JwtPayload) : Except GuardError AuthenticatedUser :=
  match payload.sub with
  | none => .error .unauthenticated
  | some id =>
    match Db.liveUser db id with
    | none => .error .unauthenticated
    | some user =>
      if user.isActive = true then .ok ⟨id, user.email, user.role, user.mustChangePassword⟩
      else .error .unauthenticated

/-- `bearer` is what the access token of the call was found to carry, if its signature and its expiry are
in order. -/
def JwtAuthGuard.canActivate (db : Db) (h : Handler) (bearer : Option JwtPayload) :
    Except GuardError (Option AuthenticatedUser) :=
  if h.isPublic = true then .ok none
  else match bearer with
    | none => .error .unauthenticated
    | some payload => (JwtStrategy.validate db payload).map some

def RolesGuard.canActivate (h : Handler) (user : Option AuthenticatedUser) : Except GuardError Unit :=
  if h.isPublic = true then .ok ()
  else if h.required = [] then .ok ()
  else match user with
    | none => .error (.unauthorized "Authentication required")
    | some user =>
      if user.role ∈ h.required then .ok ()
      else .error (.forbidden "Insufficient role" h.required user.role)

def PasswordChangeGuard.canActivate (h : Handler) (user : Option AuthenticatedUser) :
    Except GuardError Unit :=
  if user.any (·.mustChangePassword) = false then .ok ()
  else if h.allowsPendingPassword = true then .ok ()
  else .error (.passwordChangeRequired "Password change required before using the API")

/-- The guards of every call, with the user they attach to it. -/
def canActivate (db : Db) (h : Handler) (bearer : Option JwtPayload) :
    Except GuardError (Option AuthenticatedUser) := do
  let user ← JwtAuthGuard.canActivate db h bearer
  RolesGuard.canActivate h user
  PasswordChangeGuard.canActivate h user
  pure user

/-! ## Whom the guards let in -/

section Guards

variable {db : Db} {h : Handler} {bearer : Option JwtPayload} {user : AuthenticatedUser}

/-- The user is in office: stored, neither deleted nor deactivated, and as the call has him. -/
def AuthenticatedUser.InOffice (user : AuthenticatedUser) (db : Db) : Prop :=
  ∃ u, Db.liveUser db user.id = some u ∧ u.isActive = true ∧
    user = ⟨user.id, u.email, u.role, u.mustChangePassword⟩

theorem validate_ok {payload : JwtPayload} :
    JwtStrategy.validate db payload = .ok user ↔ payload.sub = some user.id ∧ user.InOffice db := by
  unfold JwtStrategy.validate
  constructor
  · intro hok
    split at hok
    · cases hok
    · rename_i id hsub
      split at hok
      · cases hok
      · rename_i u hu
        split at hok
        · rename_i hactive
          cases hok
          exact ⟨hsub, u, hu, hactive, rfl⟩
        · cases hok
  · rintro ⟨hsub, u, hu, hactive, huser⟩
    simp only [hsub, hu, if_pos hactive]
    exact congrArg Except.ok huser.symm

theorem jwtAuthGuard_ok {attached : Option AuthenticatedUser} :
    JwtAuthGuard.canActivate db h bearer = .ok attached ↔
      match attached with
      | none => h.isPublic = true
      | some user => h.isPublic = false ∧
          (∃ payload, bearer = some payload ∧ payload.sub = some user.id) ∧ user.InOffice db := by
  unfold JwtAuthGuard.canActivate
  cases hpublic : h.isPublic with
  | true => cases attached <;> simp
  | false =>
    cases bearer with
    | none => cases attached <;> simp
    | some payload =>
      rw [if_neg Bool.false_ne_true]
      cases attached with
      | none => cases hvalid : JwtStrategy.validate db payload <;> simp [Except.map, hvalid]
      | some user =>
        have hmap : (JwtStrategy.validate db payload).map some = .ok (some user) ↔
            JwtStrategy.validate db payload = .ok user := by
          cases JwtStrategy.validate db payload <;> simp [Except.map]
        simp only [hmap, validate_ok, Option.some.injEq, exists_eq_left', true_and]

theorem rolesGuard_ok (hpublic : h.isPublic = false) :
    RolesGuard.canActivate h (some user) = .ok () ↔ h.required = [] ∨ user.role ∈ h.required := by
  unfold RolesGuard.canActivate
  rw [if_neg (by rw [hpublic]; exact Bool.false_ne_true)]
  by_cases hany : h.required = []
  · simp [hany]
  · by_cases hrole : user.role ∈ h.required <;> simp [hany, hrole]

theorem passwordChangeGuard_ok : PasswordChangeGuard.canActivate h (some user) = .ok () ↔
    (user.mustChangePassword = true → h.allowsPendingPassword = true) := by
  unfold PasswordChangeGuard.canActivate
  cases hpending : user.mustChangePassword <;> cases hallows : h.allowsPendingPassword <;>
    simp [hpending]

/-- A call passes if it passes every guard. -/
theorem canActivate_ok {attached : Option AuthenticatedUser} :
    canActivate db h bearer = .ok attached ↔ JwtAuthGuard.canActivate db h bearer = .ok attached ∧
      RolesGuard.canActivate h attached = .ok () ∧
      PasswordChangeGuard.canActivate h attached = .ok () := by
  unfold canActivate
  cases hjwt : JwtAuthGuard.canActivate db h bearer with
  | error e => exact iff_of_false nofun fun hok => nomatch hok.1
  | ok attached' =>
    simp only [Bind.bind, Except.bind, Pure.pure, Except.pure, Except.ok.injEq]
    constructor
    · intro hok
      split at hok
      · cases hok
      · rename_i hroles
        split at hok
        · cases hok
        · rename_i hpassword
          cases hok
          exact ⟨rfl, hroles, hpassword⟩
    · rintro ⟨rfl, hroles, hpassword⟩
      rw [hroles, hpassword]

/-- Nobody is attached to a call of a public handler, and none is turned away. -/
theorem canActivate_none : canActivate db h bearer = .ok none ↔ h.isPublic = true := by
  rw [canActivate_ok, jwtAuthGuard_ok]
  refine ⟨fun hok => hok.1, fun hpublic => ⟨hpublic, ?_, rfl⟩⟩
  rw [RolesGuard.canActivate, if_pos hpublic]

/-- **Whom the guards let in**: the caller the token names, if he is in office with one of the roles the
handler requires, and has no temporary password unless the handler allows it. -/
theorem canActivate_some : canActivate db h bearer = .ok (some user) ↔
    h.isPublic = false ∧ (∃ payload, bearer = some payload ∧ payload.sub = some user.id) ∧
      user.InOffice db ∧ (h.required = [] ∨ user.role ∈ h.required) ∧
      (user.mustChangePassword = true → h.allowsPendingPassword = true) := by
  rw [canActivate_ok, jwtAuthGuard_ok, passwordChangeGuard_ok]
  constructor
  · rintro ⟨⟨hpublic, hbearer, hoffice⟩, hroles, hpassword⟩
    exact ⟨hpublic, hbearer, hoffice, (rolesGuard_ok hpublic).mp hroles, hpassword⟩
  · rintro ⟨hpublic, hbearer, hoffice, hroles, hpassword⟩
    exact ⟨⟨hpublic, hbearer, hoffice⟩, (rolesGuard_ok hpublic).mpr hroles, hpassword⟩

end Guards

end AccountingApi.Auth
