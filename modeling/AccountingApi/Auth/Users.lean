import AccountingApi.Auth.RefreshTokens

/-!
# User administration

Administrators create, change, reset and remove users. What could take the last active administrator
away is serialized by an advisory lock.

## Main definitions

* `UsersService.create`, `changePassword`
* `UserAdminService.createWithTempPassword`, `update`, `resetPassword`, `remove`
* `AuthService.changePassword`
-/

namespace AccountingApi.Auth

open ReadCommitted

/-- Free a unique value for reuse while the row is soft-deleted. -/
def tombstoneValue (value : String) (id : Uuid) : String := s!"{value}#deleted-{id}"

/-- A user as the API shows it, without the hash of the password. -/
structure UserResponse where
  id : Uuid
  email : String
  name : String
  role : Role
  isActive : Bool
  mustChangePassword : Bool
deriving DecidableEq

def toUserResponse (id : Uuid) (u : User) : UserResponse :=
  ⟨id, u.email, u.name, u.role, u.isActive, u.mustChangePassword⟩

structure CreateUserDto where
  email : String
  name : String
  role : Role

structure UpdateUserDto where
  name : Option String
  role : Option Role
  isActive : Option Bool

/-- The user with the fields the request supplies. -/
def UpdateUserDto.apply (dto : UpdateUserDto) (u : User) : User :=
  { u with
    name := dto.name.getD u.name
    role := dto.role.getD u.role
    isActive := dto.isActive.getD u.isActive }

namespace UsersService

/-- `passwordHash` is the hash of the password. -/
def create (dto : CreateUserDto) (passwordHash : String) (mustChangePassword : Bool) (newId : Uuid) :
    Program User := do
  let failure := Failure.conflict "A user with this email already exists" [("email", .text dto.email)]
  let db ← select .userByEmail
  Prog.ensure (∀ x ∈ Db.usersWithEmail db dto.email, x.2.deletedAt ≠ none) failure
  let user : User := ⟨dto.email, passwordHash, dto.name, dto.role, true, mustChangePassword, none, none⟩
  (Prog.transaction (insertUser newId user)).mapThrow (Failure.mapUnique failure)
  pure user

/-- `verify` says which stored hashes the current password matches. -/
def changePassword (id : Uuid) (verify : String → Bool) (newHash : String) : Program Unit := do
  let db ← select .user
  let user := (Db.liveUser db id).filter fun u => verify u.passwordHash
  Prog.ensure (user.isSome = true) (.http 401 "Current password is incorrect")
  let _ ← Prog.transaction (updateUser id (fun u => u.deletedAt = none)
    fun u => { u with passwordHash := newHash, mustChangePassword := false })
  pure ()

end UsersService

/-- Change the own password, then revoke all sessions. -/
def AuthService.changePassword (id : Uuid) (verify : String → Bool) (newHash : String)
    (scan : ScanOrder Key) : Program Unit := do
  UsersService.changePassword id verify newHash
  RefreshTokenService.revokeAllForUser id scan

namespace UserAdminService

def createWithTempPassword (dto : CreateUserDto) (passwordHash : String) (newId : Uuid) :
    Program UserResponse := do
  let user ← UsersService.create dto passwordHash true newId
  pure (toUserResponse newId user)

/-- The request takes an active administrator out of the pool. -/
def leavesAdminPool (dto : UpdateUserDto) (u : User) : Prop :=
  u.role = .admin ∧ u.isActive = true ∧
    ((∃ role ∈ dto.role, role ≠ .admin) ∨ dto.isActive = some false)

instance (dto : UpdateUserDto) (u : User) : Decidable (leavesAdminPool dto u) :=
  inferInstanceAs (Decidable (_ ∧ _))

/-- The advisory lock, and the user it is about. -/
def lockTarget (id : Uuid) : Program User := do
  let _ ← Prog.lock (.named .userAdmin) .exclusive
  let db ← select .user
  Prog.orThrow (Db.liveUser db id) (.notFound "User not found" [("id", .id id)])

/-- Another active administrator is left. -/
def assertOtherAdmin (id : Uuid) : Program Unit := do
  let db ← select .otherAdmins
  Prog.ensure (Db.otherAdmins db id ≠ [])
    (.validationFailed "Cannot remove the last active ADMIN" [("id", .id id)])

def update (actorId id : Uuid) (dto : UpdateUserDto) (scan : ScanOrder Key) :
    Program UserResponse := do
  Prog.ensure (¬ (id = actorId ∧ dto.role ≠ none))
    (.validationFailed "You cannot change your own role" [("id", .id id)])
  Prog.ensure (¬ (id = actorId ∧ dto.isActive = some false))
    (.validationFailed "You cannot deactivate yourself" [("id", .id id)])
  let updated ← Prog.transaction do
    let target ← lockTarget id
    Prog.when (leavesAdminPool dto target) (assertOtherAdmin id)
    updateUser id (fun _ => True) dto.apply
  Prog.when (dto.role ≠ none ∨ dto.isActive ≠ none) (RefreshTokenService.revokeAllForUser id scan)
  pure (toUserResponse id updated)

def resetPassword (id : Uuid) (passwordHash : String) (scan : ScanOrder Key) :
    Program UserResponse := do
  let updated ← (Prog.transaction (updateUser id (fun u => u.deletedAt = none)
    fun u => { u with passwordHash := passwordHash, mustChangePassword := true })).mapThrow
      fun e => if e = .recordNotFound then .notFound "User not found" [("id", .id id)] else e
  RefreshTokenService.revokeAllForUser id scan
  pure (toUserResponse id updated)

/-- The user soft-deleted, the email address free for reuse. -/
def removed (id actorId : Uuid) (email : String) (now : Timestamp) (u : User) : User :=
  { u with email := tombstoneValue email id, deletedAt := some now, deletedBy := some actorId }

def remove (actorId id : Uuid) (scan : ScanOrder Key) (now : Timestamp) : Program Unit := do
  Prog.ensure (id ≠ actorId) (.validationFailed "You cannot delete yourself" [("id", .id id)])
  let _ ← Prog.transaction do
    let target ← lockTarget id
    Prog.when (target.role = .admin ∧ target.isActive = true) (assertOtherAdmin id)
    let _ ← updateUser id (fun _ => True) (removed id actorId target.email now)
    claimEmail (tombstoneValue target.email id) id
  RefreshTokenService.revokeAllForUser id scan

end UserAdminService

end AccountingApi.Auth
