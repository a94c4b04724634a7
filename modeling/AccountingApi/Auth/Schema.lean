import AccountingApi.Errors
import AccountingApi.ReadCommitted.Table
import AccountingApi.ReadCommitted.Update

/-!
# Users and refresh tokens

The tables of the user administration and of the sessions. Users are deleted softly and keep their
row; an expired refresh token is deleted for good, which leaves its key without a token.

## Main definitions

* `User`, `RefreshToken`: the rows
* `Key`, `Row`: the two tables with their primary keys
* `User.InAdminPool`: the active administrators
* `Db`, `Program`: the stores of these tables and the programs over them
-/

namespace AccountingApi.Auth

open ReadCommitted

inductive Role where
  | viewer | accountant | approver | admin
deriving DecidableEq

inductive RefreshTokenStatus where
  | active | consumed | revoked
deriving DecidableEq

structure User where
  email : String
  passwordHash : String
  name : String
  role : Role
  isActive : Bool
  mustChangePassword : Bool
  deletedAt : Option Timestamp
  deletedBy : Option Uuid
deriving DecidableEq

/-- An active administrator that is not deleted. -/
def User.InAdminPool (u : User) : Prop := u.role = .admin ∧ u.isActive = true ∧ u.deletedAt = none

instance (u : User) : Decidable u.InAdminPool := inferInstanceAs (Decidable (_ ∧ _))

structure RefreshToken where
  userId : Uuid
  familyId : Uuid
  status : RefreshTokenStatus
  expiresAt : Timestamp
  consumedAt : Option Timestamp
  replacedById : Option Uuid
deriving DecidableEq

/-! ## Tables -/

/-- The primary keys. -/
inductive Key where
  | user (id : Uuid)
  | refreshToken (id : Uuid)
deriving DecidableEq

/-- The row under a key. -/
@[reducible] def Row : Key → Type
  | .user _ => User
  | .refreshToken _ => Option RefreshToken

/-- The locks that are no row locks: the advisory lock of the user administration, and the entries of
the unique index on email addresses. -/
inductive LockName where
  | userAdmin
  | email (email : String)
deriving DecidableEq

/-- The queries a request makes. -/
inductive Query where
  | user
  | userByEmail
  | otherAdmins
  | refreshToken
  | refreshTokens
deriving DecidableEq

/-- The database. -/
abbrev Db := Store Row

/-- A program over the database. -/
abbrev Program (α : Type) := Prog Row LockName Query Failure α

namespace Db

variable (db : Db)

def user (id : Uuid) : Option User := db.row (.user id)

/-- A user that is not soft-deleted. -/
def liveUser (id : Uuid) : Option User := (Db.user db id).filter (·.deletedAt.isNone)

def refreshToken (id : Uuid) : Option RefreshToken := (db.row (.refreshToken id)).join

/-- The users with the email address, with their keys; deleted ones count for the unique index. -/
def usersWithEmail (email : String) : List (Uuid × User) :=
  db.collect fun
    | .user id, u => if u.email = email then some (id, u) else none
    | .refreshToken _, _ => none

/-- The active administrators but for one user. -/
def otherAdmins (id : Uuid) : List Uuid :=
  db.collect fun
    | .user id', u => if u.InAdminPool ∧ id' ≠ id then some id' else none
    | .refreshToken _, _ => none

end Db

/-! ## Statements -/

/-- A plain read, labelled by what it reads. -/
def select (q : Query) : Program Db := Prog.query q

/-- `SELECT … FOR UPDATE` of the row under a key; other statements lock a row they write likewise. -/
def forUpdate (k : Key) : Program Db := Prog.lock (.row k) .exclusive

/-- The unique index on email addresses: one transaction at a time writes an address, and it is not
that of another user. -/
def claimEmail (email : String) (id : Uuid) : Program Unit := do
  let db ← Prog.lock (.named (.email email)) .exclusive
  Prog.ensure (∀ x ∈ Db.usersWithEmail db email, x.1 = id) .uniqueViolation

/-- `INSERT` of a user. -/
def insertUser (id : Uuid) (u : User) : Program Unit := do
  let db ← forUpdate (.user id)
  Prog.ensure ((Db.user db id).isNone = true) .uniqueViolation
  Prog.write (.user id) u
  claimEmail u.email id

/-- `UPDATE … WHERE id = …` of a user that meets the condition, who is returned. -/
def updateUser (id : Uuid) (p : User → Prop) [DecidablePred p] (f : User → User) : Program User := do
  let db ← forUpdate (.user id)
  let u ← Prog.orThrow ((Db.user db id).filter fun u => p u) .recordNotFound
  Prog.write (.user id) (f u)
  pure (f u)

/-- `INSERT` of a refresh token. -/
def insertToken (id : Uuid) (t : RefreshToken) : Program Unit := do
  let db ← forUpdate (.refreshToken id)
  Prog.ensure ((Db.refreshToken db id).isNone = true) .uniqueViolation
  Prog.write (.refreshToken id) (some t)

/-- The rows of the tokens that meet a condition. -/
def tokensWhere (p : RefreshToken → Bool) : (k : Key) → Row k → Bool
  | .user _, _ => false
  | .refreshToken _, t => t.any p

/-- The change of a token's row. -/
def onTokens (f : RefreshToken → Option RefreshToken) : (k : Key) → Row k → Row k
  | .user _, u => u
  | .refreshToken _, t => t.bind f

/-- `UPDATE refresh_tokens SET … WHERE …`, or `DELETE` where `f` has no value. -/
def updateTokens (scan : ScanOrder Key) (p : RefreshToken → Bool)
    (f : RefreshToken → Option RefreshToken) : Program ℕ :=
  Prog.updateWhere .refreshTokens scan (tokensWhere p) (onTokens f)

end AccountingApi.Auth
