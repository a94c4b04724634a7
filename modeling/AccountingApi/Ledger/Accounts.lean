import AccountingApi.Client

/-!
# The accounts service

The chart of accounts. An account is created by one insert and deleted by one update, each after
checks on plain reads. A deleted account keeps its row; its code gets a suffix, so that the code can
be used again.

## Main definitions

* `AccountType.subtypes`: the subtypes of each type
* `Accounts.create`, `Accounts.update`, `Accounts.deactivate`, `Accounts.softDelete`
-/

namespace AccountingApi

open ReadCommitted

/-- The subtypes that go with a type. -/
def AccountType.subtypes : AccountType → List AccountSubtype
  | .asset =>
    [.currentAsset, .nonCurrentAsset, .fixedAsset, .accumulatedDepreciation, .taxReceivable]
  | .liability => [.currentLiability, .nonCurrentLiability, .taxPayable]
  | .equity => [.equity]
  | .revenue => [.revenue, .otherIncome]
  | .expense => [.cogs, .operatingExpense, .otherExpense]

/-- The value of a unique column once its row is deleted, so that it can be used again. -/
def tombstoneValue (value : String) (id : Uuid) : String := value ++ "#deleted-" ++ toString id

namespace Accounts

structure CreateInput where
  code : String
  name : String
  type : AccountType
  subtype : AccountSubtype
  normalBalance : NormalBalance
  cashFlowCategory : Option CashFlowCategory
  role : Option AccountRole
  isPostable : Option Bool
  parentCode : Option String

structure UpdateInput where
  name : Option String
  cashFlowCategory : Option CashFlowCategory
  isActive : Option Bool

def findById (id : Uuid) : Program Account := do
  let db ← select .account
  Prog.orThrow (Db.liveAccount db id) (.notFound "Account not found" [("id", .id id)])

/-! ## Creation -/

def codeExists (code : String) : Failure :=
  .conflict "Account code already exists" [("code", .text code)]

/-- Every role but cash is held by one account at most. -/
def isSingleton (role : Option AccountRole) : Bool :=
  role.isSome && role ≠ some .cash

/-- No account holds the role, unless it is one that many accounts may hold. -/
def assertRoleFree (role : Option AccountRole) : Program Unit :=
  Prog.when (isSingleton role = true) do
    let db ← select .account
    Prog.ensure (∀ a ∈ Db.accounts db, a.2.role ≠ role)
      (.conflict "That account role is already assigned"
        [("role", .text ((role.map (·.name)).getD "null"))])

/-- The header an account goes under. -/
def resolveParent : Option String → Program (Option Uuid)
  | none => pure none
  | some parentCode => do
    let db ← select .account
    let parent ← Prog.orThrow ((Db.accounts db).find? fun a => a.2.code = parentCode)
      (.validationFailed "Parent account not found" [("parentCode", .text parentCode)])
    Prog.ensure (parent.2.isPostable = false)
      (.validationFailed "Parent account must be a non-postable header"
        [("parentCode", .text parentCode)])
    pure (some parent.1)

/-- The row of a new account. -/
def newAccount (input : CreateInput) (parentId : Option Uuid) : Account where
  code := input.code
  name := input.name
  type := input.type
  subtype := input.subtype
  cashFlowCategory := input.cashFlowCategory.getD .none
  role := input.role
  normalBalance := input.normalBalance
  parentId := parentId
  isPostable := input.isPostable.getD true
  isActive := true
  deletedAt := none
  deletedBy := none

/-- The unique index on the codes: it waits for an uncommitted use of the same code by another
account. -/
def uniqueCode (id : Uuid) (code : String) : Program Unit := do
  let db ← lockName (.accountCode code) .exclusive
  Prog.ensure (∀ other ∈ Db.accountsWithCode db code, other = id) .uniqueViolation

/-- The unique index on the roles that one account at most may hold. -/
def uniqueRole (id : Uuid) : Option AccountRole → Program Unit
  | none => pure ()
  | some role => Prog.when (isSingleton (some role) = true) do
    let db ← lockName (.accountRole role) .exclusive
    Prog.ensure (∀ other ∈ Db.accountsWithRole db role, other = id) .uniqueViolation

def create (input : CreateInput) (id : Uuid) : Program Account := do
  Prog.ensure (input.subtype ∈ input.type.subtypes)
    (.validationFailed
      ("Subtype " ++ input.subtype.name ++ " is not valid for account type " ++ input.type.name)
      [("type", .text input.type.name), ("subtype", .text input.subtype.name)])
  let db ← select .account
  Prog.ensure (∀ a ∈ Db.accounts db, a.2.code ≠ input.code) (codeExists input.code)
  assertRoleFree input.role
  -- an empty parent code counts as none
  let parentId ← resolveParent (input.parentCode.filter fun code => code ≠ "")
  let account := newAccount input parentId
  mapUniqueViolation (codeExists input.code) <| transaction do
    insert (.account id) account True
    uniqueCode id account.code
    uniqueRole id account.role
    pure account

/-! ## Changes -/

/-- One update of an account that is not deleted. -/
def updateAccount (id : Uuid) (f : Account → Account) : Program Account :=
  updateRow (.account id) (fun a => a.deletedAt = none) f fun _ => True

/-- The fields that are given replace those of the account. -/
def applyUpdate (input : UpdateInput) (a : Account) : Account :=
  { a with
    name := input.name.getD a.name
    cashFlowCategory := input.cashFlowCategory.getD a.cashFlowCategory
    isActive := input.isActive.getD a.isActive }

def update (id : Uuid) (input : UpdateInput) : Program Account := do
  let _ ← findById id
  transaction (updateAccount id (applyUpdate input))

def deactivate (id : Uuid) : Program Account := do
  let _ ← findById id
  transaction (updateAccount id (applyUpdate ⟨none, none, some false⟩))

/-- The row of a deleted account: its code, as the request has read it, gets a suffix. -/
def tombstone (id : Uuid) (code : String) (deletedBy : Uuid) (now : Timestamp) (a : Account) :
    Account :=
  { a with
    code := tombstoneValue code id, deletedAt := some now, deletedBy := some deletedBy }

def softDelete (id deletedBy : Uuid) (now : Timestamp) : Program Unit := do
  let account ← findById id
  let db ← select .postedLines
  Prog.ensure (Db.postedLines db id = 0)
    (.validationFailed "Cannot delete an account with posted lines; deactivate instead"
      [("id", .id id)])
  transaction do
    let _ ← updateAccount id (tombstone id account.code deletedBy now)
    uniqueCode id (tombstoneValue account.code id)

end Accounts

end AccountingApi
