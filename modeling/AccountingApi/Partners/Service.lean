import AccountingApi.Ledger.Accounts

/-!
# The business partners service

Customers and vendors. A partner is read, checked and written in separate statements: an update merges
what the request supplies with the row it has read to check the roles, then writes the supplied fields
alone.

## Main definitions

* `BusinessPartner`, `Db`, `Program`: the table and the programs over it
* `BusinessPartnersService.create`, `update`, `deactivate`, `softDelete`
* `Request`, `code`: the requests and their programs
* `Server`, `Commit`: the servers that run them
-/

namespace AccountingApi.Partners

open ReadCommitted

/-! ## The table -/

structure BusinessPartner where
  code : String
  name : String
  npwp : Option String
  email : Option String
  phone : Option String
  address : Option String
  isCustomer : Bool
  isVendor : Bool
  isActive : Bool
  deletedAt : Option Timestamp
  deletedBy : Option Uuid
deriving DecidableEq

/-- The primary keys. -/
inductive Key where
  | partner (id : Uuid)
deriving DecidableEq

/-- The row under a key. -/
@[reducible] def Row : Key → Type
  | .partner _ => BusinessPartner

/-- The locks that are no row locks: the entries of the unique index on the codes. -/
inductive LockName where
  | code (code : String)
deriving DecidableEq

/-- The queries a request makes. -/
inductive Query where
  | partner
  | partnerByCode
deriving DecidableEq

/-- The database. -/
abbrev Db := Store Row

/-- A program over the database. -/
abbrev Program (α : Type) := Prog Row LockName Query Failure α

namespace Db

variable (db : Db)

def partner (id : Uuid) : Option BusinessPartner := db.row (.partner id)

/-- A partner that is not soft-deleted. -/
def livePartner (id : Uuid) : Option BusinessPartner :=
  (Db.partner db id).filter (·.deletedAt.isNone)

/-- The partners with the code, with their keys; deleted ones count for the unique index. -/
def partnersWithCode (code : String) : List (Uuid × BusinessPartner) :=
  db.collect fun
    | .partner id, p => if p.code = code then some (id, p) else none

end Db

/-! ## Statements -/

/-- A plain read, labelled by what it reads. -/
def select (q : Query) : Program Db := Prog.query q

/-- The lock of the row a statement writes. -/
def forUpdate (id : Uuid) : Program Db := Prog.lock (.row (.partner id)) .exclusive

/-- The unique index on the codes: one transaction at a time writes a code, and it is not that of
another partner. -/
def uniqueCode (id : Uuid) (code : String) : Program Unit := do
  let db ← Prog.lock (.named (.code code)) .exclusive
  Prog.ensure (∀ x ∈ Db.partnersWithCode db code, x.1 = id) .uniqueViolation

/-- `INSERT` of a partner. -/
def insertPartner (id : Uuid) (p : BusinessPartner) : Program Unit := do
  let db ← forUpdate id
  Prog.ensure ((Db.partner db id).isNone = true) .uniqueViolation
  Prog.write (.partner id) p
  uniqueCode id p.code

/-- `UPDATE … WHERE id = … AND deleted_at IS NULL` of a partner, which is returned. -/
def updatePartner (id : Uuid) (f : BusinessPartner → BusinessPartner) : Program BusinessPartner := do
  let db ← forUpdate id
  let p ← Prog.orThrow (Db.livePartner db id) .recordNotFound
  Prog.write (.partner id) (f p)
  pure (f p)

/-! ## The service -/

structure CreatePartnerInput where
  code : String
  name : String
  npwp : Option String
  email : Option String
  phone : Option String
  address : Option String
  isCustomer : Option Bool
  isVendor : Option Bool

structure UpdatePartnerInput where
  name : Option String
  npwp : Option String
  email : Option String
  phone : Option String
  address : Option String
  isCustomer : Option Bool
  isVendor : Option Bool
  isActive : Option Bool

/-- The partner with the fields the request supplies. -/
def UpdatePartnerInput.apply (input : UpdatePartnerInput) (p : BusinessPartner) : BusinessPartner :=
  { p with
    name := input.name.getD p.name
    npwp := input.npwp.or p.npwp
    email := input.email.or p.email
    phone := input.phone.or p.phone
    address := input.address.or p.address
    isCustomer := input.isCustomer.getD p.isCustomer
    isVendor := input.isVendor.getD p.isVendor
    isActive := input.isActive.getD p.isActive }

namespace BusinessPartnersService

/-- One of the flags is supplied and true. -/
def assertRole (isCustomer isVendor : Option Bool) : Program Unit :=
  Prog.ensure (isCustomer = some true ∨ isVendor = some true)
    (.validationFailed "A partner must be a customer and/or a vendor" [])

/-- The row of a new partner. -/
def newPartner (input : CreatePartnerInput) : BusinessPartner where
  code := input.code
  name := input.name
  npwp := input.npwp
  email := input.email
  phone := input.phone
  address := input.address
  isCustomer := input.isCustomer.getD false
  isVendor := input.isVendor.getD false
  isActive := true
  deletedAt := none
  deletedBy := none

def codeExists (code : String) : Failure :=
  .conflict "Partner code already exists" [("code", .text code)]

def create (input : CreatePartnerInput) (newId : Uuid) : Program BusinessPartner := do
  assertRole input.isCustomer input.isVendor
  let db ← select .partnerByCode
  Prog.ensure (∀ x ∈ Db.partnersWithCode db input.code, x.2.deletedAt ≠ none) (codeExists input.code)
  (Prog.transaction (insertPartner newId (newPartner input))).mapThrow
    (Failure.mapUnique (codeExists input.code))
  pure (newPartner input)

def findById (id : Uuid) : Program BusinessPartner := do
  let db ← select .partner
  Prog.orThrow (Db.livePartner db id) (.notFound "Partner not found" [("id", .id id)])

def update (id : Uuid) (input : UpdatePartnerInput) : Program BusinessPartner := do
  let current ← findById id
  let isCustomer := input.isCustomer.getD current.isCustomer
  let isVendor := input.isVendor.getD current.isVendor
  assertRole (some isCustomer) (some isVendor)
  Prog.transaction (updatePartner id input.apply)

def deactivate (id : Uuid) : Program BusinessPartner := do
  let _ ← findById id
  Prog.transaction (updatePartner id fun p => { p with isActive := false })

/-- The row of a deleted partner: its code, as the request has read it, gets a suffix. -/
def tombstone (id : Uuid) (code : String) (deletedBy : Uuid) (now : Timestamp) (p : BusinessPartner) :
    BusinessPartner :=
  { p with
    code := tombstoneValue code id, deletedAt := some now, deletedBy := some deletedBy }

def softDelete (id deletedBy : Uuid) (now : Timestamp) : Program Unit := do
  let p ← findById id
  Prog.transaction do
    let _ ← updatePartner id (tombstone id p.code deletedBy now)
    uniqueCode id (tombstoneValue p.code id)

end BusinessPartnersService

/-! ## Requests -/

/-- A call of the service. -/
inductive Request where
  | create (input : CreatePartnerInput) (newId : Uuid)
  | update (id : Uuid) (input : UpdatePartnerInput)
  | deactivate (id : Uuid)
  | softDelete (id deletedBy : Uuid) (now : Timestamp)

/-- What a request that succeeds answers with. -/
inductive Response where
  | partner (p : BusinessPartner)
  | noContent

/-- A program's value as the answer. -/
def respond {α : Type} (f : α → Response) (p : Program α) : Program Response := do
  let a ← p
  pure (f a)

/-- The program of a request. -/
def code : Request → Program Response
  | .create input newId => respond .partner (BusinessPartnersService.create input newId)
  | .update id input => respond .partner (BusinessPartnersService.update id input)
  | .deactivate id => respond .partner (BusinessPartnersService.deactivate id)
  | .softDelete id deletedBy now =>
    respond (fun _ => .noContent) (BusinessPartnersService.softDelete id deletedBy now)

/-- The servers that run these requests. -/
abbrev Server := ReadCommitted.Server Row LockName Query Failure Response Request

/-- A commit of such a server. -/
abbrev Commit := ReadCommitted.Commit Row LockName Query Request

end AccountingApi.Partners
