import AccountingApi.Schema

/-!
# The database client

The reads and writes the services make. Reads skip soft-deleted rows. An insert needs a new key; an
update re-reads the row under its lock and fails on a row that is missing or soft-deleted; both fail
on values their columns cannot hold.

## Main definitions

* `Db.account`, `Db.entry`, `Db.document`, …: the rows of a store
* `transaction`: a program whose writes are committed together
* `insert`, `updateRow`: one row written
* `nextSequenceNumber`: lock and increment a counter
-/

namespace AccountingApi

open ReadCommitted

/-! ## Rows of a store -/

namespace Db

variable (db : Db)

def settings : Option CompanySettings := db.row .settings

def account (id : Uuid) : Option Account := db.row (.account id)

def partner (id : Uuid) : Option BusinessPartner := db.row (.partner id)

def taxCode (id : Uuid) : Option TaxCode := db.row (.taxCode id)

def period (id : Uuid) : Option AccountingPeriod := AccountingApi.periods.get db id

def closing (fiscalYear : ℤ) : Option YearEndClosing := closings.get db fiscalYear

/-- The next number of a counter. -/
def sequence (s : Sequence) : Option ℕ := sequences.get db s

def entry (id : Uuid) : Option JournalEntry := entries.get db id

def document (kind : DocumentKind) (id : Uuid) : Option Document := documents.get db (kind, id)

/-- The lines of a document, in the order of their numbers. -/
def documentLines (kind : DocumentKind) (id : Uuid) : List DocumentLine :=
  (linesOfDocuments.get db (kind, id)).getD []

def payment (id : Uuid) : Option Payment := payments.get db id

/-- The accounts that are not soft-deleted, with their keys. -/
def accounts : List (Uuid × Account) :=
  db.collect fun
    | .account id, a => if a.deletedAt.isNone then some (id, a) else none
    | _, _ => none

/-- The accounting periods, with their keys. -/
def periods : List (Uuid × AccountingPeriod) :=
  db.collect fun
    | .period id, p => some (id, p)
    | _, _ => none

/-- An account that is not soft-deleted. -/
def liveAccount (id : Uuid) : Option Account := (db.account id).filter (·.deletedAt.isNone)

def livePartner (id : Uuid) : Option BusinessPartner :=
  (db.partner id).filter (·.deletedAt.isNone)

def liveTaxCode (id : Uuid) : Option TaxCode := (db.taxCode id).filter (·.deletedAt.isNone)

def liveEntry (id : Uuid) : Option JournalEntry := (db.entry id).filter (·.deletedAt.isNone)

def liveDocument (kind : DocumentKind) (id : Uuid) : Option Document :=
  (db.document kind id).filter (·.deletedAt.isNone)

def livePayment (id : Uuid) : Option Payment := (db.payment id).filter (·.deletedAt.isNone)

/-- A live account of the given role. -/
def accountOfRole (role : AccountRole) : Option (Uuid × Account) :=
  db.accounts.find? fun a => a.2.role = some role

/-- The accounts with the given code; deleted ones count for the unique index. -/
def accountsWithCode (code : String) : List Uuid :=
  db.collect fun
    | .account id, a => if a.code = code then some id else none
    | _, _ => none

/-- The accounts of the given role; deleted ones count for the unique index. -/
def accountsWithRole (role : AccountRole) : List Uuid :=
  db.collect fun
    | .account id, a => if a.role = some role then some id else none
    | _, _ => none

/-- The number of lines that posted and reversed entries have on an account. -/
def postedLines (accountId : Uuid) : ℕ :=
  (db.collect fun
    | .entry _, e =>
      if e.status = .posted ∨ e.status = .reversed then
        some (e.lines.filter fun l => l.accountId = accountId).length
      else none
    | _, _ => none).sum

/-- A journal entry that reverses the entry `id`; deleted ones count for the unique index. -/
def reversalsOf (id : Uuid) : List Uuid :=
  db.collect fun
    | .entry r, e => if e.reversalOfId = some id then some r else none
    | _, _ => none

end Db

/-! ## Columns -/

/-- The check of `journal_lines`: one side is positive and the other is zero. -/
def JournalLine.Valid (l : JournalLine) : Prop :=
  (0 ≤ l.debit ∧ 0 ≤ l.credit ∧ (l.debit = 0 ∨ l.credit = 0) ∧ (0 < l.debit ∨ 0 < l.credit)) ∧
    Money.Storable l.debit ∧ Money.Storable l.credit

instance (l : JournalLine) : Decidable l.Valid := inferInstanceAs (Decidable (_ ∧ _))

def JournalEntry.Valid (e : JournalEntry) : Prop := ∀ l ∈ e.lines, l.Valid

instance (e : JournalEntry) : Decidable e.Valid := inferInstanceAs (Decidable (∀ _ ∈ _, _))

def DocumentLine.Valid (l : DocumentLine) : Prop :=
  Money.Storable l.quantity ∧ Money.Storable l.unitPrice ∧ Money.Storable l.amount

instance (l : DocumentLine) : Decidable l.Valid := inferInstanceAs (Decidable (_ ∧ _))

def Document.Valid (d : Document) : Prop :=
  Money.Storable d.subtotal ∧ Money.Storable d.taxTotal ∧ Money.Storable d.withholdingTotal ∧
    Money.Storable d.total ∧ Money.Storable d.amountPaid

instance (d : Document) : Decidable d.Valid := inferInstanceAs (Decidable (_ ∧ _))

/-- The check of `payment_allocations`: the amount is positive. -/
def PaymentAllocation.Valid (a : PaymentAllocation) : Prop := 0 < a.amount ∧ Money.Storable a.amount

instance (a : PaymentAllocation) : Decidable a.Valid := inferInstanceAs (Decidable (_ ∧ _))

def Payment.Valid (p : Payment) : Prop := Money.Storable p.amount ∧ ∀ a ∈ p.allocations, a.Valid

instance (p : Payment) : Decidable p.Valid := inferInstanceAs (Decidable (_ ∧ _))

def YearEndClosing.Valid (c : YearEndClosing) : Prop := Money.Storable c.netIncome

instance (c : YearEndClosing) : Decidable c.Valid := inferInstanceAs (Decidable (_ < _))

/-! ## Statements -/

/-- A plain read, labelled by what it reads. -/
def select (q : Query) : Program Db := Prog.query q

/-- `SELECT … FOR UPDATE` of the row under a key; other statements lock a row they write likewise. -/
def forUpdate (k : Key) : Program Db := Prog.lock (.row k) .exclusive

/-- `SELECT … FOR SHARE` of the row under a key. -/
def forShare (k : Key) : Program Db := Prog.lock (.row k) .shared

/-- The database gives the name's lock to one transaction at a time. -/
def lockName (a : LockName) (m : Mode) : Program Db := Prog.lock (.named a) m

/-- The program's writes are committed together; an error rolls them back. -/
def transaction {α : Type} (body : Program α) : Program α := do
  let a ← body
  Prog.commitTx
  pure a

/-- The program, its unique violations replaced by `e`. -/
def mapUniqueViolation {α : Type} (e : Failure) (body : Program α) : Program α :=
  body.mapThrow (Failure.mapUnique e)

/-- `INSERT`: the key is new and the values fit. -/
def insert (k : Key) (v : Row k) (valid : Prop) [Decidable valid] : Program Unit := do
  let db ← forUpdate k
  Prog.ensure ((db.row k).isNone = true) .uniqueViolation
  Prog.ensure valid .columnViolation
  Prog.write k v

/-- `UPDATE … WHERE id = … AND deleted_at IS NULL`, one row, which is returned. -/
def updateRow (k : Key) (live : Row k → Prop) [DecidablePred live] (f : Row k → Row k)
    (valid : Row k → Prop) [DecidablePred valid] : Program (Row k) := do
  let db ← forUpdate k
  let v ← Prog.orThrow (db.row k) .recordNotFound
  Prog.ensure (live v) .recordNotFound
  Prog.ensure (valid (f v)) .columnViolation
  Prog.write k (f v)
  pure (f v)

def updateEntry (id : Uuid) (f : JournalEntry → JournalEntry) : Program JournalEntry :=
  updateRow (.entry id) (fun e => e.deletedAt = none) f JournalEntry.Valid

def updateDocument (kind : DocumentKind) (id : Uuid) (f : Document → Document) : Program Document :=
  updateRow (.document kind id) (fun d => d.deletedAt = none) f Document.Valid

def updatePayment (id : Uuid) (f : Payment → Payment) : Program Payment :=
  updateRow (.payment id) (fun p => p.deletedAt = none) f Payment.Valid

/-! ## Sequences -/

/-- Lock and increment a counter. The counter is created on its first use, which waits for an
uncommitted creation of the same counter. -/
def nextSequenceNumber (s : Sequence) : Program ℕ := do
  let db ← forUpdate (.sequence s)
  Prog.when (db.sequence s = none) (Prog.write (.sequence s) (1 : ℕ))
  let db ← forUpdate (.sequence s)
  let current ← Prog.orThrow (db.sequence s) (.internal "rows[0] is undefined")
  Prog.write (.sequence s) (current + 1 : ℕ)
  pure current

end AccountingApi
