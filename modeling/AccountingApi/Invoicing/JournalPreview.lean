import AccountingApi.Invoicing.Payments

/-!
# The journal preview

The journal entry that posting a document or a payment would write, derived and checked without
writing anything. The derivations and the checks of the date and of the accounts are those of the
post; that every line has a side is not checked.

## Main definitions

* `PreviewJournalEntryDto`: what is previewed
* `JournalPreview.toPreview`: the lines with their accounts, and the totals
* `JournalPreview.preview`
-/

namespace AccountingApi

open ReadCommitted

/-- The document or the payment that is previewed, with at least one line or allocation. -/
inductive PreviewBody where
  | taxed (nature : TaxNature) (settlementAccountId : Uuid) (lines : List TaxableLineInput)
      (nonempty : lines ≠ [])
  | payment (direction : PaymentDirection) (cashAccountId : Uuid)
      (allocations : List PaymentAllocation) (nonempty : allocations ≠ [])

structure PreviewJournalEntryDto where
  date : Option UtcDay
  body : PreviewBody

/-- A line with both sides and its account. -/
structure PreviewLine where
  accountId : Uuid
  accountCode : String
  accountName : String
  debit : ℤ
  credit : ℤ
deriving DecidableEq

structure JournalPreview where
  lines : List PreviewLine
  totalDebit : ℤ
  totalCredit : ℤ
  balanced : Bool
deriving DecidableEq

namespace JournalPreview

/-- The lines, each with the code and the name of its account. -/
def previewLines (accounts : Uuid → Option Account) :
    List PostLineInput → Except Failure (List PreviewLine)
  | [] => .ok []
  | l :: lines =>
    match accounts l.accountId with
    | none => .error (.internal
        ("Account " ++ toString l.accountId ++ " missing from preview account map"))
    | some a =>
      match previewLines accounts lines with
      | .error e => .error e
      | .ok ls => .ok (⟨l.accountId, a.code, a.name, l.debitOrZero, l.creditOrZero⟩ :: ls)

def toPreview (lines : List PostLineInput) (accounts : Uuid → Option Account) :
    Except Failure JournalPreview :=
  match previewLines accounts lines with
  | .error e => .error e
  | .ok ls =>
    let totalDebit := Money.sum (ls.map (·.debit))
    let totalCredit := Money.sum (ls.map (·.credit))
    .ok ⟨ls, totalDebit, totalCredit, totalDebit = totalCredit⟩

/-- The accounts with the given keys, which are all postable and active. -/
def resolvePostableAccounts (ids : List Uuid) : Program (Uuid → Option Account) := do
  let db ← select .account
  Prog.ofExcept (Posting.checkAccounts (Db.liveAccount db) ids.eraseDups)
  pure fun id => if id ∈ ids then Db.liveAccount db id else none

/-- The tax engine derives the lines of a sale or a purchase. -/
def taxedLines (collation : Collation) (nature : TaxNature) (settlementAccountId : Uuid)
    (lines : List TaxableLineInput) : Program (List PostLineInput) := do
  let c ← TaxService.calculateNow collation ⟨nature, settlementAccountId, lines⟩
  pure c.journalLines

/-- The total of the allocations; their documents are not read. -/
def allocationTotal (t : PaymentTarget) (total : ℤ) : List PaymentAllocation → Except Failure ℤ
  | [] => .ok total
  | a :: as =>
    if t.allocId a = none ∨ t.otherId a ≠ none then
      .error (.validationFailed
        ("A " ++ t.directionName ++ " allocation must reference a " ++ t.label) [])
    else if Money.isZero a.amount || Money.isNegative a.amount then
      .error (.validationFailed "Allocation amount must be positive" [])
    else allocationTotal t (Money.add total a.amount) as

/-- The cash and the control line of the total. -/
def paymentLines (direction : PaymentDirection) (cashAccountId : Uuid)
    (allocations : List PaymentAllocation) : Program (List PostLineInput) := do
  let t := direction.target
  let total ← Prog.ofExcept (allocationTotal t Money.zero allocations)
  let controlId ← findControlAccountId t.controlRole
  pure (buildPaymentLines t cashAccountId controlId total)

def bodyLines (collation : Collation) : PreviewBody → Program (List PostLineInput)
  | .taxed nature settlementAccountId lines _ =>
    taxedLines collation nature settlementAccountId lines
  | .payment direction cashAccountId allocations _ =>
    paymentLines direction cashAccountId allocations

/-- The check of a date is that of a post; a preview without a date does without it. -/
def checkDate : Option UtcDay → Program Unit
  | none => pure ()
  | some date => do
    let _ ← Posting.assertPostableDate date
    pure ()

def preview (dto : PreviewJournalEntryDto) (collation : Collation) : Program JournalPreview := do
  checkDate dto.date
  let lines ← bodyLines collation dto.body
  let accounts ← resolvePostableAccounts (lines.map (·.accountId))
  Prog.ofExcept (toPreview lines accounts)

end JournalPreview

end AccountingApi
