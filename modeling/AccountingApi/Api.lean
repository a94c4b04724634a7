import AccountingApi.Invoicing.Payments
import AccountingApi.Ledger.Accounts
import AccountingApi.Ledger.Journal
import AccountingApi.YearEndClose

/-!
# The API

The requests of the modelled services, with the values a request is validated to carry, and the
program each of them runs. Keys that are drawn at random and the current time come with the request.

## Main definitions

* `Request`, `code`: the requests and their programs
* `Server`: the servers that run them
-/

namespace AccountingApi

open ReadCommitted

/-! ## Tax codes -/

namespace TaxCodes

/-- The rate lies between zero and one; it counts millionths. -/
def validateRate (rate : ℤ) : Except Failure Unit :=
  if 0 < rate ∧ rate < 10 ^ 6 then .ok ()
  else .error (.validationFailed "Rate must be greater than 0 and less than 1" [])

def update (id : Uuid) (rate : Option ℤ) (isActive : Option Bool) : Program TaxCode := do
  let db ← select .taxCodes
  let _ ← Prog.orThrow (Db.liveTaxCode db id) (.notFound "Tax code not found" [("id", .id id)])
  Prog.ofExcept (match rate with | some r => validateRate r | none => .ok ())
  transaction (updateRow (.taxCode id) (fun c => c.deletedAt = none)
    (fun c => { c with rate := rate.getD c.rate, isActive := isActive.getD c.isActive })
    fun _ => True)

end TaxCodes

/-! ## Requests -/

structure DocumentLineDto where
  description : String
  accountId : Uuid
  quantity : MoneyString
  unitPrice : MoneyString
  taxCodeIds : List Uuid

def DocumentLineDto.toInput (l : DocumentLineDto) : DocumentLineInput :=
  ⟨l.description, l.accountId, l.quantity.amount, l.unitPrice.amount, l.taxCodeIds⟩

structure CreateDocumentDto where
  partnerId : Uuid
  vendorInvoiceNo : Option String
  date : UtcDay
  dueDate : Option UtcDay
  description : Option String
  lines : List DocumentLineDto

def CreateDocumentDto.toInput (dto : CreateDocumentDto) (user : Uuid) :
    TaxedDocument.CreateInput :=
  ⟨dto.partnerId, dto.vendorInvoiceNo, dto.date, dto.dueDate, dto.description,
    dto.lines.map (·.toInput), user⟩

structure UpdateDocumentDto where
  vendorInvoiceNo : Option String
  date : Option UtcDay
  dueDate : Option UtcDay
  description : Option String
  lines : Option (List DocumentLineDto)

def UpdateDocumentDto.toInput (dto : UpdateDocumentDto) : TaxedDocument.UpdateInput :=
  ⟨dto.vendorInvoiceNo, dto.date, dto.dueDate, dto.description,
    dto.lines.map (·.map (·.toInput))⟩

structure AllocationDto where
  salesInvoiceId : Option Uuid
  purchaseBillId : Option Uuid
  amount : MoneyString

def AllocationDto.toInput (a : AllocationDto) : PaymentAllocation :=
  ⟨a.salesInvoiceId, a.purchaseBillId, a.amount.amount⟩

structure CreatePaymentDto where
  direction : PaymentDirection
  partnerId : Uuid
  date : UtcDay
  cashAccountId : Uuid
  description : Option String
  allocations : List AllocationDto

def CreatePaymentDto.toInput (dto : CreatePaymentDto) (user : Uuid) : Payments.CreateInput :=
  ⟨dto.direction, dto.partnerId, dto.date, dto.cashAccountId, dto.description,
    dto.allocations.map (·.toInput), user⟩

structure JournalLineDto where
  accountId : Uuid
  debit : Option MoneyString
  credit : Option MoneyString
  description : Option String

def JournalLineDto.toInput (l : JournalLineDto) : PostLineInput :=
  ⟨l.accountId, l.debit.map (·.amount), l.credit.map (·.amount), l.description⟩

structure GeneratePeriodsDto where
  fiscalYear : ℤ
  min : 2000 ≤ fiscalYear
  max : fiscalYear ≤ 2200

structure CloseYearDto where
  fiscalYear : ℤ
  min : 2000 ≤ fiscalYear
  max : fiscalYear ≤ 2100

structure CreateJournalEntryDto where
  date : UtcDay
  description : String
  lines : List JournalLineDto

def CreateJournalEntryDto.toInput (dto : CreateJournalEntryDto) (user : Uuid) :
    Journal.DraftInput :=
  ⟨dto.date, dto.description, dto.lines.map (·.toInput), user⟩

/-- A request, with the user who makes it, the key of the row it creates, the time, the order of strings
where it is served, and the orders in which it reads the allocations of a payment. -/
inductive Request where
  | createDocument (kind : DocumentKind) (dto : CreateDocumentDto) (user newId : Uuid)
      (collation : Collation)
  | updateDocument (kind : DocumentKind) (id : Uuid) (dto : UpdateDocumentDto)
      (collation : Collation)
  | postDocument (kind : DocumentKind) (id user entryId : Uuid) (now : Timestamp)
      (collation : Collation)
  | voidDocument (kind : DocumentKind) (id user entryId : Uuid) (now : Timestamp)
  | deleteDocument (kind : DocumentKind) (id user : Uuid) (now : Timestamp)
  | createPayment (dto : CreatePaymentDto) (user newId : Uuid)
  | postPayment (id user entryId : Uuid) (now : Timestamp)
      (scan answer : ScanOrder PaymentAllocation)
  | voidPayment (id user entryId : Uuid) (now : Timestamp)
      (scan answer : ScanOrder PaymentAllocation)
  | deletePayment (id user : Uuid) (now : Timestamp)
  | createEntry (dto : CreateJournalEntryDto) (user entryId : Uuid)
  | createAndPostEntry (dto : CreateJournalEntryDto) (user entryId : Uuid) (now : Timestamp)
  | postEntry (id user : Uuid) (now : Timestamp)
  | reverseEntry (id user entryId : Uuid) (now : Timestamp)
  | deleteEntry (id user : Uuid) (now : Timestamp)
  | postOpeningBalances (date : UtcDay) (balances : List JournalLineDto) (user entryId : Uuid)
      (now : Timestamp)
  | closeYear (dto : CloseYearDto) (user entryId : Uuid) (now : Timestamp)
  | reopenYear (fiscalYear : ℤ) (user entryId : Uuid) (now : Timestamp)
  | updateTaxCode (id : Uuid) (rate : Option ℤ) (isActive : Option Bool)
  | createAccount (input : Accounts.CreateInput) (newId : Uuid)
  | updateAccount (id : Uuid) (input : Accounts.UpdateInput)
  | deactivateAccount (id : Uuid)
  | deleteAccount (id user : Uuid) (now : Timestamp)
  | updateCompany (input : Company.UpdateInput)
  | generatePeriods (dto : GeneratePeriodsDto) (newId : ℕ → Uuid)
  | closePeriod (id user : Uuid) (now : Timestamp)
  | reopenPeriod (id : Uuid)

/-- What a request that succeeds answers with. -/
inductive Response where
  | document (row : Document) (lines : List DocumentLine)
  | payment (row : Payment)
  | entry (row : JournalEntry)
  | closing (row : Option YearEndClosing)
  | taxCode (row : TaxCode)
  | account (row : Account)
  | company (row : CompanySettings)
  | periods (rows : List (Uuid × AccountingPeriod))
  | period (row : AccountingPeriod)
  | noContent

/-- A program's value as the answer. -/
def respond {α : Type} (f : α → Response) (p : Program α) : Program Response := do
  let a ← p
  pure (f a)

/-- The program of a request. -/
def code : Request → Program Response
  | .createDocument kind dto user newId collation =>
    respond (fun d => .document d.1 d.2)
      (TaxedDocument.createDraft kind (dto.toInput user) newId collation)
  | .updateDocument kind id dto collation =>
    respond (fun d => .document d.1 d.2) (TaxedDocument.update kind id dto.toInput collation)
  | .postDocument kind id user entryId now collation =>
    respond (fun d => .document d.1 d.2) (TaxedDocument.post kind id user entryId now collation)
  | .voidDocument kind id user entryId now =>
    respond (fun d => .document d.1 d.2) (TaxedDocument.void kind id user entryId now)
  | .deleteDocument kind id user now =>
    respond (fun _ => .noContent) (TaxedDocument.deleteDraft kind id user now)
  | .createPayment dto user newId =>
    respond .payment (Payments.createDraft (dto.toInput user) newId)
  | .postPayment id user entryId now scan answer =>
    respond .payment (Payments.post id user entryId now scan answer)
  | .voidPayment id user entryId now scan answer =>
    respond .payment (Payments.void id user entryId now scan answer)
  | .deletePayment id user now => respond (fun _ => .noContent) (Payments.deleteDraft id user now)
  | .createEntry dto user entryId =>
    respond .entry (Journal.createDraft (dto.toInput user) entryId)
  | .createAndPostEntry dto user entryId now =>
    respond .entry (Journal.createAndPost (dto.toInput user) user entryId now)
  | .postEntry id user now => respond .entry (Journal.postDraft id user now)
  | .reverseEntry id user entryId now => respond .entry (Journal.reverse id user entryId now)
  | .deleteEntry id user now => respond (fun _ => .noContent) (Journal.deleteDraft id user now)
  | .postOpeningBalances date balances user entryId now =>
    respond .entry
      (Journal.postOpeningBalances date (balances.map (·.toInput)) user entryId now)
  | .closeYear dto user entryId now =>
    respond .closing (YearEndClose.close dto.fiscalYear user entryId now)
  | .reopenYear fiscalYear user entryId now =>
    respond .closing (YearEndClose.reopen fiscalYear user entryId now)
  | .updateTaxCode id rate isActive => respond .taxCode (TaxCodes.update id rate isActive)
  | .createAccount input newId => respond .account (Accounts.create input newId)
  | .updateAccount id input => respond .account (Accounts.update id input)
  | .deactivateAccount id => respond .account (Accounts.deactivate id)
  | .deleteAccount id user now =>
    respond (fun _ => .noContent) (Accounts.softDelete id user now)
  | .updateCompany input => respond .company (Company.update input)
  | .generatePeriods dto newId =>
    respond .periods (Periods.generatePeriods dto.fiscalYear newId)
  | .closePeriod id user now => respond .period (Periods.close id user now)
  | .reopenPeriod id => respond .period (Periods.reopen id)

/-- The servers that run these requests. -/
abbrev Server := ReadCommitted.Server Row LockName Query Failure Response Request

/-- A commit of such a server. -/
abbrev Commit := ReadCommitted.Commit Row LockName Query Request

end AccountingApi
