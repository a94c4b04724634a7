import AccountingApi.Invoicing.Documents
import AccountingApi.ReadCommitted.Update
import Mathlib.Logic.Function.Basic

/-!
# Payments

A payment settles documents of one partner: a receipt sales invoices, a disbursement purchase bills.
The outstanding amount is checked when the payment is drafted and again, under the lock of each
document, when it is posted.

## Main definitions

* `PaymentTarget`, `PaymentDirection.target`: what tells a receipt from a disbursement
* `settleInTx`, `unwindInTx`: one allocation applied and taken back
* `Payments.createDraft`, `post`, `void`, `deleteDraft`
-/

namespace AccountingApi

open ReadCommitted

/-! ## Targets -/

/-- What a payment of a direction settles. -/
structure PaymentTarget where
  directionName : String
  kind : DocumentKind
  partnerFlag : BusinessPartner → Bool
  partnerRequiredMessage : String
  controlRole : AccountRole
  documentType : DocumentType
  noun : String
  label : String
  cashIsDebit : Bool

def PaymentDirection.target : PaymentDirection → PaymentTarget
  | .receipt => {
      directionName := "receipt", kind := .salesInvoice
      partnerFlag := (·.isCustomer), partnerRequiredMessage := "Receipt requires a customer"
      controlRole := .arControl, documentType := .payRcv
      noun := "invoice", label := "sales invoice", cashIsDebit := true }
  | .disbursement => {
      directionName := "disbursement", kind := .purchaseBill
      partnerFlag := (·.isVendor), partnerRequiredMessage := "Disbursement requires a vendor"
      controlRole := .apControl, documentType := .payDsb
      noun := "bill", label := "purchase bill", cashIsDebit := false }

namespace PaymentAllocation

/-- The document of the given kind the allocation refers to. -/
def idOf (a : PaymentAllocation) : DocumentKind → Option Uuid
  | .salesInvoice => a.salesInvoiceId
  | .purchaseBill => a.purchaseBillId

end PaymentAllocation

namespace PaymentTarget

variable (t : PaymentTarget)

/-- The document an allocation settles. -/
def allocId (a : PaymentAllocation) : Option Uuid := a.idOf t.kind

/-- The document of the other kind, which an allocation must not refer to. -/
def otherId (a : PaymentAllocation) : Option Uuid :=
  a.idOf (match t.kind with | .salesInvoice => .purchaseBill | .purchaseBill => .salesInvoice)

end PaymentTarget

/-- Settling the amount would drive the document past its outstanding. -/
def exceedsOutstanding (total amountPaid amount : ℤ) : Bool :=
  Money.isNegative (Money.subtract (Money.subtract total amountPaid) amount)

/-- The cash and the control line of a payment. -/
def buildPaymentLines (t : PaymentTarget) (cashAccountId controlId : Uuid) (amount : ℤ) :
    List PostLineInput :=
  if t.cashIsDebit then
    [{ accountId := cashAccountId, debit := some amount },
      { accountId := controlId, credit := some amount }]
  else
    [{ accountId := controlId, debit := some amount },
      { accountId := cashAccountId, credit := some amount }]

/-- The document of an allocation, read when the payment is drafted. -/
def loadTarget (t : PaymentTarget) (a : PaymentAllocation) : Program (Uuid × Document) := do
  let mustReference := .validationFailed
    ("A " ++ t.directionName ++ " allocation must reference a " ++ t.label) []
  let id ← Prog.orThrow (t.allocId a) mustReference
  Prog.ensure (t.otherId a = none) mustReference
  let db ← select .document
  let doc ← Prog.orThrow (Db.liveDocument db t.kind id)
    (.notFound (cap t.label ++ " not found") [("id", .id id)])
  pure (id, doc)

/-- The paid amount changed by `delta`. -/
def applyPaid (delta : ℤ) (d : Document) : Document := { d with amountPaid := d.amountPaid + delta }

/-- One allocation under the lock of its document: posted, of the partner, not past the outstanding.
Repeated allocations to one document see each other's increment. -/
def settleInTx (t : PaymentTarget) (partnerId : Uuid) (a : PaymentAllocation) : Program Unit := do
  let id ← Prog.orThrow (t.allocId a) (.internal "allocation without document")
  let db ← forUpdate (.document t.kind id)
  let notPosted := .validationFailed ("Allocated " ++ t.noun ++ " is not posted") [("id", .id id)]
  let doc ← Prog.orThrow (Db.liveDocument db t.kind id) notPosted
  Prog.ensure (doc.status = .posted) notPosted
  Prog.ensure (doc.partnerId = partnerId)
    (.validationFailed ("Allocated " ++ t.noun ++ " belongs to another partner") [("id", .id id)])
  Prog.ensure (exceedsOutstanding doc.total doc.amountPaid a.amount = false)
    (.conflict "Allocation now exceeds outstanding" [("id", .id id)])
  let _ ← updateDocument t.kind id (applyPaid a.amount)
  pure ()

/-- One allocation taken back under the lock of its document, not below zero. -/
def unwindInTx (t : PaymentTarget) (a : PaymentAllocation) : Program Unit := do
  let id ← Prog.orThrow (t.allocId a) (.internal "allocation without document")
  let db ← forUpdate (.document t.kind id)
  let negative := .conflict "Void would drive amountPaid negative" [("id", .id id)]
  let doc ← Prog.orThrow (Db.liveDocument db t.kind id) negative
  Prog.ensure (Money.isNegative (Money.subtract doc.amountPaid a.amount) = false) negative
  let _ ← updateDocument t.kind id (applyPaid (-a.amount))
  pure ()

namespace Payments

/-! ## Drafts -/

structure CreateInput where
  direction : PaymentDirection
  partnerId : Uuid
  date : UtcDay
  cashAccountId : Uuid
  description : Option String
  allocations : List PaymentAllocation
  createdBy : Uuid

/-- The total of the allocations, each checked against what its document has outstanding net of the
allocations before it. -/
def checkAllocations (t : PaymentTarget) (partnerId : Uuid) (allocated : Uuid → ℤ) (total : ℤ) :
    List PaymentAllocation → Program ℤ
  | [] => pure total
  | a :: as => do
    Prog.ensure (Money.isZero a.amount = false ∧ Money.isNegative a.amount = false)
      (.validationFailed "Allocation amount must be positive" [])
    let (id, doc) ← loadTarget t a
    Prog.ensure (doc.partnerId = partnerId)
      (.validationFailed "Allocated document belongs to another partner" [("documentId", .id id)])
    Prog.ensure (doc.status = .posted)
      (.validationFailed "Can only allocate to a POSTED document"
        [("documentId", .id id), ("status", .text doc.status.name)])
    let outstanding := Money.subtract (Money.subtract doc.total doc.amountPaid) (allocated id)
    Prog.ensure (Money.isNegative (Money.subtract outstanding a.amount) = false)
      (.validationFailed "Allocation exceeds the document outstanding" [("documentId", .id id)])
    checkAllocations t partnerId
      (Function.update allocated id (Money.add (allocated id) a.amount))
      (Money.add total a.amount) as

/-- The row of a new draft. -/
def draftRow (input : CreateInput) (amount : ℤ) : Payment where
  number := none
  ref := none
  fiscalYear := none
  direction := input.direction
  partnerId := input.partnerId
  date := input.date
  cashAccountId := input.cashAccountId
  amount := amount
  description := input.description
  status := .draft
  journalEntryId := none
  createdBy := input.createdBy
  postedBy := none
  postedAt := none
  deletedAt := none
  deletedBy := none
  allocations := input.allocations

def createDraft (input : CreateInput) (id : Uuid) : Program Payment := do
  Prog.ensure (input.allocations.isEmpty = false)
    (.validationFailed "A payment needs at least one allocation" [])
  let partner ← findPartner input.partnerId
  Prog.ensure (partner.isActive = true)
    (.validationFailed "Partner is inactive" [("partnerId", .id input.partnerId)])
  let t := input.direction.target
  Prog.ensure (t.partnerFlag partner = true)
    (.validationFailed t.partnerRequiredMessage [("partnerId", .id input.partnerId)])
  let db ← select .account
  Prog.ensure (∃ cash ∈ Db.liveAccount db input.cashAccountId,
      cash.isPostable = true ∧ cash.isActive = true)
    (.validationFailed "Cash account is not postable" [("cashAccountId", .id input.cashAccountId)])
  let total ← checkAllocations t input.partnerId (fun _ => Money.zero) Money.zero input.allocations
  let payment := draftRow input total
  transaction (insert (.payment id) payment payment.Valid)
  pure payment

/-- The payment with its allocations in the order a read comes across them. -/
def scanned (scan : ScanOrder PaymentAllocation) (p : Payment) : Payment :=
  { p with allocations := scan.order p.allocations }

@[simp] theorem scanned_direction (scan : ScanOrder PaymentAllocation) (p : Payment) :
    (scanned scan p).direction = p.direction := rfl

/-- The payment with its allocations, which the table keeps in no order. -/
def getById (id : Uuid) (scan : ScanOrder PaymentAllocation) : Program Payment := do
  let db ← select .payment
  let payment ← Prog.orThrow (Db.livePayment db id) (.notFound "Payment not found" [("id", .id id)])
  pure (scanned scan payment)

def deleteDraft (id deletedBy : Uuid) (now : Timestamp) : Program Unit :=
  DocumentLifecycle.softDeletePayment id deletedBy now

/-! ## Posting -/

/-- The row once it is posted. -/
def finalizePosted (number : ℕ) (ref : String) (fiscalYear : ℤ) (entryId postedBy : Uuid)
    (now : Timestamp) (p : Payment) : Payment :=
  { p with
    status := .posted, number := some number, ref := some ref, fiscalYear := some fiscalYear,
    journalEntryId := some entryId, postedBy := some postedBy, postedAt := some now }

/-- The allocations settled, then number, journal entry and payment row, in one transaction. -/
def postInTx (id : Uuid) (payment : Payment) (prepared : Posting.PreparedPosting)
    (postedBy entryId : Uuid) (now : Timestamp) : Program Unit := do
  let t := payment.direction.target
  let db ← forUpdate (.payment id)
  Prog.ensure (∃ p ∈ Db.livePayment db id, p.status = .draft)
    (.validationFailed "Payment is no longer a draft" [("id", .id id)])
  Prog.forEach payment.allocations (settleInTx t payment.partnerId)
  let number ← nextSequenceNumber (.document t.documentType prepared.fiscalYear)
  let ref := buildDocRef t.documentType.code prepared.fiscalYear number
  let _ ← Posting.createPostedEntryInTx prepared entryId now
  let _ ← updatePayment id (finalizePosted number ref prepared.fiscalYear entryId postedBy now)
  pure ()

/-- The input of the payment's journal entry. -/
def journalInput (id : Uuid) (payment : Payment) (controlId : Uuid) : PostEntryInput :=
  ⟨payment.date, payment.description.getD ("Payment " ++ toString id), .payment, some id,
    payment.createdBy,
    buildPaymentLines payment.direction.target payment.cashAccountId controlId payment.amount⟩

/-- `scan` and `answer` are the orders of the allocations as they are read before the transaction and
after it. -/
def post (id postedBy entryId : Uuid) (now : Timestamp) (scan answer : ScanOrder PaymentAllocation) :
    Program Payment := do
  let payment ← getById id scan
  Prog.ensure (payment.status = .draft)
    (.validationFailed "Payment is not a draft"
      [("id", .id id), ("status", .text payment.status.name)])
  let controlId ← findControlAccountId payment.direction.target.controlRole
  let prepared ← Posting.preparePosting (journalInput id payment controlId) postedBy
  transaction (postInTx id payment prepared postedBy entryId now)
  getById id answer

/-! ## Voiding -/

def lockForVoid (id : Uuid) : Program (Option Payment) := do
  let db ← forUpdate (.payment id)
  pure (Db.livePayment db id)

def markVoid (p : Payment) : Payment := { p with status := .void }

def void (id voidedBy reversalId : Uuid) (now : Timestamp)
    (scan answer : ScanOrder PaymentAllocation) : Program Payment := do
  let payment ← getById id scan
  Prog.ensure (payment.status = .posted)
    (.validationFailed "Only a POSTED payment can be voided"
      [("id", .id id), ("status", .text payment.status.name)])
  let journalEntryId ← Prog.orThrow payment.journalEntryId (.internal "journalEntryId is null")
  DocumentLifecycle.reverseWithGuard id journalEntryId voidedBy reversalId now
    "Payment journal entry was already reversed" "Payment is not posted" (lockForVoid id)
    (fun p => p.status = .posted) fun _ => do
      Prog.forEach payment.allocations (unwindInTx payment.direction.target)
      let _ ← updatePayment id markVoid
      pure ()
  getById id answer

end Payments

end AccountingApi
