import AccountingApi.Ledger.DocumentLifecycle
import AccountingApi.Tax

/-!
# Invoices and bills

A sales invoice and a purchase bill are the same document with different words: it runs through the
tax engine and posts to the control account of receivables or payables.

## Main definitions

* `Descriptor`, `DocumentKind.descriptor`: what tells an invoice from a bill
* `TaxedDocument.createDraft`, `update`, `post`, `void`, `deleteDraft`
-/

namespace AccountingApi

open ReadCommitted

/-! ## Descriptors -/

/-- The text with its first letter in upper case. -/
def cap (s : String) : String := s.capitalize

/-- What a kind of document has of its own. -/
structure Descriptor where
  noun : String
  label : String
  article : String
  partnerFlag : BusinessPartner → Bool
  partnerKind : String
  nature : TaxNature
  controlRole : AccountRole
  sourceType : JournalSourceType
  documentType : DocumentType

def DocumentKind.descriptor : DocumentKind → Descriptor
  | .salesInvoice => {
      noun := "invoice", label := "Sales invoice", article := "an"
      partnerFlag := (·.isCustomer), partnerKind := "customer"
      nature := .sale, controlRole := .arControl, sourceType := .salesInvoice
      documentType := .inv }
  | .purchaseBill => {
      noun := "bill", label := "Purchase bill", article := "a"
      partnerFlag := (·.isVendor), partnerKind := "vendor"
      nature := .purchase, controlRole := .apControl, sourceType := .purchaseBill
      documentType := .bill }

namespace Descriptor

variable (l : Descriptor)

def partnerInactive : String := "Partner is not an active " ++ l.partnerKind

def notFound : String := l.label ++ " not found"

def onlyDraftEdit : String := "Only a DRAFT " ++ l.noun ++ " can be edited"

def notADraft : String := cap l.noun ++ " is not a draft"

def noLongerDraft : String := cap l.noun ++ " is no longer a draft"

def onlyPostedVoid : String := "Only a POSTED " ++ l.noun ++ " can be voided"

def voidWithPaymentsFirst : String :=
  "Cannot void " ++ l.article ++ " " ++ l.noun ++ " with payments; void the payments first"

def voidWithPayments : String := "Cannot void " ++ l.article ++ " " ++ l.noun ++ " with payments"

def alreadyReversed : String := cap l.noun ++ " journal entry was already reversed"

def notPosted : String := cap l.noun ++ " is not posted"

def defaultDescription (id : Uuid) : String := l.label ++ " " ++ toString id

end Descriptor

/-- The text before a document's number in its reference. -/
def DocumentType.code : DocumentType → String
  | .inv => "INV"
  | .bill => "BILL"
  | .payRcv => "PAY-RCV"
  | .payDsb => "PAY-DSB"

/-! ## Lines and totals -/

/-- A document line as supplied by a caller. -/
structure DocumentLineInput where
  description : String
  accountId : Uuid
  quantity : ℤ
  unitPrice : ℤ
  taxCodeIds : List Uuid
deriving DecidableEq

namespace DocumentLineInput

/-- Quantity times unit price, with four decimal places. -/
def amount (l : DocumentLineInput) : ℤ := Money.multiply l.unitPrice l.quantity 4

def ofLine (l : DocumentLine) : DocumentLineInput :=
  ⟨l.description, l.accountId, l.quantity, l.unitPrice, l.taxCodeIds⟩

end DocumentLineInput

/-- The lines as the tax engine takes them. -/
def taxableLines (lines : List DocumentLineInput) : List TaxableLineInput :=
  lines.map fun l => ⟨l.accountId, l.amount, l.taxCodeIds⟩

/-- The rows of the lines, numbered from one. -/
def buildLineCreateData (lines : List DocumentLineInput) : List DocumentLine :=
  lines.mapIdx fun i l =>
    ⟨i + 1, l.description, l.accountId, l.quantity, l.unitPrice, l.amount, l.taxCodeIds⟩

/-- A control account, by its role. -/
def findControlAccountId (role : AccountRole) : Program Uuid := do
  let db ← select .account
  let acc ← Prog.orThrow (Db.accountOfRole db role)
    (.validationFailed "Control account missing from chart" [("role", .text role.name)])
  pure acc.1

def findPartner (id : Uuid) : Program BusinessPartner := do
  let db ← select .partner
  Prog.orThrow (Db.livePartner db id) (.notFound "Partner not found" [("id", .id id)])

/-- The totals a document stores. -/
structure DocumentTotals where
  subtotal : ℤ
  taxTotal : ℤ
  withholdingTotal : ℤ
  total : ℤ
deriving DecidableEq

/-- The stored totals of a tax calculation. -/
def summarizeTotals (c : TaxCalculation) : DocumentTotals :=
  ⟨c.subtotal, c.taxTotal, c.withholdingTotal, c.settlementAmount⟩

def computeTotals (collation : Collation) (nature : TaxNature) (settlementAccountId : Uuid)
    (lines : List TaxableLineInput) : Program DocumentTotals := do
  let c ← TaxService.calculateNow collation ⟨nature, settlementAccountId, lines⟩
  pure (summarizeTotals c)

/-- The document with the given totals. -/
def Document.withTotals (d : Document) (t : DocumentTotals) : Document :=
  { d with
    subtotal := t.subtotal, taxTotal := t.taxTotal, withholdingTotal := t.withholdingTotal,
    total := t.total }

namespace TaxedDocument

/-! ## Reading -/

/-- The document with its lines; the two are read one after the other. -/
def getById (kind : DocumentKind) (id : Uuid) : Program (Document × List DocumentLine) := do
  let db ← select .document
  let doc ← Prog.orThrow (Db.liveDocument db kind id)
    (.notFound kind.descriptor.notFound [("id", .id id)])
  let db ← select .documentLines
  pure (doc, Db.documentLines db kind id)

/-- The partner exists, is active, and is a customer or a vendor as the document needs. -/
def assertPartner (kind : DocumentKind) (partnerId : Uuid) : Program Unit := do
  let partner ← findPartner partnerId
  Prog.ensure (kind.descriptor.partnerFlag partner = true ∧ partner.isActive = true)
    (.validationFailed kind.descriptor.partnerInactive [("partnerId", .id partnerId)])

/-! ## Drafts -/

structure CreateInput where
  partnerId : Uuid
  vendorInvoiceNo : Option String
  date : UtcDay
  dueDate : Option UtcDay
  description : Option String
  lines : List DocumentLineInput
  createdBy : Uuid

structure UpdateInput where
  vendorInvoiceNo : Option String
  date : Option UtcDay
  dueDate : Option UtcDay
  description : Option String
  lines : Option (List DocumentLineInput)

/-- The row of a new draft; an invoice has no vendor's invoice number. -/
def draftRow (kind : DocumentKind) (input : CreateInput) (totals : DocumentTotals) : Document where
  number := none
  ref := none
  fiscalYear := none
  partnerId := input.partnerId
  vendorInvoiceNo := if kind = .purchaseBill then input.vendorInvoiceNo else none
  date := input.date
  dueDate := input.dueDate
  description := input.description
  status := .draft
  subtotal := totals.subtotal
  taxTotal := totals.taxTotal
  withholdingTotal := totals.withholdingTotal
  total := totals.total
  amountPaid := 0
  journalEntryId := none
  createdBy := input.createdBy
  postedBy := none
  postedAt := none
  deletedAt := none
  deletedBy := none

/-- The document inserted with its lines. -/
def createRow (kind : DocumentKind) (id : Uuid) (doc : Document) (lines : List DocumentLine) :
    Program Unit := do
  insert (.document kind id) doc doc.Valid
  insert (.documentLines kind id) lines (∀ l ∈ lines, l.Valid)

def createDraft (kind : DocumentKind) (input : CreateInput) (id : Uuid) (collation : Collation) :
    Program (Document × List DocumentLine) := do
  assertPartner kind input.partnerId
  let settlementId ← findControlAccountId kind.descriptor.controlRole
  let totals ← computeTotals collation kind.descriptor.nature settlementId (taxableLines input.lines)
  let doc := draftRow kind input totals
  let lines := buildLineCreateData input.lines
  transaction (createRow kind id doc lines)
  pure (doc, lines)

/-- The scalars an update writes, whatever the row holds by then. -/
def applyUpdate (kind : DocumentKind) (input : UpdateInput) (row : Document)
    (totals : DocumentTotals) (d : Document) : Document :=
  { d.withTotals totals with
    date := input.date.getD row.date
    dueDate := input.dueDate <|> row.dueDate
    description := input.description <|> row.description
    vendorInvoiceNo :=
      if kind = .purchaseBill then input.vendorInvoiceNo <|> row.vendorInvoiceNo
      else d.vendorInvoiceNo }

/-- The lines deleted and written anew, and the row updated. -/
def updateRowInTx (kind : DocumentKind) (id : Uuid) (input : UpdateInput) (row : Document)
    (totals : DocumentTotals) (lines : List DocumentLine) : Program Unit := do
  let _ ← forUpdate (.documentLines kind id)
  let _ ← updateDocument kind id (applyUpdate kind input row totals)
  Prog.ensure (∀ l ∈ lines, l.Valid) .columnViolation
  Prog.write (.documentLines kind id) lines

/-- The status is checked on the first read only. -/
def update (kind : DocumentKind) (id : Uuid) (input : UpdateInput) (collation : Collation) :
    Program (Document × List DocumentLine) := do
  let (row, lines) ← getById kind id
  Prog.ensure (row.status = .draft)
    (.validationFailed kind.descriptor.onlyDraftEdit
      [("id", .id id), ("status", .text row.status.name)])
  let nextLines := input.lines.getD (lines.map DocumentLineInput.ofLine)
  let settlementId ← findControlAccountId kind.descriptor.controlRole
  let totals ← computeTotals collation kind.descriptor.nature settlementId (taxableLines nextLines)
  transaction (updateRowInTx kind id input row totals (buildLineCreateData nextLines))
  getById kind id

def deleteDraft (kind : DocumentKind) (id deletedBy : Uuid) (now : Timestamp) : Program Unit :=
  DocumentLifecycle.softDeleteDocument kind kind.descriptor.noun id deletedBy now

/-! ## Posting -/

/-- The row once it is posted. -/
def finalizePosted (number : ℕ) (ref : String) (fiscalYear : ℤ) (entryId postedBy : Uuid)
    (now : Timestamp) (totals : DocumentTotals) (d : Document) : Document :=
  { d.withTotals totals with
    status := .posted, number := some number, ref := some ref, fiscalYear := some fiscalYear,
    journalEntryId := some entryId, postedBy := some postedBy, postedAt := some now }

/-- The row is locked and still a draft, before a number is consumed. -/
def lockDraftInTx (kind : DocumentKind) (id : Uuid) : Program Unit := do
  let db ← forUpdate (.document kind id)
  Prog.ensure (∃ d ∈ Db.liveDocument db kind id, d.status = .draft)
    (.validationFailed kind.descriptor.noLongerDraft [("id", .id id)])

/-- Number, journal entry and document row, in one transaction. -/
def postInTx (kind : DocumentKind) (id : Uuid) (prepared : Posting.PreparedPosting)
    (totals : DocumentTotals) (postedBy entryId : Uuid) (now : Timestamp) : Program Unit := do
  lockDraftInTx kind id
  let number ← nextSequenceNumber (.document kind.descriptor.documentType prepared.fiscalYear)
  let ref := buildDocRef kind.descriptor.documentType.code prepared.fiscalYear number
  let _ ← Posting.createPostedEntryInTx prepared entryId now
  let _ ← updateDocument kind id
    (finalizePosted number ref prepared.fiscalYear entryId postedBy now totals)
  pure ()

/-- The input of the document's journal entry. -/
def journalInput (kind : DocumentKind) (id : Uuid) (row : Document) (lines : List PostLineInput) :
    PostEntryInput :=
  ⟨row.date, row.description.getD (kind.descriptor.defaultDescription id),
    kind.descriptor.sourceType, some id, row.createdBy, lines⟩

/-- The lines and the date that are posted are those of the first read. -/
def post (kind : DocumentKind) (id postedBy entryId : Uuid) (now : Timestamp)
    (collation : Collation) : Program (Document × List DocumentLine) := do
  let (row, lines) ← getById kind id
  Prog.ensure (row.status = .draft)
    (.validationFailed kind.descriptor.notADraft
      [("id", .id id), ("status", .text row.status.name)])
  assertPartner kind row.partnerId
  let settlementId ← findControlAccountId kind.descriptor.controlRole
  let c ← TaxService.calculateNow collation
    ⟨kind.descriptor.nature, settlementId, taxableLines (lines.map DocumentLineInput.ofLine)⟩
  let prepared ← Posting.preparePosting (journalInput kind id row c.journalLines) postedBy
  transaction (postInTx kind id prepared (summarizeTotals c) postedBy entryId now)
  getById kind id

/-! ## Voiding -/

/-- The lock of the row for a void. -/
def lockForVoid (kind : DocumentKind) (id : Uuid) : Program (Option Document) := do
  let db ← forUpdate (.document kind id)
  pure (Db.liveDocument db kind id)

def markVoid (d : Document) : Document := { d with status := .void }

def void (kind : DocumentKind) (id voidedBy reversalId : Uuid) (now : Timestamp) :
    Program (Document × List DocumentLine) := do
  let (row, _) ← getById kind id
  Prog.ensure (row.status = .posted)
    (.validationFailed kind.descriptor.onlyPostedVoid
      [("id", .id id), ("status", .text row.status.name)])
  Prog.ensure (Money.isZero row.amountPaid = true)
    (.conflict kind.descriptor.voidWithPaymentsFirst [("id", .id id)])
  let journalEntryId ← Prog.orThrow row.journalEntryId (.internal "journalEntryId is null")
  DocumentLifecycle.reverseWithGuard id journalEntryId voidedBy reversalId now
    kind.descriptor.alreadyReversed kind.descriptor.notPosted (lockForVoid kind id)
    (fun d => d.status = .posted) fun locked => do
      Prog.ensure (Money.isZero locked.amountPaid = true)
        (.conflict kind.descriptor.voidWithPayments [("id", .id id)])
      let _ ← updateDocument kind id markVoid
      pure ()
  getById kind id

end TaxedDocument

end AccountingApi
