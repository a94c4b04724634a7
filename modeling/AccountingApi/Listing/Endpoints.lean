import AccountingApi.Listing.Paginated

/-!
# The list endpoints

The lists of invoices, of bills, of payments and of journal entries.

## Main definitions

* `documentList`: invoices or bills
* `paymentList`
* `journalList`
-/

namespace AccountingApi.Listing

/-- The condition on a value that the request gives. -/
def given {α : Type} (o : Option α) (p : α → Bool) : Bool := o.all p

/-- A filter of a search, where the request gives the value. -/
def filterOn {α γ : Type} (o : Option γ) (p : γ → Stored α → Bool) : List (Stored α → Bool) :=
  (o.map p).toList

/-- The name and the code of the partner of a row. -/
def partnerJoin {α : Type} (partnerId : α → Uuid) : TrigramJoin α where
  onColumn := partnerId
  columns := [(·.name), (·.code)]

/-! ## Documents -/

structure DocumentListQuery where
  q : Option String
  limit : Option ℕ
  offset : Option ℕ
  partnerId : Option Uuid
  status : Option DocumentStatus

inductive PaymentStatus where
  | unpaid | paid | partiallyPaid
deriving DecidableEq

/-- A document as the API shows it. -/
structure DocumentResponse where
  document : Stored Document
  outstanding : ℤ
  paymentStatus : PaymentStatus
deriving DecidableEq

def presentDocument (doc : Stored Document) : DocumentResponse :=
  let paid := doc.row.amountPaid
  let outstanding := Money.subtract doc.row.total paid
  { document := doc
    outstanding := outstanding
    paymentStatus :=
      if Money.isZero paid then .unpaid
      else if Money.isZero outstanding || Money.isNegative outstanding then .paid
      else .partiallyPaid }

/-- The searched columns of a kind of document. -/
def trigramColumns : DocumentKind → List (Document → Option String)
  | .salesInvoice => [(·.ref), (·.description)]
  | .purchaseBill => [(·.ref), (·.vendorInvoiceNo), (·.description)]

/-- The list of a kind of document, the newest first. -/
def documentSpec (kind : DocumentKind) (q : DocumentListQuery) :
    ListSpec Document DocumentResponse Timestampᵒᵈ where
  ownColumns := trigramColumns kind
  join := some (partnerJoin (·.partnerId))
  filters :=
    filterOn q.partnerId (fun partnerId r => r.row.partnerId = partnerId) ++
      filterOn q.status fun status r => r.row.status = status
  conditions := fun r =>
    given q.partnerId (fun partnerId => r.row.partnerId = partnerId) &&
      given q.status fun status => r.row.status = status
  orderBy := fun r => OrderDual.toDual r.createdAt
  deletedAt := (·.deletedAt)
  present := presentDocument

def documentList (kind : DocumentKind) (text : TextFunctions)
    (partners : Uuid → Option Partners.BusinessPartner) {t : Table Document} (s : Scans t)
    (q : DocumentListQuery) : Paginated DocumentResponse :=
  listPage (documentSpec kind q) text partners s q.q q.limit q.offset

/-! ## Payments -/

structure PaymentListQuery where
  q : Option String
  limit : Option ℕ
  offset : Option ℕ
  partnerId : Option Uuid
  direction : Option PaymentDirection
  status : Option DocumentStatus

/-- A payment of a list, whose allocations are not read. -/
def presentPayment (payment : Stored Payment) : Stored Payment :=
  { payment with row := { payment.row with allocations := [] } }

/-- The list of the payments, the newest first. -/
def paymentSpec (q : PaymentListQuery) : ListSpec Payment (Stored Payment) Timestampᵒᵈ where
  ownColumns := [(·.ref), (·.description)]
  join := some (partnerJoin (·.partnerId))
  filters :=
    filterOn q.partnerId (fun partnerId r => r.row.partnerId = partnerId) ++
      (filterOn q.direction (fun direction r => r.row.direction = direction) ++
        filterOn q.status fun status r => r.row.status = status)
  conditions := fun r =>
    given q.partnerId (fun partnerId => r.row.partnerId = partnerId) &&
      (given q.direction (fun direction => r.row.direction = direction) &&
        given q.status fun status => r.row.status = status)
  orderBy := fun r => OrderDual.toDual r.createdAt
  deletedAt := (·.deletedAt)
  present := presentPayment

def paymentList (text : TextFunctions) (partners : Uuid → Option Partners.BusinessPartner)
    {t : Table Payment} (s : Scans t) (q : PaymentListQuery) : Paginated (Stored Payment) :=
  listPage (paymentSpec q) text partners s q.q q.limit q.offset

/-! ## Journal entries -/

structure JournalListFilter where
  q : Option String
  status : Option JournalStatus
  sourceType : Option JournalSourceType
  fiscalYear : Option ℤ
  dateFrom : Option UtcDay
  dateTo : Option UtcDay
  limit : ℕ
  offset : ℕ

structure JournalEntryListItem where
  id : Uuid
  entryRef : Option String
  entryNumber : Option ℕ
  fiscalYear : Option ℤ
  date : UtcDay
  description : String
  status : JournalStatus
  sourceType : JournalSourceType
  sourceId : Option Uuid
  totalDebit : ℤ
  lineCount : ℕ
deriving DecidableEq

def presentEntry (e : Stored JournalEntry) : JournalEntryListItem where
  id := e.id
  entryRef := e.row.entryRef
  entryNumber := e.row.entryNumber
  fiscalYear := e.row.fiscalYear
  date := e.row.date
  description := e.row.description
  status := e.row.status
  sourceType := e.row.sourceType
  sourceId := e.row.sourceId
  totalDebit := Money.sum (e.row.lines.map (·.debit))
  lineCount := e.row.lines.length

/-- The list of the journal: the latest date first, then the drafts of the date, which have no number,
then its highest number. A fiscal year of zero filters the plain list alone. -/
def journalSpec (filter : JournalListFilter) :
    ListSpec JournalEntry JournalEntryListItem (ℤᵒᵈ ×ₗ (WithTop ℕ)ᵒᵈ) where
  ownColumns := [(·.entryRef), fun e => some e.description]
  join := none
  filters :=
    filterOn filter.status (fun status e => e.row.status = status) ++
      (filterOn filter.sourceType (fun sourceType e => e.row.sourceType = sourceType) ++
        (filterOn (filter.fiscalYear.filter fun year => year ≠ 0)
            (fun fiscalYear e => e.row.fiscalYear = some fiscalYear) ++
          (filterOn filter.dateFrom (fun dateFrom e => dateFrom ≤ e.row.date) ++
            filterOn filter.dateTo fun dateTo e => e.row.date ≤ dateTo)))
  conditions := fun e =>
    given filter.status (fun status => e.row.status = status) &&
      (given filter.sourceType (fun sourceType => e.row.sourceType = sourceType) &&
        (given filter.fiscalYear (fun fiscalYear => e.row.fiscalYear = some fiscalYear) &&
          (given filter.dateFrom (fun dateFrom => dateFrom ≤ e.row.date) &&
            given filter.dateTo fun dateTo => e.row.date ≤ dateTo)))
  orderBy := fun e => toLex (OrderDual.toDual e.row.date.ord,
    OrderDual.toDual (e.row.entryNumber.elim ⊤ fun n => (n : WithTop ℕ)))
  deletedAt := (·.deletedAt)
  present := presentEntry

def journalList (text : TextFunctions) (partners : Uuid → Option Partners.BusinessPartner)
    {t : Table JournalEntry} (s : Scans t) (filter : JournalListFilter) :
    Paginated JournalEntryListItem :=
  listPage (journalSpec filter) text partners s filter.q (some filter.limit) (some filter.offset)

end AccountingApi.Listing
