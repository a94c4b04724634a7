import AccountingApi.Invoicing.Payments
import AccountingApi.Ledger.Balances

/-!
# The aging report

The posted invoices or bills that were not fully paid on a day, by partner and by how long they were
overdue. The database selects and orders the documents, no more than a maximum of them; one pass over
them groups and sums them.

## Main definitions

* `Aging.openDocuments`, `Aging.query`: the documents the report is about
* `Aging.addRow`: one document added to the three sums
* `Aging.report`, `Aging.aging`
-/

namespace AccountingApi

open ReadCommitted

/-- Receivables or payables. -/
inductive AgingKind where
  | ar
  | ap
deriving DecidableEq

/-- The documents of a report. -/
def AgingKind.documents : AgingKind → DocumentKind
  | .ar => .salesInvoice
  | .ap => .purchaseBill

/-- How long a document is overdue, in days. -/
inductive Bucket where
  | current
  | upTo30
  | upTo60
  | upTo90
  | over90
deriving DecidableEq

/-- A row of the query: a document with its partner's name and what it had been paid by the day. -/
structure DocRow where
  id : Uuid
  ref : Option String
  partnerId : Uuid
  partnerName : String
  date : UtcDay
  dueDate : Option UtcDay
  total : ℤ
  paidAsOf : ℤ
deriving DecidableEq

/-- A document of the report. -/
structure AgedDocument where
  ref : Option String
  date : UtcDay
  dueDate : Option UtcDay
  total : ℤ
  paidAsOf : ℤ
  outstanding : ℤ
  bucket : Bucket
deriving DecidableEq

/-- The documents of a partner, and what they have outstanding by bucket. -/
structure PartnerAging where
  partnerId : Uuid
  partnerName : String
  documents : List AgedDocument
  buckets : Bucket → ℤ

structure AgingReport where
  kind : AgingKind
  asOf : UtcDay
  truncated : Bool
  partners : List PartnerAging
  totalsByBucket : Bucket → ℤ
  totalOutstanding : ℤ

namespace Aging

/-- The buckets, in the order of the report. -/
def buckets : List Bucket := [.current, .upTo30, .upTo60, .upTo90, .over90]

/-- The number of documents a request may read. -/
def maxDocuments : ℕ := 10000

def bucketOf (daysPastDue : ℤ) : Bucket :=
  if daysPastDue ≤ 0 then .current
  else if daysPastDue ≤ 30 then .upTo30
  else if daysPastDue ≤ 60 then .upTo60
  else if daysPastDue ≤ 90 then .upTo90
  else .over90

/-! ## The query -/

/-- What the posted payments up to a day have allocated to a document. -/
def paidAsOf (db : Db) (kind : DocumentKind) (day : UtcDay) (id : Uuid) : ℤ :=
  payments.sum (fun _ p =>
    if p.status = .posted ∧ p.deletedAt = none ∧ p.date ≤ day then
      ((p.allocations.filter fun a => a.idOf kind = some id).map (·.amount)).sum
    else 0) db

/-- The row of a document, joined with its partner. -/
def docRow (db : Db) (kind : DocumentKind) (day : UtcDay) (id : Uuid) (d : Document) :
    Option DocRow :=
  (db.partner d.partnerId).map fun partner =>
    ⟨id, d.ref, d.partnerId, partner.name, d.date, d.dueDate, d.total, paidAsOf db kind day id⟩

/-- The posted documents dated up to a day that were not fully paid by it, in the order of the store. -/
def openDocuments (db : Db) (kind : DocumentKind) (day : UtcDay) : List DocRow :=
  db.collect fun
    | .document k id, d =>
      if k = kind ∧ d.status = .posted ∧ d.deletedAt = none ∧ d.date ≤ day then
        (docRow db kind day id d).filter fun r => r.paidAsOf < r.total
      else none
    | _, _ => none

/-- The order of the query: by the partner's name, as the database collates names, then by date. -/
def Before (collate : String → String → Bool) (r r' : DocRow) : Prop :=
  collate r.partnerName r'.partnerName = true ∧
    (collate r'.partnerName r.partnerName = true → r.date ≤ r'.date)

instance (collate : String → String → Bool) : DecidableRel (Before collate) :=
  fun _ _ => inferInstanceAs (Decidable (_ ∧ (_ → _)))

/-- The first documents in the order of the query; those that tie keep the order of the store. -/
def query (collate : String → String → Bool) (db : Db) (kind : DocumentKind) (day : UtcDay)
    (limit : ℕ) : List DocRow :=
  ((openDocuments db kind day).insertionSort (Before collate)).take limit

/-! ## The pass over the documents -/

/-- What one pass over the documents has gathered. -/
structure Accumulator where
  byPartner : List PartnerAging
  grand : Bucket → ℤ
  grandTotal : ℤ

def start : Accumulator := ⟨[], fun _ => Money.zero, Money.zero⟩

/-- The amount added to the sum of a bucket. -/
def addTo (sums : Bucket → ℤ) (bucket : Bucket) (amount : ℤ) : Bucket → ℤ :=
  Function.update sums bucket (Money.add (sums bucket) amount)

/-- The document added to a partner. -/
def addDocument (d : AgedDocument) (g : PartnerAging) : PartnerAging :=
  { g with documents := g.documents ++ [d], buckets := addTo g.buckets d.bucket d.outstanding }

/-- The document added to the partner of its row, who comes last if there is none yet. -/
def setPartner (r : DocRow) (d : AgedDocument) (gs : List PartnerAging) : List PartnerAging :=
  if gs.any fun g => g.partnerId = r.partnerId then
    gs.map fun g => if g.partnerId = r.partnerId then addDocument d g else g
  else gs ++ [addDocument d ⟨r.partnerId, r.partnerName, [], fun _ => Money.zero⟩]

/-- The whole days between a due date and the day of the report. -/
def daysPastDue (day dueOrDate : UtcDay) : ℤ :=
  ((Instant.midnight day).getTime -
    (Instant.midnight (truncateToUtcDay (.midnight dueOrDate))).getTime) / 86400000

/-- One document added to the sums, unless nothing is outstanding. -/
def addRow (day : UtcDay) (acc : Accumulator) (r : DocRow) : Accumulator :=
  let outstanding := Money.subtract r.total r.paidAsOf
  if Money.isZero outstanding || Money.isNegative outstanding then acc
  else
    let bucket := bucketOf (daysPastDue day (r.dueDate.getD r.date))
    let d : AgedDocument :=
      ⟨r.ref, r.date, r.dueDate, r.total, r.paidAsOf, outstanding, bucket⟩
    ⟨setPartner r d acc.byPartner, addTo acc.grand bucket outstanding,
      Money.add acc.grandTotal outstanding⟩

/-- The report, from what the query has answered. -/
def report (kind : AgingKind) (asOf : Instant) (maxDocs : ℕ) (rows : List DocRow) : AgingReport :=
  let truncated : Bool := maxDocs < rows.length
  let included := if truncated then rows.take maxDocs else rows
  let acc := included.foldl (addRow (truncateToUtcDay asOf)) start
  ⟨kind, asOf.day, truncated, acc.byPartner, acc.grand, acc.grandTotal⟩

def aging (collate : String → String → Bool) (db : Db) (kind : AgingKind) (asOf : Instant)
    (maxDocs : ℕ := maxDocuments) : AgingReport :=
  report kind asOf maxDocs
    (query collate db kind.documents (truncateToUtcDay asOf) (maxDocs + 1))

end Aging

end AccountingApi
