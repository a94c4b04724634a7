import AccountingApi.Errors
import AccountingApi.Money
import AccountingApi.ReadCommitted.System
import AccountingApi.ReadCommitted.Table

/-!
# The tables

The rows the ledger's operations read and write. A journal entry carries its lines and a payment its
allocations, which are inserted with it and never changed; the lines of an invoice or a bill are
replaced by an update and are a row of their own.

## Main definitions

* `Account`, `BusinessPartner`, `TaxCode`, `AccountingPeriod`, `YearEndClosing`, `JournalEntry`,
  `Document`, `Payment`: the rows
* `Key`, `Row`: the tables with their primary keys
* `entries`, `documents`, …: the tables the operations change
* `LockName`: the advisory lock of a fiscal year and the unique indexes
* `Query`: what a read that may be stale is about
* `Db`, `Program`: the stores of these tables and the programs over them
-/

namespace AccountingApi

open ReadCommitted

/-! ## Enumerations -/

inductive AccountType where
  | asset | liability | equity | revenue | expense
deriving DecidableEq

inductive AccountSubtype where
  | currentAsset | nonCurrentAsset | fixedAsset | accumulatedDepreciation
  | currentLiability | nonCurrentLiability | equity | revenue | cogs | operatingExpense
  | otherIncome | otherExpense | taxPayable | taxReceivable
deriving DecidableEq

inductive CashFlowCategory where
  | operating | investing | financing | none
deriving DecidableEq

inductive NormalBalance where
  | debit | credit
deriving DecidableEq

inductive AccountRole where
  | cash | arControl | apControl | retainedEarnings | openingBalanceEquity | taxExpense
deriving DecidableEq

inductive OpenClosed where
  | opened | closed
deriving DecidableEq

inductive JournalStatus where
  | draft | posted | reversed
deriving DecidableEq

inductive JournalSourceType where
  | manual | opening | reversal | salesInvoice | purchaseBill | payment | closing
deriving DecidableEq

inductive TaxKind where
  | ppnOutput | ppnInput | pphPayable | pphPrepaid
deriving DecidableEq

inductive DocumentStatus where
  | draft | posted | void
deriving DecidableEq

inductive PaymentDirection where
  | receipt | disbursement
deriving DecidableEq

/-- A sales invoice or a purchase bill. -/
inductive DocumentKind where
  | salesInvoice | purchaseBill
deriving DecidableEq

/-- The documents numbered by a sequence of their own. -/
inductive DocumentType where
  | inv | bill | payRcv | payDsb
deriving DecidableEq

/-! The names of the values that errors report. -/

def AccountType.name : AccountType → String
  | .asset => "ASSET"
  | .liability => "LIABILITY"
  | .equity => "EQUITY"
  | .revenue => "REVENUE"
  | .expense => "EXPENSE"

def AccountSubtype.name : AccountSubtype → String
  | .currentAsset => "CURRENT_ASSET"
  | .nonCurrentAsset => "NON_CURRENT_ASSET"
  | .fixedAsset => "FIXED_ASSET"
  | .accumulatedDepreciation => "ACCUMULATED_DEPRECIATION"
  | .currentLiability => "CURRENT_LIABILITY"
  | .nonCurrentLiability => "NON_CURRENT_LIABILITY"
  | .equity => "EQUITY"
  | .revenue => "REVENUE"
  | .cogs => "COGS"
  | .operatingExpense => "OPERATING_EXPENSE"
  | .otherIncome => "OTHER_INCOME"
  | .otherExpense => "OTHER_EXPENSE"
  | .taxPayable => "TAX_PAYABLE"
  | .taxReceivable => "TAX_RECEIVABLE"

def AccountRole.name : AccountRole → String
  | .cash => "CASH"
  | .arControl => "AR_CONTROL"
  | .apControl => "AP_CONTROL"
  | .retainedEarnings => "RETAINED_EARNINGS"
  | .openingBalanceEquity => "OPENING_BALANCE_EQUITY"
  | .taxExpense => "TAX_EXPENSE"

def JournalStatus.name : JournalStatus → String
  | .draft => "DRAFT"
  | .posted => "POSTED"
  | .reversed => "REVERSED"

def DocumentStatus.name : DocumentStatus → String
  | .draft => "DRAFT"
  | .posted => "POSTED"
  | .void => "VOID"

/-! ## Rows -/

structure CompanySettings where
  legalName : String
  npwp : Option String
  address : Option String
  fiscalYearStartMonth : StartMonth
  segregationOfDutiesEnabled : Bool
  isPkp : Bool
deriving DecidableEq

structure Account where
  code : String
  name : String
  type : AccountType
  subtype : AccountSubtype
  cashFlowCategory : CashFlowCategory
  role : Option AccountRole
  normalBalance : NormalBalance
  parentId : Option Uuid
  isPostable : Bool
  isActive : Bool
  deletedAt : Option Timestamp
  deletedBy : Option Uuid
deriving DecidableEq

structure BusinessPartner where
  name : String
  isCustomer : Bool
  isVendor : Bool
  isActive : Bool
  deletedAt : Option Timestamp
deriving DecidableEq

/-- A tax code; its rate counts millionths. -/
structure TaxCode where
  code : String
  kind : TaxKind
  rate : ℤ
  taxAccountId : Uuid
  isActive : Bool
  deletedAt : Option Timestamp
deriving DecidableEq

structure AccountingPeriod where
  fiscalYear : ℤ
  sequence : ℕ
  name : String
  startDate : UtcDay
  endDate : UtcDay
  status : OpenClosed
  closedAt : Option Timestamp
  closedBy : Option Uuid
deriving DecidableEq

structure YearEndClosing where
  status : OpenClosed
  closingEntryId : Option Uuid
  netIncome : ℤ
  closedAt : Timestamp
  closedBy : Uuid
  reopenedAt : Option Timestamp
  reopenedBy : Option Uuid
deriving DecidableEq

structure JournalLine where
  lineNo : ℕ
  accountId : Uuid
  debit : ℤ
  credit : ℤ
  description : Option String
deriving DecidableEq

structure JournalEntry where
  entryNumber : Option ℕ
  entryRef : Option String
  fiscalYear : Option ℤ
  date : UtcDay
  periodId : Option Uuid
  description : String
  sourceType : JournalSourceType
  sourceId : Option Uuid
  status : JournalStatus
  reversalOfId : Option Uuid
  reversedById : Option Uuid
  createdBy : Uuid
  postedBy : Option Uuid
  postedAt : Option Timestamp
  deletedAt : Option Timestamp
  deletedBy : Option Uuid
  lines : List JournalLine
deriving DecidableEq

/-- A line of an invoice or a bill; quantity, unit price and amount have four decimal places. -/
structure DocumentLine where
  lineNo : ℕ
  description : String
  accountId : Uuid
  quantity : ℤ
  unitPrice : ℤ
  amount : ℤ
  taxCodeIds : List Uuid
deriving DecidableEq

/-- A sales invoice or a purchase bill; only a bill has a `vendorInvoiceNo`. -/
structure Document where
  number : Option ℕ
  ref : Option String
  fiscalYear : Option ℤ
  partnerId : Uuid
  vendorInvoiceNo : Option String
  date : UtcDay
  dueDate : Option UtcDay
  description : Option String
  status : DocumentStatus
  subtotal : ℤ
  taxTotal : ℤ
  withholdingTotal : ℤ
  total : ℤ
  amountPaid : ℤ
  journalEntryId : Option Uuid
  createdBy : Uuid
  postedBy : Option Uuid
  postedAt : Option Timestamp
  deletedAt : Option Timestamp
  deletedBy : Option Uuid
deriving DecidableEq

structure PaymentAllocation where
  salesInvoiceId : Option Uuid
  purchaseBillId : Option Uuid
  amount : ℤ
deriving DecidableEq

structure Payment where
  number : Option ℕ
  ref : Option String
  fiscalYear : Option ℤ
  direction : PaymentDirection
  partnerId : Uuid
  date : UtcDay
  cashAccountId : Uuid
  amount : ℤ
  description : Option String
  status : DocumentStatus
  journalEntryId : Option Uuid
  createdBy : Uuid
  postedBy : Option Uuid
  postedAt : Option Timestamp
  deletedAt : Option Timestamp
  deletedBy : Option Uuid
  allocations : List PaymentAllocation
deriving DecidableEq

/-! ## Tables -/

/-- The counters: one for the journal entries of each fiscal year, one for the documents of each type
and fiscal year. -/
inductive Sequence where
  | journal (fiscalYear : ℤ)
  | document (documentType : DocumentType) (fiscalYear : ℤ)
deriving DecidableEq

/-- The primary keys. -/
inductive Key where
  | settings
  | account (id : Uuid)
  | partner (id : Uuid)
  | taxCode (id : Uuid)
  | period (id : Uuid)
  | closing (fiscalYear : ℤ)
  | sequence (s : Sequence)
  | entry (id : Uuid)
  | document (kind : DocumentKind) (id : Uuid)
  | documentLines (kind : DocumentKind) (id : Uuid)
  | payment (id : Uuid)
deriving DecidableEq

/-- The row under a key. -/
@[reducible] def Row : Key → Type
  | .settings => CompanySettings
  | .account _ => Account
  | .partner _ => BusinessPartner
  | .taxCode _ => TaxCode
  | .period _ => AccountingPeriod
  | .closing _ => YearEndClosing
  | .sequence _ => ℕ
  | .entry _ => JournalEntry
  | .document _ _ => Document
  | .documentLines _ _ => List DocumentLine
  | .payment _ => Payment

/-! The tables whose rows the operations change. -/

def entries : Table Row Uuid JournalEntry where
  key := .entry
  key_injective := fun _ _ => Key.entry.inj
  read := fun _ e => e
  pick
    | .entry id, e => some (id, e)
    | _, _ => none
  pick_key := fun _ _ => rfl
  key_of_pick := fun k _ _ h => by cases k <;> cases h; rfl

def documents : Table Row (DocumentKind × Uuid) Document where
  key x := .document x.1 x.2
  key_injective := fun _ _ h => Prod.ext (Key.document.inj h).1 (Key.document.inj h).2
  read := fun _ d => d
  pick
    | .document kind id, d => some ((kind, id), d)
    | _, _ => none
  pick_key := fun _ _ => rfl
  key_of_pick := fun k _ _ h => by cases k <;> cases h; rfl

def linesOfDocuments : Table Row (DocumentKind × Uuid) (List DocumentLine) where
  key x := .documentLines x.1 x.2
  key_injective := fun _ _ h => Prod.ext (Key.documentLines.inj h).1 (Key.documentLines.inj h).2
  read := fun _ ls => ls
  pick
    | .documentLines kind id, ls => some ((kind, id), ls)
    | _, _ => none
  pick_key := fun _ _ => rfl
  key_of_pick := fun k _ _ h => by cases k <;> cases h; rfl

def payments : Table Row Uuid Payment where
  key := .payment
  key_injective := fun _ _ => Key.payment.inj
  read := fun _ p => p
  pick
    | .payment id, p => some (id, p)
    | _, _ => none
  pick_key := fun _ _ => rfl
  key_of_pick := fun k _ _ h => by cases k <;> cases h; rfl

def accounts : Table Row Uuid Account where
  key := .account
  key_injective := fun _ _ => Key.account.inj
  read := fun _ a => a
  pick
    | .account id, a => some (id, a)
    | _, _ => none
  pick_key := fun _ _ => rfl
  key_of_pick := fun k _ _ h => by cases k <;> cases h; rfl

def periods : Table Row Uuid AccountingPeriod where
  key := .period
  key_injective := fun _ _ => Key.period.inj
  read := fun _ p => p
  pick
    | .period id, p => some (id, p)
    | _, _ => none
  pick_key := fun _ _ => rfl
  key_of_pick := fun k _ _ h => by cases k <;> cases h; rfl

def closings : Table Row ℤ YearEndClosing where
  key := .closing
  key_injective := fun _ _ => Key.closing.inj
  read := fun _ c => c
  pick
    | .closing fiscalYear, c => some (fiscalYear, c)
    | _, _ => none
  pick_key := fun _ _ => rfl
  key_of_pick := fun k _ _ h => by cases k <;> cases h; rfl

def sequences : Table Row Sequence ℕ where
  key := .sequence
  key_injective := fun _ _ => Key.sequence.inj
  read := fun _ n => n
  pick
    | .sequence s, n => some (s, n)
    | _, _ => none
  pick_key := fun _ _ => rfl
  key_of_pick := fun k _ _ h => by cases k <;> cases h; rfl

/-- The locks that are no row locks: the advisory lock of a fiscal year, and the entries of the unique
indexes that allow one reversal of a journal entry, one account with a code, one with a role, one
period of a number in a fiscal year, and one with a name. -/
inductive LockName where
  | fiscalYear (fiscalYear : ℤ)
  | reversalOf (id : Uuid)
  | accountCode (code : String)
  | accountRole (role : AccountRole)
  | periodSequence (fiscalYear : ℤ) (sequence : ℕ)
  | periodName (name : String)
deriving DecidableEq

/-- The queries a request makes. -/
inductive Query where
  | settings
  | account
  | postedLines
  | partner
  | taxCodes
  | period
  | closing
  | movements
  | journalEntry
  | document
  | documentLines
  | payment
deriving DecidableEq

/-- The database. -/
abbrev Db := Store Row

/-- A program over the database. -/
abbrev Program (α : Type) := Prog Row LockName Query Failure α

end AccountingApi
