import AccountingApi.Reporting.BalanceSheet

/-!
# The cash-flow statement

What the movements of all other accounts have done to cash over a range of days: the net income of the
profit and loss accounts, and the balance-sheet accounts in three sections by category.

## Main definitions

* `CashFlow.sections`: the lines and totals of the three sections
* `CashFlow.generate`

## Main results

* `CashFlow.sections_eq`: a section is made of the rows of its category that have moved
-/

namespace AccountingApi

open ReadCommitted

structure CashFlowLine where
  code : String
  name : String
  amount : ℤ
deriving DecidableEq

/-- The lines of a section, and its total. -/
structure CashFlowSection where
  lines : List CashFlowLine
  total : ℤ
deriving DecidableEq

structure CashFlow where
  fromDay : UtcDay
  toDay : UtcDay
  netIncome : ℤ
  operating : CashFlowSection
  investing : CashFlowSection
  financing : CashFlowSection
  netChange : ℤ
  kasAwal : ℤ
  kasAkhir : ℤ
  reconciles : Bool
deriving DecidableEq

namespace CashFlow

open Balances

/-- The sections of the statement. -/
inductive Bucket where
  | operating | investing | financing
deriving DecidableEq

def bucket : CashFlowCategory → Bucket
  | .investing => .investing
  | .financing => .financing
  | .operating => .operating
  | .none => .operating

def isCash (r : AccountBalanceRow) : Bool := r.role = some .cash

/-- The cash an account's movement provides. -/
def cashEffect (r : AccountBalanceRow) : ℤ := Money.subtract r.credit r.debit

/-- What the cash accounts hold, which are debit-normal. -/
def cashBalance (rows : List AccountBalanceRow) : ℤ :=
  Money.sum ((rows.filter isCash).map fun r => Money.subtract r.debit r.credit)

def toLine (r : AccountBalanceRow) : CashFlowLine := ⟨r.code, r.name, cashEffect r⟩

/-- A row is added to the section of its category, if it has moved. -/
def addRow (sections : Bucket → CashFlowSection) (r : AccountBalanceRow) :
    Bucket → CashFlowSection :=
  if Money.isZero (cashEffect r) then sections
  else Function.update sections (bucket r.cashFlowCategory)
    ⟨(sections (bucket r.cashFlowCategory)).lines ++ [toLine r],
      Money.add (sections (bucket r.cashFlowCategory)).total (cashEffect r)⟩

/-- The rows by section, one after the other. -/
def sections (rows : List AccountBalanceRow) : Bucket → CashFlowSection :=
  rows.foldl addRow fun _ => ⟨[], Money.zero⟩

/-- The statement of some movements, and of the balances before and after them. -/
def ofRows (fromDay toDay : UtcDay) (movements before after : List AccountBalanceRow) : CashFlow :=
  let nonCash := movements.filter fun r => !isCash r
  let netIncome := Money.sum ((nonCash.filter BalanceSheet.isPnl).map cashEffect)
  let bs := nonCash.filter fun r => !BalanceSheet.isPnl r
  let operating := Money.add netIncome (sections bs .operating).total
  let netChange := Money.add (Money.add operating (sections bs .investing).total)
    (sections bs .financing).total
  let kasAwal := cashBalance before
  let kasAkhir := cashBalance after
  { fromDay := fromDay
    toDay := toDay
    netIncome := netIncome
    operating := ⟨(sections bs .operating).lines, operating⟩
    investing := sections bs .investing
    financing := sections bs .financing
    netChange := netChange
    kasAwal := kasAwal
    kasAkhir := kasAkhir
    reconciles := Money.add kasAwal netChange = kasAkhir }

def generate (db : Db) (f t : Instant) : CashFlow :=
  ofRows f.day t.day (movementsBetween db (truncateToUtcDay f) (truncateToUtcDay t))
    (balancesAsOf db (truncateToUtcDay (dayBefore f))) (balancesAsOf db (truncateToUtcDay t))

/-! ## The sections -/

/-- The rows of a section: those of its category that have moved. -/
def inBucket (b : Bucket) (r : AccountBalanceRow) : Bool :=
  bucket r.cashFlowCategory = b && !Money.isZero (cashEffect r)

/-- **A section is made of the rows of its category that have moved.** -/
theorem sections_eq (rows : List AccountBalanceRow) (b : Bucket) :
    sections rows b = ⟨(rows.filter (inBucket b)).map toLine,
      Money.sum ((rows.filter (inBucket b)).map cashEffect)⟩ := by
  induction rows using List.reverseRecOn with
  | nil => rfl
  | append_singleton rows r ih =>
    have hfold : sections (rows ++ [r]) b = addRow (sections rows) r b :=
      congrFun (List.foldl_append ..) b
    rw [hfold, List.filter_append, addRow]
    by_cases hzero : Money.isZero (cashEffect r) = true
    · have hout : inBucket b r = false := by simp [inBucket, hzero]
      rw [if_pos hzero, ih, List.filter_cons_of_neg (by simp [hout]), List.filter_nil,
        List.append_nil]
    · rw [if_neg hzero]
      by_cases hb : bucket r.cashFlowCategory = b
      · have hin : inBucket b r = true := by simp [inBucket, hzero, hb]
        rw [hb, Function.update_self, ih, List.filter_cons_of_pos hin, List.filter_nil,
          List.map_append, List.map_append, Money.sum, Money.sum, List.foldl_append]
        rfl
      · have hout : inBucket b r = false := by simp [inBucket, hb]
        rw [Function.update_of_ne (Ne.symm hb), ih, List.filter_cons_of_neg (by simp [hout]),
          List.filter_nil, List.append_nil]

end CashFlow

end AccountingApi
