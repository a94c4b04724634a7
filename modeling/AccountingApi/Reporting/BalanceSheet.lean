import AccountingApi.Ledger.Balances

/-!
# The balance sheet

Assets, liabilities and equity up to a day, grouped by subtype. The earnings that no close has brought
to equity are a group of their own, so that the sheet balances at any time of the year.

## Main definitions

* `BalanceSheet.group`: the rows of one type, grouped by subtype
* `BalanceSheet.generate`
-/

namespace AccountingApi

open ReadCommitted

structure ReportLine where
  code : String
  name : String
  amount : ℤ
deriving DecidableEq

/-- What the lines of a group have in common. -/
inductive GroupKey where
  | subtype (subtype : AccountSubtype)
  | currentEarnings
deriving DecidableEq

structure ReportGroup where
  key : GroupKey
  lines : List ReportLine
  subtotal : ℤ
deriving DecidableEq

structure BalanceSheet where
  asOf : UtcDay
  assets : List ReportGroup
  liabilities : List ReportGroup
  equity : List ReportGroup
  totalAssets : ℤ
  totalLiabilities : ℤ
  totalEquity : ℤ
  currentYearEarnings : ℤ
  balanced : Bool
deriving DecidableEq

namespace BalanceSheet

open Balances

/-- The amount of a row on the natural side of its type. -/
def amount (r : AccountBalanceRow) : ℤ := naturalSide r.type r.debit r.credit

def toLine (r : AccountBalanceRow) : ReportLine := ⟨r.code, r.name, amount r⟩

/-- The line added to the group of its subtype, which is a new one at the end if need be. -/
def addLine (subtype : AccountSubtype) (l : ReportLine) :
    List (AccountSubtype × List ReportLine) → List (AccountSubtype × List ReportLine)
  | [] => [(subtype, [l])]
  | g :: groups =>
    if g.1 = subtype then (g.1, g.2 ++ [l]) :: groups else g :: addLine subtype l groups

/-- The lines of the rows by subtype, in the order in which these come up. -/
def bySubtype (rows : List AccountBalanceRow) : List (AccountSubtype × List ReportLine) :=
  rows.foldl (fun groups r => addLine r.subtype (toLine r) groups) []

/-- The groups of some rows, and their total. -/
def group (rows : List AccountBalanceRow) : List ReportGroup × ℤ :=
  ((bySubtype rows).map fun g => ⟨.subtype g.1, g.2, Money.sum (g.2.map (·.amount))⟩,
    Money.sum (rows.map amount))

def ofType (type : AccountType) (rows : List AccountBalanceRow) : List AccountBalanceRow :=
  rows.filter fun r => r.type = type

def isPnl (r : AccountBalanceRow) : Bool := r.type = .revenue || r.type = .expense

/-- What the credits of the profit and loss rows exceed their debits by. -/
def earnings (rows : List AccountBalanceRow) : ℤ :=
  Money.sum ((rows.filter isPnl).map fun r => Money.subtract r.credit r.debit)

/-- The sheet of some balances, with the movements since the start of the fiscal year. -/
def ofRows (asOf : UtcDay) (rows fyRows : List AccountBalanceRow) : BalanceSheet :=
  let assets := group (ofType .asset rows)
  let liabilities := group (ofType .liability rows)
  let eq := group (ofType .equity rows)
  let cumulativeEarnings := earnings rows
  let totalEquity := Money.add eq.2 cumulativeEarnings
  { asOf := asOf
    assets := assets.1
    liabilities := liabilities.1
    equity := eq.1 ++
      [⟨.currentEarnings, [⟨"", "Laba (Rugi) Berjalan", cumulativeEarnings⟩], cumulativeEarnings⟩]
    totalAssets := assets.2
    totalLiabilities := liabilities.2
    totalEquity := totalEquity
    currentYearEarnings := earnings fyRows
    balanced := assets.2 = Money.add liabilities.2 totalEquity }

def generate (db : Db) (asOf : UtcDay) : Except Failure BalanceSheet :=
  match Db.settings db with
  | none => .error (.notFound "Company settings not initialized" [])
  | some settings =>
    let fiscalYear := fiscalYearForDate asOf settings.fiscalYearStartMonth
    let fyStart := fiscalYearStartDate fiscalYear settings.fiscalYearStartMonth
    .ok (ofRows asOf (balancesAsOf db asOf) (movementsBetween db fyStart asOf))

end BalanceSheet

end AccountingApi
