import AccountingApi.Reporting.BalanceSheet

/-!
# The income statement

Revenues and expenses of a range of days, in sections by subtype. The account of the income tax has a
line of its own, whatever its subtype is.

## Main definitions

* `IncomeStatement.sectionOf`: the lines of some rows, and their total
* `IncomeStatement.generate`
-/

namespace AccountingApi

open ReadCommitted

structure IncomeStatement where
  fromDay : UtcDay
  toDay : UtcDay
  revenue : ℤ
  revenueLines : List ReportLine
  cogs : ℤ
  cogsLines : List ReportLine
  grossProfit : ℤ
  operatingExpense : ℤ
  operatingExpenseLines : List ReportLine
  operatingProfit : ℤ
  otherIncome : ℤ
  otherExpense : ℤ
  profitBeforeTax : ℤ
  taxExpense : ℤ
  netIncome : ℤ
deriving DecidableEq

namespace IncomeStatement

open Balances

/-- The lines of the rows that satisfy `pred`, on the natural side of their types, and their total. -/
def sectionOf (rows : List AccountBalanceRow) (pred : AccountBalanceRow → Bool) :
    List ReportLine × ℤ :=
  ((rows.filter pred).map BalanceSheet.toLine, Money.sum ((rows.filter pred).map BalanceSheet.amount))

/-- The section of a subtype. -/
def bySubtype (rows : List AccountBalanceRow) (subtype : AccountSubtype) : List ReportLine × ℤ :=
  sectionOf rows fun r => r.subtype = subtype

/-- The row of the account of the income tax. -/
def isTax (r : AccountBalanceRow) : Bool := r.role = some .taxExpense

/-- The statement of some movements. -/
def ofRows (fromDay toDay : UtcDay) (movements : List AccountBalanceRow) : IncomeStatement :=
  let all := movements.filter BalanceSheet.isPnl
  -- the tax is pulled out first, so that it does not count in the section of its subtype
  let taxRows := all.filter isTax
  let rows := all.filter fun r => !isTax r
  let revenue := bySubtype rows .revenue
  let cogs := bySubtype rows .cogs
  let grossProfit := Money.subtract revenue.2 cogs.2
  let opex := bySubtype rows .operatingExpense
  let operatingProfit := Money.subtract grossProfit opex.2
  let otherIncome := bySubtype rows .otherIncome
  let otherExpense := bySubtype rows .otherExpense
  let profitBeforeTax := Money.subtract (Money.add operatingProfit otherIncome.2) otherExpense.2
  let tax := sectionOf taxRows fun _ => true
  { fromDay := fromDay
    toDay := toDay
    revenue := revenue.2
    revenueLines := revenue.1
    cogs := cogs.2
    cogsLines := cogs.1
    grossProfit := grossProfit
    operatingExpense := opex.2
    operatingExpenseLines := opex.1
    operatingProfit := operatingProfit
    otherIncome := otherIncome.2
    otherExpense := otherExpense.2
    profitBeforeTax := profitBeforeTax
    taxExpense := tax.2
    netIncome := Money.subtract profitBeforeTax tax.2 }

def generate (db : Db) (f t : Instant) : IncomeStatement :=
  ofRows f.day t.day (movementsBetween db (truncateToUtcDay f) (truncateToUtcDay t))

end IncomeStatement

end AccountingApi
