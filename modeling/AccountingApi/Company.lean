import AccountingApi.Client

/-!
# The company service

The settings of the company are one row. The fiscal years are computed from the start month it
currently holds.

## Main definitions

* `Company.get`, `Company.update`
* `Company.fiscalYearFor`, `Company.fiscalYearBounds`: fiscal years by the current settings
-/

namespace AccountingApi

open ReadCommitted

namespace Company

structure UpdateInput where
  legalName : Option String
  npwp : Option String
  address : Option String
  fiscalYearStartMonth : Option StartMonth
  segregationOfDutiesEnabled : Option Bool
  isPkp : Option Bool

def get : Program CompanySettings := do
  let db ← select .settings
  Prog.orThrow (Db.settings db) (.notFound "Company settings not initialized" [])

/-- The fiscal year a date falls into, by the configured start month. -/
def fiscalYearFor (date : UtcDay) : Program ℤ := do
  let settings ← get
  pure (fiscalYearForDate date settings.fiscalYearStartMonth)

/-- The first and the last day of a fiscal year. -/
def fiscalYearBounds (fiscalYear : ℤ) : Program (UtcDay × UtcDay) := do
  let settings ← get
  pure (fiscalYearStartDate fiscalYear settings.fiscalYearStartMonth,
    fiscalYearEndDate fiscalYear settings.fiscalYearStartMonth)

/-- Segregation of duties, where enabled, forbids to post a manual entry of one's own. -/
def isSegregationViolation (sourceType : JournalSourceType) (createdBy postedBy : Uuid) :
    Program Bool := do
  let settings ← get
  pure (settings.segregationOfDutiesEnabled && sourceType = .manual && postedBy = createdBy)

/-- The fields that are given replace those of the settings. -/
def applyUpdate (input : UpdateInput) (settings : CompanySettings) : CompanySettings where
  legalName := input.legalName.getD settings.legalName
  npwp := input.npwp.or settings.npwp
  address := input.address.or settings.address
  fiscalYearStartMonth := input.fiscalYearStartMonth.getD settings.fiscalYearStartMonth
  segregationOfDutiesEnabled :=
    input.segregationOfDutiesEnabled.getD settings.segregationOfDutiesEnabled
  isPkp := input.isPkp.getD settings.isPkp

def update (input : UpdateInput) : Program CompanySettings := do
  let _ ← get
  transaction (updateRow .settings (fun _ => True) (applyUpdate input) fun _ => True)

end Company

end AccountingApi
