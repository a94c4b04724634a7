import AccountingApi.Company
import AccountingApi.DocRef
import Mathlib.Data.List.Sort

/-!
# The periods service

A fiscal year has twelve periods, one for each of its months, which are generated together. An entry
is posted into the open period that contains its date.

## Main definitions

* `Periods.generatePeriods`, `Periods.list`: the periods of a fiscal year
* `Periods.findOpenPeriodForDate`: the open period that contains a date
* `Periods.close`, `Periods.reopen`: the status of one period
-/

namespace AccountingApi

open ReadCommitted

theorem Db.mem_periods {db : Db} {id : Uuid} {p : AccountingPeriod} :
    (id, p) ∈ Db.periods db ↔ Db.period db id = some p := by
  rw [Db.periods, Store.mem_collect]
  constructor
  · rintro ⟨k, v, hv, hk⟩
    cases k <;> simp only [Option.some.injEq, Prod.mk.injEq, reduceCtorEq] at hk
    obtain ⟨rfl, rfl⟩ := hk
    simpa [Db.period, Table.get, AccountingApi.periods] using hv
  · intro hp
    refine ⟨.period id, p, ?_, rfl⟩
    simpa [Db.period, Table.get, AccountingApi.periods] using hp

/-- Two periods that a unique index of the table does not allow together. -/
def AccountingPeriod.Conflicts (p q : AccountingPeriod) : Prop :=
  (p.fiscalYear = q.fiscalYear ∧ p.sequence = q.sequence) ∨ p.name = q.name

instance (p q : AccountingPeriod) : Decidable (p.Conflicts q) :=
  inferInstanceAs (Decidable (_ ∨ _))

/-- The key of a period, or a value of its unique columns, is in use. -/
def Db.periodTaken (db : Db) (id : Uuid) (p : AccountingPeriod) : Prop :=
  Db.period db id ≠ none ∨ ∃ q ∈ Db.periods db, p.Conflicts q.2

instance (db : Db) (id : Uuid) (p : AccountingPeriod) : Decidable (Db.periodTaken db id p) :=
  inferInstanceAs (Decidable (_ ∨ ∃ _ ∈ _, _))

namespace Periods

/-- The periods of a fiscal year, by their number. -/
def ofYear (db : Db) (fiscalYear : ℤ) : List (Uuid × AccountingPeriod) :=
  ((Db.periods db).filter fun p => p.2.fiscalYear = fiscalYear).insertionSort
    fun p q => p.2.sequence ≤ q.2.sequence

def list (fiscalYear : ℤ) : Program (List (Uuid × AccountingPeriod)) := do
  let db ← select .period
  pure (ofYear db fiscalYear)

/-! ## Generation -/

/-- The name of a period: the fiscal year and the number in it, whatever month it starts in. -/
def periodName (fiscalYear : ℤ) (sequence : ℕ) : String :=
  toString fiscalYear ++ "-" ++ padStart 2 (toString sequence)

/-- The period number `i + 1` of a fiscal year that starts in the month `startMonth`. -/
def newPeriod (fiscalYear : ℤ) (startMonth i : ℕ) : AccountingPeriod :=
  -- counted from January of the fiscal year as `0`
  let monthIndex := startMonth - 1 + i
  let year := fiscalYear + (monthIndex / 12 : ℕ)
  let month := monthIndex % 12
  { fiscalYear := fiscalYear
    sequence := i + 1
    name := periodName fiscalYear (i + 1)
    startDate := .dateUtc year month 1
    endDate := .dateUtc year (month + 1) 0
    status := .opened
    closedAt := none
    closedBy := none }

def newPeriods (fiscalYear : ℤ) (startMonth : ℕ) : List AccountingPeriod :=
  (List.range 12).map (newPeriod fiscalYear startMonth)

/-- `INSERT … ON CONFLICT DO NOTHING` of one period; the unique indexes wait for an uncommitted period
of the same number or the same name. -/
def insertPeriod (id : Uuid) (period : AccountingPeriod) : Program Unit := do
  let _ ← lockName (.periodSequence period.fiscalYear period.sequence) .exclusive
  let _ ← lockName (.periodName period.name) .exclusive
  let db ← forUpdate (.period id)
  Prog.when (¬ Db.periodTaken db id period) (Prog.write (.period id) period)

/-- The periods of a fiscal year, generated unless they are all there; `newId` draws their keys. -/
def generatePeriods (fiscalYear : ℤ) (newId : ℕ → Uuid) :
    Program (List (Uuid × AccountingPeriod)) := do
  let existing ← list fiscalYear
  if existing.length = 12 then pure existing
  else do
    let (start, _) ← Company.fiscalYearBounds fiscalYear
    transaction (Prog.forEach (newPeriods fiscalYear start.month) fun period =>
      insertPeriod (newId period.sequence) period)
    list fiscalYear

/-! ## Dates -/

/-- The open period that contains the date. -/
def findOpenPeriodForDate (date : Instant) : Program (Option Uuid) := do
  let day := truncateToUtcDay date
  let db ← select .period
  pure (((Db.periods db).find? fun p =>
    p.2.status = .opened ∧ p.2.startDate ≤ day ∧ day ≤ p.2.endDate).map Prod.fst)

/-! ## Status -/

def updatePeriod (id : Uuid) (f : AccountingPeriod → AccountingPeriod) : Program AccountingPeriod :=
  updateRow (.period id) (fun _ => True) f fun _ => True

def markClosed (closedBy : Uuid) (now : Timestamp) (p : AccountingPeriod) : AccountingPeriod :=
  { p with status := .closed, closedAt := some now, closedBy := some closedBy }

def markOpen (p : AccountingPeriod) : AccountingPeriod :=
  { p with status := .opened, closedAt := none, closedBy := none }

/-- The period is closed under the lock of its row, which a posting into it holds shared. -/
def close (id closedBy : Uuid) (now : Timestamp) : Program AccountingPeriod :=
  transaction do
    let db ← forUpdate (.period id)
    let period ← Prog.orThrow (Db.period db id) (.notFound "Period not found" [("id", .id id)])
    Prog.ensure (period.status ≠ .closed) (.conflict "Period already closed" [("id", .id id)])
    updatePeriod id (markClosed closedBy now)

def reopen (id : Uuid) : Program AccountingPeriod := do
  let db ← select .period
  let period ← Prog.orThrow (Db.period db id) (.notFound "Period not found" [("id", .id id)])
  Prog.ensure (period.status ≠ .opened) (.conflict "Period is not closed" [("id", .id id)])
  transaction (updatePeriod id markOpen)

end Periods

end AccountingApi
