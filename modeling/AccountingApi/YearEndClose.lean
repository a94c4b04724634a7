import AccountingApi.Ledger.Balances
import AccountingApi.Ledger.Posting

/-!
# Year-end close

A close writes an entry that brings every revenue and expense account of the year to zero against
retained earnings, and marks the year closed. A reopen reverses that entry. A year without profit or
loss movement is marked closed without an entry, and reopened without a reversal.

## Main definitions

* `YearEndClose.close`, `YearEndClose.reopen`
-/

namespace AccountingApi

open ReadCommitted

namespace YearEndClose

open Balances

def isPnl (type : AccountType) : Bool := type = .revenue || type = .expense

/-- An account's position, debit less credit. -/
def position (r : AccountBalanceRow) : ℤ := Money.subtract r.debit r.credit

/-- The line that brings an account with the given position to zero. -/
def zeroingLine (accountId : Uuid) (position : ℤ) : PostLineInput :=
  if Money.isNegative position then
    { accountId := accountId, debit := some (Money.multiply position (-1) 0) }
  else { accountId := accountId, credit := some position }

/-- The closing lines of the profit and loss accounts, after the lines and the net income so far. -/
def closingLines (lines : List PostLineInput) (netIncome : ℤ) :
    List AccountBalanceRow → List PostLineInput × ℤ
  | [] => (lines, netIncome)
  | r :: rows =>
    if Money.isZero (position r) then closingLines lines netIncome rows
    else
      closingLines (lines ++ [zeroingLine r.accountId (position r)])
        (Money.subtract netIncome (position r)) rows

/-- The line that carries the net income to retained earnings. -/
def retainedLine (accountId : Uuid) (netIncome : ℤ) : PostLineInput :=
  if Money.isNegative netIncome then
    { accountId := accountId, debit := some (Money.multiply netIncome (-1) 0) }
  else { accountId := accountId, credit := some netIncome }

/-- The retained-earnings line, where there is net income. -/
def retainedLines (netIncome : ℤ) : Program (List PostLineInput) :=
  if Money.isZero netIncome then pure []
  else do
    let db ← select .account
    let retained ← Prog.orThrow (Db.accountOfRole db .retainedEarnings)
      (.validationFailed "Laba Ditahan account missing from chart"
        [("role", .text "RETAINED_EARNINGS")])
    pure [retainedLine retained.1 netIncome]

/-- The record of a closed year. -/
def closedRecord (closingEntryId : Option Uuid) (netIncome : ℤ) (closedBy : Uuid)
    (now : Timestamp) : YearEndClosing :=
  ⟨.closed, closingEntryId, netIncome, now, closedBy, none, none⟩

/-- The year's record inserted or overwritten. -/
def upsertClosing (fiscalYear : ℤ) (rec : YearEndClosing) : Program Unit := do
  let _ ← forUpdate (.closing fiscalYear)
  Prog.ensure rec.Valid .columnViolation
  Prog.write (.closing fiscalYear) rec

/-- The close of a year without movement; no lock of the year is taken. -/
def upsertClosed (fiscalYear : ℤ) (closingEntryId : Option Uuid) (netIncome : ℤ) (closedBy : Uuid)
    (now : Timestamp) : Program (Option YearEndClosing) := do
  let rec_ := closedRecord closingEntryId netIncome closedBy now
  transaction (upsertClosing fiscalYear rec_)
  pure (some rec_)

/-- The exclusive lock of the year, and its status read under it. -/
def lockAndReadClosingStatus (fiscalYear : ℤ) : Program (Option OpenClosed) := do
  let _ ← lockName (.fiscalYear fiscalYear) .exclusive
  let db ← select .closing
  pure ((Db.closing db fiscalYear).map (·.status))

def alreadyClosed (fiscalYear : ℤ) : Failure :=
  .conflict "Fiscal year is already closed" [("fiscalYear", .year fiscalYear)]

def closingInput (fiscalYear : ℤ) (yearEnd : UtcDay) (closedBy : Uuid)
    (lines : List PostLineInput) : PostEntryInput :=
  ⟨yearEnd, "Year-end close FY" ++ toString fiscalYear, .closing, none, closedBy, lines⟩

/-- The closing entry and the year's record, in one transaction under the exclusive lock. -/
def closeInTx (fiscalYear : ℤ) (prepared : Posting.PreparedPosting) (netIncome : ℤ)
    (closedBy entryId : Uuid) (now : Timestamp) : Program Unit := do
  let status ← lockAndReadClosingStatus fiscalYear
  Prog.ensure (status ≠ some .closed) (alreadyClosed fiscalYear)
  let _ ← Posting.createPostedEntryInTx prepared entryId now
  upsertClosing fiscalYear (closedRecord (some entryId) netIncome closedBy now)

def close (fiscalYear : ℤ) (closedBy entryId : Uuid) (now : Timestamp) :
    Program (Option YearEndClosing) := do
  let db ← select .closing
  Prog.ensure (¬ Posting.yearIsClosed db fiscalYear) (alreadyClosed fiscalYear)
  let (fyStart, yearEnd) ← Company.fiscalYearBounds fiscalYear
  -- the movements are read before the lock is taken
  let db ← select .movements
  let rows := (movementsBetween db fyStart yearEnd).filter fun r => isPnl r.type
  let (lines, netIncome) := closingLines [] Money.zero rows
  if lines = [] then upsertClosed fiscalYear none 0 closedBy now
  else do
    let retained ← retainedLines netIncome
    let prepared ← Posting.preparePosting
      (closingInput fiscalYear yearEnd closedBy (lines ++ retained)) closedBy
    transaction (closeInTx fiscalYear prepared netIncome closedBy entryId now)
    let db ← select .closing
    pure (Db.closing db fiscalYear)

def notClosed (fiscalYear : ℤ) : Failure :=
  .validationFailed "Fiscal year is not closed" [("fiscalYear", .year fiscalYear)]

/-- The record of a reopened year. -/
def reopenedRecord (reopenedBy : Uuid) (now : Timestamp) (rec : YearEndClosing) : YearEndClosing :=
  { rec with status := .opened, reopenedAt := some now, reopenedBy := some reopenedBy }

def updateClosing (fiscalYear : ℤ) (f : YearEndClosing → YearEndClosing) :
    Program YearEndClosing :=
  updateRow (.closing fiscalYear) (fun _ => True) f YearEndClosing.Valid

/-- The reversal of the closing entry and the year's record, in one transaction under the exclusive
lock. -/
def reopenInTx (fiscalYear : ℤ) (prepared : Posting.PreparedReversal) (reopenedBy reversalId : Uuid)
    (now : Timestamp) : Program Unit := do
  let status ← lockAndReadClosingStatus fiscalYear
  Prog.ensure (status = some .closed) (notClosed fiscalYear)
  let _ ← Posting.reverseInTx prepared reversalId now
  let _ ← updateClosing fiscalYear (reopenedRecord reopenedBy now)
  pure ()

/-- The reopening of a year whose record has the given closing entry; without one, no lock of the year
is taken. -/
def reopenWith (fiscalYear : ℤ) (reopenedBy reversalId : Uuid) (now : Timestamp) :
    Option Uuid → Program Unit
  | some closingEntryId => do
    let prepared ← Posting.prepareReversal closingEntryId reopenedBy none true
    transaction (reopenInTx fiscalYear prepared reopenedBy reversalId now)
  | none => transaction do
    let _ ← updateClosing fiscalYear (reopenedRecord reopenedBy now)
    pure ()

def reopen (fiscalYear : ℤ) (reopenedBy reversalId : Uuid) (now : Timestamp) :
    Program (Option YearEndClosing) := do
  let db ← select .closing
  let rec_ ← Prog.orThrow ((Db.closing db fiscalYear).filter (·.status = .closed))
    (notClosed fiscalYear)
  reopenWith fiscalYear reopenedBy reversalId now rec_.closingEntryId
  let db ← select .closing
  pure (Db.closing db fiscalYear)

end YearEndClose

end AccountingApi
