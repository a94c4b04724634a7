import AccountingApi.Ledger.Balances
import AccountingApi.ReadCommitted.Update

/-!
# The general ledger

The posted lines of an account over a range of days, each with the balance it leads to. The lines come
by date and entry number, and no more than a maximum of them; the order leaves open how the lines of one
entry come. The opening and the closing balance are those of the balance aggregate.

## Main definitions

* `Db.storedRows`, `Db.lineRows`: the lines of an account that count, in the order of the report
* `GeneralLedger.withRunning`: lines with their running balances
* `GeneralLedger.generate`
-/

namespace AccountingApi

open ReadCommitted

/-- A row of the query for the lines of an account. -/
structure LineRow where
  date : UtcDay
  entryNumber : Option ℕ
  entryRef : Option String
  description : Option String
  debit : ℤ
  credit : ℤ
deriving DecidableEq

/-- The order of the entry numbers, those that are missing being the last. -/
def numberLe : Option ℕ → Option ℕ → Bool
  | some n, some n' => n ≤ n'
  | none, some _ => false
  | _, none => true

namespace LineRow

/-- The order of the report: by date, then by entry number. -/
def Le (r r' : LineRow) : Prop :=
  if r.date = r'.date then numberLe r.entryNumber r'.entryNumber = true else r.date ≤ r'.date

instance : DecidableRel Le := fun r r' =>
  inferInstanceAs (Decidable (if r.date = r'.date then
    numberLe r.entryNumber r'.entryNumber = true else r.date ≤ r'.date))

end LineRow

/-- The entry's lines on an account. -/
def JournalEntry.lineRows (e : JournalEntry) (accountId : Uuid) : List LineRow :=
  (e.lines.filter fun l => l.accountId = accountId).map fun l =>
    ⟨e.date, e.entryNumber, e.entryRef, l.description, l.debit, l.credit⟩

/-- The lines of an account in the counting entries whose date satisfies `p`, in the order of the
store. -/
def Db.storedRows (db : Db) (accountId : Uuid) (p : UtcDay → Prop) [DecidablePred p] :
    List LineRow :=
  (db.collect fun
    | .entry _, e => if e.Counts ∧ p e.date then some (e.lineRows accountId) else none
    | _, _ => none).flatten

/-- The lines in the order of the report; lines that tie come in the order in which the query comes
across them. -/
def Db.lineRows (db : Db) (accountId : Uuid) (p : UtcDay → Prop) [DecidablePred p]
    (scan : ScanOrder LineRow) : List LineRow :=
  (scan.order (Db.storedRows db accountId p)).insertionSort LineRow.Le

structure GeneralLedgerAccount where
  id : Uuid
  code : String
  name : String
  normalBalance : NormalBalance
deriving DecidableEq

structure GeneralLedgerLine where
  date : UtcDay
  entryRef : Option String
  description : Option String
  debit : ℤ
  credit : ℤ
  runningBalance : ℤ
deriving DecidableEq

structure GeneralLedger where
  account : GeneralLedgerAccount
  fromDay : UtcDay
  toDay : UtcDay
  openingBalance : ℤ
  lines : List GeneralLedgerLine
  truncated : Bool
  closingBalance : ℤ
deriving DecidableEq

namespace GeneralLedger

open Balances

/-- The most lines a report has. -/
def glMaxLines : ℕ := 10000

/-- The rows as lines, each with the balance so far. -/
def withRunning (normalBalance : NormalBalance) (running : ℤ) :
    List LineRow → List GeneralLedgerLine
  | [] => []
  | r :: rows =>
    let delta := signedNet normalBalance r.debit r.credit
    let next := Money.add running delta
    ⟨r.date, r.entryRef, r.description, r.debit, r.credit, next⟩ ::
      withRunning normalBalance next rows

def generate (db : Db) (accountId : Uuid) (f t : Instant) (scan : ScanOrder LineRow)
    (maxLines : ℕ := glMaxLines) : Except Failure GeneralLedger :=
  match Db.liveAccount db accountId with
  | none => .error (.notFound "Account not found" [("id", .id accountId)])
  | some account => do
    let opening ← accountBalance db accountId (truncateToUtcDay (dayBefore f))
    let rows := (Db.lineRows db accountId (fun d =>
      truncateToUtcDay f ≤ d ∧ d ≤ truncateToUtcDay t) scan).take (maxLines + 1)
    let truncated : Bool := rows.length > maxLines
    let included := if truncated then rows.take maxLines else rows
    let closing ← accountBalance db accountId (truncateToUtcDay (.midnight (truncateToUtcDay t)))
    .ok {
      account := ⟨accountId, account.code, account.name, account.normalBalance⟩
      fromDay := f.day
      toDay := t.day
      openingBalance := opening.balance
      lines := withRunning account.normalBalance opening.balance included
      truncated := truncated
      closingBalance := closing.balance }

end GeneralLedger

end AccountingApi
