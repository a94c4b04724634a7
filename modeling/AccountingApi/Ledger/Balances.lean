import AccountingApi.Client
import Mathlib.Data.List.Sort

/-!
# Account balances

The sums of the posted journal lines per account, over a period or up to a date. An entry counts from
the moment it is posted; a reversed entry still counts, together with its reversal.

## Main definitions

* `Db.sideOn`: the sum of one side over the posted entries of some dates
* `Balances.movementsBetween`, `Balances.balancesAsOf`, `Balances.accountBalance`
* `Balances.trialBalance`
* `Balances.signedNet`, `Balances.naturalSide`: the two sign conventions
-/

namespace AccountingApi

open ReadCommitted

/-- The entry counts toward balances: it is posted and not soft-deleted. -/
def JournalEntry.Counts (e : JournalEntry) : Prop := e.postedAt ≠ none ∧ e.deletedAt = none

instance (e : JournalEntry) : Decidable e.Counts := inferInstanceAs (Decidable (_ ∧ _))

/-- The sum of one side of the entry's lines on an account. -/
def JournalEntry.sideOn (e : JournalEntry) (accountId : Uuid) (side : JournalLine → ℤ) : ℤ :=
  ((e.lines.filter fun l => l.accountId = accountId).map side).sum

namespace Db

variable (db : Db)

/-- The sum of one side of an account over the counting entries whose date satisfies `p`. -/
def sideOn (accountId : Uuid) (side : JournalLine → ℤ) (p : UtcDay → Prop) [DecidablePred p] : ℤ :=
  entries.sum (fun _ e => if e.Counts ∧ p e.date then e.sideOn accountId side else 0) db

/-- Whether the account has a line in a counting entry whose date satisfies `p`. -/
def hasLine (accountId : Uuid) (p : UtcDay → Prop) [DecidablePred p] : Bool :=
  db.keys.any fun
    | .entry id => (Db.entry db id).any fun e =>
      decide (e.Counts ∧ p e.date) && e.lines.any fun l => l.accountId = accountId
    | _ => false

end Db

namespace Balances

/-- An account's sums over some dates; the balance is positive on the account's normal side. -/
structure AccountBalanceRow where
  accountId : Uuid
  code : String
  name : String
  type : AccountType
  subtype : AccountSubtype
  normalBalance : NormalBalance
  cashFlowCategory : CashFlowCategory
  role : Option AccountRole
  debit : ℤ
  credit : ℤ
  balance : ℤ

/-- The net on the account's normal side. -/
def signedNet (normalBalance : NormalBalance) (debit credit : ℤ) : ℤ :=
  match normalBalance with
  | .debit => Money.subtract debit credit
  | .credit => Money.subtract credit debit

/-- The net on the natural side of the account's type; a contra account nets against its type. -/
def naturalSide (type : AccountType) (debit credit : ℤ) : ℤ :=
  if type = .asset ∨ type = .expense then Money.subtract debit credit
  else Money.subtract credit debit

def toRow (id : Uuid) (a : Account) (debit credit : ℤ) : AccountBalanceRow :=
  ⟨id, a.code, a.name, a.type, a.subtype, a.normalBalance, a.cashFlowCategory, a.role, debit,
    credit, signedNet a.normalBalance debit credit⟩

/-- The sums of every account that has a line on the given dates, by account code. -/
def groupedBalances (db : Db) (p : UtcDay → Prop) [DecidablePred p] : List AccountBalanceRow :=
  (((Db.accounts db).filter fun a => Db.hasLine db a.1 p).insertionSort
    fun a b => a.2.code ≤ b.2.code).map fun a =>
      toRow a.1 a.2 (Db.sideOn db a.1 (·.debit) p) (Db.sideOn db a.1 (·.credit) p)

/-- Every account's movement from one day to another, both included. -/
def movementsBetween (db : Db) (f t : UtcDay) : List AccountBalanceRow :=
  groupedBalances db fun d => f ≤ d ∧ d ≤ t

/-- Every account's sums up to a day. -/
def balancesAsOf (db : Db) (asOf : UtcDay) : List AccountBalanceRow :=
  groupedBalances db (· ≤ asOf)

structure TrialBalanceRow where
  accountId : Uuid
  code : String
  name : String
  debit : ℤ
  credit : ℤ
  balance : ℤ
deriving DecidableEq

structure TrialBalance where
  asOf : UtcDay
  rows : List TrialBalanceRow
  totalDebit : ℤ
  totalCredit : ℤ

def toTrialRow (r : AccountBalanceRow) : TrialBalanceRow :=
  ⟨r.accountId, r.code, r.name, r.debit, r.credit, signedNet r.normalBalance r.debit r.credit⟩

/-- The accounts with a sum that is not zero, and the totals of their sums. -/
def trialBalance (db : Db) (asOf : UtcDay) : TrialBalance :=
  let rows := (groupedBalances db (· ≤ asOf)).filter fun r =>
    !(Money.isZero r.debit && Money.isZero r.credit)
  ⟨asOf, rows.map toTrialRow, Money.sum (rows.map (·.debit)), Money.sum (rows.map (·.credit))⟩

/-- The sums of an account up to a day, with its balance. -/
structure AccountBalance where
  accountId : Uuid
  debit : ℤ
  credit : ℤ
  balance : ℤ
deriving DecidableEq

def accountBalance (db : Db) (accountId : Uuid) (asOf : UtcDay) : Except Failure AccountBalance :=
  match Db.liveAccount db accountId with
  | none => .error (.notFound "Account not found" [("id", .id accountId)])
  | some account =>
    let debit := Db.sideOn db accountId (·.debit) (· ≤ asOf)
    let credit := Db.sideOn db accountId (·.credit) (· ≤ asOf)
    .ok ⟨accountId, debit, credit, signedNet account.normalBalance debit credit⟩

end Balances

end AccountingApi
