import AccountingApi.Ledger.AssertBalanced
import AccountingApi.Ledger.Periods

/-!
# The posting service

Every posted journal entry is written here: a fresh entry, the promotion of a draft, or a reversal.
A preparation validates the entry on plain reads; the transaction then takes the shared lock of the
fiscal year, re-checks year and period, and numbers the entry.

## Main definitions

* `Posting.preparePosting`, `Posting.createPostedEntryInTx`: a fresh entry
* `Posting.prepareReversal`, `Posting.reverseInTx`: a reversal
* `Posting.postDraft`: the promotion of a draft
-/

namespace AccountingApi

open ReadCommitted

namespace Posting

/-! ## Preparation -/

/-- A validated entry with its period and fiscal year. -/
structure PreparedPosting where
  input : PostEntryInput
  postedBy : Uuid
  periodId : Uuid
  fiscalYear : ℤ

/-- The original of a reversal, with the reversal's period, fiscal year and date. -/
structure PreparedReversal where
  originalId : Uuid
  original : JournalEntry
  reversedBy : Uuid
  periodId : Uuid
  fiscalYear : ℤ
  reversalDate : UtcDay
  allowClosedYear : Bool

def yearIsClosed (db : Db) (fiscalYear : ℤ) : Prop :=
  ∃ c ∈ Db.closing db fiscalYear, c.status = .closed

instance (db : Db) (fiscalYear : ℤ) : Decidable (yearIsClosed db fiscalYear) :=
  inferInstanceAs (Decidable (∃ c ∈ Db.closing db fiscalYear, _))

def closedYear (message : String) (fiscalYear : ℤ) : Failure :=
  .domain .closedYear message [("fiscalYear", .year fiscalYear)]

def closedPeriod (message : String) (date : UtcDay) : Failure :=
  .domain .closedPeriod message [("date", .date date)]

/-- The period and the fiscal year of a date, where the period is open and the year is not closed. -/
def assertPostableDate (date : UtcDay) : Program (Uuid × ℤ) := do
  let period ← Periods.findOpenPeriodForDate (.midnight date)
  let periodId ← Prog.orThrow period
    (closedPeriod "No open accounting period contains this date" date)
  let fiscalYear ← Company.fiscalYearFor date
  let db ← select .closing
  Prog.ensure (¬ yearIsClosed db fiscalYear)
    (closedYear "Fiscal year is closed; reopen it before posting" fiscalYear)
  pure (periodId, fiscalYear)

def invalidAccount (message : String) (id : Uuid) : Failure :=
  .domain .invalidAccount message [("accountId", .id id)]

/-- The error of the first account that is missing, a header or inactive. -/
def checkAccounts (account : Uuid → Option Account) : List Uuid → Except Failure Unit
  | [] => .ok ()
  | id :: ids =>
    match account id with
    | none => .error (invalidAccount "Account not found" id)
    | some a =>
      if !a.isPostable then
        .error (invalidAccount "Account is not postable (header account)" id)
      else if !a.isActive then .error (invalidAccount "Account is inactive" id)
      else checkAccounts account ids

/-- What the check accepts: accounts that exist, can be posted to and are active. -/
theorem checkAccounts_eq_ok_iff {account : Uuid → Option Account} {ids : List Uuid} :
    checkAccounts account ids = .ok () ↔
      ∀ id ∈ ids, ∃ a ∈ account id, a.isPostable = true ∧ a.isActive = true := by
  induction ids with
  | nil => simp [checkAccounts]
  | cons id ids ih =>
    unfold checkAccounts
    rw [List.forall_mem_cons]
    cases ha : account id with
    | none => simp
    | some a =>
      by_cases hpostable : a.isPostable = true
      · by_cases hactive : a.isActive = true
        · simp [hpostable, hactive, ih]
        · simp [hpostable, hactive]
      · simp [hpostable]

def assertPostableAccounts (lines : List PostLineInput) : Program Unit := do
  let db ← select .account
  Prog.ofExcept (checkAccounts (Db.liveAccount db) (lines.map (·.accountId)).eraseDups)

def segregationOfDuties (createdBy : Uuid) : Failure :=
  .domain .segregationOfDuties "The poster must differ from the entry creator"
    [("createdBy", .id createdBy)]

/-- The validation before the transaction of a fresh entry, on plain reads. -/
def preparePosting (input : PostEntryInput) (postedBy : Uuid) : Program PreparedPosting := do
  Prog.ofExcept (assertBalanced input.lines)
  let violation ← Company.isSegregationViolation input.sourceType input.createdBy postedBy
  Prog.ensure (violation = false) (segregationOfDuties input.createdBy)
  let (periodId, fiscalYear) ← assertPostableDate input.date
  assertPostableAccounts input.lines
  pure ⟨input, postedBy, periodId, fiscalYear⟩

/-! ## In the transaction -/

/-- The year and the period are still postable, and stay so until the transaction ends: the shared
lock of the year excludes a close, the share lock of the period's row excludes its closing. -/
def assertPostablePeriodInTx (periodId : Uuid) (fiscalYear : ℤ) (allowClosedYear : Bool) :
    Program Unit := do
  Prog.when (allowClosedYear = false) do
    let _ ← lockName (.fiscalYear fiscalYear) .shared
    let db ← select .closing
    Prog.ensure (¬ yearIsClosed db fiscalYear)
      (closedYear "Fiscal year is closed; reopen it before posting" fiscalYear)
  let db ← forShare (.period periodId)
  Prog.ensure (∃ p ∈ Db.period db periodId, p.status = .opened)
    (.validationFailed "No open accounting period contains this date" [("periodId", .id periodId)])

def buildEntryRef (fiscalYear : ℤ) (entryNumber : ℕ) : String :=
  buildDocRef "JE" fiscalYear entryNumber

/-- The choke point of every posted entry: the checks, then the number. -/
def stampPostedInTx (periodId : Uuid) (fiscalYear : ℤ) (allowClosedYear : Bool) :
    Program (ℕ × String) := do
  assertPostablePeriodInTx periodId fiscalYear allowClosedYear
  let entryNumber ← nextSequenceNumber (.journal fiscalYear)
  pure (entryNumber, buildEntryRef fiscalYear entryNumber)

/-- The row of a fresh entry. -/
def postedEntry (prepared : PreparedPosting) (entryNumber : ℕ) (entryRef : String)
    (now : Timestamp) : JournalEntry where
  entryNumber := some entryNumber
  entryRef := some entryRef
  fiscalYear := some prepared.fiscalYear
  date := prepared.input.date
  periodId := some prepared.periodId
  description := prepared.input.description
  sourceType := prepared.input.sourceType
  sourceId := prepared.input.sourceId
  status := .posted
  reversalOfId := none
  reversedById := none
  createdBy := prepared.input.createdBy
  postedBy := some prepared.postedBy
  postedAt := some now
  deletedAt := none
  deletedBy := none
  lines := toJournalLines prepared.input.lines

/-- A fresh entry, written under the key `id`. -/
def createPostedEntryInTx (prepared : PreparedPosting) (id : Uuid) (now : Timestamp) :
    Program JournalEntry := do
  let (entryNumber, entryRef) ← stampPostedInTx prepared.periodId prepared.fiscalYear false
  let entry := postedEntry prepared entryNumber entryRef now
  insert (.entry id) entry entry.Valid
  pure entry

def post (input : PostEntryInput) (postedBy id : Uuid) (now : Timestamp) :
    Program JournalEntry := do
  let prepared ← preparePosting input postedBy
  transaction (createPostedEntryInTx prepared id now)

/-! ## Reversals -/

/-- The validation before the transaction of a reversal: the original is posted, and the reversal's
date, by default the original's, falls into an open period and a year that is not closed. A reopen
reverses the closing entry while its year is still closed. -/
def prepareReversal (entryId reversedBy : Uuid) (date : Option UtcDay) (allowClosedYear : Bool) :
    Program PreparedReversal := do
  let db ← select .journalEntry
  let original ← Prog.orThrow (Db.liveEntry db entryId)
    (.notFound "Journal entry not found" [("entryId", .id entryId)])
  Prog.ensure (original.status = .posted)
    (.validationFailed "Only a POSTED entry can be reversed"
      [("entryId", .id entryId), ("status", .text original.status.name)])
  let reversalDate := date.getD original.date
  let period ← Periods.findOpenPeriodForDate (.midnight reversalDate)
  let periodId ← Prog.orThrow period
    (closedPeriod "No open period for the reversal date" reversalDate)
  let fiscalYear ← Company.fiscalYearFor reversalDate
  Prog.when (allowClosedYear = false) do
    let db ← select .closing
    Prog.ensure (¬ yearIsClosed db fiscalYear)
      (closedYear "Fiscal year is closed; reopen it before reversing" fiscalYear)
  pure ⟨entryId, original, reversedBy, periodId, fiscalYear, reversalDate, allowClosedYear⟩

/-- A line with debit and credit swapped. -/
def swapLine (l : JournalLine) : JournalLine := { l with debit := l.credit, credit := l.debit }

/-- The row of a reversal. -/
def reversalEntry (prepared : PreparedReversal) (entryNumber : ℕ) (entryRef : String)
    (now : Timestamp) : JournalEntry where
  entryNumber := some entryNumber
  entryRef := some entryRef
  fiscalYear := some prepared.fiscalYear
  date := prepared.reversalDate
  periodId := some prepared.periodId
  description := "Reversal of " ++ prepared.original.entryRef.getD "null"
  sourceType := .reversal
  sourceId := none
  status := .posted
  reversalOfId := some prepared.originalId
  reversedById := none
  createdBy := prepared.reversedBy
  postedBy := some prepared.reversedBy
  postedAt := some now
  deletedAt := none
  deletedBy := none
  lines := prepared.original.lines.map swapLine

/-- The entry a reversal leaves behind. -/
def markReversed (reversalId : Uuid) (e : JournalEntry) : JournalEntry :=
  { e with status := .reversed, reversedById := some reversalId }

/-- The reversal, written under the key `id`; the original becomes REVERSED. The unique index on
`reversal_of_id` waits for an uncommitted reversal of the same entry. -/
def reverseInTx (prepared : PreparedReversal) (id : Uuid) (now : Timestamp) :
    Program JournalEntry := do
  let (entryNumber, entryRef) ←
    stampPostedInTx prepared.periodId prepared.fiscalYear prepared.allowClosedYear
  let reversal := reversalEntry prepared entryNumber entryRef now
  let db ← lockName (.reversalOf prepared.originalId) .exclusive
  Prog.ensure (Db.reversalsOf db prepared.originalId = []) .uniqueViolation
  insert (.entry id) reversal reversal.Valid
  let _ ← updateEntry prepared.originalId (markReversed id)
  pure reversal

def reverse (entryId reversedBy id : Uuid) (now : Timestamp) : Program JournalEntry := do
  let prepared ← prepareReversal entryId reversedBy none false
  mapUniqueViolation
    (.validationFailed "Entry has already been reversed" [("entryId", .id entryId)])
    (transaction (reverseInTx prepared id now))

/-! ## Drafts -/

/-- The lines of a stored entry, to be checked again. -/
def draftLines (lines : List JournalLine) : List PostLineInput :=
  lines.map fun l => { accountId := l.accountId, debit := some l.debit, credit := some l.credit }

/-- The draft once it is posted. -/
def promote (entryNumber : ℕ) (entryRef : String) (fiscalYear : ℤ) (periodId postedBy : Uuid)
    (now : Timestamp) (e : JournalEntry) : JournalEntry :=
  { e with
    entryNumber := some entryNumber, entryRef := some entryRef, fiscalYear := some fiscalYear,
    periodId := some periodId, status := .posted, postedBy := some postedBy,
    postedAt := some now }

def postDraft (draftId postedBy : Uuid) (now : Timestamp) : Program JournalEntry := do
  let db ← select .journalEntry
  let draft ← Prog.orThrow (Db.liveEntry db draftId)
    (.notFound "Journal entry not found" [("id", .id draftId)])
  Prog.ensure (draft.status = .draft)
    (.validationFailed "Entry is not a draft"
      [("id", .id draftId), ("status", .text draft.status.name)])
  let lines := draftLines draft.lines
  Prog.ofExcept (assertBalanced lines)
  let violation ← Company.isSegregationViolation draft.sourceType draft.createdBy postedBy
  Prog.ensure (violation = false) (segregationOfDuties draft.createdBy)
  let period ← Periods.findOpenPeriodForDate (.midnight draft.date)
  let periodId ← Prog.orThrow period
    (closedPeriod "No open accounting period contains this date" draft.date)
  assertPostableAccounts lines
  let fiscalYear ← Company.fiscalYearFor draft.date
  let db ← select .closing
  Prog.ensure (¬ yearIsClosed db fiscalYear)
    (closedYear "Fiscal year is closed; reopen it before posting" fiscalYear)
  transaction do
    -- the draft's row is locked before a number is consumed
    let db ← forUpdate (.entry draftId)
    Prog.ensure (∃ e ∈ Db.liveEntry db draftId, e.status = .draft)
      (.validationFailed "Entry is no longer a draft" [("id", .id draftId)])
    let (entryNumber, entryRef) ← stampPostedInTx periodId fiscalYear false
    updateEntry draftId (promote entryNumber entryRef fiscalYear periodId postedBy now)

end Posting

end AccountingApi
