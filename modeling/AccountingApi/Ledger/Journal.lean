import AccountingApi.Ledger.DocumentLifecycle

/-!
# The journal service

Manual journal entries: drafted, posted by another user, reversed, or posted at once; and the opening
balances, whose imbalance goes to the opening balance equity account.
-/

namespace AccountingApi

open ReadCommitted

namespace Journal

structure DraftInput where
  date : UtcDay
  description : String
  lines : List PostLineInput
  createdBy : Uuid

/-- The row of a draft. -/
def draftEntry (input : DraftInput) : JournalEntry where
  entryNumber := none
  entryRef := none
  fiscalYear := none
  date := input.date
  periodId := none
  description := input.description
  sourceType := .manual
  sourceId := none
  status := .draft
  reversalOfId := none
  reversedById := none
  createdBy := input.createdBy
  postedBy := none
  postedAt := none
  deletedAt := none
  deletedBy := none
  lines := toJournalLines input.lines

def createDraft (input : DraftInput) (id : Uuid) : Program JournalEntry :=
  transaction do
    let entry := draftEntry input
    insert (.entry id) entry entry.Valid
    pure entry

def deleteDraft (id deletedBy : Uuid) (now : Timestamp) : Program Unit :=
  DocumentLifecycle.softDeleteEntry id deletedBy now

def postDraft (id postedBy : Uuid) (now : Timestamp) : Program JournalEntry :=
  Posting.postDraft id postedBy now

def reverse (id reversedBy reversalId : Uuid) (now : Timestamp) : Program JournalEntry :=
  Posting.reverse id reversedBy reversalId now

/-- A manual entry created and posted at once. -/
def createAndPost (input : DraftInput) (postedBy id : Uuid) (now : Timestamp) :
    Program JournalEntry :=
  Posting.post ⟨input.date, input.description, .manual, none, input.createdBy, input.lines⟩
    postedBy id now

/-- The line that balances the opening balances: the excess of debits over credits is credited to
equity. -/
def plugLine (equityId : Uuid) (diff : ℤ) : PostLineInput :=
  if Money.isNegative diff then { accountId := equityId, debit := some (Money.multiply diff (-1) 0) }
  else { accountId := equityId, credit := some diff }

def postOpeningBalances (date : UtcDay) (balances : List PostLineInput) (postedBy id : Uuid)
    (now : Timestamp) : Program JournalEntry := do
  let debit := Money.sum (balances.map (·.debitOrZero))
  let credit := Money.sum (balances.map (·.creditOrZero))
  let db ← select .account
  let equity ← Prog.orThrow (Db.accountOfRole db .openingBalanceEquity)
    (.validationFailed "Opening Balance Equity account missing from chart" [])
  let diff := Money.subtract debit credit
  let lines := if Money.isZero diff then balances else balances ++ [plugLine equity.1 diff]
  Posting.post ⟨date, "Opening balances", .opening, none, postedBy, lines⟩ postedBy id now

end Journal

end AccountingApi
