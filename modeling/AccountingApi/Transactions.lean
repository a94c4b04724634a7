import AccountingApi.Api

/-!
# What a transaction commits

The specification of the commits of the API: one constructor for each transaction of a request, with
what its request has read, what the store holds when it commits, and what it writes. The programs of
the requests are proved to commit nothing else; every invariant is derived from this specification.

## Main definitions

* `Ticket`, `Stamp`, `Created`, `Reversed`: the pieces transactions share
* `Applies`: the documents a payment's allocations change
* `Transacts`: the commits of the API
-/

namespace AccountingApi

open ReadCommitted Posting

/-- A query of the commit's request ran on a store that satisfies `p`. -/
def Saw (c : Commit) (q : Query) (p : Db → Prop) : Prop := ∃ s, (q, s) ∈ c.seen ∧ p s

/-- The year's record is CLOSED and has a closing entry. -/
def ClosedWithEntry (db : Db) (fiscalYear : ℤ) : Prop :=
  ∃ rec ∈ Db.closing db fiscalYear, rec.status = .closed ∧ rec.closingEntryId ≠ none

/-! ## Pieces -/

/-- The number `n` drawn from a counter, which `ws` creates or increments. -/
def Ticket (c : Commit) (s : Sequence) (n : ℕ) (ws : List (Write Row)) : Prop :=
  (Db.sequence c.before s = some n ∧ ws = [⟨.sequence s, (n + 1 : ℕ)⟩]) ∨
    (Db.sequence c.before s = none ∧ n = 1 ∧ ws = [⟨.sequence s, (1 : ℕ)⟩, ⟨.sequence s, (2 : ℕ)⟩])

/-- The checks and the number of a posted entry. The year is not closed with an entry, and where
every close of a year excludes postings (`strict`), it is not closed at all. -/
structure Stamp (strict : Prop) (c : Commit) (periodId : Uuid) (fiscalYear : ℤ)
    (allowClosedYear : Bool) (n : ℕ) (ws : List (Write Row)) : Prop where
  lock : allowClosedYear = false → (.named (.fiscalYear fiscalYear), .shared) ∈ c.locks
  notClosed : allowClosedYear = false → ¬ ClosedWithEntry c.before fiscalYear
  notClosedStrict : allowClosedYear = false → strict → ¬ yearIsClosed c.before fiscalYear
  period : ∃ p ∈ Db.period c.before periodId, p.status = .opened
  ticket : Ticket c (.journal fiscalYear) n ws

/-- The fiscal year of a date, by the settings the request has read. -/
def FiscalYearFor (c : Commit) (date : UtcDay) (fiscalYear : ℤ) : Prop :=
  Saw c .settings fun s => ∃ settings ∈ Db.settings s,
    fiscalYear = fiscalYearForDate date settings.fiscalYearStartMonth

/-- The day lies in the period. -/
def AccountingPeriod.Contains (p : AccountingPeriod) (d : UtcDay) : Prop :=
  p.startDate ≤ d ∧ d ≤ p.endDate

instance (p : AccountingPeriod) (d : UtcDay) : Decidable (p.Contains d) :=
  inferInstanceAs (Decidable (_ ∧ _))

/-- The request has found the period open, with the date in it. -/
def OpenPeriod (c : Commit) (date : UtcDay) (periodId : Uuid) : Prop :=
  Saw c .period fun s => ∃ p, Db.period s periodId = some p ∧ p.status = .opened ∧
    p.Contains (truncateToUtcDay (.midnight date))

/-- The accounts of the lines can be posted to, as the request has read them. -/
def PostableAccounts (c : Commit) (lines : List PostLineInput) : Prop :=
  Saw c .account fun s =>
    checkAccounts (Db.liveAccount s) (lines.map (·.accountId)).eraseDups = .ok ()

/-- The lines of an entry have passed the checks of a posting. -/
structure Vetted (c : Commit) (lines : List JournalLine) : Prop where
  balanced : assertBalanced (draftLines lines) = .ok ()
  accounts : PostableAccounts c (draftLines lines)

/-- The preparation of a fresh entry. -/
structure Prepared (c : Commit) (input : PostEntryInput) (postedBy : Uuid) (p : PreparedPosting) :
    Prop where
  input_eq : p.input = input
  postedBy_eq : p.postedBy = postedBy
  balanced : assertBalanced input.lines = .ok ()
  period : OpenPeriod c input.date p.periodId
  fiscalYear : FiscalYearFor c input.date p.fiscalYear
  accounts : PostableAccounts c input.lines

/-- A fresh posted entry under the key `id`. -/
structure Created (strict : Prop) (c : Commit) (p : PreparedPosting) (id : Uuid) (now : Timestamp)
    (n : ℕ) (wn : List (Write Row)) (entry : JournalEntry) : Prop where
  stamp : Stamp strict c p.periodId p.fiscalYear false n wn
  fresh : Db.entry c.before id = none
  entry_eq : entry = postedEntry p n (buildEntryRef p.fiscalYear n) now
  valid : entry.Valid

/-- The preparation of a reversal on the original's date. -/
structure PreparedReverse (c : Commit) (entryId reversedBy : Uuid) (allowClosedYear : Bool)
    (p : PreparedReversal) : Prop where
  originalId_eq : p.originalId = entryId
  reversedBy_eq : p.reversedBy = reversedBy
  allowClosedYear_eq : p.allowClosedYear = allowClosedYear
  date_eq : p.reversalDate = p.original.date
  original : Saw c .journalEntry fun s =>
    Db.liveEntry s entryId = some p.original ∧ p.original.status = .posted
  period : OpenPeriod c p.original.date p.periodId
  fiscalYear : FiscalYearFor c p.original.date p.fiscalYear

/-- The reversal under the key `id` of an entry that is `o` when the transaction commits. -/
structure Reversed (strict : Prop) (c : Commit) (p : PreparedReversal) (id : Uuid)
    (now : Timestamp) (n : ℕ) (wn : List (Write Row)) (o rev : JournalEntry) : Prop where
  stamp : Stamp strict c p.periodId p.fiscalYear p.allowClosedYear n wn
  lock : (.named (.reversalOf p.originalId), .exclusive) ∈ c.locks
  first : Db.reversalsOf c.before p.originalId = []
  fresh : Db.entry c.before id = none
  original : Db.entry c.before p.originalId = some o
  live : o.deletedAt = none
  notDraft : o.status ≠ .draft
  same : o = { p.original with status := o.status, reversedById := o.reversedById }
  entry_eq : rev = reversalEntry p n (buildEntryRef p.fiscalYear n) now
  valid : rev.Valid

/-- The writes of a reversal. -/
def reversalWrites (p : PreparedReversal) (id : Uuid) (wn : List (Write Row))
    (o rev : JournalEntry) : List (Write Row) :=
  wn ++ [⟨.entry id, rev⟩, ⟨.entry p.originalId, markReversed id o⟩]

/-- The allocations applied one after the other: each finds its document in a state that `ok` allows
and changes its paid amount by `delta`. -/
inductive Applies (kind : DocumentKind) (ok : PaymentAllocation → Document → Prop)
    (delta : PaymentAllocation → ℤ) : Db → List PaymentAllocation → List (Write Row) → Prop
  | nil (db : Db) : Applies kind ok delta db [] []
  | cons {db : Db} {a : PaymentAllocation} {as : List PaymentAllocation} {ws : List (Write Row)}
      (id : Uuid) (d : Document) : a.idOf kind = some id → Db.document db kind id = some d →
      d.deletedAt = none → ok a d →
      Applies kind ok delta (db.put (.document kind id) (applyPaid (delta a) d)) as ws →
      Applies kind ok delta db (a :: as) (⟨.document kind id, applyPaid (delta a) d⟩ :: ws)

/-- An allocation can be settled: its document is posted, of the partner, and has enough left. -/
def CanSettle (partnerId : Uuid) (a : PaymentAllocation) (d : Document) : Prop :=
  d.status = .posted ∧ d.partnerId = partnerId ∧
    exceedsOutstanding d.total d.amountPaid a.amount = false ∧ (applyPaid a.amount d).Valid

/-- An allocation can be taken back: its document does not fall below zero. -/
def CanUnwind (a : PaymentAllocation) (d : Document) : Prop :=
  Money.isNegative (Money.subtract d.amountPaid a.amount) = false

/-! ## Documents -/

/-- What a post of a document has read: its row, its lines, the control account and the tax codes, from
which the tax engine computed `res`. -/
structure DocumentRead (c : Commit) (collation : Collation) (kind : DocumentKind) (id : Uuid)
    (row : Document) (lines : List DocumentLine) (settlementId : Uuid) (codes : Db)
    (res : TaxCalculation) : Prop where
  sawRow : Saw c .document fun s => Db.liveDocument s kind id = some row
  sawLines : Saw c .documentLines fun s => Db.documentLines s kind id = lines
  sawControl : Saw c .account fun s =>
    ∃ a, Db.accountOfRole s kind.descriptor.controlRole = some (settlementId, a)
  sawCodes : (.taxCodes, codes) ∈ c.seen
  result : TaxService.calculate collation (Db.liveTaxCode codes) ⟨kind.descriptor.nature,
    settlementId, taxableLines (lines.map DocumentLineInput.ofLine)⟩ = .ok res

theorem DocumentRead.pos {c : Commit} {collation : Collation} {kind : DocumentKind} {id : Uuid}
    {row : Document} {lines : List DocumentLine} {settlementId : Uuid} {codes : Db}
    {res : TaxCalculation} (h : DocumentRead c collation kind id row lines settlementId codes res) :
    0 < (summarizeTotals res).total :=
  TaxService.calculate_pos h.result

/-- The totals of a draft, computed by the tax engine from the tax codes the request has read. -/
def Computed (c : Commit) (collation : Collation) (kind : DocumentKind)
    (lines : List DocumentLineInput) (totals : DocumentTotals) : Prop :=
  ∃ settlementId codes res, (.taxCodes, codes) ∈ c.seen ∧
    TaxService.calculate collation (Db.liveTaxCode codes)
      ⟨kind.descriptor.nature, settlementId, taxableLines lines⟩ = .ok res ∧
    totals = summarizeTotals res

theorem Computed.pos {c : Commit} {collation : Collation} {kind : DocumentKind}
    {lines : List DocumentLineInput} {totals : DocumentTotals}
    (h : Computed c collation kind lines totals) : 0 < totals.total := by
  obtain ⟨settlementId, codes, res, -, hres, rfl⟩ := h
  exact TaxService.calculate_pos hres

/-! ## Closing -/

/-- The bounds of a fiscal year, by the settings the request has read. -/
def FiscalYearBounds (c : Commit) (fiscalYear : ℤ) (start yearEnd : UtcDay) : Prop :=
  Saw c .settings fun s => ∃ settings ∈ Db.settings s,
    start = fiscalYearFirstDay fiscalYear settings.fiscalYearStartMonth ∧
      yearEnd = fiscalYearLastDay fiscalYear settings.fiscalYearStartMonth

/-- The profit and loss accounts with their movement between two days. -/
def pnlRows (db : Db) (start yearEnd : UtcDay) : List Balances.AccountBalanceRow :=
  (Balances.movementsBetween db start yearEnd).filter fun r => YearEndClose.isPnl r.type

/-- The closing lines and the net income, from the movements as the request has read them. -/
def ClosingRead (c : Commit) (start yearEnd : UtcDay) (lines : List PostLineInput)
    (netIncome : ℤ) : Prop :=
  Saw c .movements fun s =>
    YearEndClose.closingLines [] Money.zero (pnlRows s start yearEnd) = (lines, netIncome)

/-- The retained-earnings line of a closing entry. -/
def RetainedLines (c : Commit) (netIncome : ℤ) (lines : List PostLineInput) : Prop :=
  (netIncome = 0 ∧ lines = []) ∨
    (netIncome ≠ 0 ∧ ∃ id, Saw c .account (fun s =>
      ∃ a, Db.accountOfRole s .retainedEarnings = some (id, a)) ∧
        lines = [YearEndClose.retainedLine id netIncome])

/-! ## Accounts -/

/-- How a commit writes an account. -/
inductive AccountChange (c : Commit) (id : Uuid) : Account → Prop
  | create (input : Accounts.CreateInput) (parentId : Option Uuid) :
      c.req = .createAccount input id → Db.account c.before id = none →
      AccountChange c id (Accounts.newAccount input parentId)
  | update (input : Accounts.UpdateInput) (a : Account) :
      c.req = .updateAccount id input ∨ c.req = .deactivateAccount id →
      Db.account c.before id = some a → a.deletedAt = none →
      AccountChange c id (Accounts.applyUpdate input a)
  | delete (user : Uuid) (now : Timestamp) (code : String) (a : Account) :
      c.req = .deleteAccount id user now → Saw c .postedLines (fun s => Db.postedLines s id = 0) →
      Db.account c.before id = some a → a.deletedAt = none →
      AccountChange c id (Accounts.tombstone id code user now a)

/-! ## Periods -/

/-- The periods inserted one after the other: one is skipped where its key or a value of its unique
columns is in use, and written under the locks of its index entries where none is. -/
inductive Inserts (c : Commit) (newId : ℕ → Uuid) :
    Db → List AccountingPeriod → List (Write Row) → Prop
  | nil (db : Db) : Inserts c newId db [] []
  | skip {db : Db} {p : AccountingPeriod} {ps : List AccountingPeriod} {ws : List (Write Row)} :
      Db.periodTaken db (newId p.sequence) p → Inserts c newId db ps ws →
      Inserts c newId db (p :: ps) ws
  | insert {db : Db} {p : AccountingPeriod} {ps : List AccountingPeriod} {ws : List (Write Row)} :
      ¬ Db.periodTaken db (newId p.sequence) p →
      (.named (.periodSequence p.fiscalYear p.sequence), .exclusive) ∈ c.locks →
      (.named (.periodName p.name), .exclusive) ∈ c.locks →
      Inserts c newId (db.put (.period (newId p.sequence)) p) ps ws →
      Inserts c newId db (p :: ps) (⟨.period (newId p.sequence), p⟩ :: ws)

/-- How a commit writes periods. -/
inductive PeriodsWrite (c : Commit) : List (Write Row) → Prop
  | generate (dto : GeneratePeriodsDto) (newId : ℕ → Uuid) (start yearEnd : UtcDay)
      (ws : List (Write Row)) : c.req = .generatePeriods dto newId →
      FiscalYearBounds c dto.fiscalYear start yearEnd →
      Inserts c newId c.before (Periods.newPeriods dto.fiscalYear start.month) ws →
      PeriodsWrite c ws
  | close (id user : Uuid) (now : Timestamp) (p : AccountingPeriod) :
      c.req = .closePeriod id user now → Db.period c.before id = some p → p.status ≠ .closed →
      PeriodsWrite c [⟨.period id, Periods.markClosed user now p⟩]
  | reopen (id : Uuid) (p : AccountingPeriod) :
      c.req = .reopenPeriod id →
      Saw c .period (fun s => ∃ q, Db.period s id = some q ∧ q.status = .closed) →
      Db.period c.before id = some p → PeriodsWrite c [⟨.period id, Periods.markOpen p⟩]

/-! ## Commits -/

/-- A document is posted: its number, its journal entry and its row. -/
structure PostsDocument (strict : Prop) (c : Commit) where
  kind : DocumentKind
  (id user entryId : Uuid)
  now : Timestamp
  collation : Collation
  (row d : Document)
  lines : List DocumentLine
  settlementId : Uuid
  codes : Db
  res : TaxCalculation
  p : PreparedPosting
  (n m : ℕ)
  (wn wm : List (Write Row))
  entry : JournalEntry
  doc : Document
  req : c.req = .postDocument kind id user entryId now collation
  read : DocumentRead c collation kind id row lines settlementId codes res
  prepared : Prepared c (TaxedDocument.journalInput kind id row res.journalLines) user p
  current : Db.document c.before kind id = some d
  live : d.deletedAt = none
  draft : d.status = .draft
  ticket : Ticket c (.document kind.descriptor.documentType p.fiscalYear) n wn
  created : Created strict c p entryId now m wm entry
  posted : doc = TaxedDocument.finalizePosted n
    (buildDocRef kind.descriptor.documentType.code p.fiscalYear n) p.fiscalYear entryId user now
    (summarizeTotals res) d
  valid : doc.Valid
  writes : c.writes = wn ++ wm ++ [⟨.entry entryId, entry⟩, ⟨.document kind id, doc⟩]

/-- A document is voided, and its journal entry reversed. -/
structure VoidsDocument (strict : Prop) (c : Commit) where
  kind : DocumentKind
  (id user entryId journalEntryId : Uuid)
  now : Timestamp
  (row d : Document)
  p : PreparedReversal
  m : ℕ
  wm : List (Write Row)
  (o rev : JournalEntry)
  req : c.req = .voidDocument kind id user entryId now
  sawPosted : Saw c .document fun s => Db.liveDocument s kind id = some row ∧
    row.status = .posted ∧ row.journalEntryId = some journalEntryId
  prepared : PreparedReverse c journalEntryId user false p
  current : Db.document c.before kind id = some d
  live : d.deletedAt = none
  posted : d.status = .posted
  unpaid : d.amountPaid = 0
  reversed : Reversed strict c p entryId now m wm o rev
  writes : c.writes = ⟨.document kind id, TaxedDocument.markVoid d⟩ ::
    reversalWrites p entryId wm o rev

/-- A payment is posted: its allocations settled, its number, its journal entry and its row. -/
structure PostsPayment (strict : Prop) (c : Commit) where
  (id user entryId controlId : Uuid)
  now : Timestamp
  (scan answer : ScanOrder PaymentAllocation)
  pay : Payment
  p : PreparedPosting
  (n m : ℕ)
  (wd wn wm : List (Write Row))
  entry : JournalEntry
  req : c.req = .postPayment id user entryId now scan answer
  control : Saw c .account fun s =>
    ∃ a, Db.accountOfRole s pay.direction.target.controlRole = some (controlId, a)
  prepared : Prepared c (Payments.journalInput id pay controlId) user p
  current : Db.payment c.before id = some pay
  live : pay.deletedAt = none
  draft : pay.status = .draft
  settled : Applies pay.direction.target.kind (CanSettle pay.partnerId) (·.amount) c.before
    (scan.order pay.allocations) wd
  ticket : Ticket c (.document pay.direction.target.documentType p.fiscalYear) n wn
  created : Created strict c p entryId now m wm entry
  writes : c.writes = wd ++ wn ++ wm ++ [⟨.entry entryId, entry⟩,
    ⟨.payment id, Payments.finalizePosted n
      (buildDocRef pay.direction.target.documentType.code p.fiscalYear n) p.fiscalYear entryId
      user now pay⟩]

/-- A payment is voided: its allocations taken back, and its journal entry reversed. -/
structure VoidsPayment (strict : Prop) (c : Commit) where
  (id user entryId journalEntryId : Uuid)
  now : Timestamp
  (scan answer : ScanOrder PaymentAllocation)
  pay : Payment
  p : PreparedReversal
  m : ℕ
  (wd wm : List (Write Row))
  (o rev : JournalEntry)
  req : c.req = .voidPayment id user entryId now scan answer
  prepared : PreparedReverse c journalEntryId user false p
  current : Db.payment c.before id = some pay
  live : pay.deletedAt = none
  posted : pay.status = .posted
  journalEntry : pay.journalEntryId = some journalEntryId
  unwound : Applies pay.direction.target.kind CanUnwind (fun a => -a.amount) c.before
    (scan.order pay.allocations) wd
  reversed : Reversed strict c p entryId now m wm o rev
  writes : c.writes = wd ++ ⟨.payment id, Payments.markVoid pay⟩ ::
    reversalWrites p entryId wm o rev

/-- A year is closed with an entry, under its exclusive lock. -/
structure ClosesYear (strict : Prop) (c : Commit) where
  fiscalYear : ℤ
  min : 2000 ≤ fiscalYear
  max : fiscalYear ≤ 2100
  (user entryId : Uuid)
  now : Timestamp
  (start yearEnd : UtcDay)
  (lines retained : List PostLineInput)
  netIncome : ℤ
  p : PreparedPosting
  m : ℕ
  wm : List (Write Row)
  entry : JournalEntry
  closing : YearEndClosing
  req : c.req = .closeYear ⟨fiscalYear, min, max⟩ user entryId now
  bounds : FiscalYearBounds c fiscalYear start yearEnd
  read : ClosingRead c start yearEnd lines netIncome
  nonempty : lines ≠ []
  retainedLines : RetainedLines c netIncome retained
  prepared : Prepared c
    (YearEndClose.closingInput fiscalYear yearEnd user (lines ++ retained)) user p
  lock : (.named (.fiscalYear fiscalYear), .exclusive) ∈ c.locks
  notClosed : ¬ ClosedWithEntry c.before fiscalYear
  created : Created strict c p entryId now m wm entry
  record : closing = YearEndClose.closedRecord (some entryId) netIncome user now
  valid : closing.Valid
  writes : c.writes = wm ++ [⟨.entry entryId, entry⟩, ⟨.closing fiscalYear, closing⟩]

/-- A year that was closed with an entry is reopened, and the entry reversed. -/
structure ReopensYear (strict : Prop) (c : Commit) where
  fiscalYear : ℤ
  (user entryId closingEntryId : Uuid)
  now : Timestamp
  closing : YearEndClosing
  p : PreparedReversal
  m : ℕ
  wm : List (Write Row)
  (o rev : JournalEntry)
  req : c.req = .reopenYear fiscalYear user entryId now
  sawClosed : Saw c .closing fun s => ∃ r ∈ Db.closing s fiscalYear,
    r.status = .closed ∧ r.closingEntryId = some closingEntryId
  prepared : PreparedReverse c closingEntryId user true p
  lock : (.named (.fiscalYear fiscalYear), .exclusive) ∈ c.locks
  reversed : Reversed strict c p entryId now m wm o rev
  current : Db.closing c.before fiscalYear = some closing
  writes : c.writes = reversalWrites p entryId wm o rev ++
    [⟨.closing fiscalYear, YearEndClose.reopenedRecord user now closing⟩]

/-- **The commits of the API.** -/
inductive Transacts (strict : Prop) (c : Commit) : Prop
  | createDocument (kind : DocumentKind) (dto : CreateDocumentDto) (user id : Uuid)
      (collation : Collation) (totals : DocumentTotals) (lines : List DocumentLine) (doc : Document)
      (req : c.req = .createDocument kind dto user id collation)
      (row : doc = TaxedDocument.draftRow kind (dto.toInput user) totals)
      (computed : Computed c collation kind (dto.toInput user).lines totals)
      (linesRow : lines = buildLineCreateData (dto.toInput user).lines)
      (valid : doc.Valid)
      (fresh : Db.document c.before kind id = none)
      (freshLines : c.before.row (.documentLines kind id) = none)
      (writes : c.writes = [⟨.document kind id, doc⟩, ⟨.documentLines kind id, lines⟩])
  | updateDocument (kind : DocumentKind) (id : Uuid) (dto : UpdateDocumentDto)
      (collation : Collation) (row d : Document) (totals : DocumentTotals)
      (inputs : List DocumentLineInput) (lines : List DocumentLine)
      (req : c.req = .updateDocument kind id dto collation)
      (sawDraft : Saw c .document fun s =>
        Db.liveDocument s kind id = some row ∧ row.status = .draft)
      (computed : Computed c collation kind inputs totals)
      (linesRow : lines = buildLineCreateData inputs)
      (current : Db.document c.before kind id = some d) (live : d.deletedAt = none)
      (valid : (TaxedDocument.applyUpdate kind dto.toInput row totals d).Valid)
      (writes : c.writes =
        [⟨.document kind id, TaxedDocument.applyUpdate kind dto.toInput row totals d⟩,
          ⟨.documentLines kind id, lines⟩])
  | postDocument (t : PostsDocument strict c)
  | voidDocument (t : VoidsDocument strict c)
  | deleteDocument (kind : DocumentKind) (id user : Uuid) (now : Timestamp) (d : Document)
      (req : c.req = .deleteDocument kind id user now)
      (current : Db.document c.before kind id = some d) (draft : d.status = .draft)
      (live : d.deletedAt = none)
      (writes : c.writes =
        [⟨.document kind id, { d with deletedAt := some now, deletedBy := some user }⟩])
  | createPayment (dto : CreatePaymentDto) (user id : Uuid) (pay : Payment)
      (req : c.req = .createPayment dto user id)
      (row : pay = Payments.draftRow (dto.toInput user)
        (Money.sum ((dto.toInput user).allocations.map (·.amount))))
      (valid : pay.Valid)
      (targets : ∀ a ∈ pay.allocations,
        pay.direction.target.allocId a ≠ none ∧ pay.direction.target.otherId a = none)
      (fresh : Db.payment c.before id = none)
      (writes : c.writes = [⟨.payment id, pay⟩])
  | postPayment (t : PostsPayment strict c)
  | voidPayment (t : VoidsPayment strict c)
  | deletePayment (id user : Uuid) (now : Timestamp) (pay : Payment)
      (req : c.req = .deletePayment id user now)
      (current : Db.payment c.before id = some pay) (draft : pay.status = .draft)
      (live : pay.deletedAt = none)
      (writes : c.writes =
        [⟨.payment id, { pay with deletedAt := some now, deletedBy := some user }⟩])
  | createEntry (dto : CreateJournalEntryDto) (user id : Uuid) (entry : JournalEntry)
      (req : c.req = .createEntry dto user id)
      (row : entry = Journal.draftEntry (dto.toInput user)) (valid : entry.Valid)
      (fresh : Db.entry c.before id = none)
      (writes : c.writes = [⟨.entry id, entry⟩])
  | createAndPostEntry (dto : CreateJournalEntryDto) (user id : Uuid) (now : Timestamp)
      (p : PreparedPosting) (m : ℕ) (wm : List (Write Row)) (entry : JournalEntry)
      (req : c.req = .createAndPostEntry dto user id now)
      (prepared : Prepared c ⟨dto.date, dto.description, .manual, none, user,
        dto.lines.map (·.toInput)⟩ user p)
      (created : Created strict c p id now m wm entry)
      (writes : c.writes = wm ++ [⟨.entry id, entry⟩])
  | postEntry (id user periodId : Uuid) (fiscalYear : ℤ) (now : Timestamp) (e : JournalEntry)
      (m : ℕ) (wm : List (Write Row))
      (req : c.req = .postEntry id user now)
      (current : Db.entry c.before id = some e) (live : e.deletedAt = none)
      (draft : e.status = .draft) (balanced : assertBalanced (draftLines e.lines) = .ok ())
      (accounts : PostableAccounts c (draftLines e.lines))
      (period : OpenPeriod c e.date periodId) (year : FiscalYearFor c e.date fiscalYear)
      (stamp : Stamp strict c periodId fiscalYear false m wm)
      (writes : c.writes = wm ++ [⟨.entry id,
        promote m (buildEntryRef fiscalYear m) fiscalYear periodId user now e⟩])
  | reverseEntry (id user newId : Uuid) (now : Timestamp) (p : PreparedReversal) (m : ℕ)
      (wm : List (Write Row)) (o rev : JournalEntry)
      (req : c.req = .reverseEntry id user newId now)
      (prepared : PreparedReverse c id user false p)
      (reversed : Reversed strict c p newId now m wm o rev)
      (writes : c.writes = reversalWrites p newId wm o rev)
  | deleteEntry (id user : Uuid) (now : Timestamp) (e : JournalEntry)
      (req : c.req = .deleteEntry id user now)
      (current : Db.entry c.before id = some e) (draft : e.status = .draft)
      (live : e.deletedAt = none)
      (writes : c.writes =
        [⟨.entry id, { e with deletedAt := some now, deletedBy := some user }⟩])
  | postOpeningBalances (date : UtcDay) (balances : List JournalLineDto) (user id : Uuid)
      (now : Timestamp) (lines : List PostLineInput) (p : PreparedPosting) (m : ℕ)
      (wm : List (Write Row)) (entry : JournalEntry)
      (req : c.req = .postOpeningBalances date balances user id now)
      (prepared : Prepared c ⟨date, "Opening balances", .opening, none, user, lines⟩ user p)
      (created : Created strict c p id now m wm entry)
      (writes : c.writes = wm ++ [⟨.entry id, entry⟩])
  | closeYear (t : ClosesYear strict c)
  | closeEmptyYear (fiscalYear : ℤ) (min : 2000 ≤ fiscalYear) (max : fiscalYear ≤ 2100)
      (user entryId : Uuid) (now : Timestamp) (start yearEnd : UtcDay) (netIncome : ℤ)
      (rec : YearEndClosing)
      (sawOpen : Saw c .closing fun s => ¬ yearIsClosed s fiscalYear)
      (req : c.req = .closeYear ⟨fiscalYear, min, max⟩ user entryId now)
      (bounds : FiscalYearBounds c fiscalYear start yearEnd)
      (read : ClosingRead c start yearEnd [] netIncome)
      (record : rec = YearEndClose.closedRecord none 0 user now)
      (writes : c.writes = [⟨.closing fiscalYear, rec⟩])
  | reopenYear (t : ReopensYear strict c)
  | reopenEmptyYear (fiscalYear : ℤ) (user entryId : Uuid) (now : Timestamp)
      (rec : YearEndClosing)
      (req : c.req = .reopenYear fiscalYear user entryId now)
      (sawClosed : Saw c .closing fun s => ∃ r ∈ Db.closing s fiscalYear,
        r.status = .closed ∧ r.closingEntryId = none)
      (current : Db.closing c.before fiscalYear = some rec)
      (writes : c.writes = [⟨.closing fiscalYear, YearEndClose.reopenedRecord user now rec⟩])
  | updateTaxCode (id : Uuid) (rate : Option ℤ) (isActive : Option Bool) (code : TaxCode)
      (req : c.req = .updateTaxCode id rate isActive)
      (current : Db.taxCode c.before id = some code)
      (writes : c.writes = [⟨.taxCode id,
        { code with rate := rate.getD code.rate, isActive := isActive.getD code.isActive }⟩])
  | account (id : Uuid) (a : Account) (change : AccountChange c id a)
      (writes : c.writes = [⟨.account id, a⟩])
  | updateCompany (input : Company.UpdateInput) (settings : CompanySettings)
      (req : c.req = .updateCompany input) (current : Db.settings c.before = some settings)
      (writes : c.writes = [⟨.settings, Company.applyUpdate input settings⟩])
  | periods (ws : List (Write Row)) (change : PeriodsWrite c ws) (writes : c.writes = ws)

end AccountingApi
