import AccountingApi.Invoicing.JournalPreview
import AccountingApi.PostableDrafts
import AccountingApi.Rows
import AccountingApi.ReadCommitted.Alone
import AccountingApi.Conformance.Commits

/-!
# Previews and postings

A preview and the preparation of a posting derive the same lines and check the same date and the same
accounts. The preparation checks in addition that every line has a side, so a document with a line or a
tax that rounds to nothing is previewed and cannot be posted.

## Main definitions

* `Draft`, `Draft.dto`: a draft and the request for its preview
* `Draft.PreviewAgrees`: the preview shows what the post writes, and succeeds where its entry can be
  prepared
* `Substantial`: no line and no tax rounds to nothing

## Main results

* `yields_preview`, `yields_preparePosting`: what a preview and a preparation succeed with
* `entry_of_post_document`, `entry_of_post_payment`: the entry of a post is the one prepared for it
* `Draft.previewAgrees_iff`: when a preview agrees with the post
-/

namespace AccountingApi

open ReadCommitted Posting TaxService JournalPreview

/-! ## What the services read -/

section Reads

/-- The open period the day is posted into. -/
def openPeriodOf (db : Db) (date : UtcDay) : Option Uuid :=
  ((Db.periods db).find? fun p => p.2.status = .opened ∧
    p.2.startDate ≤ truncateToUtcDay (.midnight date) ∧
    truncateToUtcDay (.midnight date) ≤ p.2.endDate).map Prod.fst

/-- A period and a fiscal year that a day can be posted into. -/
structure OpenDay (db : Db) (date : UtcDay) (periodId : Uuid) (fiscalYear : ℤ) : Prop where
  period : openPeriodOf db date = some periodId
  year : ∃ settings, Db.settings db = some settings ∧
    fiscalYear = fiscalYearForDate date settings.fiscalYearStartMonth
  notClosed : ¬ yearIsClosed db fiscalYear

/-- An open period contains the day, and the fiscal year is not closed. -/
def PostableOn (db : Db) (date : UtcDay) : Prop :=
  (∃ id p, Db.period db id = some p ∧ p.status = .opened ∧
    p.Contains (truncateToUtcDay (.midnight date))) ∧
  ∃ settings, Db.settings db = some settings ∧
    ¬ yearIsClosed db (fiscalYearForDate date settings.fiscalYearStartMonth)

/-- The account exists, can be posted to and is active. -/
def PostableAccount (db : Db) (id : Uuid) : Prop :=
  ∃ a ∈ Db.liveAccount db id, a.isPostable = true ∧ a.isActive = true

variable {db : Db} {date : UtcDay}

theorem exists_openDay_iff :
    (∃ periodId fiscalYear, OpenDay db date periodId fiscalYear) ↔ PostableOn db date := by
  have hperiod : (openPeriodOf db date).isSome = true ↔ ∃ id p, Db.period db id = some p ∧
      p.status = .opened ∧ p.Contains (truncateToUtcDay (.midnight date)) := by
    simp only [openPeriodOf, Option.isSome_map, List.find?_isSome, decide_eq_true_eq, Prod.exists,
      Db.mem_periods, AccountingPeriod.Contains]
  rw [PostableOn, ← hperiod, Option.isSome_iff_exists]
  constructor
  · rintro ⟨periodId, fiscalYear, hid, ⟨settings, hsettings, rfl⟩, hopen⟩
    exact ⟨⟨periodId, hid⟩, settings, hsettings, hopen⟩
  · rintro ⟨⟨periodId, hid⟩, settings, hsettings, hopen⟩
    exact ⟨periodId, _, hid, ⟨settings, hsettings, rfl⟩, hopen⟩

theorem yields_get : Company.get.Yields fun db settings => Db.settings db = some settings :=
  ((Prog.yields_query Query.settings).bind fun _ => Prog.yields_orThrow _ _).congr
    fun _ _ => exists_eq_left

theorem yields_fiscalYearFor (date : UtcDay) : (Company.fiscalYearFor date).Yields fun db year =>
    ∃ settings, Db.settings db = some settings ∧
      year = fiscalYearForDate date settings.fiscalYearStartMonth :=
  yields_get.bind fun _ => Prog.yields_ret _

theorem yields_assertPostableDate (date : UtcDay) :
    (assertPostableDate date).Yields fun db r => OpenDay db date r.1 r.2 := by
  have hperiod : (Periods.findOpenPeriodForDate (.midnight date)).Yields fun db o =>
      o = openPeriodOf db date :=
    ((Prog.yields_query Query.period).bind fun _ => Prog.yields_ret _).congr
      fun _ _ => exists_eq_left
  refine (hperiod.bind fun _ => (Prog.yields_orThrow _ _).bind fun periodId =>
    (yields_fiscalYearFor date).bind fun fiscalYear => (Prog.yields_query Query.closing).bind
      fun db => (Prog.yields_ensure _ _).bind fun _ => Prog.yields_ret (periodId, fiscalYear)).congr
    fun db r => ?_
  constructor
  · rintro ⟨_, rfl, periodId, hperiod, fiscalYear, hyear, _, rfl, -, hopen, rfl⟩
    exact ⟨hperiod, hyear, hopen⟩
  · rintro ⟨hperiod, hyear, hopen⟩
    exact ⟨_, rfl, r.1, hperiod, r.2, hyear, _, rfl, (), hopen, rfl⟩

/-- The accounts are checked each once. -/
theorem checkAccounts_eraseDups {ids : List Uuid} :
    checkAccounts (Db.liveAccount db) ids.eraseDups = .ok () ↔ ∀ id ∈ ids, PostableAccount db id := by
  rw [checkAccounts_eq_ok_iff]
  simp only [List.mem_eraseDups]
  rfl

theorem yields_assertPostableAccounts (lines : List PostLineInput) :
    (assertPostableAccounts lines).Yields fun db _ => ∀ l ∈ lines, PostableAccount db l.accountId :=
  ((Prog.yields_query Query.account).bind fun _ => Prog.yields_ofExcept _).congr fun db _ => by
    rw [exists_eq_left, checkAccounts_eraseDups, List.forall_mem_map]

theorem yields_resolvePostableAccounts (ids : List Uuid) :
    (resolvePostableAccounts ids).Yields fun db accounts => (∀ id ∈ ids, PostableAccount db id) ∧
      accounts = fun id => if id ∈ ids then Db.liveAccount db id else none := by
  refine ((Prog.yields_query Query.account).bind fun _ => (Prog.yields_ofExcept _).bind fun _ =>
    Prog.yields_ret _).congr fun db accounts => ?_
  constructor
  · rintro ⟨_, rfl, _, hok, rfl⟩
    exact ⟨checkAccounts_eraseDups.mp hok, rfl⟩
  · rintro ⟨hok, rfl⟩
    exact ⟨_, rfl, (), checkAccounts_eraseDups.mpr hok, rfl⟩

theorem yields_calculateNow (collation : Collation) (input : TaxableTransaction) :
    (calculateNow collation input).Yields fun db res =>
      calculate collation (Db.liveTaxCode db) input = .ok res := by
  refine ((Prog.yields_ofExcept _).bind fun _ => (Prog.yields_query Query.taxCodes).bind fun _ =>
    Prog.yields_ofExcept _).congr fun db res => ?_
  simp only [exists_eq_left, calculate]
  cases checkLines input.lines with
  | error e => simp [bind, Except.bind]
  | ok u => simp [bind, Except.bind]

theorem yields_findControlAccountId (role : AccountRole) :
    (findControlAccountId role).Yields fun db id => ∃ a, Db.accountOfRole db role = some (id, a) := by
  refine ((Prog.yields_query Query.account).bind fun _ => (Prog.yields_orThrow _ _).bind fun _ =>
    Prog.yields_ret _).congr fun db id => ?_
  simp only [exists_eq_left, Prod.exists]
  constructor
  · rintro ⟨id', a, ha, rfl⟩
    exact ⟨a, ha⟩
  · rintro ⟨a, ha⟩
    exact ⟨id, a, ha, rfl⟩

/-- What the preparation of a posting checks, for an entry that is not manual. -/
structure Preparable (db : Db) (input : PostEntryInput) (periodId : Uuid) (fiscalYear : ℤ) :
    Prop where
  balanced : assertBalanced input.lines = .ok ()
  day : OpenDay db input.date periodId fiscalYear
  accounts : ∀ l ∈ input.lines, PostableAccount db l.accountId

theorem yields_isSegregationViolation {sourceType : JournalSourceType}
    (hnot : sourceType ≠ .manual) (createdBy postedBy : Uuid) :
    (Company.isSegregationViolation sourceType createdBy postedBy).Yields fun db violation =>
      (∃ settings, Db.settings db = some settings) ∧ violation = false := by
  refine (yields_get.bind fun _ => Prog.yields_ret _).congr fun db violation => ?_
  simp [hnot]

theorem yields_preparePosting {input : PostEntryInput} (hnot : input.sourceType ≠ .manual)
    (postedBy : Uuid) : (preparePosting input postedBy).Yields fun db prepared =>
      Preparable db input prepared.periodId prepared.fiscalYear ∧
        prepared = ⟨input, postedBy, prepared.periodId, prepared.fiscalYear⟩ := by
  refine ((Prog.yields_ofExcept _).bind fun _ =>
    (yields_isSegregationViolation hnot input.createdBy postedBy).bind fun violation =>
    (Prog.yields_ensure _ _).bind fun _ => (yields_assertPostableDate input.date).bind fun r =>
    (yields_assertPostableAccounts input.lines).bind fun _ =>
      Prog.yields_ret (PreparedPosting.mk input postedBy r.1 r.2)).congr fun db prepared => ?_
  constructor
  · rintro ⟨_, hbalanced, _, -, _, -, r, hday, _, haccounts, rfl⟩
    exact ⟨⟨hbalanced, hday, haccounts⟩, rfl⟩
  · rintro ⟨⟨hbalanced, hday, haccounts⟩, heq⟩
    obtain ⟨settings, hsettings, -⟩ := hday.year
    exact ⟨(), hbalanced, false, ⟨⟨settings, hsettings⟩, rfl⟩, (), rfl,
      (prepared.periodId, prepared.fiscalYear), hday, (), haccounts, heq⟩

end Reads

/-! ## What a preview shows -/

section Preview

variable {lines : List PostLineInput} {accounts : Uuid → Option Account} {pv : JournalPreview}

/-- The preview shows the lines of a journal entry, in their order, and their totals. -/
structure JournalPreview.Shows (pv : JournalPreview) (rows : List JournalLine) : Prop where
  lines : pv.lines.map (fun l => (l.accountId, l.debit, l.credit)) =
    rows.map fun l => (l.accountId, l.debit, l.credit)
  totalDebit : pv.totalDebit = Money.sum (rows.map (·.debit))
  totalCredit : pv.totalCredit = Money.sum (rows.map (·.credit))
  balanced : pv.balanced = decide (pv.totalDebit = pv.totalCredit)

theorem exists_previewLines (h : ∀ l ∈ lines, (accounts l.accountId).isSome = true) :
    ∃ ls, previewLines accounts lines = .ok ls ∧
      ls.map (fun l => (l.accountId, l.debit, l.credit)) =
        lines.map fun l => (l.accountId, l.debitOrZero, l.creditOrZero) := by
  induction lines with
  | nil => exact ⟨[], rfl, rfl⟩
  | cons l lines ih =>
    obtain ⟨hl, hlines⟩ := List.forall_mem_cons.mp h
    obtain ⟨a, ha⟩ := Option.isSome_iff_exists.mp hl
    obtain ⟨ls, hls, hmap⟩ := ih hlines
    refine ⟨⟨l.accountId, a.code, a.name, l.debitOrZero, l.creditOrZero⟩ :: ls, ?_, ?_⟩
    · simp only [previewLines, ha, hls]
    · simp only [List.map_cons, hmap]

/-- A preview whose accounts are all known shows the rows the lines are posted as. -/
theorem exists_toPreview (h : ∀ l ∈ lines, (accounts l.accountId).isSome = true) :
    ∃ pv, toPreview lines accounts = .ok pv ∧ pv.Shows (toJournalLines lines) := by
  obtain ⟨ls, hls, hmap⟩ := exists_previewLines h
  have hrows : ls.map (fun l => (l.accountId, l.debit, l.credit)) =
      (toJournalLines lines).map fun l => (l.accountId, l.debit, l.credit) := by
    rw [hmap, map_toJournalLines (g := fun l => (l.accountId, l.debitOrZero, l.creditOrZero))
      fun l n => rfl]
  have hdebit : ls.map (·.debit) = (toJournalLines lines).map (·.debit) := by
    simpa only [List.map_map, Function.comp_def] using congrArg (List.map (·.2.1)) hrows
  have hcredit : ls.map (·.credit) = (toJournalLines lines).map (·.credit) := by
    simpa only [List.map_map, Function.comp_def] using congrArg (List.map (·.2.2)) hrows
  refine ⟨_, by rw [toPreview, hls], hrows, ?_, ?_, rfl⟩
  · exact congrArg Money.sum hdebit
  · exact congrArg Money.sum hcredit

/-- The lines that are derived from a request, as the posting paths derive theirs. -/
def Derives (collation : Collation) (db : Db) : PreviewBody → List PostLineInput → Prop
  | .taxed nature settlementAccountId lines _, ls => ∃ res,
    calculate collation (Db.liveTaxCode db) ⟨nature, settlementAccountId, lines⟩ = .ok res ∧
      ls = res.journalLines
  | .payment direction cashAccountId allocations _, ls => ∃ total,
    allocationTotal direction.target Money.zero allocations = .ok total ∧ ∃ controlId,
      (∃ a, Db.accountOfRole db direction.target.controlRole = some (controlId, a)) ∧
        ls = buildPaymentLines direction.target cashAccountId controlId total

theorem yields_bodyLines (collation : Collation) (body : PreviewBody) :
    (bodyLines collation body).Yields fun db ls => Derives collation db body ls := by
  cases body with
  | taxed nature settlementAccountId lines _ =>
    exact (yields_calculateNow _ _).bind fun _ => Prog.yields_ret _
  | payment direction cashAccountId allocations _ =>
    exact (Prog.yields_ofExcept _).bind fun _ => (yields_findControlAccountId _).bind fun _ =>
      Prog.yields_ret _

theorem yields_checkDate (date : Option UtcDay) :
    (checkDate date).Yields fun db _ => ∀ d ∈ date, PostableOn db d := by
  cases date with
  | none => exact (Prog.yields_ret ()).congr fun db _ => by simp
  | some date =>
    refine ((yields_assertPostableDate date).bind fun _ => Prog.yields_ret ()).congr fun db _ => ?_
    simp only [Option.mem_some_iff, forall_eq', ← exists_openDay_iff, Prod.exists, and_true]

variable {db : Db} {dto : PreviewJournalEntryDto} {collation : Collation}

/-- What a preview checks. -/
structure Previewable (collation : Collation) (db : Db) (dto : PreviewJournalEntryDto)
    (lines : List PostLineInput) : Prop where
  day : ∀ d ∈ dto.date, PostableOn db d
  derived : Derives collation db dto.body lines
  accounts : ∀ l ∈ lines, PostableAccount db l.accountId

/-- **What a preview shows**: the rows its lines would be posted as. -/
theorem yields_preview (dto : PreviewJournalEntryDto) (collation : Collation) :
    (preview dto collation).Yields fun db pv => ∃ lines, Previewable collation db dto lines ∧
      toPreview lines (fun id => if id ∈ lines.map (·.accountId) then Db.liveAccount db id
        else none) = .ok pv := by
  refine ((yields_checkDate dto.date).bind fun _ =>
    (yields_bodyLines collation dto.body).bind fun lines =>
    (yields_resolvePostableAccounts (lines.map (·.accountId))).bind fun _ =>
      Prog.yields_ofExcept _).congr fun db pv => ?_
  constructor
  · rintro ⟨_, hday, lines, hlines, _, ⟨haccounts, rfl⟩, hpv⟩
    exact ⟨lines, ⟨hday, hlines, List.forall_mem_map.mp haccounts⟩, hpv⟩
  · rintro ⟨lines, ⟨hday, hlines, haccounts⟩, hpv⟩
    exact ⟨(), hday, lines, hlines, _, ⟨List.forall_mem_map.mpr haccounts, rfl⟩, hpv⟩

/-- Where the checks succeed, the preview shows the rows the lines would be posted as. -/
theorem Previewable.exists_toPreview {lines : List PostLineInput}
    (h : Previewable collation db dto lines) : ∃ pv, toPreview lines (fun id =>
      if id ∈ lines.map (·.accountId) then Db.liveAccount db id else none) = .ok pv ∧
        pv.Shows (toJournalLines lines) := by
  refine AccountingApi.exists_toPreview fun l hl => ?_
  obtain ⟨a, ha, -⟩ := h.accounts l hl
  rw [if_pos (List.mem_map_of_mem hl)]
  exact Option.isSome_of_mem ha

end Preview

/-! ## Preparations -/

section Preparations

/-- The journal entry of a document, derived and checked before the transaction of its post. -/
def prepareDocument (kind : DocumentKind) (id : Uuid) (row : Document)
    (lines : List DocumentLineInput) (postedBy : Uuid) (collation : Collation) :
    Program (TaxCalculation × PreparedPosting) := do
  let settlementId ← findControlAccountId kind.descriptor.controlRole
  let c ← calculateNow collation ⟨kind.descriptor.nature, settlementId, taxableLines lines⟩
  let prepared ← preparePosting (TaxedDocument.journalInput kind id row c.journalLines) postedBy
  pure (c, prepared)

/-- The journal entry of a payment, derived and checked before the transaction of its post. -/
def preparePayment (id : Uuid) (payment : Payment) (postedBy : Uuid) :
    Program PreparedPosting := do
  let controlId ← findControlAccountId payment.direction.target.controlRole
  preparePosting (Payments.journalInput id payment controlId) postedBy

/-- The entries of documents are not manual. -/
theorem sourceType_ne_manual (kind : DocumentKind) : kind.descriptor.sourceType ≠ .manual := by
  cases kind <;> decide

theorem yields_prepareDocument (kind : DocumentKind) (id : Uuid) (row : Document)
    (lines : List DocumentLineInput) (postedBy : Uuid) (collation : Collation) :
    (prepareDocument kind id row lines postedBy collation).Yields fun db r => ∃ settlementId,
      (∃ a, Db.accountOfRole db kind.descriptor.controlRole = some (settlementId, a)) ∧
      calculate collation (Db.liveTaxCode db)
        ⟨kind.descriptor.nature, settlementId, taxableLines lines⟩ = .ok r.1 ∧
      Preparable db (TaxedDocument.journalInput kind id row r.1.journalLines) r.2.periodId
        r.2.fiscalYear ∧
      r.2 = ⟨TaxedDocument.journalInput kind id row r.1.journalLines, postedBy, r.2.periodId,
        r.2.fiscalYear⟩ := by
  refine ((yields_findControlAccountId _).bind fun _ => (yields_calculateNow _ _).bind fun c =>
    (yields_preparePosting (sourceType_ne_manual kind) postedBy).bind fun prepared =>
      Prog.yields_ret (c, prepared)).congr fun db r => ?_
  constructor
  · rintro ⟨_, hcontrol, _, hres, _, ⟨hpreparable, heq⟩, rfl⟩
    exact ⟨_, hcontrol, hres, hpreparable, heq⟩
  · rintro ⟨_, hcontrol, hres, hpreparable, heq⟩
    exact ⟨_, hcontrol, r.1, hres, r.2, ⟨hpreparable, heq⟩, rfl⟩

theorem yields_preparePayment (id : Uuid) (payment : Payment) (postedBy : Uuid) :
    (preparePayment id payment postedBy).Yields fun db prepared => ∃ controlId,
      (∃ a, Db.accountOfRole db payment.direction.target.controlRole = some (controlId, a)) ∧
      Preparable db (Payments.journalInput id payment controlId) prepared.periodId
        prepared.fiscalYear ∧
      prepared = ⟨Payments.journalInput id payment controlId, postedBy, prepared.periodId,
        prepared.fiscalYear⟩ :=
  (yields_findControlAccountId _).bind fun _ => yields_preparePosting
    (show JournalSourceType.payment ≠ .manual by decide) postedBy

end Preparations

/-! ## Posts -/

section Posts

variable {db db' : Db} {buf buf' : List (Write Row)}

theorem insert_writes {k : Key} {v : Row k} {valid : Prop} [Decidable valid] {u : Unit}
    (h : (insert k v valid).evalWith db buf = (.ok u, db', buf')) :
    db' = db ∧ buf' = buf ++ [⟨k, v⟩] := by
  obtain ⟨_, _, _, hlock, h₁⟩ := Prog.exists_of_evalWith_bind h
  cases hlock
  obtain ⟨_, _, _, hnew, h₂⟩ := Prog.exists_of_evalWith_bind h₁
  obtain ⟨-, rfl, rfl⟩ := (Prog.yields_ensure _ _).of_evalWith hnew
  obtain ⟨_, _, _, hvalid, h₃⟩ := Prog.exists_of_evalWith_bind h₂
  obtain ⟨-, rfl, rfl⟩ := (Prog.yields_ensure _ _).of_evalWith hvalid
  cases h₃
  exact ⟨rfl, rfl⟩

theorem updateRow_writes {k : Key} {live : Row k → Prop} [DecidablePred live] {f : Row k → Row k}
    {valid : Row k → Prop} [DecidablePred valid] {v : Row k}
    (h : (updateRow k live f valid).evalWith db buf = (.ok v, db', buf')) :
    db' = db ∧ buf' = buf ++ [⟨k, v⟩] := by
  obtain ⟨_, _, _, hlock, h₁⟩ := Prog.exists_of_evalWith_bind h
  cases hlock
  obtain ⟨_, _, _, hrow, h₂⟩ := Prog.exists_of_evalWith_bind h₁
  obtain ⟨-, rfl, rfl⟩ := (Prog.yields_orThrow _ _).of_evalWith hrow
  obtain ⟨_, _, _, hlive, h₃⟩ := Prog.exists_of_evalWith_bind h₂
  obtain ⟨-, rfl, rfl⟩ := (Prog.yields_ensure _ _).of_evalWith hlive
  obtain ⟨_, _, _, hvalid, h₄⟩ := Prog.exists_of_evalWith_bind h₃
  obtain ⟨-, rfl, rfl⟩ := (Prog.yields_ensure _ _).of_evalWith hvalid
  cases h₄
  exact ⟨rfl, rfl⟩

/-- The row of a fresh entry is written last. -/
theorem createPostedEntryInTx_writes {prepared : PreparedPosting} {id : Uuid} {now : Timestamp}
    {e : JournalEntry}
    (h : (createPostedEntryInTx prepared id now).evalWith db buf = (.ok e, db', buf')) :
    db' = db ∧ ∃ n ref ws, e = postedEntry prepared n ref now ∧
      buf' = buf ++ ws ++ [⟨.entry id, e⟩] := by
  obtain ⟨⟨n, ref⟩, _, _, hstamp, h₁⟩ := Prog.exists_of_evalWith_bind h
  obtain ⟨rfl, ws, rfl⟩ := (silent_stampPostedInTx _ _ _).evalWith_eq hstamp
  obtain ⟨_, _, _, hinsert, h₂⟩ := Prog.exists_of_evalWith_bind h₁
  obtain ⟨rfl, rfl⟩ := insert_writes hinsert
  cases h₂
  exact ⟨rfl, n, ref, ws, rfl, rfl⟩

/-- The transaction that writes a fresh entry and then a row that is not an entry leaves the entry. -/
theorem entry_of_writes {id : Uuid} {e : JournalEntry} {ws : List (Write Row)} {w : Write Row}
    (hkey : w.1 ≠ .entry id) : Db.entry (db.putAll (ws ++ [⟨.entry id, e⟩] ++ [w])) id = some e := by
  rw [Db.entry_eq_row, Store.putAll_append, Store.putAll_append, Store.putAll_cons,
    Store.putAll_nil, Store.row_put_of_ne _ _ hkey.symm, Store.putAll_cons, Store.putAll_nil,
    Store.row_put_self]

theorem transaction_writes {α : Type} {body : Program α} {a : α}
    (h : (transaction body).evalWith db buf = (.ok a, db', buf')) : ∃ db₁ buf₁,
      body.evalWith db buf = (.ok a, db₁, buf₁) ∧ db' = db₁.putAll buf₁ ∧ buf' = [] := by
  obtain ⟨_, db₁, buf₁, hbody, h₁⟩ := Prog.exists_of_evalWith_bind h
  cases h₁
  exact ⟨db₁, buf₁, hbody, rfl, rfl⟩

theorem yields_documentById (kind : DocumentKind) (id : Uuid) :
    (TaxedDocument.getById kind id).Yields fun db r =>
      Db.liveDocument db kind id = some r.1 ∧ r.2 = Db.documentLines db kind id := by
  refine ((Prog.yields_query Query.document).bind fun _ => (Prog.yields_orThrow _ _).bind fun doc =>
    (Prog.yields_query Query.documentLines).bind fun db =>
      Prog.yields_ret (doc, Db.documentLines db kind id)).congr fun db r => ?_
  constructor
  · rintro ⟨_, rfl, _, hdoc, _, rfl, rfl⟩
    exact ⟨hdoc, rfl⟩
  · rintro ⟨hdoc, hlines⟩
    exact ⟨_, rfl, _, hdoc, _, rfl, Prod.ext rfl hlines⟩

theorem yields_assertPartner (kind : DocumentKind) (partnerId : Uuid) :
    (TaxedDocument.assertPartner kind partnerId).Yields fun db _ => ∃ partner,
      (∃ db', db' = db ∧ Db.livePartner db' partnerId = some partner) ∧
        kind.descriptor.partnerFlag partner = true ∧ partner.isActive = true :=
  ((Prog.yields_query Query.partner).bind fun _ => Prog.yields_orThrow _ _).bind fun _ =>
    Prog.yields_ensure _ _

theorem entry_of_postInTx {kind : DocumentKind} {id user entryId : Uuid} {now : Timestamp}
    {prepared : PreparedPosting} {totals : DocumentTotals} {u : Unit}
    (h : (TaxedDocument.postInTx kind id prepared totals user entryId now).evalWith db buf =
      (.ok u, db', buf')) :
    ∃ n ref, Db.entry (db'.putAll buf') entryId = some (postedEntry prepared n ref now) := by
  obtain ⟨_, _, _, hlock, h₁⟩ := Prog.exists_of_evalWith_bind h
  obtain ⟨_, _, _, hnumber, h₂⟩ := Prog.exists_of_evalWith_bind h₁
  obtain ⟨e, _, _, hcreated, h₃⟩ := Prog.exists_of_evalWith_bind h₂
  obtain ⟨rfl, n, ref, ws, rfl, rfl⟩ := createPostedEntryInTx_writes hcreated
  obtain ⟨_, _, _, hupdate, h₄⟩ := Prog.exists_of_evalWith_bind h₃
  obtain ⟨rfl, rfl⟩ := updateRow_writes hupdate
  cases h₄
  exact ⟨n, ref, entry_of_writes (by simp)⟩

/-- **The entry of a posted document** is the one prepared for it. -/
theorem entry_of_post_document {kind : DocumentKind} {id user entryId : Uuid} {now : Timestamp}
    {collation : Collation} {d : Document} {r : Document × List DocumentLine}
    (hlive : Db.liveDocument db kind id = some d)
    (h : (TaxedDocument.post kind id user entryId now collation).alone db = (.ok r, db')) :
    ∃ prepared, (prepareDocument kind id d (storedLines db kind id) user collation).alone db =
        (.ok prepared, db) ∧
      ∃ n ref, Db.entry db' entryId = some (postedEntry prepared.2 n ref now) := by
  obtain ⟨buf', h₀⟩ := Prog.exists_of_alone h
  obtain ⟨⟨row, lines⟩, _, _, hget, h₁⟩ := Prog.exists_of_evalWith_bind h₀
  obtain ⟨⟨hrow, rfl⟩, rfl, rfl⟩ := (yields_documentById kind id).of_evalWith hget
  obtain rfl : row = d := Option.some.inj (hrow.symm.trans hlive)
  obtain ⟨_, _, _, hdraft, h₂⟩ := Prog.exists_of_evalWith_bind h₁
  obtain ⟨-, rfl, rfl⟩ := (Prog.yields_ensure _ _).of_evalWith hdraft
  obtain ⟨_, _, _, hpartner, h₃⟩ := Prog.exists_of_evalWith_bind h₂
  obtain ⟨-, rfl, rfl⟩ := (yields_assertPartner _ _).of_evalWith hpartner
  obtain ⟨settlementId, _, _, hfind, h₄⟩ := Prog.exists_of_evalWith_bind h₃
  obtain ⟨hcontrol, rfl, rfl⟩ := (yields_findControlAccountId _).of_evalWith hfind
  obtain ⟨c, _, _, hcalculate, h₅⟩ := Prog.exists_of_evalWith_bind h₄
  obtain ⟨hres, rfl, rfl⟩ := (yields_calculateNow _ _).of_evalWith hcalculate
  obtain ⟨prepared, _, _, hprepare, h₆⟩ := Prog.exists_of_evalWith_bind h₅
  obtain ⟨⟨hpreparable, heq⟩, rfl, rfl⟩ :=
    (yields_preparePosting (sourceType_ne_manual kind) user).of_evalWith hprepare
  refine ⟨(c, prepared), (yields_prepareDocument kind id row _ user collation).alone_eq_ok_iff.mpr ?_, ?_⟩
  · exact ⟨settlementId, hcontrol, hres, hpreparable, heq⟩
  · obtain ⟨_, _, _, htransaction, h₇⟩ := Prog.exists_of_evalWith_bind h₆
    obtain ⟨_, _, hbody, rfl, rfl⟩ := transaction_writes htransaction
    obtain ⟨-, rfl, -⟩ := (yields_documentById kind id).of_evalWith h₇
    exact entry_of_postInTx hbody

theorem entry_of_paymentInTx {id user entryId : Uuid} {now : Timestamp} {p : Payment}
    {prepared : PreparedPosting} {u : Unit}
    (h : (Payments.postInTx id p prepared user entryId now).evalWith db buf = (.ok u, db', buf')) :
    ∃ n ref, Db.entry (db'.putAll buf') entryId = some (postedEntry prepared n ref now) := by
  obtain ⟨_, _, _, hlock, h₁⟩ := Prog.exists_of_evalWith_bind h
  obtain ⟨_, _, _, hdraft, h₂⟩ := Prog.exists_of_evalWith_bind h₁
  obtain ⟨_, _, _, hsettle, h₃⟩ := Prog.exists_of_evalWith_bind h₂
  obtain ⟨_, _, _, hnumber, h₄⟩ := Prog.exists_of_evalWith_bind h₃
  obtain ⟨e, _, _, hcreated, h₅⟩ := Prog.exists_of_evalWith_bind h₄
  obtain ⟨rfl, n, ref, ws, rfl, rfl⟩ := createPostedEntryInTx_writes hcreated
  obtain ⟨_, _, _, hupdate, h₆⟩ := Prog.exists_of_evalWith_bind h₅
  obtain ⟨rfl, rfl⟩ := updateRow_writes hupdate
  cases h₆
  exact ⟨n, ref, entry_of_writes (by simp)⟩

theorem yields_paymentById (id : Uuid) (scan : ScanOrder PaymentAllocation) :
    (Payments.getById id scan).Yields fun db r =>
      ∃ p, Db.livePayment db id = some p ∧ r = Payments.scanned scan p := by
  refine ((Prog.yields_query Query.payment).bind fun _ => (Prog.yields_orThrow _ _).bind
    fun _ => Prog.yields_ret _).congr fun _ _ => exists_eq_left

/-- **The entry of a posted payment** is the one prepared for it. -/
theorem entry_of_post_payment {id user entryId : Uuid} {now : Timestamp} {p r : Payment}
    {scan answer : ScanOrder PaymentAllocation} (hlive : Db.livePayment db id = some p)
    (h : (Payments.post id user entryId now scan answer).alone db = (.ok r, db')) :
    ∃ prepared, (preparePayment id p user).alone db = (.ok prepared, db) ∧
      ∃ n ref, Db.entry db' entryId = some (postedEntry prepared n ref now) := by
  obtain ⟨buf', h₀⟩ := Prog.exists_of_alone h
  obtain ⟨_, _, _, hget, h₁⟩ := Prog.exists_of_evalWith_bind h₀
  obtain ⟨⟨row, hrow, rfl⟩, rfl, rfl⟩ := (yields_paymentById id scan).of_evalWith hget
  obtain rfl : row = p := Option.some.inj (hrow.symm.trans hlive)
  obtain ⟨_, _, _, hdraft, h₂⟩ := Prog.exists_of_evalWith_bind h₁
  obtain ⟨-, rfl, rfl⟩ := (Prog.yields_ensure _ _).of_evalWith hdraft
  obtain ⟨controlId, _, _, hfind, h₃⟩ := Prog.exists_of_evalWith_bind h₂
  obtain ⟨hcontrol, rfl, rfl⟩ := (yields_findControlAccountId _).of_evalWith hfind
  obtain ⟨prepared, _, _, hprepare, h₄⟩ := Prog.exists_of_evalWith_bind h₃
  obtain ⟨⟨hpreparable, heq⟩, rfl, rfl⟩ := (yields_preparePosting
    (show JournalSourceType.payment ≠ .manual by decide) user).of_evalWith hprepare
  refine ⟨prepared, (yields_preparePayment id row user).alone_eq_ok_iff.mpr
    ⟨controlId, hcontrol, hpreparable, heq⟩, ?_⟩
  obtain ⟨_, _, _, htransaction, h₅⟩ := Prog.exists_of_evalWith_bind h₄
  obtain ⟨_, _, hbody, rfl, rfl⟩ := transaction_writes htransaction
  obtain ⟨-, rfl, -⟩ := (yields_paymentById id answer).of_evalWith h₅
  exact entry_of_paymentInTx hbody

end Posts

/-! ## Amounts that vanish -/

section Amounts

variable {collation : Collation} {codes : Uuid → Option TaxCode} {lines : List DocumentLineInput}
  {nature : TaxNature} {settlementId : Uuid} {res : TaxCalculation} {db : Db}

/-- No line and no tax rounds to nothing: every line amounts to half a ten-thousandth of a rupiah at
least, and every tax to 0.49995 rupiah. -/
structure Substantial (codes : Uuid → Option TaxCode) (lines : List DocumentLineInput) : Prop where
  amounts : ∀ l ∈ lines, 5000 ≤ (l.unitPrice * l.quantity).natAbs
  taxes : ∀ id ∈ taxCodeIds (taxableLines lines), ∀ c ∈ codes id,
    4999500000 ≤ (baseOf (taxableLines lines) id * c.rate).natAbs

/-- The journal lines of a calculation are balanced, with one side each, if and only if nothing rounds
to nothing. -/
theorem assertBalanced_iff_substantial
    (h : calculate collation codes ⟨nature, settlementId, taxableLines lines⟩ = .ok res) :
    assertBalanced res.journalLines = .ok () ↔ Substantial codes lines := by
  have hline : ∀ x : DocumentLineInput, x.amount ≠ 0 ↔ 5000 ≤ (x.unitPrice * x.quantity).natAbs :=
    fun x => (not_congr Money.multiply_four_eq_zero_iff).trans not_lt
  have htax : ∀ id c, (breakdownRow (taxableLines lines) (id, c)).amount ≠ 0 ↔
      4999500000 ≤ (baseOf (taxableLines lines) id * c.rate).natAbs :=
    fun id c => (not_congr Money.roundToRupiah_multiply_eq_zero_iff).trans not_lt
  rw [assertBalanced_journalLines_iff h]
  constructor
  · rintro ⟨hlines, htaxes⟩
    refine ⟨fun x hx => (hline x).mp (hlines x hx), fun id hid c hc => (htax id c).mp ?_⟩
    exact htaxes _ ((mem_taxes h).mpr ⟨id, hid, c, hc, rfl⟩)
  · rintro ⟨hlines, htaxes⟩
    refine ⟨fun x hx => (hline x).mpr (hlines x hx), fun t ht => ?_⟩
    obtain ⟨id, hid, c, hc, rfl⟩ := (mem_taxes h).mp ht
    exact (htax id c).mpr (htaxes id hid c hc)

/-- The accounts of the journal lines are those of the lines, the taxes and the settlement. -/
theorem forall_mem_journalLines_accountId {P : Uuid → Prop}
    (h : calculate collation codes ⟨nature, settlementId, taxableLines lines⟩ = .ok res) :
    (∀ l ∈ res.journalLines, P l.accountId) ↔ (∀ x ∈ lines, P x.accountId) ∧
      (∀ id ∈ taxCodeIds (taxableLines lines), ∀ c ∈ codes id, P c.taxAccountId) ∧
      P settlementId := by
  have hbase : ∀ x, (baseLine nature x).accountId = x.accountId := by cases nature <;> exact fun _ => rfl
  have htax : ∀ t, (taxLine t).accountId = t.accountId := fun t => by unfold taxLine; split <;> rfl
  have hsettlement : ∀ amount, (settlementLine nature settlementId amount).accountId = settlementId := by
    cases nature <;> exact fun _ => rfl
  rw [calculate_journalLines h]
  simp only [List.forall_mem_append, List.forall_mem_map, List.forall_mem_singleton, hbase, htax,
    hsettlement, taxableLines, and_assoc]
  refine and_congr_right fun _ => and_congr_left fun _ => ?_
  constructor
  · intro htaxes id hid c hc
    exact htaxes _ ((mem_taxes h).mpr ⟨id, hid, c, hc, rfl⟩)
  · intro htaxes t ht
    obtain ⟨id, hid, c, hc, rfl⟩ := (mem_taxes h).mp ht
    exact htaxes id hid c hc

end Amounts

/-! ## Drafts -/

/-- A draft of the store that a preview can be asked for: the control account of a document is known,
and there are lines or allocations. -/
inductive Draft (db : Db)
  | document (kind : DocumentKind) (id : Uuid) (d : Document) (controlId : Uuid)
      (live : Db.liveDocument db kind id = some d) (draft : d.status = .draft)
      (control : ∃ a, Db.accountOfRole db kind.descriptor.controlRole = some (controlId, a))
      (nonempty : taxableLines (storedLines db kind id) ≠ [])
  | payment (id : Uuid) (p : Payment) (live : Db.livePayment db id = some p)
      (draft : p.status = .draft) (nonempty : p.allocations ≠ [])

namespace Draft

variable {db : Db}

/-- The request for the preview of a draft. -/
def dto : Draft db → PreviewJournalEntryDto
  | .document kind id d controlId _ _ _ nonempty =>
    ⟨some d.date, .taxed kind.descriptor.nature controlId (taxableLines (storedLines db kind id))
      nonempty⟩
  | .payment _ p _ _ nonempty =>
    ⟨some p.date, .payment p.direction p.cashAccountId p.allocations nonempty⟩

/-- The draft's journal entry can be prepared. -/
def Prepares (draft : Draft db) (user : Uuid) (collation : Collation) : Prop :=
  match draft with
  | .document kind id d _ _ _ _ _ =>
    ∃ r, (prepareDocument kind id d (storedLines db kind id) user collation).alone db = (.ok r, db)
  | .payment id p _ _ _ => ∃ prepared, (preparePayment id p user).alone db = (.ok prepared, db)

/-- The draft is posted, with its entry under the key `entryId` and its allocations read in any order,
and leaves the store `db'`. -/
def PostsTo (draft : Draft db) (user entryId : Uuid) (now : Timestamp) (collation : Collation)
    (db' : Db) : Prop :=
  match draft with
  | .document kind id _ _ _ _ _ _ =>
    ∃ r, (TaxedDocument.post kind id user entryId now collation).alone db = (.ok r, db')
  | .payment id _ _ _ _ =>
    ∃ scan answer r, (Payments.post id user entryId now scan answer).alone db = (.ok r, db')

/-- The preview shows what the post writes, and succeeds if and only if the entry can be prepared. -/
structure PreviewAgrees (draft : Draft db) (collation : Collation) : Prop where
  shows : ∀ pv user entryId now db', (preview draft.dto collation).alone db = (.ok pv, db) →
    draft.PostsTo user entryId now collation db' →
      ∃ e, Db.entry db' entryId = some e ∧ pv.Shows e.lines
  prepares : ∀ user, (∃ pv, (preview draft.dto collation).alone db = (.ok pv, db)) ↔
    draft.Prepares user collation

/-- The journal entry of a document can be posted as far as it does not depend on the sides of its
lines: the tax engine calculates it, the day can be posted to, and so can all accounts. -/
structure Enterable (kind : DocumentKind) (date : UtcDay) (controlId : Uuid)
    (lines : List DocumentLineInput) (collation : Collation) (db : Db) : Prop where
  calculates : ∃ res, calculate collation (Db.liveTaxCode db)
    ⟨kind.descriptor.nature, controlId, taxableLines lines⟩ = .ok res
  day : PostableOn db date
  lineAccounts : ∀ l ∈ lines, PostableAccount db l.accountId
  taxAccounts : ∀ id ∈ taxCodeIds (taxableLines lines), ∀ c ∈ Db.liveTaxCode db id,
    PostableAccount db c.taxAccountId
  control : PostableAccount db controlId

/-- A document that could be posted otherwise has no line and no tax that rounds to nothing. -/
def NothingVanishes (collation : Collation) : Draft db → Prop
  | .document kind id d controlId _ _ _ _ =>
    Enterable kind d.date controlId (storedLines db kind id) collation db →
      Substantial (Db.liveTaxCode db) (storedLines db kind id)
  | .payment _ _ _ _ _ => True

/-! ### Payments -/

/-- The total of allocations that are positive and to documents of the direction's kind. -/
theorem allocationTotal_eq {t : PaymentTarget} {as : List PaymentAllocation}
    (h : ∀ a ∈ as, t.allocId a ≠ none ∧ t.otherId a = none) (hvalid : ∀ a ∈ as, a.Valid)
    (total : ℤ) :
    allocationTotal t total as = .ok ((as.map (·.amount)).foldl Money.add total) := by
  induction as generalizing total with
  | nil => rfl
  | cons a as ih =>
    obtain ⟨⟨hsome, hnone⟩, hrest⟩ := List.forall_mem_cons.mp h
    obtain ⟨⟨hpos, -⟩, hvalid⟩ := List.forall_mem_cons.mp hvalid
    have hsign : ¬ (Money.isZero a.amount || Money.isNegative a.amount) = true := by
      simp only [Money.isZero, Money.isNegative, Bool.or_eq_true, decide_eq_true_eq]
      omega
    rw [allocationTotal, if_neg (by simp [hsome, hnone]), if_neg hsign, ih hrest hvalid]
    rfl

/-- The two lines of a payment are balanced. -/
theorem assertBalanced_paymentLines (t : PaymentTarget) (cashAccountId controlId : Uuid)
    {amount : ℤ} (hne : amount ≠ 0) (hstorable : Money.Storable amount) :
    assertBalanced (buildPaymentLines t cashAccountId controlId amount) = .ok () := by
  have hadd : Money.add Money.zero amount = amount := by
    rw [Money.zero, Money.add_eq (by rwa [zero_add]), zero_add]
  have hadd' : Money.add amount 0 = amount := by
    rw [Money.add_eq (by rwa [add_zero]), add_zero]
  have hzero : Money.add Money.zero 0 = Money.zero := by decide
  rw [assertBalanced_eq_ok_iff]
  unfold buildPaymentLines
  split <;> simp [PostLineInput.HasOneSide, PostLineInput.debitOrZero, PostLineInput.creditOrZero,
    Money.sum, hne, hadd, hadd', hzero]

/-- A payment with allocations has a positive amount. -/
theorem amount_pos {p : Payment} (h : p.Coherent) (hne : p.allocations ≠ []) : 0 < p.amount := by
  have hpos : ∀ x ∈ p.allocations.map (·.amount), 0 < x :=
    List.forall_mem_map.mpr fun a ha => (h.valid.2 a ha).1
  have hstorable := h.valid.1
  rw [h.amount_eq] at hstorable ⊢
  rw [Money.sum_eq_of_storable (fun x hx => (hpos x hx).le) hstorable]
  exact List.sum_pos _ hpos (by simpa using hne)

/-! ### Agreement -/

variable {collation : Collation}

theorem previews_iff (draft : Draft db) :
    (∃ pv, (preview draft.dto collation).alone db = (.ok pv, db)) ↔
      ∃ lines, Previewable collation db draft.dto lines := by
  simp only [(yields_preview _ _).alone_eq_ok_iff]
  constructor
  · rintro ⟨pv, lines, h, -⟩
    exact ⟨lines, h⟩
  · rintro ⟨lines, h⟩
    obtain ⟨pv, hpv, -⟩ := h.exists_toPreview
    exact ⟨pv, lines, h, hpv⟩

/-- A preview shows the rows of the lines it derives. -/
theorem shows_of_preview {draft : Draft db} {pv : JournalPreview}
    (h : (preview draft.dto collation).alone db = (.ok pv, db)) :
    ∃ lines, Previewable collation db draft.dto lines ∧ pv.Shows (toJournalLines lines) := by
  obtain ⟨lines, hlines, hpv⟩ := (yields_preview _ _).alone_eq_ok_iff.mp h
  obtain ⟨pv', hpv', hshows⟩ := hlines.exists_toPreview
  obtain rfl : pv = pv' := Except.ok.inj (hpv.symm.trans hpv')
  exact ⟨lines, hlines, hshows⟩

section Document

variable {kind : DocumentKind} {id controlId : Uuid} {d : Document}
  {live : Db.liveDocument db kind id = some d} {draft : d.status = .draft}
  {control : ∃ a, Db.accountOfRole db kind.descriptor.controlRole = some (controlId, a)}
  {nonempty : taxableLines (storedLines db kind id) ≠ []}

theorem previewable_document_iff {lines : List PostLineInput} :
    Previewable collation db (document kind id d controlId live draft control nonempty).dto lines ↔
      PostableOn db d.date ∧ (∃ res, calculate collation (Db.liveTaxCode db)
        ⟨kind.descriptor.nature, controlId, taxableLines (storedLines db kind id)⟩ = .ok res ∧
          lines = res.journalLines) ∧ ∀ l ∈ lines, PostableAccount db l.accountId := by
  constructor
  · rintro ⟨hday, hderived, haccounts⟩
    exact ⟨hday _ rfl, hderived, haccounts⟩
  · rintro ⟨hday, hderived, haccounts⟩
    refine ⟨fun day hmem => ?_, hderived, haccounts⟩
    cases hmem
    exact hday

/-- The preparation of a document derives the lines from the same control account. -/
theorem prepareDocument_alone_iff {user : Uuid} {r : TaxCalculation × PreparedPosting}
    (control : ∃ a, Db.accountOfRole db kind.descriptor.controlRole = some (controlId, a)) :
    (prepareDocument kind id d (storedLines db kind id) user collation).alone db = (.ok r, db) ↔
      calculate collation (Db.liveTaxCode db)
        ⟨kind.descriptor.nature, controlId, taxableLines (storedLines db kind id)⟩ = .ok r.1 ∧
      Preparable db (TaxedDocument.journalInput kind id d r.1.journalLines) r.2.periodId
        r.2.fiscalYear ∧
      r.2 = ⟨TaxedDocument.journalInput kind id d r.1.journalLines, user, r.2.periodId,
        r.2.fiscalYear⟩ := by
  rw [(yields_prepareDocument _ _ _ _ _ _).alone_eq_ok_iff]
  constructor
  · rintro ⟨settlementId, ⟨a, ha⟩, h⟩
    obtain ⟨a', ha'⟩ := control
    cases ha.symm.trans ha'
    exact h
  · exact fun h => ⟨controlId, control, h⟩

theorem prepares_document_iff {user : Uuid} :
    (document kind id d controlId live draft control nonempty).Prepares user collation ↔
      ∃ res, calculate collation (Db.liveTaxCode db)
        ⟨kind.descriptor.nature, controlId, taxableLines (storedLines db kind id)⟩ = .ok res ∧
          assertBalanced res.journalLines = .ok () ∧ PostableOn db d.date ∧
            ∀ l ∈ res.journalLines, PostableAccount db l.accountId := by
  simp only [Prepares, prepareDocument_alone_iff control, ← exists_openDay_iff]
  constructor
  · rintro ⟨r, hres, ⟨hbalanced, hday, haccounts⟩, -⟩
    exact ⟨r.1, hres, hbalanced, ⟨_, _, hday⟩, haccounts⟩
  · rintro ⟨res, hres, hbalanced, ⟨periodId, fiscalYear, hday⟩, haccounts⟩
    exact ⟨(res, ⟨TaxedDocument.journalInput kind id d res.journalLines, user, periodId, fiscalYear⟩),
      hres, ⟨hbalanced, hday, haccounts⟩, rfl⟩

theorem previewAgrees_document_iff :
    (document kind id d controlId live draft control nonempty).PreviewAgrees collation ↔
      (document kind id d controlId live draft control nonempty).NothingVanishes collation := by
  constructor
  · rintro ⟨-, hprepares⟩ ⟨⟨res, hres⟩, hday, hlines, htaxes, hcontrol⟩
    have haccounts := (forall_mem_journalLines_accountId hres).mpr ⟨hlines, htaxes, hcontrol⟩
    have hpreview := (previews_iff (document kind id d controlId live draft control nonempty)).mpr
      ⟨_, previewable_document_iff.mpr ⟨hday, ⟨res, hres, rfl⟩, haccounts⟩⟩
    obtain ⟨res', hres', hbalanced, -⟩ := prepares_document_iff.mp ((hprepares 0).mp hpreview)
    obtain rfl : res = res' := Except.ok.inj (hres.symm.trans hres')
    exact (assertBalanced_iff_substantial hres).mp hbalanced
  · intro hnothing
    refine ⟨?_, fun user => ?_⟩
    · rintro pv user entryId now db' hpreview ⟨r, hpost⟩
      obtain ⟨lines, hlines, hshows⟩ := shows_of_preview hpreview
      obtain ⟨-, ⟨res, hres, rfl⟩, -⟩ := previewable_document_iff.mp hlines
      obtain ⟨prepared, hprepared, n, ref, hentry⟩ := entry_of_post_document live hpost
      obtain ⟨hres', -, heq⟩ := (prepareDocument_alone_iff control).mp hprepared
      obtain rfl : res = prepared.1 := Except.ok.inj (hres.symm.trans hres')
      refine ⟨_, hentry, ?_⟩
      rw [heq]
      exact hshows
    · rw [previews_iff, prepares_document_iff]
      simp only [previewable_document_iff]
      constructor
      · rintro ⟨_, hday, ⟨res, hres, rfl⟩, haccounts⟩
        obtain ⟨hlines, htaxes, hcontrol⟩ := (forall_mem_journalLines_accountId hres).mp haccounts
        have hsubstantial := hnothing ⟨⟨res, hres⟩, hday, hlines, htaxes, hcontrol⟩
        exact ⟨res, hres, (assertBalanced_iff_substantial hres).mpr hsubstantial, hday, haccounts⟩
      · rintro ⟨res, hres, -, hday, haccounts⟩
        exact ⟨_, hday, ⟨res, hres, rfl⟩, haccounts⟩

end Document

section Payment

variable {id : Uuid} {p : Payment} {live : Db.livePayment db id = some p} {draft : p.status = .draft}
  {nonempty : p.allocations ≠ []}

theorem previewable_payment_iff (hcoh : p.Coherent) {lines : List PostLineInput} :
    Previewable collation db (payment id p live draft nonempty).dto lines ↔
      PostableOn db p.date ∧ (∃ controlId,
        (∃ a, Db.accountOfRole db p.direction.target.controlRole = some (controlId, a)) ∧
          lines = buildPaymentLines p.direction.target p.cashAccountId controlId p.amount) ∧
        ∀ l ∈ lines, PostableAccount db l.accountId := by
  have htotal : allocationTotal p.direction.target Money.zero p.allocations = .ok p.amount := by
    rw [allocationTotal_eq hcoh.targets hcoh.valid.2, hcoh.amount_eq, Money.sum]
  constructor
  · rintro ⟨hday, ⟨total, heq, hderived⟩, haccounts⟩
    obtain rfl : p.amount = total := Except.ok.inj (htotal.symm.trans heq)
    exact ⟨hday _ rfl, hderived, haccounts⟩
  · rintro ⟨hday, hderived, haccounts⟩
    refine ⟨fun day hmem => ?_, ⟨p.amount, htotal, hderived⟩, haccounts⟩
    cases hmem
    exact hday

theorem prepares_payment_iff (hcoh : p.Coherent) {user : Uuid} :
    (payment id p live draft nonempty).Prepares user collation ↔ PostableOn db p.date ∧ ∃ controlId,
      (∃ a, Db.accountOfRole db p.direction.target.controlRole = some (controlId, a)) ∧
        ∀ l ∈ buildPaymentLines p.direction.target p.cashAccountId controlId p.amount,
          PostableAccount db l.accountId := by
  simp only [Prepares, (yields_preparePayment _ _ _).alone_eq_ok_iff, ← exists_openDay_iff]
  constructor
  · rintro ⟨prepared, controlId, hcontrol, ⟨-, hday, haccounts⟩, -⟩
    exact ⟨⟨_, _, hday⟩, controlId, hcontrol, haccounts⟩
  · rintro ⟨⟨periodId, fiscalYear, hday⟩, controlId, hcontrol, haccounts⟩
    exact ⟨⟨Payments.journalInput id p controlId, user, periodId, fiscalYear⟩, controlId, hcontrol,
      ⟨assertBalanced_paymentLines _ _ _ (amount_pos hcoh nonempty).ne' hcoh.valid.1, hday,
        haccounts⟩, rfl⟩

/-- The preview of a payment always agrees with its post. -/
theorem previewAgrees_payment (hcoh : p.Coherent) :
    (payment id p live draft nonempty).PreviewAgrees collation := by
  refine ⟨?_, fun user => ?_⟩
  · rintro pv user entryId now db' hpreview ⟨scan, answer, r, hpost⟩
    obtain ⟨lines, hlines, hshows⟩ := shows_of_preview hpreview
    obtain ⟨-, ⟨controlId, ⟨a, ha⟩, rfl⟩, -⟩ := (previewable_payment_iff hcoh).mp hlines
    obtain ⟨prepared, hprepared, n, ref, hentry⟩ := entry_of_post_payment live hpost
    obtain ⟨controlId', ⟨a', ha'⟩, -, heq⟩ :=
      (yields_preparePayment _ _ _).alone_eq_ok_iff.mp hprepared
    cases ha.symm.trans ha'
    refine ⟨_, hentry, ?_⟩
    rw [heq]
    exact hshows
  · rw [previews_iff, prepares_payment_iff hcoh]
    simp only [previewable_payment_iff hcoh]
    constructor
    · rintro ⟨_, hday, ⟨controlId, hcontrol, rfl⟩, haccounts⟩
      exact ⟨hday, controlId, hcontrol, haccounts⟩
    · rintro ⟨hday, controlId, hcontrol, haccounts⟩
      exact ⟨_, hday, ⟨controlId, hcontrol, rfl⟩, haccounts⟩

end Payment

/-- **When a preview agrees with the post**: always for a payment, and for a document if and only if
none of its lines and taxes rounds to nothing, or its entry cannot be posted for another reason. -/
theorem previewAgrees_iff {policy : Policy Row LockName Query Failure Response Request} {db₀ : Db}
    {s : Server} (h₀ : Initial db₀) (h : Reachable code policy db₀ s) (draft : Draft s.db) :
    draft.PreviewAgrees collation ↔ draft.NothingVanishes collation := by
  cases draft with
  | document kind id d controlId live draft control nonempty => exact previewAgrees_document_iff
  | payment id p live draft nonempty =>
    have hp : Db.payment s.db id = some p := (Option.mem_filter_iff.mp live).1
    exact iff_of_true (previewAgrees_payment ((coherent_of_reachable h₀ h).payment hp)) trivial

end Draft

namespace Sample

/-- The stored row of a drafted invoice. -/
def draftedRow (dto : CreateDocumentDto) (totals : DocumentTotals) : Document :=
  TaxedDocument.draftRow .salesInvoice (dto.toInput 9) totals

/-- The draft of the invoice of two lines and a tax. -/
def invoiceDraft : Draft taxedServer.db :=
  .document .salesInvoice 20 (draftedRow taxedInvoice ⟨1550000, 80000, 0, 1630000⟩) 2
    (by decide +kernel) rfl
    ⟨_, show Db.accountOfRole _ .arControl = some (2, account "1200" .asset (some .arControl) .debit)
      by decide +kernel⟩ (by decide +kernel)

/-- The draft of an invoice with a line that costs nothing. -/
def freeLineDraft : Draft (server (drafted freeLine)).db :=
  .document .salesInvoice 20 (draftedRow freeLine ⟨1000000, 0, 0, 1000000⟩) 2
    (by decide +kernel) rfl
    ⟨_, show Db.accountOfRole _ .arControl = some (2, account "1200" .asset (some .arControl) .debit)
      by decide +kernel⟩ (by decide +kernel)

end Sample

open Sample in
/-- An invoice of two lines and a tax is previewed with four lines, and its preview agrees with its
post if nothing vanishes. -/
theorem previewAgrees_iff_invoice : (∃ pv, ((preview invoiceDraft.dto .ordinal).alone
    taxedServer.db).1 = .ok pv ∧ (pv.lines.length, pv.totalDebit) = (4, 1630000)) ∧
      (invoiceDraft.PreviewAgrees .ordinal ↔ invoiceDraft.NothingVanishes .ordinal) := by
  refine ⟨exists_ok_of_toOption ?_,
    Draft.previewAgrees_iff taxedDb_initial taxedServer_reachable invoiceDraft⟩
  decide +kernel

open Sample in
/-- A line that costs nothing is shown in a balanced preview, and cannot be posted. -/
theorem free_line_previewed : (∃ pv, (preview freeLineDraft.dto .ordinal).alone
    (server (drafted freeLine)).db = (.ok pv, (server (drafted freeLine)).db) ∧
      pv.balanced = true) ∧ ¬ freeLineDraft.PreviewAgrees .ordinal := by
  obtain ⟨pv, hpv, hbalanced⟩ : ∃ pv, ((preview freeLineDraft.dto .ordinal).alone
      (server (drafted freeLine)).db).1 = .ok pv ∧ pv.balanced = true := by
    refine ⟨⟨[⟨5, "4100", "4100", 0, 1000000⟩, ⟨5, "4100", "4100", 0, 0⟩,
      ⟨2, "1200", "1200", 1000000, 0⟩], 1000000, 1000000, true⟩, ?_, rfl⟩
    decide +kernel
  have hpreview : (preview freeLineDraft.dto .ordinal).alone (server (drafted freeLine)).db =
      (.ok pv, (server (drafted freeLine)).db) :=
    Prod.ext hpv (yields_preview _ _).alone_snd
  refine ⟨⟨pv, hpreview, hbalanced⟩, fun hagrees => ?_⟩
  obtain ⟨r, hr⟩ := (hagrees.prepares 9).mp ⟨pv, hpreview⟩
  have herror : ((prepareDocument .salesInvoice 20
      (draftedRow freeLine ⟨1000000, 0, 0, 1000000⟩)
      (storedLines (server (drafted freeLine)).db .salesInvoice 20) 9 .ordinal).alone
        (server (drafted freeLine)).db).1.toOption.isNone = true := by decide +kernel
  rw [hr] at herror
  cases herror

end AccountingApi
