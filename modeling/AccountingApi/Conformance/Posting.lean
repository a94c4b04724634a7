import AccountingApi.Statements

/-!
# The posting service keeps the protocol

What the preparations and the transactions of the posting service establish for the commit.

## Main results

* `wp_preparePosting`, `wp_createPostedEntryInTx`: a fresh entry
* `wp_prepareReversal`, `wp_reverseInTx`: a reversal
-/

namespace AccountingApi

open ReadCommitted Posting Relation

/-- A request that has written nothing still has written nothing after a read. -/
theorem buf_of_ran {P : Protocol Row LockName Query Request} {r : Request} {ℓ ℓ' : Tx}
    {F : Commit → Prop} (h : ℓ.Ran P r ℓ' [] F) (hbuf : ℓ.buf = []) : ℓ'.buf = [] := by
  rw [h.buf, hbuf, List.append_nil]

/-! ## Preparations -/

section Preparation

variable {P : Protocol Row LockName Query Request} {r : Request} {ℓ : Tx}

theorem wp_settings {post : CompanySettings → Tx → Prop} (hnew : ℓ.published = false)
    (hbuf : ℓ.buf = [])
    (h : ∀ settings ℓ', ℓ.Ran P r ℓ' [] (fun c => Saw c .settings fun s =>
      Db.settings s = some settings) → post settings ℓ') :
    Company.get.wp P r ℓ post := by
  refine Prog.wp_bind.mpr (wp_read hnew hbuf fun s ℓ₁ h₁ => ?_)
  exact Prog.wp_orThrow h₁.new fun settings hs => h settings ℓ₁ (h₁.mono fun c hc => ⟨s, hc.1, hs⟩)

theorem wp_fiscalYearFor {date : UtcDay} {post : ℤ → Tx → Prop} (hnew : ℓ.published = false)
    (hbuf : ℓ.buf = [])
    (h : ∀ y ℓ', ℓ.Ran P r ℓ' [] (fun c => FiscalYearFor c date y) → post y ℓ') :
    (Company.fiscalYearFor date).wp P r ℓ post := by
  refine Prog.wp_bind.mpr (wp_settings hnew hbuf fun settings ℓ₁ h₁ => h _ ℓ₁ (h₁.mono ?_))
  rintro c ⟨s, hseen, hs⟩
  exact ⟨s, hseen, settings, hs, rfl⟩

theorem wp_isSegregationViolation {sourceType : JournalSourceType} {createdBy postedBy : Uuid}
    {post : Bool → Tx → Prop} (hnew : ℓ.published = false) (hbuf : ℓ.buf = [])
    (h : ∀ b ℓ', ℓ.Ran P r ℓ' [] (fun _ => True) → post b ℓ') :
    (Company.isSegregationViolation sourceType createdBy postedBy).wp P r ℓ post :=
  Prog.wp_bind.mpr (wp_settings hnew hbuf fun _ ℓ₁ h₁ => h _ ℓ₁ (h₁.mono fun _ _ => trivial))

theorem wp_findOpenPeriodForDate {date : UtcDay} {post : Option Uuid → Tx → Prop}
    (hnew : ℓ.published = false) (hbuf : ℓ.buf = [])
    (h : ∀ o ℓ', ℓ.Ran P r ℓ' [] (fun c => ∀ id ∈ o, OpenPeriod c date id) → post o ℓ') :
    (Periods.findOpenPeriodForDate (.midnight date)).wp P r ℓ post := by
  refine Prog.wp_bind.mpr (wp_read hnew hbuf fun s ℓ₁ h₁ => h _ ℓ₁ (h₁.mono ?_))
  rintro c ⟨hseen, -⟩ id hid
  obtain ⟨⟨id, p⟩, hp, rfl⟩ := Option.map_eq_some_iff.mp hid
  have hopen := List.find?_some hp
  obtain ⟨hstatus, hcontains⟩ := of_decide_eq_true hopen
  exact ⟨s, hseen, p, Db.mem_periods.mp (List.mem_of_find?_eq_some hp), hstatus, hcontains⟩

theorem wp_assertPostableDate {date : UtcDay} {post : Uuid × ℤ → Tx → Prop}
    (hnew : ℓ.published = false) (hbuf : ℓ.buf = [])
    (h : ∀ p y ℓ', ℓ.Ran P r ℓ' [] (fun c => OpenPeriod c date p ∧ FiscalYearFor c date y) →
      post (p, y) ℓ') :
    (assertPostableDate date).wp P r ℓ post := by
  refine Prog.wp_bind.mpr (wp_findOpenPeriodForDate hnew hbuf fun o ℓ₁ h₁ => ?_)
  refine Prog.wp_bind.mpr (Prog.wp_orThrow h₁.new fun p hp => ?_)
  refine Prog.wp_bind.mpr (wp_fiscalYearFor h₁.new (buf_of_ran h₁ hbuf) fun y ℓ₂ h₂ => ?_)
  have h₁₂ := h₁.trans h₂
  refine Prog.wp_bind.mpr (wp_read h₂.new (buf_of_ran h₁₂ hbuf) fun s ℓ₃ h₃ => ?_)
  refine Prog.wp_bind.mpr (Prog.wp_ensure h₃.new fun _ => h p y ℓ₃ ?_)
  exact (h₁₂.trans h₃).mono fun c hc => ⟨hc.1.1 p hp, hc.1.2⟩

theorem wp_assertPostableAccounts {lines : List PostLineInput} {post : Unit → Tx → Prop}
    (hnew : ℓ.published = false) (hbuf : ℓ.buf = [])
    (h : ∀ ℓ', ℓ.Ran P r ℓ' [] (fun c => PostableAccounts c lines) → post () ℓ') :
    (assertPostableAccounts lines).wp P r ℓ post :=
  Prog.wp_bind.mpr (wp_read hnew hbuf fun s ℓ₁ h₁ =>
    Prog.wp_ofExcept h₁.new fun _ hok => h ℓ₁ (h₁.mono fun _ hc => ⟨s, hc.1, hok⟩))

/-- The preparation of a fresh entry. -/
theorem wp_preparePosting {input : PostEntryInput} {postedBy : Uuid}
    {post : PreparedPosting → Tx → Prop} (hnew : ℓ.published = false) (hbuf : ℓ.buf = [])
    (h : ∀ p ℓ', ℓ.Ran P r ℓ' [] (fun c => Prepared c input postedBy p) → post p ℓ') :
    (preparePosting input postedBy).wp P r ℓ post := by
  refine Prog.wp_bind.mpr (Prog.wp_ofExcept hnew fun _ hbalanced => ?_)
  refine Prog.wp_bind.mpr (wp_isSegregationViolation hnew hbuf fun b ℓ₁ h₁ => ?_)
  refine Prog.wp_bind.mpr (Prog.wp_ensure h₁.new fun _ => ?_)
  refine Prog.wp_bind.mpr (wp_assertPostableDate h₁.new (buf_of_ran h₁ hbuf) fun p y ℓ₂ h₂ => ?_)
  have h₁₂ := h₁.trans h₂
  refine Prog.wp_bind.mpr
    (wp_assertPostableAccounts h₂.new (buf_of_ran h₁₂ hbuf) fun ℓ₃ h₃ => h _ ℓ₃ ?_)
  exact (h₁₂.trans h₃).mono fun c hc => ⟨rfl, rfl, hbalanced, hc.1.2.1, hc.1.2.2, hc.2⟩

/-- The original of a reversal, as the commit finds it: a reversal by another request may have marked
it, nothing else. -/
def StillPosted (c : Commit) (p : PreparedReversal) : Prop :=
  ∃ o, Db.entry c.before p.originalId = some o ∧ o.status ≠ .draft ∧ o.deletedAt = none ∧
    o = { p.original with status := o.status, reversedById := o.reversedById }

end Preparation

section Transaction

variable {strict : Prop} {r : Request} {ℓ : Tx}

/-- The preparation of a reversal on the original's date. -/
theorem wp_prepareReversal {entryId reversedBy : Uuid} {allow : Bool}
    {post : PreparedReversal → Tx → Prop} (hnew : ℓ.published = false) (hbuf : ℓ.buf = [])
    (h : ∀ p ℓ', ℓ.Ran (protocol strict) r ℓ' []
      (fun c => PreparedReverse c entryId reversedBy allow p ∧ StillPosted c p) → post p ℓ') :
    (prepareReversal entryId reversedBy none allow).wp (protocol strict) r ℓ post := by
  refine Prog.wp_bind.mpr (wp_read hnew hbuf fun s ℓ₁ h₁ => ?_)
  refine Prog.wp_bind.mpr (Prog.wp_orThrow h₁.new fun original horiginal => ?_)
  refine Prog.wp_bind.mpr (Prog.wp_ensure h₁.new fun hposted => ?_)
  refine Prog.wp_bind.mpr
    (wp_findOpenPeriodForDate h₁.new (buf_of_ran h₁ hbuf) fun o ℓ₂ h₂ => ?_)
  refine Prog.wp_bind.mpr (Prog.wp_orThrow h₂.new fun periodId hperiod => ?_)
  have h₁₂ := h₁.trans h₂
  refine Prog.wp_bind.mpr
    (wp_fiscalYearFor h₂.new (buf_of_ran h₁₂ hbuf) fun y ℓ₃ h₃ => ?_)
  have h₁₃ := h₁₂.trans h₃
  have hfacts : ∀ c : Commit, ((((.journalEntry, s) ∈ c.seen ∧
      Drift (protocol strict) none s c.before) ∧ ∀ id ∈ o, OpenPeriod c original.date id) ∧
      FiscalYearFor c original.date y) →
      PreparedReverse c entryId reversedBy allow
        ⟨entryId, original, reversedBy, periodId, y, original.date, allow⟩ ∧
      StillPosted c ⟨entryId, original, reversedBy, periodId, y, original.date, allow⟩ := by
    rintro c ⟨⟨⟨hseen, hdrift⟩, hopen⟩, hyear⟩
    refine ⟨⟨rfl, rfl, rfl, rfl, ⟨s, hseen, horiginal, hposted⟩, hopen periodId hperiod, hyear⟩,
      ?_⟩
    obtain ⟨hentry, hlive⟩ := Option.filter_eq_some_iff.mp horiginal
    obtain ⟨o', ho', hsteps⟩ := entry_of_drift hdrift hentry
    exact ⟨o', ho', posted_of_entrySteps hsteps (by rw [hposted]; decide)
      (Option.isNone_iff_eq_none.mp hlive)⟩
  cases allow with
  | true => exact h _ ℓ₃ (h₁₃.mono hfacts)
  | false =>
    refine Prog.wp_bind.mpr (Prog.wp_bind.mpr
      (wp_read h₃.new (buf_of_ran h₁₃ hbuf) fun s' ℓ₄ h₄ => Prog.wp_ensure h₄.new fun _ => ?_))
    exact h _ ℓ₄ ((h₁₃.trans h₄).mono fun c hc => hfacts c hc.1)

/-! ## In the transaction -/

/-- The keys a transaction writes before it stamps an entry. -/
def Key.BeforeStamp : Key → Prop
  | .document _ _ | .payment _ | .sequence (.document _ _) => True
  | _ => False

/-- Before an entry is stamped, a transaction has written documents, payments and their numbers
only. -/
def BeforeStamp (ℓ : Tx) : Prop := ∀ w ∈ ℓ.buf, w.1.BeforeStamp

theorem BeforeStamp.of_buf (hbuf : ℓ.buf = []) : BeforeStamp ℓ :=
  fun _ hw => absurd (hbuf ▸ hw) List.not_mem_nil

theorem BeforeStamp.untouched (h : BeforeStamp ℓ) {k : Key} (hk : ¬ k.BeforeStamp) :
    ℓ.Untouched k :=
  fun w hw hwk => hk (hwk ▸ h w hw)

theorem BeforeStamp.ran {P : Protocol Row LockName Query Request} {ℓ' : Tx}
    {ws : List (Write Row)} {F : Commit → Prop} (h : BeforeStamp ℓ) (hr : ℓ.Ran P r ℓ' ws F)
    (hws : ∀ w ∈ ws, w.1.BeforeStamp) : BeforeStamp ℓ' := by
  intro w hw
  rw [hr.buf] at hw
  exact (List.mem_append.mp hw).elim (h w) (hws w)

theorem BeforeStamp.read {P : Protocol Row LockName Query Request} {ℓ' : Tx} {F : Commit → Prop}
    (h : BeforeStamp ℓ) (hr : ℓ.Ran P r ℓ' [] F) : BeforeStamp ℓ' :=
  h.ran hr fun _ hw => absurd hw List.not_mem_nil

/-- The checks of a stamp, without its number. -/
structure Postable (strict : Prop) (c : Commit) (periodId : Uuid) (fiscalYear : ℤ) (allow : Bool) :
    Prop where
  lock : allow = false → (.named (.fiscalYear fiscalYear), .shared) ∈ c.locks
  notClosed : allow = false → ¬ ClosedWithEntry c.before fiscalYear
  notClosedStrict : allow = false → strict → ¬ yearIsClosed c.before fiscalYear
  period : ∃ p ∈ Db.period c.before periodId, p.status = .opened

/-- The record of a year, read by a transaction that has not written it. -/
theorem closing_view {fiscalYear : ℤ} (h : ℓ.Untouched (.closing fiscalYear)) (s : Db) :
    Db.closing (ℓ.view s) fiscalYear = Db.closing s fiscalYear := by
  rw [Db.closing_eq_row, Db.closing_eq_row, h.row_view]

theorem wp_assertPostablePeriodInTx {periodId : Uuid} {fiscalYear : ℤ} {allow : Bool}
    {post : Unit → Tx → Prop} (hnew : ℓ.published = false) (hbuf : BeforeStamp ℓ)
    (h : ∀ ℓ', ℓ.Ran (protocol strict) r ℓ' []
      (fun c => Postable strict c periodId fiscalYear allow) → post () ℓ') :
    (assertPostablePeriodInTx periodId fiscalYear allow).wp (protocol strict) r ℓ post := by
  have hperiod : ∀ db : Db, (db.putAll ℓ.buf).row (.period periodId) = Db.period db periodId :=
    fun db => ((hbuf.untouched (k := .period periodId) id).row_view db).trans
      (Db.period_eq_row db periodId).symm
  refine Prog.wp_bind.mpr ?_
  cases allow with
  | true =>
    refine Prog.wp_bind.mpr (wp_forShare hnew fun s ℓ₁ h₁ => ?_)
    refine Prog.wp_ensure h₁.new fun hopen => h ℓ₁ (h₁.mono fun c hc => ?_)
    refine ⟨nofun, nofun, nofun, ?_⟩
    rwa [← hperiod, hc, ← Db.period_eq_row]
  | false =>
    refine Prog.wp_bind.mpr (Prog.wp_lock hnew fun _ ℓ₁ h₁ hmem => ?_)
    refine Prog.wp_bind.mpr (Prog.wp_query h₁.new fun s₂ ℓ₂ h₂ => ?_)
    refine Prog.wp_ensure h₂.new fun hnot => ?_
    refine Prog.wp_bind.mpr (wp_forShare h₂.new fun s₃ ℓ₃ h₃ => ?_)
    refine Prog.wp_ensure h₃.new fun hopen => h ℓ₃ ((h₁.trans (h₂.trans h₃)).mono ?_)
    rintro c ⟨⟨hlock, -⟩, ⟨-, -, hheld⟩, hrow⟩
    have hdrift := hheld _ hmem
    have hsame := closing_view
      ((hbuf.read h₁).untouched (k := .closing fiscalYear) id) s₂
    rw [yearIsClosed, hsame] at hnot
    refine ⟨fun _ => hlock, fun _ => ?_, fun _ hstrict => notClosed_of_drift hstrict hdrift hnot, ?_⟩
    · refine notClosedWithEntry_of_drift hdrift ?_
      rintro ⟨rec, hrec, hclosed, -⟩
      exact hnot ⟨rec, hrec, hclosed⟩
    · rw [h₂.buf, h₁.buf, List.append_nil, List.append_nil, hperiod] at hrow
      rwa [hrow, ← Db.period_eq_row]

/-- The checks and the number of an entry. -/
theorem wp_stampPostedInTx {periodId : Uuid} {fiscalYear : ℤ} {allow : Bool}
    {post : ℕ × String → Tx → Prop} (hnew : ℓ.published = false) (hbuf : BeforeStamp ℓ)
    (h : ∀ n wn ℓ', (∀ w ∈ wn, w.1 = .sequence (.journal fiscalYear)) →
      ℓ.Ran (protocol strict) r ℓ' wn (fun c => Stamp strict c periodId fiscalYear allow n wn) →
      post (n, buildEntryRef fiscalYear n) ℓ') :
    (stampPostedInTx periodId fiscalYear allow).wp (protocol strict) r ℓ post := by
  refine Prog.wp_bind.mpr (wp_assertPostablePeriodInTx hnew hbuf fun ℓ₁ h₁ => ?_)
  have hfree := (hbuf.read h₁).untouched (k := .sequence (.journal fiscalYear)) id
  refine Prog.wp_bind.mpr (wp_nextSequenceNumber h₁.new hfree fun n wn ℓ₂ hwn h₂ => ?_)
  refine h n wn ℓ₂ hwn ((h₁.trans h₂).mono fun c hc => ?_)
  exact ⟨hc.1.lock, hc.1.notClosed, hc.1.notClosedStrict, hc.1.period, hc.2⟩

/-- The row of an entry, as a transaction that has written none sees it. -/
theorem entry_view {id : Uuid} (h : ℓ.Untouched (.entry id)) (s : Db) :
    (s.putAll ℓ.buf).row (.entry id) = Db.entry s id := by
  rw [Db.entry_eq_row]
  exact h.row_view s

/-- The numbers of the entries are not the entries. -/
theorem ne_entry_of_sequence {wn : List (Write Row)} {s : Sequence} (h : ∀ w ∈ wn, w.1 = .sequence s)
    (id : Uuid) : ∀ w ∈ wn, w.1 ≠ .entry id :=
  fun w hw he => by rw [h w hw] at he; cases he

/-- A fresh entry. -/
theorem wp_createPostedEntryInTx {prepared : PreparedPosting} {id : Uuid} {now : Timestamp}
    {post : JournalEntry → Tx → Prop} (hnew : ℓ.published = false) (hbuf : BeforeStamp ℓ)
    (h : ∀ n wn entry ℓ', (∀ w ∈ wn, w.1 = .sequence (.journal prepared.fiscalYear)) →
      ℓ.Ran (protocol strict) r ℓ' (wn ++ [⟨.entry id, entry⟩])
        (fun c => Created strict c prepared id now n wn entry) → post entry ℓ') :
    (createPostedEntryInTx prepared id now).wp (protocol strict) r ℓ post := by
  refine Prog.wp_bind.mpr (wp_stampPostedInTx hnew hbuf fun n wn ℓ₁ hwn h₁ => ?_)
  refine Prog.wp_bind.mpr (wp_insert h₁.new fun ℓ₂ hvalid h₂ => ?_)
  refine h n wn _ ℓ₂ hwn ((h₁.trans h₂).mono fun c hc => ⟨hc.1, ?_, rfl, hvalid⟩)
  have hfree := (hbuf.untouched (k := .entry id) (fun h => h)).ran h₁ (ne_entry_of_sequence hwn id)
  exact (entry_view hfree c.before).symm.trans hc.2

/-- The reversals of an entry, as a transaction that has written no entry sees them. -/
theorem reversalsOf_view {ws : List (Write Row)} (h : ∀ w ∈ ws, ∀ id, w.1 ≠ .entry id) (s : Db)
    (id : Uuid) : Db.reversalsOf (s.putAll ws) id = [] ↔ Db.reversalsOf s id = [] := by
  have hrow : ∀ x, Db.entry (s.putAll ws) x = Db.entry s x := fun x => by
    rw [Db.entry_eq_row, Db.entry_eq_row]
    exact Store.row_putAll_of_notMem s fun w hw => h w hw x
  simp only [List.eq_nil_iff_forall_not_mem, mem_reversalsOf, hrow]

/-- A reversal, where the original still is what it was when it was read. -/
theorem wp_reverseInTx {prepared : PreparedReversal} {id : Uuid} {now : Timestamp}
    {post : JournalEntry → Tx → Prop} (hnew : ℓ.published = false) (hbuf : BeforeStamp ℓ)
    (h : ∀ n wn o rev ℓ', (∀ w ∈ wn, w.1 = .sequence (.journal prepared.fiscalYear)) →
      ℓ.Ran (protocol strict) r ℓ' (reversalWrites prepared id wn o rev) (fun c =>
        StillPosted c prepared → Reversed strict c prepared id now n wn o rev) → post rev ℓ') :
    (reverseInTx prepared id now).wp (protocol strict) r ℓ post := by
  refine Prog.wp_bind.mpr (wp_stampPostedInTx hnew hbuf fun n wn ℓ₁ hwn h₁ => ?_)
  refine Prog.wp_bind.mpr (Prog.wp_lock h₁.new fun s ℓ₂ h₂ _ => ?_)
  refine Prog.wp_bind.mpr (Prog.wp_ensure h₂.new fun hfirst => ?_)
  refine Prog.wp_bind.mpr (wp_insert h₂.new fun ℓ₃ hvalid h₃ => ?_)
  refine Prog.wp_bind.mpr (wp_updateRow h₃.new fun o ℓ₄ hlive _ h₄ => ?_)
  have hran := (h₁.trans (h₂.trans (h₃.trans h₄)))
  refine h n wn o _ ℓ₄ hwn (hran.mono ?_)
  rintro c ⟨hstamp, ⟨hlock, hheld⟩, hfresh, horiginal⟩ ⟨o', ho', hnot, hdel, hsame⟩
  have hentry : ∀ x, (c.before.putAll ℓ₁.buf).row (.entry x) = Db.entry c.before x := fun x =>
    entry_view ((hbuf.untouched (k := .entry x) fun h => h).ran h₁ (ne_entry_of_sequence hwn x)) _
  rw [h₂.buf, List.append_nil, hentry] at hfresh
  have hne : Key.entry prepared.originalId ≠ .entry id := by
    rintro ⟨⟩
    rw [hfresh] at ho'
    cases ho'
  rw [h₃.buf, h₂.buf, List.append_nil, Store.putAll_append, Store.putAll_cons, Store.putAll_nil,
    Store.row_put_of_ne _ _ hne, hentry, ho'] at horiginal
  cases horiginal
  refine ⟨hstamp, hlock, ?_, hfresh, ho', hdel, hnot, hsame, rfl, hvalid⟩
  refine reversalsOf_of_drift (hheld _ List.mem_cons_self) ((reversalsOf_view ?_ s _).mp hfirst)
  intro w hw x
  exact ((hbuf.untouched (k := .entry x) fun h => h).ran h₁ (ne_entry_of_sequence hwn x)) w hw

/-- An entry posted at once. -/
theorem wp_post {input : PostEntryInput} {postedBy id : Uuid} {now : Timestamp}
    (hnew : ℓ.published = false) (hbuf : ℓ.buf = [])
    (hguar : ∀ (c : Commit) (p : PreparedPosting) (n : ℕ) (wn : List (Write Row))
      (entry : JournalEntry), c.req = r → c.writes = wn ++ [⟨.entry id, entry⟩] →
      Prepared c input postedBy p → Created strict c p id now n wn entry → Transacts strict c) :
    (Posting.post input postedBy id now).wp (protocol strict) r ℓ fun _ _ => True := by
  refine Prog.wp_bind.mpr (wp_preparePosting hnew hbuf fun p ℓ₁ h₁ => wp_transaction ?_)
  refine wp_createPostedEntryInTx h₁.new (.of_buf (buf_of_ran h₁ hbuf))
    fun n wn entry ℓ₂ _ h₂ db hs => ⟨?_, trivial⟩
  refine Local.Ran.guar (h₁.trans h₂) hbuf hs fun c hreq hwrites hc => ?_
  exact hguar c p n wn entry hreq hwrites hc.1 hc.2

end Transaction

end AccountingApi
