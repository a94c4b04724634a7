import AccountingApi.ClosingEntries
import AccountingApi.Movements

/-!
# The records of the years

The record of a year and its closing entry are written together, under the exclusive lock of the year.
A year without movement is closed, and reopened, without an entry and without that lock; where such a
commit finds the year closed with an entry, this entry stays behind.

## Main definitions

* `PostedClosing`: a posted closing entry of a year
* `RecordsMatch`: the records of the years and the closing entries match
* `EmptyFindsNoEntry`: a close or a reopening without an entry finds the year not closed with one

## Main results

* `YearsRecorded.after`: every such commit keeps the invariant
* `recordsMatch_of_reachable`: the records of the runs
* `closing_entry_orphaned`: a close without an entry that has been overtaken
-/

namespace AccountingApi

open ReadCommitted Posting

/-! ## Statements -/

/-- The entry is a posted closing entry of the year. -/
def PostedClosing (db : Db) (fiscalYear : ℤ) (id : Uuid) (e : JournalEntry) : Prop :=
  Db.entry db id = some e ∧ e.sourceType = .closing ∧ e.fiscalYear = some fiscalYear ∧
    e.status = .posted

/-- After the lines of profit and loss accounts there is one that credits retained earnings with the
net income, or none where this is zero. -/
def RetainsNet (db : Db) (lines : List JournalLine) (netIncome : ℤ) : Prop :=
  ∃ pnl retained, lines = pnl ++ retained ∧
    (∀ l ∈ pnl, ∃ a, Db.account db l.accountId = some a ∧ YearEndClose.isPnl a.type = true) ∧
    ((netIncome = 0 ∧ retained = []) ∨ ∃ l a, retained = [l] ∧ Db.account db l.accountId = some a ∧
      a.role = some .retainedEarnings ∧ l.credit - l.debit = netIncome)

/-- A year has one posted closing entry at most, and has one if and only if its record is closed with
it; the record has the net income that the entry brings to retained earnings. -/
structure RecordsMatch (db : Db) : Prop where
  unique : ∀ {fiscalYear id id' e e'}, PostedClosing db fiscalYear id e →
    PostedClosing db fiscalYear id' e' → id = id'
  iff : ∀ fiscalYear id, (∃ e, PostedClosing db fiscalYear id e) ↔
    ∃ rec, Db.closing db fiscalYear = some rec ∧ rec.status = .closed ∧ rec.closingEntryId = some id
  net : ∀ {fiscalYear rec id e}, Db.closing db fiscalYear = some rec → rec.status = .closed →
    rec.closingEntryId = some id → Db.entry db id = some e → RetainsNet db e.lines rec.netIncome

instance (db : Db) (fiscalYear : ℤ) : Decidable (ClosedWithEntry db fiscalYear) :=
  inferInstanceAs (Decidable (∃ rec ∈ Db.closing db fiscalYear, _))

/-- A commit that closes or reopens a year and writes no entry finds the year not closed with one. -/
def EmptyFindsNoEntry (c : Commit) : Prop :=
  ∀ fiscalYear ∈ c.req.year, entries.writes c.writes = [] → ¬ ClosedWithEntry c.before fiscalYear

instance (c : Commit) : Decidable (EmptyFindsNoEntry c) :=
  inferInstanceAs (Decidable (∀ fiscalYear ∈ c.req.year, _))

theorem RetainsNet.kept {db db' : Db} {lines : List JournalLine} {netIncome : ℤ}
    (h : RetainsNet db lines netIncome) (hkept : AccountsKept db db') :
    RetainsNet db' lines netIncome := by
  obtain ⟨pnl, retained, hlines, hpnl, hretained⟩ := h
  refine ⟨pnl, retained, hlines, fun l hl => ?_, hretained.imp_right ?_⟩
  · obtain ⟨a, ha, htype⟩ := hpnl l hl
    obtain ⟨a', ha', hsame, -⟩ := hkept ha
    exact ⟨a', ha', hsame ▸ htype⟩
  · rintro ⟨l, a, hone, ha, hrole, hnet⟩
    obtain ⟨a', ha', -, hsame⟩ := hkept ha
    exact ⟨l, a', hone, ha', hsame.trans hrole, hnet⟩

/-! ## One commit -/

section Commits

variable {strict : Prop} {c : Commit} {startMonth : StartMonth} {fiscalYear : ℤ} {id : Uuid}
  {e : JournalEntry}

/-- **The closing entry of a close** brings the net income to retained earnings. -/
theorem ClosesYear.retainsNet (t : ClosesYear strict c) {db : Db}
    (hseen : ∀ q ∈ c.seen, AccountsKept q.2 db) : RetainsNet db t.entry.lines t.netIncome := by
  have hlines : t.entry.lines = toJournalLines (t.lines ++ t.retained) := by
    rw [t.created.eq_postedEntry t.prepared]
    rfl
  rw [hlines, toJournalLines, List.mapIdx_append]
  refine ⟨_, _, rfl, fun l hl => ?_, ?_⟩
  · obtain ⟨i, hi, rfl⟩ := List.mem_mapIdx.mp hl
    obtain ⟨s, hs, hread⟩ := t.read
    have hmem : t.lines[i] ∈ (YearEndClose.closingLines [] Money.zero
        (pnlRows s t.start t.yearEnd)).1 := by
      rw [hread]
      exact List.getElem_mem hi
    rcases accountId_of_mem_closingLines hmem with hnil | ⟨r, hr, hid⟩
    · cases hnil
    · obtain ⟨hr, hpnl⟩ := List.mem_filter.mp hr
      obtain ⟨a, ha, -, rfl⟩ := mem_groupedBalances.mp hr
      obtain ⟨a', ha', htype, -⟩ := hseen _ hs (mem_accounts.mp ha).1
      refine ⟨a', ?_, htype ▸ hpnl⟩
      rw [← ha']
      exact congrArg (Db.account db) hid.symm
  · rcases t.retainedLines with ⟨hzero, hnil⟩ | ⟨-, rid, ⟨s, hs, a, ha⟩, hone⟩
    · exact .inl ⟨hzero, by rw [hnil]; rfl⟩
    · obtain ⟨hfound, hrole⟩ := account_of_role ha
      obtain ⟨a', ha', -, hsame⟩ := hseen _ hs hfound
      have hstorable : Money.Storable t.netIncome := by
        have hvalid := t.valid
        rw [t.record] at hvalid
        exact hvalid
      refine .inr ⟨(YearEndClose.retainedLine rid t.netIncome).toJournalLine (t.lines.length + 1), a',
        by rw [hone]; simp, ?_, hsame.trans hrole, retainedLine_net hstorable rid⟩
      rw [← ha']
      refine congrArg (Db.account db) ?_
      unfold YearEndClose.retainedLine
      split <;> rfl

/-- A posted closing entry was there before, or is that of a close. -/
theorem PostedClosing.before (h : PostedClosing c.after fiscalYear id e)
    (hI : ClosingEntries startMonth c.before) (hc : Transacts strict c) :
    PostedClosing c.before fiscalYear id e ∨ ∃ t : ClosesYear strict c, t.entryId = id ∧ t.entry = e := by
  obtain ⟨he, hsource, hyear, hposted⟩ := h
  cases hb : Db.entry c.before id with
  | none => exact .inr (hc.closing_new hb he hsource)
  | some e₀ =>
    obtain ⟨e', he', hstep⟩ := hc.entry_step hb
    obtain rfl : e' = e := Option.some.inj (he'.symm.trans he)
    obtain ⟨_, hcloses, -⟩ := hI.entry hb (hstep.source.1.symm.trans hsource)
    cases hstep with
    | refl => exact .inl ⟨hb, hsource, hyear, hposted⟩
    | promote _ _ _ _ _ _ hdraft => exact absurd hdraft hcloses.notDraft
    | reverse => cases hposted
    | delete _ _ hdraft => exact absurd hdraft hcloses.notDraft

/-- A posted closing entry stays posted, or the commit reverses it. -/
theorem PostedClosing.after (h : PostedClosing c.before fiscalYear id e) (hcoh : Coherent c.before)
    (hc : Transacts strict c) : (∃ e', PostedClosing c.after fiscalYear id e') ∨
      ∃ r : ReversesEntry strict c, r.p.originalId = id := by
  obtain ⟨he, hsource, hyear, hposted⟩ := h
  obtain ⟨e', he', hnext⟩ := hc.entryNext he
  cases hnext with
  | reverse r hid => exact .inr ⟨r, hid⟩
  | step hstep hsame =>
    cases hstep with
    | refl => exact .inl ⟨e, he', hsource, hyear, hposted⟩
    | promote _ _ _ _ _ _ hdraft => exact absurd (hposted.symm.trans hdraft) nofun
    | reverse reversalId =>
      -- an entry with the mark of a reversal is reversed already
      have hmarked : e.reversedById ≠ none := by
        rw [← hsame]
        exact Option.some_ne_none _
      exact absurd (hposted.symm.trans ((hcoh.entry he).reversed.mpr hmarked)) nofun
    | delete _ _ hdraft => exact absurd (hposted.symm.trans hdraft) nofun

/-- **A closing entry whose year is closed with an entry is reversed by a reopening of the year only.** -/
theorem ReversesEntry.reopens (r : ReversesEntry strict c) (hc : Transacts strict c)
    (hseen : ∀ q ∈ c.seen, ClosingEntries startMonth q.2 ∧ Persists q.2 c.before)
    (he : Db.entry c.before r.p.originalId = some e) (hcloses : e.ClosesOn startMonth fiscalYear)
    (hclosed : ClosedWithEntry c.before fiscalYear) :
    ∃ t : ReopensYear strict c, t.fiscalYear = fiscalYear := by
  have hrev := r.reversed.entry_eq
  have hnot : r.rev.status ≠ .draft := by
    rw [hrev]
    exact nofun
  obtain ⟨periodId, fiscalYear', hposts⟩ := hc.postsEntry r.after_reversal hnot fun e₀ he₀ =>
    absurd (r.reversed.fresh.symm.trans he₀) nofun
  have hdate : r.rev.date = fiscalYearLastDay fiscalYear startMonth := by
    obtain rfl : e = r.o := Option.some.inj (he.symm.trans r.reversed.original)
    have horiginal : r.p.original.date = r.o.date := by rw [r.reversed.same]
    rw [hrev, ← hcloses.date, ← horiginal, ← r.dated]
    rfl
  have hyear : fiscalYear' = fiscalYear := by
    rw [hposts.year.eq fun q hq => (hseen q hq).1.settings, hdate, fiscalYearForDate_lastDay]
  obtain ⟨allow, n, ws, hstamp, hreopens⟩ := hposts.stamp
  cases allow with
  | false => exact absurd (hyear ▸ hclosed) (hstamp.notClosed rfl)
  | true =>
    obtain ⟨t, ht⟩ := hreopens rfl
    obtain ⟨hsame, -⟩ := ClosingEntries.reopened hseen t
    exact ⟨t, hsame.symm.trans (ht.trans hyear)⟩

/-- The original of a reopening is posted until then. -/
theorem ReopensYear.o_posted (t : ReopensYear strict c) (hcoh : Coherent c.before)
    (hrev : Reversible c.before) : t.o.status = .posted := by
  have hnot : t.o.status ≠ .reversed := by
    intro hreversed
    obtain ⟨r, e', he', hof⟩ := (hrev.reversed_iff hcoh t.reversed.original).mp hreversed
    have hmem := mem_reversalsOf.mpr ⟨e', he', hof⟩
    rw [t.reversed.first] at hmem
    cases hmem
  have hdraft := t.reversed.notDraft
  cases hstatus : t.o.status with
  | posted => rfl
  | draft => exact absurd hstatus hdraft
  | reversed => exact absurd hstatus hnot

/-- A commit about a year closes or reopens it with an entry, or writes no entry. -/
theorem Transacts.of_year (h : Transacts strict c) (hyear : c.req.year = some fiscalYear) :
    (∃ t : ClosesYear strict c, t.fiscalYear = fiscalYear) ∨
      (∃ t : ReopensYear strict c, t.fiscalYear = fiscalYear) ∨ entries.writes c.writes = [] := by
  cases h
  case closeYear t =>
    rw [t.req] at hyear
    exact .inl ⟨t, Option.some.inj hyear⟩
  case reopenYear t =>
    rw [t.req] at hyear
    exact .inr (.inl ⟨t, Option.some.inj hyear⟩)
  case closeEmptyYear writes =>
    rw [writes]
    exact .inr (.inr rfl)
  case reopenEmptyYear writes =>
    rw [writes]
    exact .inr (.inr rfl)
  case account change _ =>
    cases change with
    | create _ _ req => rw [req] at hyear; cases hyear
    | update _ _ req => rcases req with req | req <;> rw [req] at hyear <;> cases hyear
    | delete _ _ _ _ req => rw [req] at hyear; cases hyear
  case periods change _ =>
    cases change with
    | generate _ _ _ _ _ req => rw [req] at hyear; cases hyear
    | close _ _ _ _ req => rw [req] at hyear; cases hyear
    | reopen _ _ req => rw [req] at hyear; cases hyear
  case postDocument t => rw [t.req] at hyear; cases hyear
  case voidDocument t => rw [t.req] at hyear; cases hyear
  case postPayment t => rw [t.req] at hyear; cases hyear
  case voidPayment t => rw [t.req] at hyear; cases hyear
  all_goals simp_all only [Request.year, reduceCtorEq]

end Commits

/-! ## The invariant -/

/-- Posted closing entries and closed records with an entry match, year by year. -/
structure YearsRecorded (startMonth : StartMonth) (db : Db) : Prop
    extends ClosingEntries startMonth db where
  posted : ∀ {fiscalYear id e}, PostedClosing db fiscalYear id e →
    ∃ rec, Db.closing db fiscalYear = some rec ∧ rec.status = .closed ∧ rec.closingEntryId = some id
  closed : ∀ {fiscalYear rec id}, Db.closing db fiscalYear = some rec → rec.status = .closed →
    rec.closingEntryId = some id → ∃ e, PostedClosing db fiscalYear id e
  net : ∀ {fiscalYear rec id e}, Db.closing db fiscalYear = some rec →
    rec.closingEntryId = some id → Db.entry db id = some e → RetainsNet db e.lines rec.netIncome

theorem YearsRecorded.recordsMatch {startMonth : StartMonth} {db : Db}
    (h : YearsRecorded startMonth db) : RecordsMatch db where
  unique := by
    intro fiscalYear id id' e e' he he'
    obtain ⟨rec, hrec, -, hid⟩ := h.posted he
    obtain ⟨rec', hrec', -, hid'⟩ := h.posted he'
    obtain rfl : rec = rec' := Option.some.inj (hrec.symm.trans hrec')
    exact Option.some.inj (hid.symm.trans hid')
  iff := fun _ _ => ⟨fun ⟨_, he⟩ => h.posted he, fun ⟨_, hrec, hclosed, hid⟩ =>
    h.closed hrec hclosed hid⟩
  net := fun hrec _ => h.net hrec

section Invariant

variable {strict : Prop} {c : Commit} {startMonth : StartMonth} {fiscalYear : ℤ} {id : Uuid}
  {e : JournalEntry}

/-- A posted closing entry has a record that is closed with it. -/
theorem YearsRecorded.closedWithEntry {db : Db} (h : YearsRecorded startMonth db)
    (he : PostedClosing db fiscalYear id e) : ClosedWithEntry db fiscalYear := by
  obtain ⟨rec, hrec, hclosed, hid⟩ := h.posted he
  exact ⟨rec, hrec, hclosed, by rw [hid]; exact Option.some_ne_none id⟩

variable (h : YearsRecorded startMonth c.before) (hcoh : Coherent c.before)
  (hrev : Reversible c.before) (hc : Transacts strict c)
  (hseen : ∀ q ∈ c.seen, ClosingEntries startMonth q.2 ∧ Persists q.2 c.before)
  (hempty : EmptyFindsNoEntry c)
include h hc hseen

include hcoh hrev hempty in
/-- **A posted closing entry afterwards** has a record that is closed with it. -/
theorem YearsRecorded.posted_after (he : PostedClosing c.after fiscalYear id e) :
    ∃ rec, Db.closing c.after fiscalYear = some rec ∧ rec.status = .closed ∧
      rec.closingEntryId = some id := by
  have hsaw : SawStartMonth startMonth c := fun q hq => (hseen q hq).1.settings
  rcases he.before h.toClosingEntries hc with hbefore | ⟨t, rfl, rfl⟩
  · obtain ⟨rec, hrec, hclosed, hid⟩ := h.posted hbefore
    have hwith : ClosedWithEntry c.before fiscalYear := h.closedWithEntry hbefore
    rcases hc.closingNext fiscalYear with hsame | ⟨rec', hrec', hnext⟩
    · exact ⟨rec, hsame.trans hrec, hclosed, hid⟩
    · have hyear : c.req.year = some fiscalYear := by
        cases hnext with
        | close t ht => rw [t.req, ← ht]; rfl
        | closeEmpty _ _ hcloses =>
          obtain ⟨dto, _, _, _, rfl, hreq⟩ := Request.eq_of_closesYear hcloses
          rw [hreq]
          rfl
        | reopen t ht => rw [t.req, ← ht]; rfl
        | reopenEmpty _ _ _ hyear => exact hyear
      rcases hc.of_year hyear with ⟨t, rfl⟩ | ⟨t, rfl⟩ | hnone
      · exact absurd hwith t.notClosed
      · -- the reopening has reversed the entry
        obtain ⟨-, hcloses⟩ := ClosingEntries.reopened hseen t
        have horiginal : PostedClosing c.before t.fiscalYear t.p.originalId t.o :=
          ⟨t.reversed.original, hcloses.sourceType, hcloses.fiscalYear, t.o_posted hcoh hrev⟩
        obtain ⟨rec₀, hrec₀, -, hid₀⟩ := h.posted horiginal
        obtain rfl : rec = rec₀ := Option.some.inj (hrec.symm.trans hrec₀)
        obtain rfl : id = t.p.originalId := Option.some.inj (hid.symm.trans hid₀)
        have hafter : some e = some (markReversed t.entryId t.o) :=
          he.1.symm.trans t.reversesEntry.after_original
        obtain rfl := Option.some.inj hafter
        exact absurd he.2.2.2 nofun
      · exact absurd hwith (hempty fiscalYear hyear hnone)
  · have hcloses := t.closesOn hsaw
    obtain rfl : t.fiscalYear = fiscalYear :=
      Option.some.inj (hcloses.fiscalYear.symm.trans he.2.2.1)
    refine ⟨t.closing, t.after_closing, ?_, ?_⟩
    · rw [t.record]
      rfl
    · rw [t.record]
      rfl

include hcoh in
/-- **A record that is closed with an entry afterwards** has a posted closing entry. -/
theorem YearsRecorded.closed_after {rec : YearEndClosing}
    (hrec : Db.closing c.after fiscalYear = some rec) (hclosed : rec.status = .closed)
    (hid : rec.closingEntryId = some id) : ∃ e, PostedClosing c.after fiscalYear id e := by
  rcases hc.closingNext fiscalYear with hsame | ⟨rec', hrec', hnext⟩
  · have hbefore := hsame.symm.trans hrec
    obtain ⟨e, he⟩ := h.closed hbefore hclosed hid
    rcases he.after hcoh hc with hafter | ⟨r, rfl⟩
    · exact hafter
    · obtain ⟨_, hcloses, -⟩ := h.entry he.1 he.2.1
      obtain rfl := Option.some.inj (hcloses.fiscalYear.symm.trans he.2.2.1)
      obtain ⟨t, rfl⟩ := r.reopens hc hseen he.1 hcloses (h.closedWithEntry he)
      obtain rfl := Option.some.inj (hrec.symm.trans t.after_closing)
      cases hclosed
  · obtain rfl : rec' = rec := Option.some.inj (hrec'.symm.trans hrec)
    cases hnext with
    | close t ht =>
      subst ht
      rw [t.record] at hid
      obtain rfl : t.entryId = id := Option.some.inj hid
      have hcloses := t.closesOn fun q hq => (hseen q hq).1.settings
      refine ⟨t.entry, t.after_entry, hcloses.sourceType, hcloses.fiscalYear, ?_⟩
      rw [t.created.eq_postedEntry t.prepared]
      rfl
    | closeEmpty => cases hid
    | reopen => cases hclosed
    | reopenEmpty => cases hclosed

omit hseen in
/-- **The net income of a record afterwards** is what its entry brings to retained earnings. -/
theorem YearsRecorded.net_after (haccounts : ∀ q ∈ c.seen, AccountsKept q.2 c.before)
    {rec : YearEndClosing} (hrec : Db.closing c.after fiscalYear = some rec)
    (hid : rec.closingEntryId = some id) (he : Db.entry c.after id = some e) :
    RetainsNet c.after e.lines rec.netIncome := by
  have hkept : ∀ {rec₀}, Db.closing c.before fiscalYear = some rec₀ →
      rec₀.closingEntryId = some id → RetainsNet c.after e.lines rec₀.netIncome := by
    intro rec₀ hrec₀ hid₀
    obtain ⟨e₀, he₀, -⟩ := h.record hrec₀ hid₀
    obtain ⟨e', he', hstep⟩ := hc.entry_step he₀
    obtain rfl : e' = e := Option.some.inj (he'.symm.trans he)
    rw [hstep.lines.2]
    exact (h.net hrec₀ hid₀ he₀).kept hc.accountsKept
  rcases hc.closingNext fiscalYear with hsame | ⟨rec', hrec', hnext⟩
  · exact hkept (hsame.symm.trans hrec) hid
  · obtain rfl : rec' = rec := Option.some.inj (hrec'.symm.trans hrec)
    cases hnext with
    | close t ht =>
      subst ht
      rw [t.record] at hid ⊢
      obtain rfl : t.entryId = id := Option.some.inj hid
      obtain rfl := Option.some.inj (t.after_entry.symm.trans he)
      exact t.retainsNet fun q hq => (haccounts q hq).trans hc.accountsKept
    | closeEmpty => cases hid
    | reopen t ht =>
      subst ht
      exact @hkept t.closing t.current hid
    | reopenEmpty _ _ rec _ hcurrent => exact @hkept rec hcurrent hid

end Invariant

/-! ## Runs -/

section Runs

variable {policy : Policy Row LockName Query Failure Response Request} {db₀ : Db} {s : Server}
  {startMonth : StartMonth}

theorem Initial.yearsRecorded (h : Initial db₀)
    (hmonth : ∀ settings ∈ Db.settings db₀, settings.fiscalYearStartMonth = startMonth) :
    YearsRecorded startMonth db₀ where
  toClosingEntries := h.closingEntries hmonth
  posted := fun he => by rw [PostedClosing, h.entry] at he; cases he.1
  closed := fun hrec => by rw [h.closing] at hrec; cases hrec
  net := fun hrec => by rw [h.closing] at hrec; cases hrec

/-- **The stores of a run** whose requests keep the start month, and whose closes and reopenings without
an entry find no year closed with one. -/
theorem yearsRecorded_of_past (h₀ : Initial db₀)
    (hmonth : ∀ settings ∈ Db.settings db₀, settings.fiscalYearStartMonth = startMonth)
    (h : Reachable code policy db₀ s) (hkeeps : ∀ c ∈ s.history, KeepsStartMonth startMonth c)
    (hempty : ∀ c ∈ s.history, EmptyFindsNoEntry c) :
    ∀ t, Past db₀ s.history t → Coherent t ∧ Reversible t ∧ YearsRecorded startMonth t := by
  refine (chain_of_reachable h).always (D := fun s db => Persists s db ∧ AccountsKept s db)
    (fun s => ⟨.refl s, .refl s⟩) (fun _ _ _ h h' => ⟨h.1.trans h'.1, h.2.trans h'.2⟩)
    (fun _ hc => ⟨hc.persists, hc.accountsKept⟩)
    ⟨h₀.coherent, h₀.reversible, h₀.yearsRecorded hmonth⟩ ?_
  rintro c hmem hc ⟨hcoh, hrev, hyears⟩ hseen
  have hpast : ∀ q ∈ c.seen, ClosingEntries startMonth q.2 ∧ Persists q.2 c.before := fun q hq =>
    ⟨(hseen q hq).1.2.2.toClosingEntries, (hseen q hq).2.1⟩
  refine ⟨hcoh.after hc, hrev.after hc, ⟨?_, ?_, ?_, ?_⟩⟩
  · exact hyears.toClosingEntries.after (fun q hq => (hpast q hq).1.settings) hc (hkeeps c hmem)
  · exact hyears.posted_after hcoh hrev hc hpast (hempty c hmem)
  · exact hyears.closed_after hcoh hc hpast
  · exact hyears.net_after hc fun q hq => (hseen q hq).2.2

/-- **The records and the closing entries match** in every reachable state, where no close or reopening
without an entry finds a year closed with one. -/
theorem recordsMatch_of_reachable (h₀ : Initial db₀)
    (hmonth : ∀ settings ∈ Db.settings db₀, settings.fiscalYearStartMonth = startMonth)
    (h : Reachable code policy db₀ s) (hkeeps : ∀ c ∈ s.history, KeepsStartMonth startMonth c)
    (hempty : ∀ c ∈ s.history, EmptyFindsNoEntry c) : RecordsMatch s.db :=
  (yearsRecorded_of_past h₀ hmonth h hkeeps hempty s.db
    (chain_of_reachable h).past_self).2.2.recordsMatch

end Runs

namespace Sample

/-- A close that has read no movement, a sale, a close of the same year with an entry, and the commit
of the first close. -/
def closedTwice : List (Event Request) :=
  .spawn (.closeYear thisYear 9 101 2) :: List.replicate 3 (.step 0) ++
    request 1 (.createAndPostEntry cashSale 9 100 1) 16 ++
    request 2 (.closeYear thisYear 9 102 3) 24 ++ List.replicate 3 (.step 0)

/-- A sale and the close of its year, the reopening, and another close that another sale overtakes. -/
def closedAgain : List (Event Request) :=
  request 0 (.createAndPostEntry cashSale 9 100 1) 16 ++
    request 1 (.closeYear thisYear 9 101 2) 24 ++
    request 2 (.reopenYear 2026 9 102 3) 20 ++ .spawn (.closeYear thisYear 9 104 5) ::
      List.replicate 3 (.step 3) ++ request 4 (.createAndPostEntry cashSale 9 103 4) 15 ++
    List.replicate 21 (.step 3)

end Sample

/-- A year that is closed, reopened and closed once more. -/
theorem recordsMatch_of_reachable_again : RecordsMatch (Sample.server Sample.closedAgain).db := by
  have hmonth : ∀ settings ∈ Db.settings Sample.db,
      settings.fiscalYearStartMonth = ⟨1, by decide, by decide⟩ := by
    decide
  exact recordsMatch_of_reachable Sample.initial hmonth (Sample.reachable (by decide +kernel))
    (by decide +kernel) (by decide +kernel)

/-- **An orphaned closing entry**: the close that has found no movement takes no lock and writes its
record over that of the close that has posted an entry in the meantime. -/
theorem closing_entry_orphaned : ∃ s, Reachable code (anytime fun _ => True) Sample.db s ∧
    ¬ RecordsMatch s.db := by
  have hrecord : ∀ rec ∈ Db.closing (Sample.server Sample.closedTwice).db 2026,
      rec.closingEntryId = none := by
    decide +kernel
  have hentry : ∃ e ∈ Db.entry (Sample.server Sample.closedTwice).db 102,
      e.sourceType = .closing ∧ e.fiscalYear = some 2026 ∧ e.status = .posted := by
    decide +kernel
  have hruns : ((Server.start Sample.db).run code Sample.closedTwice).isSome = true := by
    decide +kernel
  refine ⟨_, Sample.reachable hruns, fun hmatch => ?_⟩
  obtain ⟨e, he, hposted⟩ := hentry
  obtain ⟨rec, hrec, -, hid⟩ := (hmatch.iff 2026 102).mp ⟨e, he, hposted⟩
  rw [hrecord rec hrec] at hid
  cases hid

end AccountingApi
