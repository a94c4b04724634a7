import AccountingApi.FiscalPeriods
import AccountingApi.Closings
import AccountingApi.Links
import AccountingApi.Postings
import AccountingApi.ReadCommitted.Alone
import AccountingApi.Conformance.Commits

/-!
# Periods, fiscal years and the start month

Periods are stored under the start month of the time they are generated in; the fiscal year of a
posting is computed from the current one. While the start month only changes before anything depends
on it, a date lies in one period at most, and a posted entry in its own, under the fiscal year whose
close governs its date. A start month that changes later makes the periods of two years overlap.

## Main definitions

* `FiscallyConsistent`: the state of the periods and the posted entries
* `RespectsCloses`: no entry is posted into a closed period or a closed fiscal year
* `ChangesStartMonthInTime`: the start month changes before anything depends on it
* `Governed`: the invariant of the runs

## Main results

* `Governed.after`: every commit keeps the invariant
* `fiscallyConsistent_of_reachable`: the periods and entries of the runs
* `overlapping_periods`: a change of the start month between two generations
-/

namespace AccountingApi

open ReadCommitted Posting

/-! ## Statements -/

/-- Every date lies in one period at most, and a posted entry in its own period, under the fiscal year
of its date by the current settings. -/
structure FiscallyConsistent (db : Db) : Prop where
  onePeriod : ∀ {id id' p p' date}, Db.period db id = some p → Db.period db id' = some p' →
    p.Contains date → p'.Contains date → id = id'
  posted : ∀ {id e}, Db.entry db id = some e → e.status ≠ .draft →
    ∃ periodId p settings, e.periodId = some periodId ∧ Db.period db periodId = some p ∧
      p.Contains e.date ∧ e.fiscalYear = some p.fiscalYear ∧ Db.settings db = some settings ∧
      p.fiscalYear = fiscalYearForDate e.date settings.fiscalYearStartMonth

/-- An entry that the commit posts lies in no closed period and in no closed fiscal year, unless the
commit reopens the year. -/
def RespectsCloses (c : Commit) : Prop :=
  ∀ id e, Db.entry c.after id = some e → e.status ≠ .draft →
    (∀ e₀, Db.entry c.before id = some e₀ → e₀.status = .draft) →
    (∀ periodId p, Db.period c.before periodId = some p → p.Contains e.date →
      p.status ≠ .closed) ∧
    ∀ fiscalYear settings, yearIsClosed c.before fiscalYear →
      Db.settings c.before = some settings →
      fiscalYearFirstDay fiscalYear settings.fiscalYearStartMonth ≤ e.date →
      e.date ≤ fiscalYearLastDay fiscalYear settings.fiscalYearStartMonth →
      ∃ user entryId now, c.req = .reopenYear fiscalYear user entryId now

/-- The start month a request sets. -/
def Request.startMonth : Request → Option StartMonth
  | .updateCompany input => input.fiscalYearStartMonth
  | _ => none

/-- Where the commit changes the start month, no periods and no year-end records are stored. -/
def ChangesStartMonthInTime (c : Commit) : Prop :=
  ∀ month settings, c.req.startMonth = some month → Db.settings c.before = some settings →
    month ≠ settings.fiscalYearStartMonth →
    (∀ id, Db.period c.before id = none) ∧ ∀ fiscalYear, Db.closing c.before fiscalYear = none

/-- A store before the first request, with the settings the boot creates and no periods. -/
structure Deployed (db : Db) : Prop extends Initial db where
  settings : Db.settings db ≠ none
  period : ∀ id, Db.period db id = none

/-! ## The invariant -/

/-- The periods are those of the years of one start month, the posted entries lie in their periods, and
the closing entry of a year on its last day. -/
structure Governed (startMonth : StartMonth) (years : List ℤ) (db : Db) : Prop where
  calendar : Calendar startMonth years db
  century : ∀ fiscalYear ∈ years, 2000 ≤ fiscalYear
  posted : ∀ {id e}, Db.entry db id = some e → e.status ≠ .draft →
    ∃ periodId p, e.periodId = some periodId ∧ Db.period db periodId = some p ∧
      p.Contains e.date ∧ e.fiscalYear = some p.fiscalYear
  closing : ∀ {fiscalYear rec id}, Db.closing db fiscalYear = some rec →
    rec.closingEntryId = some id → ∃ e, Db.entry db id = some e ∧ e.status ≠ .draft ∧
      e.date = fiscalYearLastDay fiscalYear startMonth

section Governed

variable {startMonth : StartMonth} {years : List ℤ} {db : Db} {id : Uuid} {p : AccountingPeriod}

theorem Calendar.contains_iff (h : Calendar startMonth years db) (hp : Db.period db id = some p)
    {date : UtcDay} : p.Contains date ↔ p.fiscalYear = fiscalYearForDate date startMonth ∧
      p.sequence = monthOfYear date startMonth + 1 := by
  obtain ⟨year, hmem, i, hof⟩ := h.stored hp
  rw [hof.contains_iff (h.years_ge year hmem), hof.fields.1, hof.fields.2.1, eq_comm (a := year),
    add_left_inj, eq_comm (a := i)]

/-- A date lies in one period at most. -/
theorem Calendar.period_unique (h : Calendar startMonth years db) {id' : Uuid}
    {p' : AccountingPeriod} {date : UtcDay} (hp : Db.period db id = some p)
    (hp' : Db.period db id' = some p') (hdate : p.Contains date) (hdate' : p'.Contains date) :
    id = id' := by
  obtain ⟨hyear, hsequence⟩ := (h.contains_iff hp).mp hdate
  obtain ⟨hyear', hsequence'⟩ := (h.contains_iff hp').mp hdate'
  exact h.unique hp hp' (hyear.trans hyear'.symm) (hsequence.trans hsequence'.symm)

theorem Governed.consistent (h : Governed startMonth years db) : FiscallyConsistent db where
  onePeriod := h.calendar.period_unique
  posted := by
    intro id e he hnot
    obtain ⟨periodId, p, hid, hp, hdate, hyear⟩ := h.posted he hnot
    obtain ⟨settings, hsettings, hmonth⟩ := h.calendar.settings
    refine ⟨periodId, p, settings, hid, hp, hdate, hyear, hsettings, ?_⟩
    rw [hmonth]
    exact ((h.calendar.contains_iff hp).mp hdate).1

/-- A period of this century contains a date and the day it is truncated to alike. -/
theorem Governed.contains_truncate (h : Governed startMonth years db) (hp : Db.period db id = some p)
    {date : UtcDay} : p.Contains (truncateToUtcDay (.midnight date)) ↔ p.Contains date := by
  obtain ⟨year, hmem, i, hi, halike⟩ := h.calendar.stored hp
  have hyear := h.century year hmem
  have hstart : 2000 ≤ p.startDate.year := by
    rw [halike.fields.2.2.2.1, newPeriod_startDate (by omega)]
    simp only [UtcDay.firstOfMonth]
    omega
  have hend : 2000 ≤ p.endDate.year := by
    rw [halike.fields.2.2.2.2, newPeriod_endDate (by omega)]
    simp only [UtcDay.lastOfMonth]
    omega
  exact and_congr (truncateToUtcDay_compare hstart (.midnight date)).1
    (truncateToUtcDay_compare hend (.midnight date)).2

/-! ### One commit -/

variable {strict : Prop} {c : Commit}

/-- A request that has read nothing but what its commit finds. -/
theorem Saw.of_found {q : Query} {P : Db → Prop} (h : Saw c q P)
    (hfound : ∀ q ∈ c.seen, q.2 = c.before) : P c.before := by
  obtain ⟨s, hs, hP⟩ := h
  rwa [← hfound _ hs]

/-- The periods of a year inserted into a calendar. -/
theorem Calendar.inserts {newId : ℕ → Uuid} {ps : List AccountingPeriod} {ws : List (Write Row)}
    (h : Calendar startMonth years db) {fiscalYear : ℤ} (hyear : fiscalYear ∈ years)
    (hps : ∀ p ∈ ps, ∃ i, p.OfYear startMonth fiscalYear i) (hinserts : Inserts c newId db ps ws) :
    Calendar startMonth years (db.putAll ws) := by
  induction hinserts with
  | nil db => exact h
  | skip _ _ ih => exact ih h (List.forall_mem_cons.mp hps).2
  | insert hfree _ _ _ ih =>
    obtain ⟨⟨i, hnew⟩, hrest⟩ := List.forall_mem_cons.mp hps
    exact ih (h.put_new hyear hnew hfree) hrest

theorem ofYear_of_mem_newPeriods {fiscalYear : ℤ}
    (h : p ∈ Periods.newPeriods fiscalYear startMonth.month) :
    ∃ i, p.OfYear startMonth fiscalYear i := by
  obtain ⟨i, hi, rfl⟩ := List.mem_map.mp h
  exact ⟨i, List.mem_range.mp hi, .refl _⟩

/-- **A commit that keeps the start month keeps the calendar**, perhaps with one more year. -/
theorem Governed.calendar_after (h : Governed startMonth years c.before) (hc : Transacts strict c)
    (hfound : ∀ q ∈ c.seen, q.2 = c.before)
    (hmonth : ∃ settings, Db.settings c.after = some settings ∧
      settings.fiscalYearStartMonth = startMonth) :
    ∃ years', Calendar startMonth years' c.after ∧ ∀ fiscalYear ∈ years', 2000 ≤ fiscalYear := by
  obtain ⟨⟨settings, hsettings, hstart⟩, hge, -, -⟩ := h.calendar
  -- the calendar of the periods afterwards, whatever the settings are
  suffices hsuff : ∃ years' db', Calendar startMonth years' db' ∧
      (∀ fiscalYear ∈ years', 2000 ≤ fiscalYear) ∧
      ∀ id, Db.period c.after id = Db.period db' id by
    obtain ⟨years', db', hcalendar, hcentury, hperiod⟩ := hsuff
    refine ⟨years', ⟨hmonth, hcalendar.years_ge, fun hp => ?_, fun hp hp' => ?_⟩, hcentury⟩
    · exact hcalendar.stored (hperiod _ ▸ hp)
    · exact hcalendar.unique (hperiod _ ▸ hp) (hperiod _ ▸ hp')
  rcases hc.periodsWrite with hwrite | hkept
  · unfold Commit.after
    generalize c.writes = ws at hwrite ⊢
    cases hwrite with
    | generate dto newId start yearEnd _ req bounds inserts =>
      obtain ⟨settings', hsettings', hbound, -⟩ := bounds.of_found hfound
      obtain rfl : settings' = settings := Option.some.inj (hsettings'.symm.trans hsettings)
      have hstartMonth : start.month = startMonth.month := by
        have hpos := startMonth.pos
        have hle := startMonth.le
        rw [hbound, hstart]
        simp only [fiscalYearFirstDay, UtcDay.firstOfMonth]
        omega
      rw [hstartMonth] at inserts
      have hwider : Calendar startMonth (dto.fiscalYear :: years) c.before :=
        ⟨h.calendar.settings, List.forall_mem_cons.mpr ⟨by have := dto.min; omega, hge⟩,
          fun hp => by
            obtain ⟨year, hmem, hof⟩ := h.calendar.stored hp
            exact ⟨year, List.mem_cons_of_mem _ hmem, hof⟩, h.calendar.unique⟩
      exact ⟨_, _, hwider.inserts List.mem_cons_self (fun _ => ofYear_of_mem_newPeriods) inserts,
        List.forall_mem_cons.mpr ⟨dto.min, h.century⟩, fun _ => rfl⟩
    | close id user now p req current =>
      have halike : p.Alike (Periods.markClosed user now p) := rfl
      exact ⟨_, _, h.calendar.put current halike, h.century, fun _ => rfl⟩
    | reopen id p req _ current =>
      have halike : p.Alike (Periods.markOpen p) := rfl
      exact ⟨_, _, h.calendar.put current halike, h.century, fun _ => rfl⟩
  · exact ⟨years, c.before, h.calendar, h.century, hkept⟩

/-- **An entry that is posted afterwards** lies in a period that was stored before, under the fiscal
year of its date. -/
theorem Governed.posted_after (h : Governed startMonth years c.before) (hc : Transacts strict c)
    (hfound : ∀ q ∈ c.seen, q.2 = c.before) {e : JournalEntry} (he : Db.entry c.after id = some e)
    (hnot : e.status ≠ .draft) :
    ∃ periodId p, e.periodId = some periodId ∧ Db.period c.before periodId = some p ∧
      p.Contains e.date ∧ e.fiscalYear = some p.fiscalYear := by
  by_cases hbefore : ∀ e₀, Db.entry c.before id = some e₀ → e₀.status = .draft
  · -- it is posted by the commit
    obtain ⟨periodId, fiscalYear, hposts⟩ := hc.postsEntry he hnot fun e₀ he₀ hnot₀ =>
      absurd (hbefore e₀ he₀) hnot₀
    obtain ⟨p, hp, -, htruncated⟩ := hposts.period.of_found hfound
    obtain ⟨settings, hsettings, hyear⟩ := hposts.year.of_found hfound
    have hcontains := (h.contains_truncate hp).mp htruncated
    refine ⟨periodId, p, hposts.periodId_eq, hp, hcontains, ?_⟩
    obtain ⟨settings', hsettings', hmonth⟩ := h.calendar.settings
    obtain rfl : settings = settings' :=
      Option.some.inj ((Option.mem_def.mp hsettings).symm.trans hsettings')
    rw [hposts.fiscalYear_eq, hyear, hmonth, ((h.calendar.contains_iff hp).mp hcontains).1]
  · -- it was posted before, and has kept its period and its date
    simp only [not_forall] at hbefore
    obtain ⟨e₀, he₀, hnot₀⟩ := hbefore
    obtain ⟨e', he', hstep⟩ := hc.entry_step he₀
    obtain rfl : e' = e := Option.some.inj (he'.symm.trans he)
    obtain ⟨periodId, p, hid, hp, hcontains, hyear⟩ := h.posted he₀ hnot₀
    have hsame : e'.date = e₀.date ∧ e'.periodId = e₀.periodId ∧ e'.fiscalYear = e₀.fiscalYear := by
      cases hstep with
      | refl => exact ⟨rfl, rfl, rfl⟩
      | promote _ _ _ _ _ _ hdraft => exact absurd hdraft hnot₀
      | reverse => exact ⟨rfl, rfl, rfl⟩
      | delete _ _ hdraft => exact absurd hdraft hnot₀
    exact ⟨periodId, p, hsame.2.1.trans hid, hp, hsame.1 ▸ hcontains, hsame.2.2.trans hyear⟩

/-- **The closing entry of a year** lies on the year's last day. -/
theorem Governed.closing_after (h : Governed startMonth years c.before) (hc : Transacts strict c)
    (hfound : ∀ q ∈ c.seen, q.2 = c.before) {fiscalYear : ℤ} {rec : YearEndClosing}
    (hrec : Db.closing c.after fiscalYear = some rec) (hid : rec.closingEntryId = some id) :
    ∃ e, Db.entry c.after id = some e ∧ e.status ≠ .draft ∧
      e.date = fiscalYearLastDay fiscalYear startMonth := by
  -- the entry of a record that was stored before is still there
  have hkept : ∀ {rec₀}, Db.closing c.before fiscalYear = some rec₀ →
      rec₀.closingEntryId = some id → ∃ e, Db.entry c.after id = some e ∧ e.status ≠ .draft ∧
        e.date = fiscalYearLastDay fiscalYear startMonth := by
    intro rec₀ hrec₀ hid₀
    obtain ⟨e, he, hnot, hdate⟩ := h.closing hrec₀ hid₀
    obtain ⟨e', he', hstep⟩ := hc.entry_step he
    refine ⟨e', he', ?_, hstep.lines.1.trans hdate⟩
    cases hstep with
    | refl => exact hnot
    | promote _ _ _ _ _ _ hdraft => exact absurd hdraft hnot
    | reverse => simp only [markReversed, ne_eq, reduceCtorEq, not_false_eq_true]
    | delete _ _ hdraft => exact absurd hdraft hnot
  rcases hc.closingNext fiscalYear with hsame | ⟨rec', hrec', hnext⟩
  · exact hkept (hsame.symm.trans hrec) hid
  · obtain rfl : rec' = rec := Option.some.inj (hrec'.symm.trans hrec)
    cases hnext with
    | close t hyear =>
      subst hyear
      obtain ⟨settings, hsettings, -, hend⟩ := t.bounds.of_found hfound
      obtain ⟨settings', hsettings', hmonth⟩ := h.calendar.settings
      obtain rfl : settings = settings' :=
        Option.some.inj ((Option.mem_def.mp hsettings).symm.trans hsettings')
      rw [t.record] at hid
      obtain rfl : t.entryId = id := Option.some.inj hid
      refine ⟨t.entry, t.after_entry, ?_, ?_⟩
      · rw [t.created.entry_eq]
        simp only [postedEntry, ne_eq, reduceCtorEq, not_false_eq_true]
      · rw [t.created.entry_eq, ← hmonth, ← hend]
        exact congrArg PostEntryInput.date t.prepared.input_eq
    | closeEmpty => cases hid
    | reopen t hyear =>
      subst hyear
      exact hkept t.current hid
    | reopenEmpty _ _ rec _ hcurrent => exact hkept hcurrent hid

/-- **A commit that keeps the start month** keeps the invariant. -/
theorem Governed.after_of_month (h : Governed startMonth years c.before) (hc : Transacts strict c)
    (hfound : ∀ q ∈ c.seen, q.2 = c.before)
    (hmonth : ∃ settings, Db.settings c.after = some settings ∧
      settings.fiscalYearStartMonth = startMonth) : ∃ years', Governed startMonth years' c.after := by
  obtain ⟨years', hcalendar, hcentury⟩ := h.calendar_after hc hfound hmonth
  refine ⟨years', hcalendar, hcentury, fun he hnot => ?_, h.closing_after hc hfound⟩
  obtain ⟨periodId, p, hid, hp, hcontains, hyear⟩ := h.posted_after hc hfound he hnot
  obtain ⟨p', hp', hnext⟩ := hc.periodNext hp
  obtain ⟨hyear', -, -, hstart, hend⟩ := hnext.alike.fields
  refine ⟨periodId, p', hid, hp', ?_, hyear.trans (congrArg some hyear'.symm)⟩
  rwa [AccountingPeriod.Contains, hstart, hend]

/-- **A change of the start month in time** keeps the invariant, under the new start month. -/
theorem Governed.after_of_change (h : Governed startMonth years c.before) (hc : Transacts strict c)
    (hfound : ∀ q ∈ c.seen, q.2 = c.before) {input : Company.UpdateInput}
    (hreq : c.req = .updateCompany input) {settings : CompanySettings}
    (hsettings : Db.settings c.after = some settings) (hperiod : ∀ id, Db.period c.before id = none)
    (hclosing : ∀ fiscalYear, Db.closing c.before fiscalYear = none) :
    Governed settings.fiscalYearStartMonth [] c.after := by
  have hnone : ∀ id, Db.period c.after id = none := by
    intro id
    by_contra hsome
    obtain ⟨p, hp⟩ := Option.ne_none_iff_exists'.mp hsome
    obtain ⟨_, _, _, _, hreq', -⟩ := (hc.periodNew (hperiod id) hp).generated
    cases hreq.symm.trans hreq'
  refine ⟨⟨⟨settings, hsettings, rfl⟩, List.forall_mem_nil _, ?_, ?_⟩, List.forall_mem_nil _, ?_, ?_⟩
  · intro id p hp
    rw [hnone] at hp
    cases hp
  · intro id id' p p' hp
    rw [hnone] at hp
    cases hp
  · intro id e he hnot
    obtain ⟨periodId, p, -, hp, -⟩ := h.posted_after hc hfound he hnot
    rw [hperiod] at hp
    cases hp
  · -- the commit is of no request about a year
    have hyear : c.req.year = none := by rw [hreq]; rfl
    intro fiscalYear rec id hrec _
    rcases hc.closingNext fiscalYear with hsame | ⟨_, -, hnext⟩
    · rw [hsame, hclosing] at hrec
      cases hrec
    · cases hnext with
      | close t => cases hreq.symm.trans t.req
      | closeEmpty _ _ hsome =>
        rw [hreq] at hsome
        cases hsome
      | reopen t => cases hreq.symm.trans t.req
      | reopenEmpty _ _ _ hsome => cases hyear.symm.trans hsome

/-- **Every commit keeps the invariant**, where the start month changes in time. -/
theorem Governed.after (h : Governed startMonth years c.before) (hc : Transacts strict c)
    (hfound : ∀ q ∈ c.seen, q.2 = c.before) (hchange : ChangesStartMonthInTime c) :
    ∃ startMonth' years', Governed startMonth' years' c.after := by
  obtain ⟨settings, hsettings, hmonth⟩ := h.calendar.settings
  rcases hc.settings_after with hsame | ⟨input, settings', hreq, hsettings', hafter⟩
  · exact ⟨_, h.after_of_month hc hfound ⟨settings, hsame.trans hsettings, hmonth⟩⟩
  · obtain rfl : settings = settings' := Option.some.inj (hsettings.symm.trans hsettings')
    by_cases hkept : (Company.applyUpdate input settings).fiscalYearStartMonth = startMonth
    · exact ⟨_, h.after_of_month hc hfound ⟨_, hafter, hkept⟩⟩
    · -- the update gives another start month
      obtain ⟨month, hgiven⟩ : ∃ month, input.fiscalYearStartMonth = some month := by
        refine Option.ne_none_iff_exists'.mp fun hnone => hkept ?_
        rw [Company.applyUpdate, hnone, Option.getD_none, hmonth]
      have hne : month ≠ settings.fiscalYearStartMonth := by
        rintro rfl
        refine hkept ?_
        rw [Company.applyUpdate, hgiven, Option.getD_some, hmonth]
      have hsets : c.req.startMonth = some month := by rw [hreq, ← hgiven, Request.startMonth]
      obtain ⟨hperiod, hclosing⟩ := hchange month settings hsets hsettings hne
      exact ⟨_, _, h.after_of_change hc hfound hreq hafter hperiod hclosing⟩

/-- The reversal of a closing entry is posted under the year that is reopened. -/
theorem Governed.reopened_year (h : Governed startMonth years c.before)
    (hfound : ∀ q ∈ c.seen, q.2 = c.before) (t : ReopensYear strict c) :
    t.p.fiscalYear = t.fiscalYear := by
  obtain ⟨rec, hrec, -, hid⟩ := t.sawClosed.of_found hfound
  obtain ⟨e, he, -, hdate⟩ := h.closing hrec hid
  obtain ⟨horiginal, -⟩ := t.prepared.original.of_found hfound
  obtain rfl : t.p.original = e :=
    Option.some.inj ((Option.filter_eq_some_iff.mp horiginal).1.symm.trans he)
  obtain ⟨settings, hsettings, hyear⟩ := t.prepared.fiscalYear.of_found hfound
  obtain ⟨settings', hsettings', hmonth⟩ := h.calendar.settings
  obtain rfl : settings = settings' :=
    Option.some.inj ((Option.mem_def.mp hsettings).symm.trans hsettings')
  rw [hyear, hmonth, hdate, fiscalYearForDate_lastDay]

/-- **An entry that a commit posts lies in no closed period and no closed year**, unless the commit
reopens the year. -/
theorem Governed.respectsCloses (h : Governed startMonth years c.before) (hc : Transacts True c)
    (hfound : ∀ q ∈ c.seen, q.2 = c.before) : RespectsCloses c := by
  intro id e he hnot hbefore
  obtain ⟨periodId, fiscalYear, hposts⟩ := hc.postsEntry he hnot fun e₀ he₀ hnot₀ =>
    absurd (hbefore e₀ he₀) hnot₀
  obtain ⟨allow, n, ws, hstamp, hreopens⟩ := hposts.stamp
  obtain ⟨settings, hsettings, hmonth⟩ := h.calendar.settings
  have hyear : fiscalYear = fiscalYearForDate e.date startMonth := by
    obtain ⟨settings', hsettings', hyear⟩ := hposts.year.of_found hfound
    obtain rfl : settings' = settings :=
      Option.some.inj ((Option.mem_def.mp hsettings').symm.trans hsettings)
    rwa [hmonth] at hyear
  refine ⟨?_, ?_⟩
  · -- the entry's own period is the only one its date lies in
    intro periodId' p' hp' hcontains' hclosed
    obtain ⟨p, hp, -, htruncated⟩ := hposts.period.of_found hfound
    obtain rfl := h.calendar.period_unique hp hp' ((h.contains_truncate hp).mp htruncated) hcontains'
    obtain ⟨q, hq, hopen⟩ := hstamp.period
    obtain rfl : q = p' := Option.some.inj ((Option.mem_def.mp hq).symm.trans hp')
    rw [hopen] at hclosed
    cases hclosed
  · intro fiscalYear' settings' hclosed hsettings' hstart hend
    obtain rfl : settings' = settings := Option.some.inj (hsettings'.symm.trans hsettings)
    rw [hmonth] at hstart hend
    obtain rfl : fiscalYear = fiscalYear' :=
      hyear.trans (fiscalYearForDate_eq_iff.mpr ⟨hstart, hend⟩)
    cases allow with
    | false => exact absurd hclosed (hstamp.notClosedStrict rfl trivial)
    | true =>
      obtain ⟨t, ht⟩ := hreopens rfl
      refine ⟨t.user, t.entryId, t.now, ?_⟩
      rw [t.req, ← ht, h.reopened_year hfound t]

end Governed

/-! ## Runs -/

section Runs

variable {db₀ : Db} {s : Server}

theorem Deployed.governed (h : Deployed db₀) : ∃ startMonth, Governed startMonth [] db₀ := by
  obtain ⟨settings, hsettings⟩ := Option.ne_none_iff_exists'.mp h.settings
  refine ⟨settings.fiscalYearStartMonth, ⟨⟨settings, hsettings, rfl⟩, List.forall_mem_nil _, ?_, ?_⟩,
    List.forall_mem_nil _, ?_, ?_⟩
  · intro id p hp
    rw [h.period] at hp
    cases hp
  · intro id id' p p' hp
    rw [h.period] at hp
    cases hp
  · intro id e he
    rw [h.entry] at he
    cases he
  · intro fiscalYear rec id hrec
    rw [h.closing] at hrec
    cases hrec

/-- The commits of requests served one at a time exclude postings: no other transaction runs. -/
theorem excludesPostings_of_reachable (h : Reachable code (oneAtATime fun _ => True) db₀ s) :
    ∀ c ∈ s.history, ExcludesPostings c := by
  intro c hc fiscalYear _ _
  refine .inr fun L hL m hmem => ?_
  rw [h.others_free (fun r _ => commitsOnce_code r) c hc L hL] at hmem
  cases hmem

/-- **The periods and entries of the runs** whose start month changes in time, served one at a time:
every date lies in one period at most, every posted entry in its own under the fiscal year of its
date, and nothing is posted into a closed period or a closed fiscal year. -/
theorem fiscallyConsistent_of_reachable (h₀ : Deployed db₀)
    (h : Reachable code (oneAtATime fun _ => True) db₀ s)
    (hchange : ∀ c ∈ s.history, ChangesStartMonthInTime c) :
    FiscallyConsistent s.db ∧ ∀ c ∈ s.history, RespectsCloses c := by
  have hserial : s.Serial := h.serial fun r _ => commitsOnce_code r
  have hcond : ∀ c ∈ s.history, ChangesStartMonthInTime c ∧ ∀ q ∈ c.seen, q.2 = c.before :=
    fun c hc => ⟨hchange c hc, hserial.found c hc⟩
  have hinit : ∃ startMonth years, Governed startMonth years db₀ :=
    h₀.governed.imp fun _ hstart => ⟨[], hstart⟩
  have hstep : ∀ c, Transacts False c →
      (ChangesStartMonthInTime c ∧ ∀ q ∈ c.seen, q.2 = c.before) →
      (∃ startMonth years, Governed startMonth years c.before) →
      (∀ q ∈ c.seen, (∃ startMonth years, Governed startMonth years q.2) ∧ Persists q.2 c.before) →
      ∃ startMonth years, Governed startMonth years c.after := by
    rintro c hc ⟨hchange, hfound⟩ ⟨_, _, hI⟩ -
    exact hI.after hc hfound hchange
  refine ⟨?_, fun c hc => ?_⟩
  · obtain ⟨_, _, hgoverned⟩ := invariant_of_reachable
      (I := fun db => ∃ startMonth years, Governed startMonth years db) _ h hcond hinit hstep
    exact hgoverned.consistent
  · obtain ⟨-, ⟨_, _, hbefore⟩, -⟩ := commit_of_reachable
      (I := fun db => ∃ startMonth years, Governed startMonth years db) _ h hcond hinit hstep hc
    have hsound : s.Sound (protocol True) db₀ :=
      sound_of_reachable h fun _ => excludesPostings_of_reachable h
    obtain ⟨hguar, -, -⟩ := hsound.chain.of_mem Persists.refl (fun _ _ _ => Persists.trans)
      (fun _ hc => hc.persists) hc
    exact hbefore.respectsCloses hguar (hserial.found c hc)

end Runs

namespace Sample

/-- The company before its first request, without periods. -/
def deployed : Db := Store.empty.putAll rows.dropLast

theorem deployed_deployed : Deployed deployed where
  toInitial := .of_rows (by simp [rows, Key.IsConfiguration])
  settings := by decide
  period := fun id => (Db.period_eq_row _ id).trans
    (Store.row_putAll_of_notMem _ (by simp [rows]))

/-- The year 2026 generated, a sale, its period and the year closed, both reopened. -/
def periodYear : List (Request × ℕ) := [
  (.generatePeriods ⟨2026, thisYear.min, by decide⟩ (200 + ·), 53),
  (.createAndPostEntry cashSale 9 100 1, 16),
  (.closePeriod 206 9 2, 5),
  (.closeYear thisYear 9 101 3, 24),
  (.reopenPeriod 206, 5),
  (.reopenYear 2026 9 102 4, 20)]

/-- The year 2026 generated, the start month moved to July, and the year 2025 generated. -/
def movedYear : List (Request × ℕ) := [
  (.generatePeriods ⟨2026, thisYear.min, by decide⟩ (200 + ·), 53),
  (.updateCompany ⟨none, none, none, some ⟨7, by decide, by decide⟩, none, none⟩, 5),
  (.generatePeriods ⟨2025, lastYear.min, by decide⟩ (300 + ·), 53)]

end Sample

/-- The periods of a year, its closes and its reopenings. -/
theorem fiscallyConsistent_of_reachable_year :
    FiscallyConsistent (Sample.served Sample.deployed Sample.periodYear).db ∧
      ∀ c ∈ (Sample.served Sample.deployed Sample.periodYear).history, RespectsCloses c := by
  have hnone : ∀ c ∈ (Sample.served Sample.deployed Sample.periodYear).history,
      c.req.startMonth = none := by decide +kernel
  refine fiscallyConsistent_of_reachable Sample.deployed_deployed
    (Sample.served_reachable (fun _ _ => trivial) (by decide +kernel)) ?_
  intro c hc month settings hmonth
  rw [hnone c hc] at hmonth
  cases hmonth

/-- **Two generations around a change of the start month** leave periods that overlap: the first of
March 2026 lies in the third period of 2026 and in the ninth of 2025. -/
theorem overlapping_periods : ∃ s, Reachable code (oneAtATime fun _ => True) Sample.deployed s ∧
    ¬ FiscallyConsistent s.db := by
  refine ⟨Sample.served Sample.deployed Sample.movedYear,
    Sample.served_reachable (fun _ _ => trivial) (by decide +kernel), fun h => ?_⟩
  have hbetween : ∀ id ∈ [203, 309], ∃ p ∈ Db.period
      (Sample.served Sample.deployed Sample.movedYear).db id,
      p.Contains (.firstOfMonth 2026 2) := by
    decide +kernel
  obtain ⟨p, hp, hcontains⟩ := hbetween 203 (by decide)
  obtain ⟨p', hp', hcontains'⟩ := hbetween 309 (by decide)
  exact absurd (h.onePeriod hp hp' hcontains hcontains') (by decide)

end AccountingApi
