import AccountingApi.FiscalConsistency

/-!
# Closing entries

Only the close of a year writes a closing entry. As long as the start month stays what it is, the entry
lies on the last day of its year and is numbered under this year, whatever else runs at the same time.

## Main definitions

* `JournalEntry.ClosesOn`: the entry closes a year
* `ClosingEntries`: the invariant of the runs whose requests keep the start month

## Main results

* `Transacts.closing_new`: where closing entries come from
* `ClosingEntries.after`: every commit keeps the invariant
* `ClosingEntries.reopened`: a reopening posts into the year that it reopens
-/

namespace AccountingApi

open ReadCommitted Posting Relation

/-- The entry closes the year: it lies on the year's last day and is numbered under the year. -/
structure JournalEntry.ClosesOn (e : JournalEntry) (startMonth : StartMonth) (fiscalYear : ℤ) :
    Prop where
  sourceType : e.sourceType = .closing
  notDraft : e.status ≠ .draft
  date : e.date = fiscalYearLastDay fiscalYear startMonth
  fiscalYear : e.fiscalYear = some fiscalYear

/-- The settings have the start month, every closing entry is one of a year with a record, and the
record of a year has a closing entry of the year, if it has one. -/
structure ClosingEntries (startMonth : StartMonth) (db : Db) : Prop where
  settings : ∀ settings ∈ Db.settings db, settings.fiscalYearStartMonth = startMonth
  entry : ∀ {id e}, Db.entry db id = some e → e.sourceType = .closing →
    ∃ fiscalYear, e.ClosesOn startMonth fiscalYear ∧ Db.closing db fiscalYear ≠ none
  record : ∀ {fiscalYear rec id}, Db.closing db fiscalYear = some rec →
    rec.closingEntryId = some id → ∃ e, Db.entry db id = some e ∧ e.ClosesOn startMonth fiscalYear

/-- The commit's request sets no other start month. -/
def KeepsStartMonth (startMonth : StartMonth) (c : Commit) : Prop :=
  ∀ month, c.req.startMonth = some month → month = startMonth

instance (startMonth : StartMonth) (c : Commit) : Decidable (KeepsStartMonth startMonth c) :=
  decidable_of_iff (∀ month ∈ c.req.startMonth, month = startMonth) Iff.rfl

/-! ## Steps -/

section Steps

variable {strict : Prop} {c : Commit} {startMonth : StartMonth} {fiscalYear : ℤ} {id : Uuid}

/-- An entry that is not a draft keeps everything but its status and the mark of its reversal. -/
theorem EntryStep.posted {e e' : JournalEntry} (h : EntryStep e e') (hnot : e.status ≠ .draft) :
    e'.status ≠ .draft ∧
      e' = { e with status := e'.status, reversedById := e'.reversedById } := by
  cases h with
  | refl => exact ⟨hnot, rfl⟩
  | promote _ _ _ _ _ _ hdraft => exact absurd hdraft hnot
  | reverse => exact ⟨nofun, rfl⟩
  | delete _ _ hdraft => exact absurd hdraft hnot

theorem EntryStep.closesOn {e e' : JournalEntry} (h : EntryStep e e')
    (he : e.ClosesOn startMonth fiscalYear) : e'.ClosesOn startMonth fiscalYear := by
  obtain ⟨hnot, hsame⟩ := h.posted he.notDraft
  rw [hsame]
  exact ⟨he.sourceType, hnot, he.date, he.fiscalYear⟩

theorem JournalEntry.ClosesOn.steps {e e' : JournalEntry} (he : e.ClosesOn startMonth fiscalYear)
    (h : ReflTransGen EntryStep e e') : e'.ClosesOn startMonth fiscalYear := by
  induction h with
  | refl => exact he
  | tail _ hstep ih => exact hstep.closesOn ih

theorem ReopensYear.writes_closings (t : ReopensYear strict c) : closings.writes c.writes =
    [(t.fiscalYear, YearEndClose.reopenedRecord t.user t.now t.closing)] := by
  rw [t.writes, Table.writes_append, t.reversed.writes_closings]
  rfl

/-- A reopening leaves the record of the year open. -/
theorem ReopensYear.after_closing (t : ReopensYear strict c) :
    Db.closing c.after t.fiscalYear =
      some (YearEndClose.reopenedRecord t.user t.now t.closing) := by
  rw [closing_after, t.writes_closings, overwrite_cons, if_pos rfl, overwrite_nil]

/-- A close leaves its record. -/
theorem ClosesYear.after_closing (t : ClosesYear strict c) :
    Db.closing c.after t.fiscalYear = some t.closing := by
  rw [closing_after, t.writes_closings, overwrite_cons, if_pos rfl, overwrite_nil]

/-- A year that has a record keeps having one. -/
theorem Transacts.closing_kept (h : Transacts strict c) (hrec : Db.closing c.before fiscalYear ≠ none) :
    Db.closing c.after fiscalYear ≠ none := by
  rcases h.closingNext fiscalYear with hsame | ⟨rec, hafter, -⟩
  · rwa [hsame]
  · rw [hafter]
    exact Option.some_ne_none rec

/-- The entries a commit writes: closing entries of a close, entries of another source, and entries that
were there before. -/
def ClosesOrKeeps (strict : Prop) (c : Commit) (x : Uuid × JournalEntry) : Prop :=
  x.2.sourceType ≠ .closing ∨ (∃ t : ClosesYear strict c, x = (t.entryId, t.entry)) ∨
    Db.entry c.before x.1 ≠ none

theorem Created.closesOrKeeps {p : PreparedPosting} {input : PostEntryInput} {user : Uuid}
    {now : Timestamp} {n : ℕ} {wn : List (Write Row)} {e : JournalEntry}
    (h : Created strict c p id now n wn e) (hp : Prepared c input user p)
    (hsource : input.sourceType ≠ .closing) : ∀ x ∈ [(id, e)], ClosesOrKeeps strict c x := by
  refine List.forall_mem_singleton.mpr (.inl ?_)
  rw [h.eq_postedEntry hp]
  exact hsource

theorem Reversed.closesOrKeeps {p : PreparedReversal} {now : Timestamp} {n : ℕ}
    {wn : List (Write Row)} {o rev : JournalEntry} (h : Reversed strict c p id now n wn o rev) :
    ∀ x ∈ [(id, rev), (p.originalId, markReversed id o)], ClosesOrKeeps strict c x := by
  refine List.forall_mem_cons.mpr ⟨.inl ?_, List.forall_mem_singleton.mpr (.inr (.inr ?_))⟩
  · rw [h.entry_eq]
    exact nofun
  · rw [h.original]
    exact Option.some_ne_none o

theorem Transacts.closesOrKeeps (h : Transacts strict c) :
    ∀ x ∈ entries.writes c.writes, ClosesOrKeeps strict c x := by
  cases h
  case postDocument t =>
    rw [t.writes_entries]
    refine t.created.closesOrKeeps t.prepared ?_
    rcases t.kind <;> exact nofun
  case voidDocument t =>
    rw [t.writes_entries]
    exact t.reversed.closesOrKeeps
  case postPayment t =>
    rw [t.writes_entries]
    exact t.created.closesOrKeeps t.prepared nofun
  case voidPayment t =>
    rw [t.writes_entries]
    exact t.reversed.closesOrKeeps
  case createEntry row valid fresh writes =>
    rw [writes, row]
    exact List.forall_mem_singleton.mpr (.inl nofun)
  case createAndPostEntry prepared created writes =>
    rw [writes, Table.writes_append, created.stamp.ticket.entries]
    exact created.closesOrKeeps prepared nofun
  case postEntry current live draft balanced accounts period year stamp writes =>
    rw [writes, Table.writes_append, stamp.ticket.entries]
    refine List.forall_mem_singleton.mpr (.inr (.inr ?_))
    rw [current]
    exact Option.some_ne_none _
  case reverseEntry prepared reversed writes =>
    rw [writes, reversed.writes_entries]
    exact reversed.closesOrKeeps
  case deleteEntry current draft live writes =>
    rw [writes]
    refine List.forall_mem_singleton.mpr (.inr (.inr ?_))
    rw [current]
    exact Option.some_ne_none _
  case postOpeningBalances prepared created writes =>
    rw [writes, Table.writes_append, created.stamp.ticket.entries]
    exact created.closesOrKeeps prepared nofun
  case closeYear t =>
    rw [t.writes_entries]
    exact List.forall_mem_singleton.mpr (.inr (.inl ⟨t, rfl⟩))
  case reopenYear t =>
    rw [t.writes_entries]
    exact t.reversed.closesOrKeeps
  case periods change writes =>
    rw [writes, change.writes_entries]
    exact List.forall_mem_nil _
  -- the others write no entries
  all_goals
    rename_i writes
    rw [writes]
    exact List.forall_mem_nil _

/-- **A new closing entry is that of a close.** -/
theorem Transacts.closing_new {e : JournalEntry} (h : Transacts strict c)
    (hb : Db.entry c.before id = none) (he : Db.entry c.after id = some e)
    (hsource : e.sourceType = .closing) :
    ∃ t : ClosesYear strict c, t.entryId = id ∧ t.entry = e := by
  rw [entry_after] at he
  rcases h.closesOrKeeps _ (mem_of_overwrite he (by rw [hb]; exact nofun)) with hnot | ⟨t, ht⟩ | hkept
  · exact absurd hsource hnot
  · cases ht
    exact ⟨t, rfl, rfl⟩
  · exact absurd hb hkept

end Steps

/-! ## The invariant -/

section Invariant

variable {strict : Prop} {c : Commit} {startMonth : StartMonth}

/-- Every store the commit's request has read has the start month in its settings. -/
def SawStartMonth (startMonth : StartMonth) (c : Commit) : Prop :=
  ∀ q ∈ c.seen, ∀ settings ∈ Db.settings q.2, settings.fiscalYearStartMonth = startMonth

/-- The bounds a request has computed are those of the start month. -/
theorem FiscalYearBounds.eq {fiscalYear : ℤ} {start yearEnd : UtcDay}
    (h : FiscalYearBounds c fiscalYear start yearEnd) (hsaw : SawStartMonth startMonth c) :
    start = fiscalYearFirstDay fiscalYear startMonth ∧
      yearEnd = fiscalYearLastDay fiscalYear startMonth := by
  obtain ⟨s, hs, settings, hsettings, hstart, hend⟩ := h
  rw [hsaw _ hs settings hsettings] at hstart hend
  exact ⟨hstart, hend⟩

theorem FiscalYearFor.eq {date : UtcDay} {fiscalYear : ℤ} (h : FiscalYearFor c date fiscalYear)
    (hsaw : SawStartMonth startMonth c) : fiscalYear = fiscalYearForDate date startMonth := by
  obtain ⟨s, hs, settings, hsettings, hyear⟩ := h
  rwa [hsaw _ hs settings hsettings] at hyear

/-- **The closing entry of a close** closes its year. -/
theorem ClosesYear.closesOn (t : ClosesYear strict c) (hsaw : SawStartMonth startMonth c) :
    t.entry.ClosesOn startMonth t.fiscalYear := by
  obtain ⟨-, hend⟩ := t.bounds.eq hsaw
  have hyear : t.p.fiscalYear = fiscalYearForDate t.yearEnd startMonth :=
    t.prepared.fiscalYear.eq hsaw
  rw [hend, fiscalYearForDate_lastDay] at hyear
  rw [t.created.eq_postedEntry t.prepared]
  exact ⟨rfl, nofun, hend, congrArg some hyear⟩

/-- A commit that sets no other start month keeps the start month. -/
theorem Transacts.startMonth_after (h : Transacts strict c) (hkeeps : KeepsStartMonth startMonth c)
    (hbefore : ∀ settings ∈ Db.settings c.before, settings.fiscalYearStartMonth = startMonth) :
    ∀ settings ∈ Db.settings c.after, settings.fiscalYearStartMonth = startMonth := by
  rcases h.settings_after with hsame | ⟨input, settings₀, hreq, hsettings₀, hafter⟩
  · rwa [hsame]
  · intro settings hsettings
    obtain rfl := Option.some.inj (hafter.symm.trans hsettings)
    change input.fiscalYearStartMonth.getD settings₀.fiscalYearStartMonth = startMonth
    cases hmonth : input.fiscalYearStartMonth with
    | none => exact hbefore settings₀ hsettings₀
    | some month => exact hkeeps month (by rw [hreq]; exact hmonth)

/-- **Every commit that sets no other start month keeps the invariant.** -/
theorem ClosingEntries.after (h : ClosingEntries startMonth c.before) (hsaw : SawStartMonth startMonth c)
    (hc : Transacts strict c) (hkeeps : KeepsStartMonth startMonth c) :
    ClosingEntries startMonth c.after where
  settings := hc.startMonth_after hkeeps h.settings
  entry := by
    intro id e he hsource
    cases hb : Db.entry c.before id with
    | none =>
      obtain ⟨t, rfl, rfl⟩ := hc.closing_new hb he hsource
      refine ⟨t.fiscalYear, t.closesOn hsaw, ?_⟩
      rw [t.after_closing]
      exact Option.some_ne_none _
    | some e₀ =>
      obtain ⟨e', he', hstep⟩ := hc.entry_step hb
      obtain rfl : e' = e := Option.some.inj (he'.symm.trans he)
      obtain ⟨fiscalYear, hcloses, hrec⟩ := h.entry hb (hstep.source.1.symm.trans hsource)
      exact ⟨fiscalYear, hstep.closesOn hcloses, hc.closing_kept hrec⟩
  record := by
    intro fiscalYear rec id hrec hid
    -- the entry of a record that was stored before is still there
    have hkept : ∀ {rec₀}, Db.closing c.before fiscalYear = some rec₀ →
        rec₀.closingEntryId = some id →
        ∃ e, Db.entry c.after id = some e ∧ e.ClosesOn startMonth fiscalYear := by
      intro rec₀ hrec₀ hid₀
      obtain ⟨e, he, hcloses⟩ := h.record hrec₀ hid₀
      obtain ⟨e', he', hstep⟩ := hc.entry_step he
      exact ⟨e', he', hstep.closesOn hcloses⟩
    rcases hc.closingNext fiscalYear with hsame | ⟨rec', hrec', hnext⟩
    · exact hkept (hsame.symm.trans hrec) hid
    · obtain rfl : rec' = rec := Option.some.inj (hrec'.symm.trans hrec)
      cases hnext with
      | close t hyear =>
        subst hyear
        rw [t.record] at hid
        obtain rfl : t.entryId = id := Option.some.inj hid
        exact ⟨t.entry, t.after_entry, t.closesOn hsaw⟩
      | closeEmpty => cases hid
      | reopen t hyear =>
        subst hyear
        exact hkept t.current hid
      | reopenEmpty _ _ rec _ hcurrent => exact hkept hcurrent hid

/-- **A reopening posts into the year that it reopens**, and reverses a closing entry of the year. -/
theorem ClosingEntries.reopened (hseen : ∀ q ∈ c.seen, ClosingEntries startMonth q.2 ∧
    Persists q.2 c.before) (t : ReopensYear strict c) :
    t.p.fiscalYear = t.fiscalYear ∧ t.o.ClosesOn startMonth t.fiscalYear := by
  obtain ⟨s, hs, rec, hrec, -, hid⟩ := t.sawClosed
  obtain ⟨hinvariant, hpersists⟩ := hseen _ hs
  obtain ⟨e, he, hcloses⟩ := hinvariant.record hrec hid
  obtain ⟨o, ho, hsteps⟩ := hpersists.entry he
  have hcurrent : Db.entry c.before t.closingEntryId = some t.o :=
    t.prepared.originalId_eq ▸ t.reversed.original
  obtain rfl : o = t.o := Option.some.inj (ho.symm.trans hcurrent)
  have horiginal := hcloses.steps hsteps
  refine ⟨?_, horiginal⟩
  have hdate : t.p.original.date = t.o.date := by rw [t.reversed.same]
  have hsaw : SawStartMonth startMonth c := fun q hq => (hseen q hq).1.settings
  rw [t.prepared.fiscalYear.eq hsaw, hdate, horiginal.date, fiscalYearForDate_lastDay]

end Invariant

section Runs

variable {policy : Policy Row LockName Query Failure Response Request} {db₀ : Db} {s : Server}
  {startMonth : StartMonth}

theorem Initial.closingEntries (h : Initial db₀)
    (hmonth : ∀ settings ∈ Db.settings db₀, settings.fiscalYearStartMonth = startMonth) :
    ClosingEntries startMonth db₀ where
  settings := hmonth
  entry := fun he => by rw [h.entry] at he; cases he
  record := fun hrec => by rw [h.closing] at hrec; cases hrec

/-- **The commits of a run whose requests keep the start month.** -/
theorem closingEntries_of_reachable (h₀ : Initial db₀)
    (hmonth : ∀ settings ∈ Db.settings db₀, settings.fiscalYearStartMonth = startMonth)
    (h : Reachable code policy db₀ s) (hkeeps : ∀ c ∈ s.history, KeepsStartMonth startMonth c) :
    ∀ t, Past db₀ s.history t → ClosingEntries startMonth t :=
  past_of_reachable (KeepsStartMonth startMonth) h hkeeps (h₀.closingEntries hmonth)
    fun _ hc hkeeps hI hseen => hI.after (fun q hq => (hseen q hq).1.settings) hc hkeeps

end Runs

end AccountingApi
