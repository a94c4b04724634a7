import AccountingApi.Conformance.Commits
import AccountingApi.Links

/-!
# Closing several years

A close reads the movement of its own year only, and its entry is dated on the last day of that year.
So closing one year does not change what the close of another one reads, and closing several years,
one after the other, leads to the same balances in any order.

## Main definitions

* `closingOf`: the closing lines and the net income of a year
* `closingEntryLines`: the lines of its closing entry
* `Closed`: what the closes of some years have made of a ledger
* `closedYears`: the years a run has closed

## Main results

* `closed_of_reachable`: every run that closes years, one at a time
* `closing_order`: two runs that close the same years lead to the same balances
-/

namespace AccountingApi

open ReadCommitted Posting YearEndClose

/-! ## The closing entry of a year -/

/-- The days of a fiscal year. -/
def InYear (startMonth : StartMonth) (fiscalYear : ℤ) (d : UtcDay) : Prop :=
  fiscalYearFirstDay fiscalYear startMonth ≤ d ∧ d ≤ fiscalYearLastDay fiscalYear startMonth

instance (startMonth : StartMonth) (fiscalYear : ℤ) : DecidablePred (InYear startMonth fiscalYear) :=
  fun _ => inferInstanceAs (Decidable (_ ∧ _))

/-- The last day of another year is not one of the year's days. -/
theorem not_inYear_lastDay {startMonth : StartMonth} {fiscalYear fiscalYear' : ℤ}
    (h : fiscalYear' ≠ fiscalYear) :
    ¬ InYear startMonth fiscalYear (fiscalYearLastDay fiscalYear' startMonth) := by
  intro hin
  refine h ?_
  rw [← fiscalYearForDate_lastDay fiscalYear' startMonth]
  exact fiscalYearForDate_eq_iff.mpr hin

/-- The closing lines and the net income of a year. -/
def closingOf (db : Db) (startMonth : StartMonth) (fiscalYear : ℤ) : List PostLineInput × ℤ :=
  closingLines [] Money.zero (pnlRows db (fiscalYearFirstDay fiscalYear startMonth)
    (fiscalYearLastDay fiscalYear startMonth))

/-- The lines of the year's closing entry, the last one on retained earnings. -/
def closingEntryLines (db : Db) (startMonth : StartMonth) (retainedId : Uuid) (fiscalYear : ℤ) :
    List PostLineInput :=
  (closingOf db startMonth fiscalYear).1 ++
    if (closingOf db startMonth fiscalYear).2 = 0 then []
    else [retainedLine retainedId (closingOf db startMonth fiscalYear).2]

/-- The sum of one side of the lines on an account. -/
def linesSideOn (lines : List PostLineInput) (accountId : Uuid) (side : JournalLine → ℤ) : ℤ :=
  (((toJournalLines lines).filter fun l => l.accountId = accountId).map side).sum

section ClosingLines

variable {rows : List Balances.AccountBalanceRow} {lines : List PostLineInput} {netIncome : ℤ}

/-- The closing lines start with the lines so far. -/
theorem prefix_closingLines : lines <+: (closingLines lines netIncome rows).1 := by
  induction rows generalizing lines netIncome with
  | nil => exact List.prefix_rfl
  | cons r rows ih =>
    unfold closingLines
    split
    · exact ih
    · exact (List.prefix_append _ _).trans ih

/-- Without a closing line there is no net income. -/
theorem closingLines_snd (h : (closingLines lines netIncome rows).1 = []) :
    (closingLines lines netIncome rows).2 = netIncome := by
  induction rows generalizing lines netIncome with
  | nil => rfl
  | cons r rows ih =>
    unfold closingLines at h ⊢
    split
    · rw [if_pos ‹_›] at h
      exact ih h
    · rw [if_neg ‹_›] at h
      have hprefix := @prefix_closingLines rows (lines ++ [zeroingLine r.accountId (position r)])
        (Money.subtract netIncome (position r))
      rw [h] at hprefix
      simp at hprefix

/-- The closing lines are on the accounts of the rows. -/
theorem accountId_of_mem_closingLines {l : PostLineInput}
    (h : l ∈ (closingLines lines netIncome rows).1) :
    l ∈ lines ∨ ∃ r ∈ rows, r.accountId = l.accountId := by
  induction rows generalizing lines netIncome with
  | nil => exact .inl h
  | cons r rows ih =>
    unfold closingLines at h
    split at h
    · exact (ih h).imp_right fun ⟨r', hr', hid⟩ => ⟨r', List.mem_cons_of_mem r hr', hid⟩
    · rcases ih h with hmem | ⟨r', hr', hid⟩
      · rcases List.mem_append.mp hmem with hmem | hmem
        · exact .inl hmem
        · rw [List.mem_singleton.mp hmem]
          refine .inr ⟨r, List.mem_cons_self, ?_⟩
          unfold zeroingLine
          split <;> rfl
      · exact .inr ⟨r', List.mem_cons_of_mem r hr', hid⟩

end ClosingLines

/-! ## Sums of lines -/

theorem linesSideOn_nil (accountId : Uuid) (side : JournalLine → ℤ) :
    linesSideOn [] accountId side = 0 := rfl

/-- A sum over the rows of some lines, as a sum over the lines. -/
theorem linesSideOn_eq {side : JournalLine → ℤ} {f : PostLineInput → ℤ}
    (hf : ∀ (l : PostLineInput) (n : ℕ), side (l.toJournalLine n) = f l)
    (lines : List PostLineInput) (accountId : Uuid) : linesSideOn lines accountId side =
      ((lines.filter fun l => l.accountId = accountId).map f).sum := by
  unfold linesSideOn toJournalLines
  induction lines using List.reverseRecOn with
  | nil => rfl
  | append_singleton lines l ih =>
    rw [List.mapIdx_append, List.filter_append, List.map_append, List.sum_append, ih,
      List.filter_append, List.map_append, List.sum_append]
    refine congrArg _ ?_
    by_cases hl : l.accountId = accountId
    · simp [hl, PostLineInput.toJournalLine, ← hf l (lines.length + 1)]
    · simp [hl, PostLineInput.toJournalLine]

/-- What the retained-earnings line adds is the net income. -/
theorem retainedLine_net {netIncome : ℤ} (h : Money.Storable netIncome) (retainedId : Uuid) :
    (retainedLine retainedId netIncome).creditOrZero -
      (retainedLine retainedId netIncome).debitOrZero = netIncome := by
  unfold retainedLine
  split
  · simp [PostLineInput.creditOrZero, PostLineInput.debitOrZero, Money.multiply_neg_one h]
  · simp [PostLineInput.creditOrZero, PostLineInput.debitOrZero]

/-! ## What the balances read -/

section Reads

variable {db db' : Db}

/-- An account has a line on some dates if a counting entry has one. -/
theorem hasLine_iff {accountId : Uuid} {p : UtcDay → Prop} [DecidablePred p] :
    Db.hasLine db accountId p = true ↔ ∃ id e, Db.entry db id = some e ∧ e.Counts ∧ p e.date ∧
      ∃ l ∈ e.lines, l.accountId = accountId := by
  unfold Db.hasLine
  rw [List.any_eq_true]
  constructor
  · rintro ⟨k, -, hk⟩
    cases k with
    | entry id =>
      simp only [Option.any_eq_true, Bool.and_eq_true, decide_eq_true_eq, List.any_eq_true] at hk
      obtain ⟨e, he, ⟨hcounts, hp⟩, hl⟩ := hk
      exact ⟨id, e, he, hcounts, hp, hl⟩
    | _ => cases hk
  · rintro ⟨id, e, he, hcounts, hp, l, hl, hid⟩
    have hkey : Key.entry id ∈ db.keys := by
      refine db.mem_keys _ ?_
      rw [← Db.entry_eq_row, he]
      exact nofun
    refine ⟨.entry id, hkey, ?_⟩
    simp only [he, Option.any_some, Bool.and_eq_true, decide_eq_true_eq, List.any_eq_true]
    exact ⟨⟨hcounts, hp⟩, l, hl, hid⟩

/-- The grouped balances depend on the accounts, their lines and their sums. -/
theorem groupedBalances_congr {p : UtcDay → Prop} [DecidablePred p]
    (haccounts : Db.accounts db' = Db.accounts db)
    (hlines : ∀ accountId, Db.hasLine db' accountId p = Db.hasLine db accountId p)
    (hsums : ∀ accountId side, Db.sideOn db' accountId side p = Db.sideOn db accountId side p) :
    Balances.groupedBalances db' p = Balances.groupedBalances db p := by
  simp only [Balances.groupedBalances, haccounts, hlines, hsums]

end Reads

/-! ## What closes make of a ledger -/

/-- What the closing entry of a year adds to a side of an account over some dates. -/
def closingSideOn (db : Db) (startMonth : StartMonth) (retainedId accountId : Uuid)
    (side : JournalLine → ℤ) (p : UtcDay → Prop) [DecidablePred p] (fiscalYear : ℤ) : ℤ :=
  if p (fiscalYearLastDay fiscalYear startMonth) then
    linesSideOn (closingEntryLines db startMonth retainedId fiscalYear) accountId side
  else 0

/-- The closing entry of a year has a line on the account on some dates. -/
def ClosingHasLine (db : Db) (startMonth : StartMonth) (retainedId accountId : Uuid)
    (p : UtcDay → Prop) (fiscalYear : ℤ) : Prop :=
  p (fiscalYearLastDay fiscalYear startMonth) ∧
    ∃ l ∈ toJournalLines (closingEntryLines db startMonth retainedId fiscalYear),
      l.accountId = accountId

/-- The ledger `db` is what the closes of some years have made of `db₀`: settings and accounts are the
same, the sums have grown by the closing entries, and each year has its record. -/
structure Closed (db₀ : Db) (startMonth : StartMonth) (retainedId : Uuid) (years : List ℤ)
    (db : Db) : Prop where
  settings : Db.settings db = Db.settings db₀
  account : ∀ id, Db.account db id = Db.account db₀ id
  accounts : Db.accounts db = Db.accounts db₀
  sums : ∀ (accountId : Uuid) (side : JournalLine → ℤ) (p : UtcDay → Prop) [DecidablePred p],
    Db.sideOn db accountId side p = Db.sideOn db₀ accountId side p +
      (years.map (closingSideOn db₀ startMonth retainedId accountId side p)).sum
  lines : ∀ (accountId : Uuid) (p : UtcDay → Prop) [DecidablePred p],
    Db.hasLine db accountId p = true ↔ Db.hasLine db₀ accountId p = true ∨
      ∃ y ∈ years, ClosingHasLine db₀ startMonth retainedId accountId p y
  records : ∀ y ∈ years, ∃ rec, Db.closing db y = some rec ∧ rec.status = .closed ∧ rec.Valid ∧
    rec.netIncome = (closingOf db₀ startMonth y).2

theorem Closed.nil (db : Db) (startMonth : StartMonth) (retainedId : Uuid) :
    Closed db startMonth retainedId [] db :=
  ⟨rfl, fun _ => rfl, rfl, fun _ _ _ _ => (add_zero _).symm, by simp, nofun⟩

section Step

variable {strict : Prop} {c : Commit} {db₀ : Db} {startMonth : StartMonth} {retainedId : Uuid}
  {years : List ℤ} {fiscalYear : ℤ} {dto : CloseYearDto} {user entryId : Uuid} {now : Timestamp}

/-- A request that writes an account closes no year. -/
theorem AccountChange.req_ne {id : Uuid} {a : Account} (h : AccountChange c id a) :
    c.req ≠ .closeYear dto user entryId now := by
  cases h with
  | create _ _ req => rw [req]; exact nofun
  | update _ _ req => rcases req with req | req <;> rw [req] <;> exact nofun
  | delete _ _ _ _ req => rw [req]; exact nofun

/-- A request that writes periods closes no year. -/
theorem PeriodsWrite.req_ne {ws : List (Write Row)} (h : PeriodsWrite c ws) :
    c.req ≠ .closeYear dto user entryId now := by
  intro hreq
  cases h with
  | generate _ _ _ _ _ req => cases hreq.symm.trans req
  | close _ _ _ _ req => cases hreq.symm.trans req
  | reopen _ _ req => cases hreq.symm.trans req

theorem Request.eq_of_closesYear {r : Request} (h : r.closesYear = some fiscalYear) :
    ∃ dto user entryId now, dto.fiscalYear = fiscalYear ∧ r = .closeYear dto user entryId now := by
  cases r <;> cases h
  exact ⟨_, _, _, _, rfl, rfl⟩

/-- The commit of a close. -/
theorem Transacts.of_close (h : Transacts strict c)
    (hreq : c.req = .closeYear dto user entryId now) :
    (∃ t : ClosesYear strict c, t.fiscalYear = dto.fiscalYear) ∨
      ∃ start yearEnd netIncome, Saw c .closing (fun s => ¬ yearIsClosed s dto.fiscalYear) ∧
        FiscalYearBounds c dto.fiscalYear start yearEnd ∧
        ClosingRead c start yearEnd [] netIncome ∧
        c.writes = [⟨.closing dto.fiscalYear, closedRecord none 0 user now⟩] := by
  cases h with
  | closeYear t =>
    have hsame := t.req.symm.trans hreq
    simp only [Request.closeYear.injEq] at hsame
    exact .inl ⟨t, congrArg CloseYearDto.fiscalYear hsame.1⟩
  | closeEmptyYear y min max u e n start yearEnd netIncome rec sawOpen req bounds read record writes =>
    have hsame := req.symm.trans hreq
    simp only [Request.closeYear.injEq] at hsame
    obtain ⟨rfl, rfl, rfl, rfl⟩ := hsame
    exact .inr ⟨start, yearEnd, netIncome, sawOpen, bounds, read, by rw [writes, record]⟩
  | createDocument _ _ _ _ _ _ _ _ req => cases hreq.symm.trans req
  | updateDocument _ _ _ _ _ _ _ _ _ req => cases hreq.symm.trans req
  | postDocument t => cases hreq.symm.trans t.req
  | voidDocument t => cases hreq.symm.trans t.req
  | deleteDocument _ _ _ _ _ req => cases hreq.symm.trans req
  | createPayment _ _ _ _ req => cases hreq.symm.trans req
  | postPayment t => cases hreq.symm.trans t.req
  | voidPayment t => cases hreq.symm.trans t.req
  | deletePayment _ _ _ _ req => cases hreq.symm.trans req
  | createEntry _ _ _ _ req => cases hreq.symm.trans req
  | createAndPostEntry _ _ _ _ _ _ _ _ req => cases hreq.symm.trans req
  | postEntry _ _ _ _ _ _ _ _ req => cases hreq.symm.trans req
  | reverseEntry _ _ _ _ _ _ _ _ _ req => cases hreq.symm.trans req
  | deleteEntry _ _ _ _ req => cases hreq.symm.trans req
  | postOpeningBalances _ _ _ _ _ _ _ _ _ _ req => cases hreq.symm.trans req
  | reopenYear t => cases hreq.symm.trans t.req
  | reopenEmptyYear _ _ _ _ _ req => cases hreq.symm.trans req
  | updateTaxCode _ _ _ _ req => cases hreq.symm.trans req
  | account _ _ change => exact absurd hreq change.req_ne
  | updateCompany _ _ req => cases hreq.symm.trans req
  | periods _ change => exact absurd hreq change.req_ne

/-- Nothing but the entries, the records and the counters is written. -/
theorem Ticket.keys {s : Sequence} {n : ℕ} {ws : List (Write Row)} (h : Ticket c s n ws) :
    ∀ w ∈ ws, w.1 = .sequence s := by
  rcases h with ⟨-, rfl⟩ | ⟨-, -, rfl⟩
  · exact fun w hw => by rw [List.mem_singleton.mp hw]
  · intro w hw
    simp only [List.mem_cons, List.not_mem_nil, or_false] at hw
    rcases hw with rfl | rfl <;> rfl

/-- A close of another year does not change what the close of a year reads. -/
theorem Closed.closingOf_eq {db : Db} (h : Closed db₀ startMonth retainedId years db)
    (hnot : fiscalYear ∉ years) :
    closingOf db startMonth fiscalYear = closingOf db₀ startMonth fiscalYear := by
  have hout : ∀ y ∈ years, ¬ InYear startMonth fiscalYear (fiscalYearLastDay y startMonth) :=
    fun y hy => not_inYear_lastDay fun heq => hnot (heq ▸ hy)
  have hrows : Balances.groupedBalances db (InYear startMonth fiscalYear) =
      Balances.groupedBalances db₀ (InYear startMonth fiscalYear) := by
    refine groupedBalances_congr h.accounts (fun a => ?_) fun a side => ?_
    · rw [Bool.eq_iff_iff, h.lines]
      exact or_iff_left fun ⟨y, hy, hline⟩ => hout y hy hline.1
    · rw [h.sums, List.sum_eq_zero, add_zero]
      intro x hx
      obtain ⟨y, hy, rfl⟩ := List.mem_map.mp hx
      exact if_neg (hout y hy)
  unfold closingOf pnlRows Balances.movementsBetween
  exact congrArg (fun rows => closingLines [] Money.zero (rows.filter fun r => isPnl r.type)) hrows

theorem ClosesYear.writes_entries (t : ClosesYear strict c) :
    entries.writes c.writes = [(t.entryId, t.entry)] := by
  rw [t.writes, Table.writes_append, t.created.stamp.ticket.entries]
  rfl

theorem ClosesYear.writes_closings (t : ClosesYear strict c) :
    closings.writes c.writes = [(t.fiscalYear, t.closing)] := by
  rw [t.writes, Table.writes_append, t.created.stamp.ticket.closings]
  rfl

/-- A close writes a counter, an entry and a record only. -/
theorem ClosesYear.keys (t : ClosesYear strict c) {w : Write Row} (hw : w ∈ c.writes) :
    w.1 = .sequence (.journal t.p.fiscalYear) ∨ w.1 = .entry t.entryId ∨
      w.1 = .closing t.fiscalYear := by
  rw [t.writes] at hw
  rcases List.mem_append.mp hw with hw | hw
  · exact .inl (t.created.stamp.ticket.keys w hw)
  · simp only [List.mem_cons, List.not_mem_nil, or_false] at hw
    rcases hw with rfl | rfl
    · exact .inr (.inl rfl)
    · exact .inr (.inr rfl)

/-- Writes to entries, records and counters keep settings and accounts. -/
theorem configuration_after {db : Db} {ws : List (Write Row)}
    (h : ∀ w ∈ ws, ¬ w.1.IsConfiguration) : Db.settings (db.putAll ws) = Db.settings db ∧
      (∀ id, Db.account (db.putAll ws) id = Db.account db id) ∧
      Db.accounts (db.putAll ws) = Db.accounts db := by
  have hrow : ∀ k : Key, k.IsConfiguration → (db.putAll ws).row k = db.row k :=
    fun k hk => Store.row_putAll_of_notMem db fun w hw heq => h w hw (heq ▸ hk)
  refine ⟨hrow .settings trivial, fun id => hrow (.account id) trivial, ?_⟩
  refine Store.collect_putAll fun w hw v => ?_
  obtain ⟨k, v'⟩ := w
  cases k with
  | account id => exact absurd trivial (h _ hw)
  | _ => rfl

section Entry

variable (t : ClosesYear strict c) (h : Closed db₀ startMonth retainedId years c.before)
  (hseen : ∀ q ∈ c.seen, q.2 = c.before) (hnot : t.fiscalYear ∉ years)
  (hsettings : ∃ settings ∈ Db.settings db₀, settings.fiscalYearStartMonth = startMonth)
  (hretained : ∀ id a, Db.accountOfRole db₀ .retainedEarnings = some (id, a) → id = retainedId)
include h hseen hnot hsettings

/-- The year's last day and what its close has read. -/
theorem ClosesYear.read_eq : t.yearEnd = fiscalYearLastDay t.fiscalYear startMonth ∧
    (t.lines, t.netIncome) = closingOf db₀ startMonth t.fiscalYear := by
  obtain ⟨settings, hmem, rfl⟩ := hsettings
  obtain ⟨s, hs, settings', hmem', hstart, hend⟩ := t.bounds
  obtain ⟨s', hs', hread⟩ := t.read
  obtain rfl : s = c.before := hseen _ hs
  obtain rfl : s' = c.before := hseen _ hs'
  rw [h.settings] at hmem'
  obtain rfl : settings = settings' := Option.some.inj (hmem.symm.trans hmem')
  refine ⟨hend, ?_⟩
  rw [← h.closingOf_eq hnot, ← hread, hstart, hend]
  rfl

include hretained

/-- The closing entry has the lines of the year. -/
theorem ClosesYear.entry_eq : t.entry.Counts ∧
    t.entry.date = fiscalYearLastDay t.fiscalYear startMonth ∧
    t.entry.lines = toJournalLines (closingEntryLines db₀ startMonth retainedId t.fiscalYear) := by
  obtain ⟨hend, hread⟩ := t.read_eq h hseen hnot hsettings
  have hlines : t.lines ++ t.retained =
      closingEntryLines db₀ startMonth retainedId t.fiscalYear := by
    unfold closingEntryLines
    rw [← hread]
    refine congrArg (t.lines ++ ·) ?_
    rcases t.retainedLines with ⟨hzero, hnil⟩ | ⟨hne, id, ⟨s, hs, a, ha⟩, hone⟩
    · rw [if_pos hzero, hnil]
    · obtain rfl : s = c.before := hseen _ hs
      rw [Db.accountOfRole, h.accounts] at ha
      rw [if_neg hne, hone, hretained id a ha]
  rw [t.created.eq_postedEntry t.prepared]
  exact ⟨⟨nofun, rfl⟩, hend, congrArg toJournalLines hlines⟩

/-- **A close adds the closing entry of its year.** -/
theorem Closed.close : Closed db₀ startMonth retainedId (t.fiscalYear :: years) c.after := by
  obtain ⟨hcounts, hdate, hlines⟩ := t.entry_eq h hseen hnot hsettings hretained
  obtain ⟨-, hread⟩ := t.read_eq h hseen hnot hsettings
  obtain ⟨hset, hrow, haccounts⟩ := @configuration_after c.before c.writes
    fun w hw hk => by rcases t.keys hw with heq | heq | heq <;> rw [heq] at hk <;> exact hk
  refine ⟨hset.trans h.settings, fun id => (hrow id).trans (h.account id),
    haccounts.trans h.accounts, ?_, ?_, ?_⟩
  · intro accountId side p _
    have hsum := entries.sum_putAll_of_singleton
      (fun _ e => if e.Counts ∧ p e.date then e.sideOn accountId side else 0) c.before
      t.writes_entries
    have hfresh : entries.get c.before t.entryId = none := t.created.fresh
    have hside : t.entry.sideOn accountId side =
        linesSideOn (closingEntryLines db₀ startMonth retainedId t.fiscalYear) accountId side := by
      rw [JournalEntry.sideOn, hlines, linesSideOn]
    rw [hfresh, Table.rowTerm_none, add_zero] at hsum
    simp only [hcounts, true_and, hdate, hside] at hsum
    change Db.sideOn c.after accountId side p = Db.sideOn c.before accountId side p +
      closingSideOn db₀ startMonth retainedId accountId side p t.fiscalYear at hsum
    rw [hsum, h.sums, List.map_cons, List.sum_cons]
    ring
  · intro accountId p _
    have hafter : ∀ id, Db.entry c.after id =
        if t.entryId = id then some t.entry else Db.entry c.before id := fun id => by
      rw [entry_after, t.writes_entries, overwrite_cons, overwrite_nil]
    rw [List.exists_mem_cons_iff, or_left_comm, ← h.lines, hasLine_iff, hasLine_iff]
    constructor
    · rintro ⟨id, e, he, hcounts', hp, hl⟩
      rw [hafter] at he
      split at he
      · cases he
        rw [hdate] at hp
        rw [hlines] at hl
        exact .inl ⟨hp, hl⟩
      · exact .inr ⟨id, e, he, hcounts', hp, hl⟩
    · rintro (⟨hp, hl⟩ | ⟨id, e, he, hcounts', hp, hl⟩)
      · exact ⟨t.entryId, t.entry, by rw [hafter, if_pos rfl], hcounts, hdate ▸ hp, hlines ▸ hl⟩
      · have hne : t.entryId ≠ id := by
          rintro rfl
          cases he.symm.trans t.created.fresh
        exact ⟨id, e, by rw [hafter, if_neg hne, he], hcounts', hp, hl⟩
  · intro y hy
    rw [closing_after, t.writes_closings, overwrite_cons, overwrite_nil]
    by_cases hsame : t.fiscalYear = y
    · subst hsame
      refine ⟨t.closing, if_pos rfl, ?_, t.valid, ?_⟩
      · rw [t.record]
        rfl
      · rw [t.record, ← hread]
        rfl
    · rw [if_neg hsame]
      exact h.records y ((List.mem_cons.mp hy).resolve_left fun heq => hsame heq.symm)

end Entry

/-- **A close without movement adds nothing but the record of its year.** -/
theorem Closed.closeEmpty (h : Closed db₀ startMonth retainedId years c.before)
    (hseen : ∀ q ∈ c.seen, q.2 = c.before) (hnot : fiscalYear ∉ years)
    (hsettings : ∃ settings ∈ Db.settings db₀, settings.fiscalYearStartMonth = startMonth)
    {start yearEnd : UtcDay} {netIncome : ℤ}
    (hbounds : FiscalYearBounds c fiscalYear start yearEnd)
    (hread : ClosingRead c start yearEnd [] netIncome)
    (hwrites : c.writes = [⟨.closing fiscalYear, closedRecord none 0 user now⟩]) :
    Closed db₀ startMonth retainedId (fiscalYear :: years) c.after := by
  have hempty : closingOf db₀ startMonth fiscalYear = ([], 0) := by
    obtain ⟨settings, hmem, rfl⟩ := hsettings
    obtain ⟨s, hs, settings', hmem', rfl, rfl⟩ := hbounds
    obtain ⟨s', hs', hread⟩ := hread
    obtain rfl : s = c.before := hseen _ hs
    obtain rfl : s' = c.before := hseen _ hs'
    rw [h.settings] at hmem'
    obtain rfl : settings = settings' := Option.some.inj (hmem.symm.trans hmem')
    rw [← h.closingOf_eq hnot]
    have hzero := closingLines_snd (congrArg Prod.fst hread)
    rw [hread] at hzero
    unfold closingOf
    rw [hread]
    exact congrArg (Prod.mk []) hzero
  have hlines : closingEntryLines db₀ startMonth retainedId fiscalYear = [] := by
    unfold closingEntryLines
    rw [hempty]
    rfl
  have hentries : entries.writes c.writes = [] := by
    rw [hwrites]
    rfl
  obtain ⟨hset, hrow, haccounts⟩ := @configuration_after c.before c.writes
    fun w hw => by
      rw [hwrites, List.mem_singleton] at hw
      rw [hw]
      exact id
  have hentry : ∀ id, Db.entry c.after id = Db.entry c.before id := fun id => by
    rw [entry_after, hentries, overwrite_nil]
  refine ⟨hset.trans h.settings, fun id => (hrow id).trans (h.account id),
    haccounts.trans h.accounts, ?_, ?_, ?_⟩
  · intro accountId side p _
    have hzero : closingSideOn db₀ startMonth retainedId accountId side p fiscalYear = 0 := by
      unfold closingSideOn
      rw [hlines, linesSideOn_nil, ite_self]
    rw [List.map_cons, List.sum_cons, hzero, zero_add, ← h.sums]
    exact entries.sum_putAll_of_nil _ _ hentries
  · intro accountId p _
    have hno : ¬ ClosingHasLine db₀ startMonth retainedId accountId p fiscalYear := by
      rintro ⟨-, l, hl, -⟩
      rw [hlines] at hl
      cases hl
    rw [List.exists_mem_cons_iff, or_iff_right hno, ← h.lines, hasLine_iff, hasLine_iff]
    simp only [hentry]
  · intro y hy
    rw [closing_after, hwrites]
    change ∃ rec, overwrite y _ [(fiscalYear, closedRecord none 0 user now)] = some rec ∧ _
    rw [overwrite_cons, overwrite_nil]
    by_cases hsame : fiscalYear = y
    · subst hsame
      exact ⟨closedRecord none 0 user now, if_pos rfl, rfl, (by decide : Money.Storable 0),
        by rw [hempty]; rfl⟩
    · rw [if_neg hsame]
      exact h.records y ((List.mem_cons.mp hy).resolve_left fun heq => hsame heq.symm)

end Step

/-! ## Runs -/

/-- The request closes a year. -/
def Request.Closes (r : Request) : Prop :=
  ∃ dto user entryId now, r = .closeYear dto user entryId now

/-- The years the commits of a run have closed, the last one first. -/
def closedYears (history : List Commit) : List ℤ := history.filterMap (·.req.year)

section Runs

variable {db₀ : Db} {s : Server} {startMonth : StartMonth} {retainedId : Uuid}

/-- Requests for distinct years close no year twice. -/
theorem closedYears_nodup (hserial : s.Serial)
    (hdistinct : (s.procs.filterMap (·.req.year)).Nodup) : (closedYears s.history).Nodup := by
  -- two requests for the same year are one request
  have hsame : ∀ {i j : ℕ} {p p' : Proc Row LockName Query Failure Response Request} {y : ℤ},
      s.procs[i]? = some p → s.procs[j]? = some p' → p.req.year = some y →
      p'.req.year = some y → ¬ i < j := by
    intro i j p p' y hi hj hp hp' hlt
    obtain ⟨hil, rfl⟩ := List.getElem?_eq_some_iff.mp hi
    obtain ⟨hjl, rfl⟩ := List.getElem?_eq_some_iff.mp hj
    have hpair := List.pairwise_filterMap.mp hdistinct
    exact List.pairwise_iff_getElem.mp hpair i j hil hjl hlt y hp y hp' rfl
  refine List.pairwise_filterMap.mpr (hserial.apart.imp_of_mem ?_)
  rintro c c' hc hc' hne y hy _ hy' rfl
  obtain ⟨p, hp, hreq⟩ := hserial.origin c hc
  obtain ⟨p', hp', hreq'⟩ := hserial.origin c' hc'
  rw [← hreq] at hy
  rw [← hreq'] at hy'
  rcases Nat.lt_or_gt_of_ne hne with hlt | hgt
  · exact hsame hp hp' hy hy' hlt
  · exact hsame hp' hp hy' hy hgt

/-- **What a run that closes years, one at a time, makes of a ledger.** -/
theorem closed_of_reachable (h : Reachable code (oneAtATime Request.Closes) db₀ s)
    (hdistinct : (s.procs.filterMap (·.req.year)).Nodup)
    (hsettings : ∃ settings ∈ Db.settings db₀, settings.fiscalYearStartMonth = startMonth)
    (hretained : ∃ a, Db.accountOfRole db₀ .retainedEarnings = some (retainedId, a)) :
    Closed db₀ startMonth retainedId (closedYears s.history) s.db := by
  have hserial : s.Serial := h.serial fun r _ => commitsOnce_code r
  have hcloses : ∀ c ∈ s.history, c.req.Closes := by
    intro c hc
    obtain ⟨p, hp, hreq⟩ := hserial.origin c hc
    rw [← hreq]
    exact h.admitted p (List.mem_of_getElem? hp)
  have hkey : ∀ (hist : List Commit) (db : Db), Chain (protocol False) db₀ hist db →
      (∀ c ∈ hist, c.req.Closes ∧ ∀ q ∈ c.seen, q.2 = c.before) → (closedYears hist).Nodup →
      Closed db₀ startMonth retainedId (closedYears hist) db := by
    intro hist db hchain
    refine hchain.invariant (I := fun hist db =>
      (∀ c ∈ hist, c.req.Closes ∧ ∀ q ∈ c.seen, q.2 = c.before) → (closedYears hist).Nodup →
      Closed db₀ startMonth retainedId (closedYears hist) db) (fun _ _ => .nil db₀ _ _) ?_
    intro c hist _ hguar _ ih hall hnodup
    obtain ⟨⟨⟨dto, user, entryId, now, hreq⟩, hseen⟩, hrest⟩ := List.forall_mem_cons.mp hall
    have hyears : closedYears (c :: hist) = dto.fiscalYear :: closedYears hist :=
      List.filterMap_cons_some (by rw [hreq]; rfl)
    rw [hyears] at hnodup ⊢
    obtain ⟨hnot, hnodup⟩ := List.nodup_cons.mp hnodup
    have hbefore := ih hrest hnodup
    rcases hguar.of_close hreq with ⟨t, hyear⟩ | ⟨_, _, _, -, hbounds, hread, hwrites⟩
    · rw [← hyear] at hnot ⊢
      refine hbefore.close t hseen hnot hsettings fun id a ha => ?_
      obtain ⟨_, ha'⟩ := hretained
      exact congrArg Prod.fst (Option.some.inj (ha.symm.trans ha'))
    · exact hbefore.closeEmpty hseen hnot hsettings hbounds hread hwrites
  exact hkey s.history s.db (chain_of_reachable h)
    (fun c hc => ⟨hcloses c hc, hserial.found c hc⟩) (closedYears_nodup hserial hdistinct)

end Runs

/-! ## Two orders -/

/-- The net income recorded for a year. -/
def recordedNetIncome (db : Db) (fiscalYear : ℤ) : ℤ :=
  ((Db.closing db fiscalYear).map (·.netIncome)).getD 0

/-- What an account's credits exceed its debits by, over some dates. -/
def creditNet (db : Db) (accountId : Uuid) (p : UtcDay → Prop) [DecidablePred p] : ℤ :=
  Db.sideOn db accountId (·.credit) p - Db.sideOn db accountId (·.debit) p

section Orders

variable {db₀ db db' : Db} {startMonth : StartMonth} {retainedId : Uuid} {years years' : List ℤ}

/-- A closing line of a profit and loss account is not on an equity account. -/
theorem accountId_ne_of_mem_closingOf {a : Account}
    (ha : Db.accountOfRole db₀ .retainedEarnings = some (retainedId, a)) (hequity : a.type = .equity)
    {fiscalYear : ℤ} {l : PostLineInput} (hl : l ∈ (closingOf db₀ startMonth fiscalYear).1) :
    l.accountId ≠ retainedId := by
  intro hid
  rcases accountId_of_mem_closingLines hl with hnil | ⟨r, hr, hrid⟩
  · cases hnil
  · obtain ⟨hr, hpnl⟩ := List.mem_filter.mp hr
    obtain ⟨b, hb, rfl⟩ := List.mem_map.mp hr
    obtain ⟨hb, -⟩ := List.mem_filter.mp ((List.mem_insertionSort _).mp hb)
    have hmem : (retainedId, a) ∈ Db.accounts db₀ := List.mem_of_find?_eq_some ha
    obtain ⟨hrow, -⟩ := mem_accounts.mp hmem
    obtain ⟨hrow', -⟩ := mem_accounts.mp (show (b.1, b.2) ∈ Db.accounts db₀ from hb)
    have hsame : b.1 = retainedId := hrid.trans hid
    rw [hsame, hrow] at hrow'
    have hrow' : a = b.2 := Option.some.inj hrow'
    change isPnl b.2.type = true at hpnl
    rw [← hrow', hequity] at hpnl
    cases hpnl

/-- A closing entry brings the net income of its year to retained earnings. -/
theorem closingEntryLines_net {a : Account}
    (ha : Db.accountOfRole db₀ .retainedEarnings = some (retainedId, a)) (hequity : a.type = .equity)
    {fiscalYear : ℤ} (hstorable : Money.Storable (closingOf db₀ startMonth fiscalYear).2) :
    linesSideOn (closingEntryLines db₀ startMonth retainedId fiscalYear) retainedId (·.credit) -
        linesSideOn (closingEntryLines db₀ startMonth retainedId fiscalYear) retainedId (·.debit) =
      (closingOf db₀ startMonth fiscalYear).2 := by
  have hnone : (closingOf db₀ startMonth fiscalYear).1.filter (fun l => l.accountId = retainedId) =
      [] := List.filter_eq_nil_iff.mpr fun l hl => by
    simpa using accountId_ne_of_mem_closingOf ha hequity hl
  rw [linesSideOn_eq (f := PostLineInput.creditOrZero) fun _ _ => rfl,
    linesSideOn_eq (f := PostLineInput.debitOrZero) fun _ _ => rfl]
  unfold closingEntryLines
  rw [List.filter_append, hnone, List.nil_append]
  split
  · rename_i hzero
    rw [hzero]
    rfl
  · have hid : (retainedLine retainedId (closingOf db₀ startMonth fiscalYear).2).accountId =
        retainedId := by
      unfold retainedLine
      split <;> rfl
    rw [List.filter_cons_of_pos (by simpa using hid)]
    simpa using retainedLine_net hstorable retainedId

/-- **Each net income enters retained earnings exactly once.** -/
theorem Closed.retained (h : Closed db₀ startMonth retainedId years db) {a : Account}
    (ha : Db.accountOfRole db₀ .retainedEarnings = some (retainedId, a)) (hequity : a.type = .equity)
    (p : UtcDay → Prop) [DecidablePred p] : creditNet db retainedId p =
      creditNet db₀ retainedId p +
        ((years.filter fun y => p (fiscalYearLastDay y startMonth)).map
          (recordedNetIncome db)).sum := by
  have hyears : (years.map (closingSideOn db₀ startMonth retainedId retainedId (·.credit) p)).sum -
      (years.map (closingSideOn db₀ startMonth retainedId retainedId (·.debit) p)).sum =
        ((years.filter fun y => p (fiscalYearLastDay y startMonth)).map
          (recordedNetIncome db)).sum := by
    have hrecords := h.records
    clear h
    induction years with
    | nil => rfl
    | cons y years ih =>
      obtain ⟨⟨rec, hrec, -, hvalid, hnet⟩, hrest⟩ := List.forall_mem_cons.mp hrecords
      have hstorable : Money.Storable (closingOf db₀ startMonth y).2 := hnet ▸ hvalid
      have hrecorded : recordedNetIncome db y = (closingOf db₀ startMonth y).2 := by
        unfold recordedNetIncome
        rw [hrec, ← hnet]
        rfl
      have ih := ih hrest
      have hy := closingEntryLines_net ha hequity hstorable
      simp only [List.map_cons, List.sum_cons, closingSideOn]
      by_cases hp : p (fiscalYearLastDay y startMonth)
      · rw [if_pos hp, if_pos hp, List.filter_cons_of_pos (by simpa using hp), List.map_cons,
          List.sum_cons, hrecorded, ← hy, ← ih]
        ring
      · rw [if_neg hp, if_neg hp, List.filter_cons_of_neg (by simpa using hp), zero_add, zero_add]
        exact ih
  rw [creditNet, creditNet, h.sums, h.sums, ← hyears]
  ring

/-- What two ledgers have in common that closes of the same years have made of one: the balances, the
net incomes recorded, and that each of these has entered retained earnings once. -/
structure ClosedAlike (db₀ : Db) (startMonth : StartMonth) (retainedId : Uuid) (years : List ℤ)
    (db db' : Db) : Prop where
  grouped : ∀ (p : UtcDay → Prop) [DecidablePred p],
    Balances.groupedBalances db p = Balances.groupedBalances db' p
  account : ∀ (accountId : Uuid) (asOf : UtcDay),
    Balances.accountBalance db accountId asOf = Balances.accountBalance db' accountId asOf
  records : ∀ y ∈ years, ∃ rec rec', Db.closing db y = some rec ∧ Db.closing db' y = some rec' ∧
    rec.status = .closed ∧ rec'.status = .closed ∧ rec.netIncome = rec'.netIncome
  retained : ∀ asOf : UtcDay, creditNet db retainedId (· ≤ asOf) =
    creditNet db₀ retainedId (· ≤ asOf) +
      ((years.filter fun y => fiscalYearLastDay y startMonth ≤ asOf).map
        (recordedNetIncome db)).sum

theorem Closed.alike (h : Closed db₀ startMonth retainedId years db)
    (h' : Closed db₀ startMonth retainedId years' db') (hperm : years.Perm years') {a : Account}
    (ha : Db.accountOfRole db₀ .retainedEarnings = some (retainedId, a))
    (hequity : a.type = .equity) : ClosedAlike db₀ startMonth retainedId years db db' := by
  have hsums : ∀ (accountId : Uuid) (side : JournalLine → ℤ) (p : UtcDay → Prop) [DecidablePred p],
      Db.sideOn db accountId side p = Db.sideOn db' accountId side p := by
    intro accountId side p _
    rw [h.sums, h'.sums, (hperm.map _).sum_eq]
  refine ⟨fun p _ => ?_, fun accountId asOf => ?_, fun y hy => ?_, fun asOf => ?_⟩
  · refine groupedBalances_congr (h.accounts.trans h'.accounts.symm) (fun accountId => ?_)
      fun accountId side => hsums accountId side p
    rw [Bool.eq_iff_iff, h.lines, h'.lines]
    simp only [hperm.mem_iff]
  · simp only [Balances.accountBalance, Db.liveAccount, h.account, h'.account, hsums]
  · obtain ⟨rec, hrec, hclosed, -, hnet⟩ := h.records y hy
    obtain ⟨rec', hrec', hclosed', -, hnet'⟩ := h'.records y (hperm.mem_iff.mp hy)
    exact ⟨rec, rec', hrec, hrec', hclosed, hclosed', hnet.trans hnet'.symm⟩
  · exact h.retained ha hequity (· ≤ asOf)

/-- **Closing some years in any order** leads to the same balances and net incomes, and each net income
enters retained earnings exactly once. -/
theorem closing_order {s s' : Server} {a : Account}
    (h : Reachable code (oneAtATime Request.Closes) db₀ s)
    (h' : Reachable code (oneAtATime Request.Closes) db₀ s')
    (hdistinct : (s.procs.filterMap (·.req.year)).Nodup)
    (hdistinct' : (s'.procs.filterMap (·.req.year)).Nodup)
    (hperm : (closedYears s.history).Perm (closedYears s'.history))
    (hsettings : ∃ settings ∈ Db.settings db₀, settings.fiscalYearStartMonth = startMonth)
    (ha : Db.accountOfRole db₀ .retainedEarnings = some (retainedId, a))
    (hequity : a.type = .equity) :
    ClosedAlike db₀ startMonth retainedId (closedYears s.history) s.db s'.db :=
  (closed_of_reachable h hdistinct hsettings ⟨a, ha⟩).alike
    (closed_of_reachable h' hdistinct' hsettings ⟨a, ha⟩) hperm ha hequity

end Orders

namespace Sample

/-- An entry of a hundred rupiah from one account to another. -/
def transfer (date : UtcDay) (fiscalYear : ℤ) (debitId creditId : Uuid) : JournalEntry :=
  postedEntry ⟨⟨date, "Transfer", .manual, none, 9, [⟨debitId, some 1000000, none, none⟩,
    ⟨creditId, none, some 1000000, none⟩]⟩, 9, 8, fiscalYear⟩ 1 "JE-1" 0

/-- The company with a sale in 2025 and a cost in 2026. -/
def twoYears : Db := db.putAll [
  ⟨.period 10, ⟨2025, 1, "2025-01", newYearsDay2025, yearEnd2025, .opened, none, none⟩⟩,
  ⟨.entry 40, transfer midYear2025 2025 1 5⟩,
  ⟨.entry 41, transfer midYear 2026 6 1⟩]

/-- The server that has served requests one after the other, each with the given number of
statements. -/
def served (db : Db) (xs : List (Request × ℕ)) : Server :=
  ((Server.start db).serveAll code xs).getD (.start db)

theorem served_reachable {db : Db} {ops : Request → Prop} {xs : List (Request × ℕ)}
    (hops : ∀ x ∈ xs, ops x.1) (h : ((Server.start db).serveAll code xs).isSome = true) :
    Reachable code (oneAtATime ops) db (served db xs) := by
  obtain ⟨s, hs⟩ := Option.isSome_iff_exists.mp h
  rw [served, hs]
  exact Reachable.serveAll .start hops hs

/-- The close of 2025, and that of 2026. -/
def closes : List (Request × ℕ) := [
  (.closeYear lastYear 9 100 1, 25),
  (.closeYear thisYear 9 101 2, 25)]

theorem closes_ops : ∀ x ∈ closes, x.1.Closes := by
  intro x hx
  simp only [closes, List.mem_cons, List.not_mem_nil, or_false] at hx
  rcases hx with rfl | rfl <;> exact ⟨_, _, _, _, rfl⟩

end Sample

/-- A profit in 2025 and a loss in 2026, closed in either order. -/
theorem closing_order_two_years :
    let s := Sample.served Sample.twoYears Sample.closes
    let s' := Sample.served Sample.twoYears Sample.closes.reverse
    ClosedAlike Sample.twoYears ⟨1, by decide, by decide⟩ 4 (closedYears s.history) s.db s'.db :=
  closing_order (a := Sample.account "3100" .equity (some .retainedEarnings) .credit)
    (Sample.served_reachable Sample.closes_ops (by decide +kernel))
    (Sample.served_reachable (fun x hx => Sample.closes_ops x (List.mem_reverse.mp hx))
      (by decide +kernel))
    (by decide +kernel) (by decide +kernel) (by decide +kernel)
    ⟨_, rfl, rfl⟩ (by decide +kernel) rfl

end AccountingApi
