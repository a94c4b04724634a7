import AccountingApi.Reversals
import AccountingApi.YearEndRecords
import AccountingApi.YearEnds

/-!
# What a close reads and what it finds

A close reads the movements of the year before it takes the lock of the year, and writes the entry that
takes them away under the lock. What is posted in between is left on the accounts, and out of the net
income. A close that finds the movements it has read brings every profit and loss account to zero, and
records the net of the entries that are neither a closing entry nor the reversal of one: the closing
entries from before have been reversed when the year was reopened.

## Main definitions

* `Db.ordinaryNet`: the net of the profit and loss accounts without closing entries and their reversals
* `ClosesExactly`: the accounts are zero after the commit, and the record has this net
* `FindsMovements`: the close finds the movements that it has read

## Main results

* `creditNet_eq_ordinary`: the closing entries of a year and their reversals cancel
* `closesExactly_of_reachable`: every close of a run
* `movement_after_close`: a close that a sale has overtaken
-/

namespace AccountingApi

open ReadCommitted Posting YearEndClose Balances

/-! ## Statements -/

/-- The entry is a closing entry or the reversal of one. -/
def Db.OfClosing (db : Db) (e : JournalEntry) : Prop := (Db.origin db e).sourceType = .closing

instance (db : Db) (e : JournalEntry) : Decidable (Db.OfClosing db e) :=
  inferInstanceAs (Decidable (_ = _))

/-- What the posted entries of some dates that are neither a closing entry nor the reversal of one
credit an account with, less what they debit it with. -/
def Db.ordinaryOn (db : Db) (accountId : Uuid) (p : UtcDay → Prop) [DecidablePred p] : ℤ :=
  entries.sum (fun _ e => if (e.Counts ∧ p e.date) ∧ ¬ Db.OfClosing db e then -e.net accountId else 0)
    db

/-- The sum over the profit and loss accounts. -/
def Db.ordinaryNet (db : Db) (p : UtcDay → Prop) [DecidablePred p] : ℤ :=
  (((Db.accounts db).filter fun a => a.2.isPnl).map fun a => Db.ordinaryOn db a.1 p).sum

/-- After the commit no profit and loss account has a movement in the year, and the record of the year
has the net of its entries that are neither a closing entry nor the reversal of one. -/
structure ClosesExactly (startMonth : StartMonth) (fiscalYear : ℤ) (c : Commit) : Prop where
  zero : ∀ a ∈ Db.accounts c.after, a.2.isPnl = true →
    creditNet c.after a.1 (InYear startMonth fiscalYear) = 0
  income : ∃ rec, Db.closing c.after fiscalYear = some rec ∧ rec.status = .closed ∧
    rec.netIncome = Db.ordinaryNet c.after (InYear startMonth fiscalYear)

/-- The movements of the two stores in the year are the same on the accounts of the second one, and add
up to the same. -/
def SameMovements (startMonth : StartMonth) (fiscalYear : ℤ) (s db : Db) : Prop :=
  (∀ a ∈ Db.accounts db, a.2.isPnl = true → Db.pnlMovement s startMonth fiscalYear a.1 =
    creditNet db a.1 (InYear startMonth fiscalYear)) ∧
  Db.net s Account.isPnl (InYear startMonth fiscalYear) =
    Db.net db Account.isPnl (InYear startMonth fiscalYear)

instance (startMonth : StartMonth) (fiscalYear : ℤ) (s db : Db) :
    Decidable (SameMovements startMonth fiscalYear s db) :=
  inferInstanceAs (Decidable (_ ∧ _))

/-- If the commit closes a year, it finds the movements that its request has read, whose sums fit the
arithmetic, and retained earnings are no profit and loss account. -/
def FindsMovements (startMonth : StartMonth) (c : Commit) : Prop :=
  ∀ fiscalYear ∈ c.req.closesYear, ∀ q ∈ c.seen, RetainedApart q.2 ∧ (q.1 = .movements →
    WithinDigits q.2 ∧ SameMovements startMonth fiscalYear q.2 c.before)

instance (startMonth : StartMonth) (c : Commit) : Decidable (FindsMovements startMonth c) :=
  inferInstanceAs (Decidable (∀ fiscalYear ∈ c.req.closesYear, ∀ q ∈ c.seen, _ ∧ (_ → _)))

/-! ## Closing entries and their reversals -/

section Cancels

variable {db : Db} {startMonth : StartMonth} {fiscalYear : ℤ}

/-- The entry that cancels a closing entry or the reversal of one. -/
def Db.counterpart (db : Db) (id : Uuid) : Uuid :=
  ((Db.entry db id).bind fun e => e.reversalOfId <|> e.reversedById).getD id

/-- A posted entry of the year that is a closing entry or the reversal of one. -/
def Db.ClosesIn (db : Db) (startMonth : StartMonth) (fiscalYear : ℤ) (id : Uuid) (e : JournalEntry) :
    Prop :=
  Db.entry db id = some e ∧ (e.Counts ∧ InYear startMonth fiscalYear e.date) ∧ Db.OfClosing db e

variable (hyears : YearsRecorded startMonth db) (hcoh : Coherent db) (hrev : Reversible db)
  (hmir : Mirrored db) (hopen : ¬ ClosedWithEntry db fiscalYear)
include hyears hcoh hrev hmir hopen

/-- **The closing entries of a year that is not closed with an entry have been reversed**, so that each
of them, and each reversal of one, is cancelled by another one. -/
theorem counterpart_closesIn {id : Uuid} {e : JournalEntry}
    (h : Db.ClosesIn db startMonth fiscalYear id e) : ∃ e',
      Db.ClosesIn db startMonth fiscalYear (Db.counterpart db id) e' ∧ Db.counterpart db id ≠ id ∧
        Db.counterpart db (Db.counterpart db id) = id ∧
          ∀ accountId, e'.net accountId = -e.net accountId := by
  obtain ⟨he, ⟨hcounts, hdate⟩, hclosing⟩ := h
  cases ho : e.reversalOfId with
  | none =>
    -- a closing entry: its year is this one, and it is not posted any more
    rw [Db.OfClosing, origin_of_none ho] at hclosing
    obtain ⟨year, hcloses, -⟩ := hyears.entry he hclosing
    have hyear : year = fiscalYear := by
      have hin := fiscalYearForDate_eq_iff.mpr hdate
      rwa [hcloses.date, fiscalYearForDate_lastDay] at hin
    subst hyear
    have hreversed : e.status = .reversed := by
      cases hstatus : e.status with
      | draft => exact absurd hstatus hcloses.notDraft
      | posted => exact absurd (hyears.closedWithEntry ⟨he, hclosing, hcloses.fiscalYear, hstatus⟩) hopen
      | reversed => rfl
    obtain ⟨r, hr⟩ := Option.ne_none_iff_exists'.mp ((hcoh.entry he).reversed.mp hreversed)
    obtain ⟨e', he', ho'⟩ := hrev.reversal he hr
    have hcounter : Db.counterpart db id = r := by
      rw [Db.counterpart, he, Option.bind_some, ho, hr]
      rfl
    rw [hcounter]
    refine ⟨e', ⟨he', ⟨?_, ?_⟩, ?_⟩, ?_, ?_, JournalEntry.net_swap (hmir.lines he hr he')⟩
    · exact hcoh.counts he' (hmir.posted he' (by rw [ho']; exact Option.some_ne_none id))
    · rw [hmir.date he hr he']
      exact hdate
    · rw [Db.OfClosing, origin_of_some ho' he]
      exact hclosing
    · rintro rfl
      obtain rfl := Option.some.inj (he.symm.trans he')
      cases ho.symm.trans ho'
    · rw [Db.counterpart, he', Option.bind_some, ho']
      rfl
  | some o =>
    -- the reversal of a closing entry
    obtain ⟨e₀, he₀, hr⟩ := hrev.original he ho
    rw [Db.OfClosing, origin_of_some ho he₀] at hclosing
    have hnone : e₀.reversalOfId = none := by
      by_contra hne
      cases hclosing.symm.trans ((hcoh.entry he₀).reversal hne)
    have hcounter : Db.counterpart db id = o := by
      rw [Db.counterpart, he, Option.bind_some, ho]
      rfl
    rw [hcounter]
    refine ⟨e₀, ⟨he₀, ⟨?_, ?_⟩, ?_⟩, ?_, ?_, fun accountId => ?_⟩
    · refine hcoh.counts he₀ fun hdraft => ?_
      have hreversed := (hcoh.entry he₀).reversed.mpr (by rw [hr]; exact Option.some_ne_none id)
      cases hdraft.symm.trans hreversed
    · rw [← hmir.date he₀ hr he]
      exact hdate
    · rw [Db.OfClosing, origin_of_none hnone]
      exact hclosing
    · rintro rfl
      obtain rfl := Option.some.inj (he.symm.trans he₀)
      cases ho.symm.trans hnone
    · rw [Db.counterpart, he₀, Option.bind_some, hnone, hr]
      rfl
    · rw [JournalEntry.net_swap (hmir.lines he₀ hr he), neg_neg]

/-- **The closing entries of a year and their reversals cancel**, where the year is not closed with an
entry. -/
theorem creditNet_eq_ordinary (accountId : Uuid) :
    creditNet db accountId (InYear startMonth fiscalYear) =
      Db.ordinaryOn db accountId (InYear startMonth fiscalYear) := by
  have hnet : creditNet db accountId (InYear startMonth fiscalYear) =
      -Db.netOn db accountId (InYear startMonth fiscalYear) := (neg_sub _ _).symm
  rw [hnet, netOn_eq_sum, Db.ordinaryOn, entries.sum_eq_sum_indices, ← Finset.sum_neg_distrib,
    ← sub_eq_zero, ← Finset.sum_sub_distrib]
  -- what is left are the closing entries and their reversals
  generalize hrest : (fun id : Uuid => -Table.rowTerm (fun _ e =>
    JournalEntry.netWhere e accountId (InYear startMonth fiscalYear)) id (Db.entry db id) -
      Table.rowTerm (fun _ e => if (e.Counts ∧ InYear startMonth fiscalYear e.date) ∧
        ¬ Db.OfClosing db e then -e.net accountId else 0) id (entries.get db id)) = rest
  have hterm : ∀ {id e}, Db.entry db id = some e → rest id =
      if (e.Counts ∧ InYear startMonth fiscalYear e.date) ∧ Db.OfClosing db e then -e.net accountId
      else 0 := by
    intro id e he
    have hget : entries.get db id = some e := he
    rw [← hrest]
    simp only [he, hget, Table.rowTerm_some, JournalEntry.netWhere]
    by_cases hin : e.Counts ∧ InYear startMonth fiscalYear e.date
    · by_cases hclosing : Db.OfClosing db e
      · simp [hin, hclosing]
      · simp [hin, hclosing]
    · simp [hin]
  have hcancel : ∀ id, rest id ≠ 0 → rest (Db.counterpart db id) = -rest id ∧
      Db.counterpart db id ∈ entries.indices db ∧ Db.counterpart db id ≠ id ∧
        Db.counterpart db (Db.counterpart db id) = id := by
    intro id hne
    cases he : Db.entry db id with
    | none =>
      have hget : entries.get db id = none := he
      refine absurd ?_ hne
      rw [← hrest]
      simp only [he, hget, Table.rowTerm_none, neg_zero, sub_zero]
    | some e =>
      have hcloses : Db.ClosesIn db startMonth fiscalYear id e := by
        refine ⟨he, ?_⟩
        by_contra hnot
        exact hne ((hterm he).trans (if_neg hnot))
      obtain ⟨e', hcloses', hother, hback, hopposite⟩ :=
        counterpart_closesIn hyears hcoh hrev hmir hopen hcloses
      refine ⟨?_, entries.mem_indices.mpr ?_, hother, hback⟩
      · rw [hterm hcloses'.1, hterm he, if_pos hcloses.2, if_pos hcloses'.2, hopposite]
      · change Db.entry db _ ≠ none
        rw [hcloses'.1]
        exact Option.some_ne_none e'
  rw [← Finset.sum_filter_ne_zero]
  refine Finset.sum_involution (fun id _ => Db.counterpart db id) ?_ ?_ ?_ ?_
  · intro id hid
    rw [(hcancel id (Finset.mem_filter.mp hid).2).1, add_neg_cancel]
  · exact fun id hid _ => (hcancel id (Finset.mem_filter.mp hid).2).2.2.1
  · intro id hid
    obtain ⟨hopposite, hmem, -⟩ := hcancel id (Finset.mem_filter.mp hid).2
    exact Finset.mem_filter.mpr ⟨hmem, by
      rw [hopposite]
      exact neg_ne_zero.mpr (Finset.mem_filter.mp hid).2⟩
  · exact fun id hid => (hcancel id (Finset.mem_filter.mp hid).2).2.2.2

end Cancels

/-! ## The commit of a close -/

section Close

variable {strict : Prop} {c : Commit} {startMonth : StartMonth} {fiscalYear : ℤ}

/-- An entry stays what it is: a closing entry, the reversal of one, or neither. -/
theorem Transacts.ofClosing_iff (hc : Transacts strict c) (hrev : Reversible c.before) {id : Uuid}
    {e : JournalEntry} (he : Db.entry c.before id = some e) :
    Db.OfClosing c.after e ↔ Db.OfClosing c.before e := by
  cases ho : e.reversalOfId with
  | none => rw [Db.OfClosing, Db.OfClosing, origin_of_none ho, origin_of_none ho]
  | some o =>
    obtain ⟨e₀, he₀, -⟩ := hrev.original he ho
    obtain ⟨e₀', he₀', hstep⟩ := hc.entry_step he₀
    rw [Db.OfClosing, Db.OfClosing, origin_of_some ho he₀, origin_of_some ho he₀', hstep.source.1]

/-- The entries of before add up to the same, as the store after the commit tells them. -/
theorem Transacts.ordinaryOn_before (hc : Transacts strict c) (hrev : Reversible c.before)
    (accountId : Uuid) (p : UtcDay → Prop) [DecidablePred p] :
    entries.sum (fun _ e => if (e.Counts ∧ p e.date) ∧ ¬ Db.OfClosing c.after e then -e.net accountId
      else 0) c.before = Db.ordinaryOn c.before accountId p := by
  refine entries.sum_congr _ (fun _ => rfl) fun id e he => ?_
  simp only [hc.ofClosing_iff hrev he]

/-- A commit that writes no entry keeps the sums. -/
theorem sums_of_nil (hc : Transacts strict c) (hrev : Reversible c.before)
    (hnil : entries.writes c.writes = []) (accountId : Uuid) (p : UtcDay → Prop) [DecidablePred p] :
    creditNet c.after accountId p = creditNet c.before accountId p ∧
      Db.ordinaryOn c.after accountId p = Db.ordinaryOn c.before accountId p := by
  refine ⟨congrArg₂ _ (entries.sum_putAll_of_nil _ _ hnil) (entries.sum_putAll_of_nil _ _ hnil), ?_⟩
  exact (entries.sum_putAll_of_nil _ _ hnil).trans (hc.ordinaryOn_before hrev accountId p)

/-- The closing entry adds its lines. -/
theorem ClosesYear.creditNet_after (t : ClosesYear strict c) (accountId : Uuid) (p : UtcDay → Prop)
    [DecidablePred p] : creditNet c.after accountId p = creditNet c.before accountId p +
      if p t.yearEnd then linesNetOn (t.lines ++ t.retained) accountId else 0 := by
  have hentry := t.created.eq_postedEntry t.prepared
  have hcounts : t.entry.Counts := by
    rw [hentry]
    exact ⟨nofun, rfl⟩
  have hdate : t.entry.date = t.yearEnd := by
    rw [hentry]
    rfl
  have hside : ∀ side, Db.sideOn c.after accountId side p = Db.sideOn c.before accountId side p +
      if p t.yearEnd then linesSideOn (t.lines ++ t.retained) accountId side else 0 := by
    intro side
    have hsum := entries.sum_putAll_of_singleton
      (fun _ e => if e.Counts ∧ p e.date then e.sideOn accountId side else 0) c.before
      t.writes_entries
    have hfresh : entries.get c.before t.entryId = none := t.created.fresh
    have hlines : t.entry.sideOn accountId side =
        linesSideOn (t.lines ++ t.retained) accountId side := by
      rw [hentry]
      rfl
    rw [hfresh, Table.rowTerm_none, add_zero] at hsum
    simp only [hcounts, true_and, hdate, hlines] at hsum
    exact hsum
  rw [creditNet, hside, hside, creditNet, linesNetOn]
  split
  · ring
  · ring

/-- The closing entry is a closing entry. -/
theorem ClosesYear.ordinaryOn_after (t : ClosesYear strict c) (hrev : Reversible c.before)
    (accountId : Uuid) (p : UtcDay → Prop) [DecidablePred p] :
    Db.ordinaryOn c.after accountId p = Db.ordinaryOn c.before accountId p := by
  have hsum := entries.sum_putAll_of_singleton (fun _ e => if (e.Counts ∧ p e.date) ∧
    ¬ Db.OfClosing c.after e then -e.net accountId else 0) c.before t.writes_entries
  have hfresh : entries.get c.before t.entryId = none := t.created.fresh
  have hclosing : Db.OfClosing c.after t.entry := by
    rw [Db.OfClosing, origin_of_none t.created.isNew.reversesNothing,
      t.created.eq_postedEntry t.prepared]
    rfl
  rwa [(Transacts.closeYear t).ordinaryOn_before hrev, hfresh, Table.rowTerm_none, add_zero,
    if_neg fun hin => hin.2 hclosing, add_zero] at hsum

/-- A close writes no account. -/
theorem Transacts.accounts_of_close (hc : Transacts strict c)
    (hclose : c.req.closesYear = some fiscalYear) : Db.accounts c.after = Db.accounts c.before := by
  obtain ⟨_, _, _, _, rfl, hreq⟩ := Request.eq_of_closesYear hclose
  rcases hc.of_close hreq with ⟨t, -⟩ | ⟨_, _, _, -, -, -, hwrites⟩
  · refine (@configuration_after c.before c.writes fun w hw hk => ?_).2.2
    rcases t.keys hw with heq | heq | heq <;> rw [heq] at hk <;> exact hk
  · refine (@configuration_after c.before c.writes fun w hw hk => ?_).2.2
    rw [hwrites] at hw
    rw [List.mem_singleton.mp hw] at hk
    exact hk

section Exactly

variable (hyears : YearsRecorded startMonth c.before) (hcoh : Coherent c.before)
  (hrev : Reversible c.before) (hmir : Mirrored c.before) (hsaw : SawStartMonth startMonth c)
  (hvalid : ∀ q ∈ c.seen, LinesValid q.2) (hfinds : FindsMovements startMonth c)
include hyears hcoh hrev hmir hsaw hvalid hfinds

/-- What a request has read of the year it closes. -/
theorem ClosingRead.eq {start yearEnd : UtcDay} {lines : List PostLineInput} {netIncome : ℤ}
    (hread : ClosingRead c start yearEnd lines netIncome)
    (hbounds : FiscalYearBounds c fiscalYear start yearEnd)
    (hclose : c.req.closesYear = some fiscalYear) (hopen : ¬ ClosedWithEntry c.before fiscalYear) :
    netIncome = Db.ordinaryNet c.before (InYear startMonth fiscalYear) ∧
      ∀ a ∈ Db.accounts c.before, a.2.isPnl = true → linesNetOn lines a.1 =
        -creditNet c.before a.1 (InYear startMonth fiscalYear) := by
  obtain ⟨rfl, rfl⟩ := hbounds.eq hsaw
  obtain ⟨s, hs, hread⟩ := hread
  obtain ⟨hdigits, hsame, htotal⟩ := (hfinds fiscalYear hclose _ hs).2 rfl
  obtain ⟨hnet, hlines⟩ := closingOf_net startMonth fiscalYear (hvalid _ hs) hdigits
  have hclosing : closingOf s startMonth fiscalYear = (lines, netIncome) := hread
  rw [hclosing] at hnet hlines
  have hordinary : Db.net c.before Account.isPnl (InYear startMonth fiscalYear) =
      Db.ordinaryNet c.before (InYear startMonth fiscalYear) :=
    congrArg List.sum (List.map_congr_left fun a _ =>
      creditNet_eq_ordinary hyears hcoh hrev hmir hopen a.1)
  exact ⟨(hnet.trans htotal).trans hordinary, fun a ha hpnl =>
    (hlines a.1).trans (congrArg Neg.neg (hsame a ha hpnl))⟩

/-- **A close with an entry is exact.** -/
theorem ClosesYear.closesExactly (t : ClosesYear strict c)
    (haccounts : ∀ q ∈ c.seen, AccountsKept q.2 c.before) :
    ClosesExactly startMonth t.fiscalYear c := by
  have hclose : c.req.closesYear = some t.fiscalYear := by
    rw [t.req]
    rfl
  have hsame := (Transacts.closeYear t).accounts_of_close hclose
  obtain ⟨hincome, hlines⟩ := t.read.eq hyears hcoh hrev hmir hsaw hvalid hfinds t.bounds hclose
    t.notClosed
  obtain ⟨-, hend⟩ := t.bounds.eq hsaw
  refine ⟨fun a ha hpnl => ?_, t.closing, t.after_closing, by rw [t.record]; rfl, ?_⟩
  · rw [hsame] at ha
    have hin : InYear startMonth t.fiscalYear t.yearEnd := by
      rw [hend]
      exact fiscalYearForDate_eq_iff.mp (fiscalYearForDate_lastDay t.fiscalYear startMonth)
    -- the line on retained earnings is on another account
    have hretained : linesNetOn t.retained a.1 = 0 := by
      rcases t.retainedLines with ⟨-, hnil⟩ | ⟨-, id, ⟨s, hs, b, hb⟩, hone⟩
      · rw [hnil]
        rfl
      · have hapart := (hfinds t.fiscalYear hclose _ hs).1 _ hb
        obtain ⟨hb, -⟩ := account_of_role hb
        obtain ⟨b', hb', htype, -⟩ := haccounts _ hs hb
        have hne : id ≠ a.1 := by
          rintro rfl
          obtain rfl : b' = a.2 := Option.some.inj (hb'.symm.trans (mem_accounts.mp ha).1)
          unfold Account.isPnl at hapart hpnl
          rw [htype, hapart] at hpnl
          cases hpnl
        rw [hone, linesNetOn_singleton, retainedLine_accountId, if_neg hne]
    rw [t.creditNet_after, if_pos hin, linesNetOn_append, hlines a ha hpnl, hretained, add_zero,
      add_neg_cancel]
  · have hrecord : t.closing.netIncome = t.netIncome := by
      rw [t.record]
      rfl
    rw [hrecord, hincome, Db.ordinaryNet, Db.ordinaryNet, hsame]
    refine congrArg List.sum (List.map_congr_left fun a _ => ?_)
    exact (t.ordinaryOn_after hrev a.1 _).symm

/-- **Every close is exact**: one without an entry finds no movement. -/
theorem Transacts.closesExactly (hc : Transacts strict c)
    (haccounts : ∀ q ∈ c.seen, AccountsKept q.2 c.before) (hempty : EmptyFindsNoEntry c)
    (hclose : c.req.closesYear = some fiscalYear) : ClosesExactly startMonth fiscalYear c := by
  obtain ⟨dto, user, entryId, now, rfl, hreq⟩ := Request.eq_of_closesYear hclose
  rcases hc.of_close hreq with
    ⟨t, hyear⟩ | ⟨start, yearEnd, netIncome, -, hbounds, hread, hwrites⟩
  · rw [← hyear]
    exact t.closesExactly hyears hcoh hrev hmir hsaw hvalid hfinds haccounts
  · have hnil : entries.writes c.writes = [] := by
      rw [hwrites]
      rfl
    have hopen : ¬ ClosedWithEntry c.before dto.fiscalYear :=
      hempty dto.fiscalYear (by rw [hreq]; rfl) hnil
    have hsame := hc.accounts_of_close hclose
    have hzero : netIncome = 0 := by
      obtain ⟨s, -, hread⟩ := hread
      have hfst := congrArg Prod.fst hread
      exact (congrArg Prod.snd hread).symm.trans (closingLines_snd hfst)
    obtain ⟨hincome, hlines⟩ := hread.eq hyears hcoh hrev hmir hsaw hvalid hfinds hbounds hclose hopen
    refine ⟨fun a ha hpnl => ?_, closedRecord none 0 user now, ?_, rfl, ?_⟩
    · rw [hsame] at ha
      rw [(sums_of_nil hc hrev hnil a.1 _).1]
      exact neg_eq_zero.mp (hlines a ha hpnl).symm
    · rw [closing_after, hwrites]
      exact if_pos rfl
    · change 0 = _
      rw [← hzero, hincome, Db.ordinaryNet, Db.ordinaryNet, hsame]
      refine congrArg List.sum (List.map_congr_left fun a _ => ?_)
      exact (sums_of_nil hc hrev hnil a.1 _).2.symm

end Exactly

end Close

/-! ## Runs -/

section Runs

variable {policy : Policy Row LockName Query Failure Response Request} {db₀ : Db} {s : Server}
  {startMonth : StartMonth}

/-- **Closes are exact**, in any interleaving of requests that keep the start month, where every close
finds the movements it has read, and no close or reopening without an entry finds a year closed with
one. -/
theorem closesExactly_of_reachable (h₀ : Initial db₀)
    (hmonth : ∀ settings ∈ Db.settings db₀, settings.fiscalYearStartMonth = startMonth)
    (h : Reachable code policy db₀ s) (hkeeps : ∀ c ∈ s.history, KeepsStartMonth startMonth c)
    (hempty : ∀ c ∈ s.history, EmptyFindsNoEntry c)
    (hfinds : ∀ c ∈ s.history, FindsMovements startMonth c) :
    ∀ c ∈ s.history, ∀ fiscalYear ∈ c.req.closesYear, ClosesExactly startMonth fiscalYear c := by
  intro c hc fiscalYear hclose
  have hpast := yearsRecorded_of_past h₀ hmonth h hkeeps hempty
  have hmirrored := past_of_reachable (I := fun db => Reversible db ∧ Mirrored db) (fun _ => True) h
    (fun _ _ => trivial) ⟨h₀.reversible, h₀.mirrored⟩
    fun _ hc _ hI _ => ⟨hI.1.after hc, hI.2.after hI.1 hc⟩
  obtain ⟨hguar, hbefore, hseen⟩ := (chain_of_reachable h).of_mem (D := AccountsKept)
    AccountsKept.refl (fun _ _ _ => AccountsKept.trans) (fun _ hc => hc.accountsKept) hc
  obtain ⟨hcoh, hrev, hyears⟩ := hpast _ hbefore
  exact hguar.closesExactly hyears hcoh hrev (hmirrored _ hbefore).2
    (fun q hq => (hpast _ (hseen q hq).1).2.2.settings)
    (fun q hq => (hpast _ (hseen q hq).1).1.linesValid) (hfinds c hc)
    (fun q hq => (hseen q hq).2) (hempty c hc) hclose

end Runs

namespace Sample

/-- A sale, and a close that another sale overtakes. -/
def closedLate : List (Event Request) :=
  request 0 (.createAndPostEntry cashSale 9 100 1) 16 ++
    .spawn (.closeYear thisYear 9 101 2) ::
    List.replicate 3 (.step 1) ++ request 2 (.createAndPostEntry cashSale 9 102 3) 15 ++
    List.replicate 21 (.step 1)

/-- Two sales around a close and the reopening of the year, and another close, while a third sale is
being prepared. -/
def closedInOrder : List (Event Request) :=
  request 0 (.createAndPostEntry cashSale 9 100 1) 16 ++
    request 1 (.closeYear thisYear 9 101 2) 24 ++
    request 2 (.reopenYear 2026 9 102 3) 20 ++ request 3 (.createAndPostEntry cashSale 9 103 4) 15 ++
    .spawn (.createAndPostEntry cashSale 9 104 5) :: List.replicate 3 (.step 4) ++
    request 5 (.closeYear thisYear 9 105 6) 24

end Sample

/-- The closes of a year that is reopened in between. -/
theorem closesExactly_of_reachable_again :
    (Sample.server Sample.closedInOrder).history.length = 5 ∧
      ∀ c ∈ (Sample.server Sample.closedInOrder).history, ∀ fiscalYear ∈ c.req.closesYear,
        ClosesExactly ⟨1, by decide, by decide⟩ fiscalYear c := by
  have hmonth : ∀ settings ∈ Db.settings Sample.db,
      settings.fiscalYearStartMonth = ⟨1, by decide, by decide⟩ := by
    decide
  exact ⟨by decide +kernel, closesExactly_of_reachable Sample.initial hmonth
    (Sample.reachable (by decide +kernel)) (by decide +kernel) (by decide +kernel)
    (by decide +kernel)⟩

/-- **A movement after the close**: the sale that has been posted after the close has read the movements
stays on its accounts, and out of the net income. -/
theorem movement_after_close : ∃ s c, Reachable code (anytime fun _ => True) Sample.db s ∧
    c ∈ s.history ∧ c.req.closesYear = some 2026 ∧
      (∀ c ∈ s.history, KeepsStartMonth ⟨1, by decide, by decide⟩ c ∧ EmptyFindsNoEntry c) ∧
      ¬ ClosesExactly ⟨1, by decide, by decide⟩ 2026 c := by
  have hlate : ∀ c ∈ (Sample.server Sample.closedLate).history[0]?, c.req.closesYear = some 2026 ∧
      ∃ a ∈ Db.accounts c.after, a.2.isPnl = true ∧
        creditNet c.after a.1 (InYear ⟨1, by decide, by decide⟩ 2026) ≠ 0 := by
    decide +kernel
  have hkeeps : ∀ c ∈ (Sample.server Sample.closedLate).history,
      KeepsStartMonth ⟨1, by decide, by decide⟩ c ∧ EmptyFindsNoEntry c := by
    decide +kernel
  have hlength : (Sample.server Sample.closedLate).history.length = 3 := by decide +kernel
  obtain ⟨c, second, first, hhistory⟩ := List.length_eq_three.mp hlength
  rw [hhistory] at hlate
  obtain ⟨hclose, a, ha, hpnl, hne⟩ := hlate c rfl
  refine ⟨Sample.server Sample.closedLate, c, Sample.reachable (by decide +kernel), ?_, hclose, hkeeps,
    fun hexactly => hne (hexactly.zero a ha hpnl)⟩
  rw [hhistory]
  exact List.mem_cons_self

end AccountingApi
