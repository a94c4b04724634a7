import AccountingApi.ClosedBooks
import AccountingApi.YearMovements

/-!
# Closes and reopenings

A close moves the net of the profit and loss accounts to retained earnings, within the equity of the
balance sheet, whose totals stay what they are. A reopening reverses the entry of a close, whatever has
been posted in between, and takes back from every account what this close has brought to it. A year that
is not closed with an entry has no trace of its closes, however often it has been closed and reopened.

## Main definitions

* `SameTotals`: the totals of the balance sheets of two stores are the same
* `TakesBack`: a commit takes back what another one has brought

## Main results

* `ClosesBooks.sameTotals`, `sameTotals_of_reachable`: a close keeps the totals of the balance sheet
* `takesBack_of_reachable`: every reopening takes back exactly one earlier close
* `ordinary_of_reachable`: the balances of a year that is not closed with an entry
-/

namespace AccountingApi

open ReadCommitted Posting YearEndClose Balances

/-! ## Statements -/

/-- The accounts of the equity section of the balance sheet, with those whose earnings it adds. -/
def Account.inEquity (a : Account) : Bool := a.type = .equity || a.isPnl

/-- The totals of the two balance sheets of a day are the same. The earnings of the current year are the
same but at the end of the year that is closed, where nothing is left of them. -/
structure SheetKept (yearEnd : UtcDay) (sheet sheet' : BalanceSheet) : Prop where
  assets : sheet'.totalAssets = sheet.totalAssets
  liabilities : sheet'.totalLiabilities = sheet.totalLiabilities
  equity : sheet'.totalEquity = sheet.totalEquity
  earnings : sheet'.currentYearEarnings =
    if sheet.asOf = yearEnd then 0 else sheet.currentYearEarnings

/-- The balance sheets of the two stores have the same totals, at every day. -/
def SameTotals (startMonth : StartMonth) (fiscalYear : ℤ) (db db' : Db) : Prop :=
  ∀ asOf sheet, BalanceSheet.generate db asOf = .ok sheet → ∃ sheet',
    BalanceSheet.generate db' asOf = .ok sheet' ∧
      SheetKept (fiscalYearLastDay fiscalYear startMonth) sheet sheet'

/-- The commit reverses an entry that the other one has posted, and takes back from every account, at
any dates, what this one has brought to it. -/
structure TakesBack (c close : Commit) : Prop where
  entry : ∃ id, Db.entry close.before id = none ∧ Db.entry close.after id ≠ none ∧
    (∃ e, Db.entry c.before id = some e ∧ e.status = .posted) ∧
      ∃ e, Db.entry c.after id = some e ∧ e.status = .reversed
  net : ∀ (accountId : Uuid) (p : UtcDay → Prop) [DecidablePred p],
    creditNet c.after accountId p - creditNet c.before accountId p =
      creditNet close.before accountId p - creditNet close.after accountId p

/-- The request has found the year closed without an entry, and the commit moves nothing. -/
def ReopensEmpty (fiscalYear : ℤ) (c : Commit) : Prop :=
  (Saw c .closing fun s => ∃ r ∈ Db.closing s fiscalYear, r.status = .closed ∧
    r.closingEntryId = none) ∧
    ∀ (accountId : Uuid) (side : JournalLine → ℤ) (p : UtcDay → Prop) [DecidablePred p],
      Db.sideOn c.after accountId side p = Db.sideOn c.before accountId side p

/-! ## The totals of a balance sheet -/

section Sheets

variable {db : Db} (h : Ledger db)
include h

/-- **The totals of a balance sheet** are nets of the ledger. -/
theorem Ledger.sheet {asOf : UtcDay} {sheet : BalanceSheet} {settings : CompanySettings}
    (hsettings : Db.settings db = some settings) (hsheet : BalanceSheet.generate db asOf = .ok sheet) :
    sheet.asOf = asOf ∧
      sheet.totalAssets = -Db.net db (fun a => a.type = .asset) (· ≤ asOf) ∧
      sheet.totalLiabilities = Db.net db (fun a => a.type = .liability) (· ≤ asOf) ∧
      sheet.totalEquity = Db.net db Account.inEquity (· ≤ asOf) ∧
      sheet.currentYearEarnings = Db.net db Account.isPnl fun d =>
        fiscalYearFirstDay (fiscalYearForDate asOf settings.fiscalYearStartMonth)
          settings.fiscalYearStartMonth ≤ d ∧ d ≤ asOf := by
  unfold BalanceSheet.generate at hsheet
  rw [hsettings] at hsheet
  obtain rfl := Except.ok.inj hsheet
  -- a section is the net of the accounts of its type
  have hcredit : ∀ type, type ≠ .asset → type ≠ .expense →
      Money.sum ((BalanceSheet.ofType type (balancesAsOf db asOf)).map BalanceSheet.amount) =
        Db.net db (fun a => a.type = type) (· ≤ asOf) := by
    intro type hasset hexpense
    refine h.sum_credit_sub (fun _ => rfl) fun a _ htype => ?_
    have htype : a.2.type = type := of_decide_eq_true htype
    exact if_neg (by rintro (hne | hne) <;> exact absurd (htype.symm.trans hne) ‹_›)
  have hearnings : ∀ (p : UtcDay → Prop) [DecidablePred p],
      BalanceSheet.earnings (groupedBalances db p) = Db.net db Account.isPnl p := fun p _ =>
    h.sum_credit_sub (fun _ => rfl) fun _ _ _ => rfl
  have hcurrent := hearnings fun d => fiscalYearFirstDay (fiscalYearForDate asOf
    settings.fiscalYearStartMonth) settings.fiscalYearStartMonth ≤ d ∧ d ≤ asOf
  rw [← h.movementsBetween_fiscalYear] at hcurrent
  refine ⟨rfl, ?_, hcredit .liability nofun nofun, ?_, hcurrent⟩
  · refine h.sum_debit_sub (fun _ => rfl) fun a _ htype => ?_
    exact if_pos (.inl (of_decide_eq_true htype))
  · refine (congrArg₂ Money.add (hcredit .equity nofun nofun) (hearnings _)).trans ?_
    refine h.add_net fun a => ⟨rfl, fun ⟨hequity, hpnl⟩ => ?_⟩
    unfold Account.isPnl at hpnl
    rw [of_decide_eq_true hequity] at hpnl
    cases hpnl

end Sheets

/-! ## A close on the balance sheet -/

/-- The net of some accounts, where every one of them is moved by an amount. -/
theorem net_moved {db db' : Db} {keep : Account → Bool} {p : UtcDay → Prop} [DecidablePred p]
    (haccounts : Db.accounts db' = Db.accounts db) (move : Uuid × Account → ℤ)
    (hmove : ∀ a ∈ Db.accounts db, keep a.2 = true →
      creditNet db' a.1 p = creditNet db a.1 p + move a) :
    Db.net db' keep p =
      Db.net db keep p + (((Db.accounts db).filter fun a => keep a.2).map move).sum := by
  rw [Db.net, Db.net, haccounts, ← List.sum_map_add]
  refine congrArg List.sum (List.map_congr_left fun a ha => ?_)
  obtain ⟨ha, hkeep⟩ := List.mem_filter.mp ha
  exact hmove a ha hkeep

namespace ClosesBooks

variable {db db' : Db} {startMonth : StartMonth} {fiscalYear : ℤ}
  (h : ClosesBooks db startMonth fiscalYear db') {p : UtcDay → Prop} [DecidablePred p]
include h

/-- The net of the profit and loss accounts of the year goes away on its last day. -/
theorem net_pnl : Db.net db' Account.isPnl p = Db.net db Account.isPnl p -
    if p (fiscalYearLastDay fiscalYear startMonth) then
      Db.net db Account.isPnl (InYear startMonth fiscalYear) else 0 := by
  rw [net_moved h.accounts
    (fun a => -if p (fiscalYearLastDay fiscalYear startMonth) then
      creditNet db a.1 (InYear startMonth fiscalYear) else 0)
    fun a ha hpnl => (h.pnl a ha hpnl p).trans (sub_eq_add_neg _ _)]
  by_cases hend : p (fiscalYearLastDay fiscalYear startMonth)
  · simp only [if_pos hend]
    refine (congrArg _ ?_).trans (sub_eq_add_neg _ _).symm
    rw [Db.net, List.sum_neg, List.map_map]
    rfl
  · simp [hend]

/-- The net of accounts the close does not touch. -/
theorem net_other {keep : Account → Bool}
    (hpnl : ∀ a ∈ Db.accounts db, keep a.2 = true → a.2.isPnl = false)
    (hretained : ∀ a ∈ Db.accountOfRole db .retainedEarnings, keep a.2 = false) :
    Db.net db' keep p = Db.net db keep p := by
  rw [net_moved h.accounts (fun _ => 0) fun a ha hkeep => ?_]
  · simp
  · have hunique : ∀ b ∈ Db.accounts db, b.1 = a.1 → b = a := fun b hb hid =>
      List.inj_on_of_nodup_map (nodup_accounts db) hb ha hid
    have hother := @h.other a.1
      (fun b hb hid => by rw [hunique b hb hid]; exact hpnl a ha hkeep) fun b hb => by
        have hsame := hunique (a.1, b) (List.mem_of_find?_eq_some hb) rfl
        have hnot := hretained _ hb
        rw [hsame, hkeep] at hnot
        cases hnot
    rw [creditNet, creditNet, hother, hother, add_zero]

/-- The net of the equity accounts takes up the net of the year, where retained earnings are one of
them. -/
theorem net_equity (hequity : ∀ a ∈ Db.accountOfRole db .retainedEarnings, a.2.type = .equity) :
    Db.net db' (fun a => a.type = .equity) p = Db.net db (fun a => a.type = .equity) p +
      if p (fiscalYearLastDay fiscalYear startMonth) then
        Db.net db Account.isPnl (InYear startMonth fiscalYear) else 0 := by
  have hnot : ∀ a ∈ Db.accounts db, decide (a.2.type = .equity) = true → a.2.isPnl = false := by
    intro a _ htype
    rw [Account.isPnl, of_decide_eq_true htype]
    rfl
  cases hrole : Db.accountOfRole db .retainedEarnings with
  | none =>
    -- without the account there is nothing to take up
    have hzero : Db.net db Account.isPnl (InYear startMonth fiscalYear) = 0 := by
      by_contra hne
      exact h.found hne hrole
    rw [hzero, ite_self, add_zero]
    exact h.net_other hnot fun a ha => by rw [hrole] at ha; cases ha
  | some retained =>
    have hmem : retained ∈ Db.accounts db := List.mem_of_find?_eq_some hrole
    rw [net_moved h.accounts (fun a => if a = retained then
      if p (fiscalYearLastDay fiscalYear startMonth) then
        Db.net db Account.isPnl (InYear startMonth fiscalYear) else 0 else 0) fun a ha hkeep => ?_]
    · have hnodup : ((Db.accounts db).filter fun a => decide (a.2.type = .equity)).Nodup :=
        (nodup_accounts db).of_map.filter _
      have hin : retained ∈ (Db.accounts db).filter fun a => decide (a.2.type = .equity) :=
        List.mem_filter.mpr ⟨hmem, decide_eq_true (hequity retained hrole)⟩
      rw [List.sum_map_ite_eq, @List.count_eq_one_of_mem _ instBEqOfDecidableEq _ _ _ hnodup hin]
      simp
    · by_cases hsame : a = retained
      · subst hsame
        rw [if_pos rfl]
        exact h.retained hrole p
      · have hother := @h.other a.1
          (fun b hb hid => by
            rw [List.inj_on_of_nodup_map (nodup_accounts db) hb ha hid]
            exact hnot a ha hkeep)
          fun b hb => hsame (List.inj_on_of_nodup_map (nodup_accounts db) ha hmem (by
            rw [hrole] at hb
            rw [Option.some.inj hb]))
        rw [if_neg hsame, creditNet, creditNet, hother, hother, add_zero]

/-- The earnings of the current year at a day: nothing is left of them on the last day of the year. -/
theorem net_currentYear (asOf : UtcDay) :
    (Db.net db' Account.isPnl fun d =>
      fiscalYearFirstDay (fiscalYearForDate asOf startMonth) startMonth ≤ d ∧ d ≤ asOf) =
      if asOf = fiscalYearLastDay fiscalYear startMonth then 0 else
        Db.net db Account.isPnl fun d =>
          fiscalYearFirstDay (fiscalYearForDate asOf startMonth) startMonth ≤ d ∧ d ≤ asOf := by
  rw [h.net_pnl]
  by_cases hlast : asOf = fiscalYearLastDay fiscalYear startMonth
  · subst hlast
    rw [fiscalYearForDate_lastDay, if_pos rfl]
    have hend := fiscalYearForDate_eq_iff.mp (fiscalYearForDate_lastDay fiscalYear startMonth)
    rw [if_pos hend]
    exact sub_self _
  · -- the last day of the year is not between the start of another year and one of its days
    have hnot : ¬ (fiscalYearFirstDay (fiscalYearForDate asOf startMonth) startMonth ≤
        fiscalYearLastDay fiscalYear startMonth ∧ fiscalYearLastDay fiscalYear startMonth ≤ asOf) := by
      rintro ⟨hstart, hle⟩
      obtain ⟨-, hend⟩ := fiscalYearForDate_eq_iff.mp (rfl : fiscalYearForDate asOf startMonth = _)
      have hyear : fiscalYearForDate (fiscalYearLastDay fiscalYear startMonth) startMonth =
          fiscalYearForDate asOf startMonth :=
        fiscalYearForDate_eq_iff.mpr ⟨hstart, UtcDay.le_iff_epochDay.mpr
          ((UtcDay.le_iff_epochDay.mp hle).trans (UtcDay.le_iff_epochDay.mp hend))⟩
      rw [fiscalYearForDate_lastDay] at hyear
      rw [← hyear] at hend
      exact hlast (UtcDay.eq_of_ord (le_antisymm (UtcDay.le_iff.mp hend) (UtcDay.le_iff.mp hle)))
    rw [if_neg hnot, if_neg hlast, sub_zero]

/-- **A close keeps the totals of the balance sheet** at every day. -/
theorem sameTotals (hledger : Ledger db) (hledger' : Ledger db')
    (hmonth : ∀ settings ∈ Db.settings db, settings.fiscalYearStartMonth = startMonth)
    (hequity : ∀ a ∈ Db.accountOfRole db .retainedEarnings, a.2.type = .equity) :
    SameTotals startMonth fiscalYear db db' := by
  intro asOf sheet hsheet
  obtain ⟨settings, hsettings⟩ : ∃ settings, Db.settings db = some settings := by
    unfold BalanceSheet.generate at hsheet
    cases hsettings : Db.settings db with
    | none => rw [hsettings] at hsheet; cases hsheet
    | some settings => exact ⟨settings, rfl⟩
  obtain rfl := hmonth settings hsettings
  have hsettings' : Db.settings db' = some settings := h.settings.trans hsettings
  obtain ⟨sheet', hsheet'⟩ : ∃ sheet', BalanceSheet.generate db' asOf = .ok sheet' := by
    unfold BalanceSheet.generate
    rw [hsettings']
    exact ⟨_, rfl⟩
  refine ⟨sheet', hsheet', ?_⟩
  obtain ⟨hasOf, hassets, hliabilities, hequity', hearnings⟩ := hledger.sheet hsettings hsheet
  obtain ⟨-, hassets', hliabilities', hequity'', hearnings'⟩ := hledger'.sheet hsettings' hsheet'
  -- the accounts of the other sections are not touched
  have hother : ∀ type, type ≠ .equity → type ≠ .revenue → type ≠ .expense →
      Db.net db' (fun a => a.type = type) (· ≤ asOf) =
        Db.net db (fun a => a.type = type) (· ≤ asOf) := by
    intro type hnot hrevenue hexpense
    refine h.net_other (fun a _ htype => ?_) fun a ha => decide_eq_false fun htype => ?_
    · rw [Account.isPnl, of_decide_eq_true htype]
      cases type <;> first | rfl | contradiction
    · exact hnot (htype.symm.trans (hequity a ha))
  have hsum : ∀ db : Db, Db.net db Account.inEquity (· ≤ asOf) =
      Db.net db (fun a => a.type = .equity) (· ≤ asOf) + Db.net db Account.isPnl (· ≤ asOf) := by
    refine fun db => net_add fun a => ⟨rfl, ?_⟩
    rintro ⟨htype, hpnl⟩
    unfold Account.isPnl at hpnl
    rw [of_decide_eq_true htype] at hpnl
    cases hpnl
  refine ⟨?_, ?_, ?_, ?_⟩
  · rw [hassets, hassets', hother .asset (by decide) (by decide) (by decide)]
  · rw [hliabilities, hliabilities', hother .liability (by decide) (by decide) (by decide)]
  · -- what equity takes up is what goes away from the profit and loss accounts
    rw [hequity', hequity'', hsum, hsum, h.net_equity hequity, h.net_pnl]
    ring
  · rw [hearnings, hearnings', h.net_currentYear, hasOf]

end ClosesBooks

/-! ## A reopening -/

section Reopening

variable {strict : Prop} {c close : Commit} {fiscalYear : ℤ}

/-- The entry of a close, as it is later on. -/
theorem ClosesYear.entry_kept (t : ClosesYear strict close) {db : Db}
    (hkept : PostedKept close.after db) {e : JournalEntry} (he : Db.entry db t.entryId = some e) :
    e.date = t.yearEnd ∧
      ∀ accountId, e.net accountId = -linesNetOn (t.lines ++ t.retained) accountId := by
  have hentry := t.created.eq_postedEntry t.prepared
  have hnot : t.entry.status ≠ .draft := by
    rw [hentry]
    exact nofun
  obtain ⟨e', he', -, -, hsame⟩ := hkept.entry t.after_entry hnot
  obtain rfl : e' = e := Option.some.inj (he'.symm.trans he)
  rw [hsame, hentry]
  exact ⟨rfl, fun _ => (neg_sub _ _).symm⟩

/-- The commit reverses one entry only. -/
theorem ReversesEntry.eq_originalId (t : ReversesEntry strict c) {id : Uuid} {e e' : JournalEntry}
    (he : Db.entry c.before id = some e) (hposted : e.status = .posted)
    (he' : Db.entry c.after id = some e') (hreversed : e'.status = .reversed) :
    id = t.p.originalId := by
  by_contra hne
  have hnew : id ≠ t.id := by
    rintro rfl
    rw [t.reversed.fresh] at he
    cases he
  rw [entry_after, t.writes, overwrite_cons, if_neg (Ne.symm hnew), overwrite_cons,
    if_neg (Ne.symm hne), overwrite_nil, he, Option.some.injEq] at he'
  rw [← he', hposted] at hreversed
  cases hreversed

/-- **A reopening takes back the close whose entry it reverses**, whatever has come in between. -/
theorem ReopensYear.takesBack (r : ReopensYear strict c) (hcoh : Coherent c.before)
    (hrev : Reversible c.before) (t : ClosesYear strict close) (hid : t.entryId = r.closingEntryId)
    (hkept : PostedKept close.after c.before) : TakesBack c close where
  entry := by
    have horiginal : r.p.originalId = t.entryId := r.prepared.originalId_eq.trans hid.symm
    refine ⟨t.entryId, t.created.fresh, ?_, ⟨r.o, ?_, r.o_posted hcoh hrev⟩, ?_⟩
    · rw [t.after_entry]
      exact Option.some_ne_none _
    · rw [← horiginal]
      exact r.reversed.original
    · rw [← horiginal]
      exact ⟨_, r.reversesEntry.after_original, rfl⟩
  net := by
    intro accountId p _
    have ho : Db.entry c.before t.entryId = some r.o := by
      rw [hid, ← r.prepared.originalId_eq]
      exact r.reversed.original
    obtain ⟨hdate, hnet⟩ := t.entry_kept hkept ho
    have hreverse := r.reversesEntry.netOn_after hcoh accountId p
    rw [show r.reversesEntry.o = r.o from rfl, hdate, hnet] at hreverse
    have hcredit : ∀ db : Db, creditNet db accountId p = -Db.netOn db accountId p := fun db =>
      (neg_sub _ _).symm
    rw [t.creditNet_after, hcredit c.after, hcredit c.before, hreverse]
    split
    · ring
    · ring

/-- The entry that a close posts is the only new one. -/
theorem ClosesYear.eq_of_new (t : ClosesYear strict close) {id : Uuid}
    (hnone : Db.entry close.before id = none) (hnew : Db.entry close.after id ≠ none) :
    id = t.entryId := by
  by_contra hne
  refine hnew ?_
  rw [entry_after, t.writes_entries, overwrite_cons, if_neg (Ne.symm hne), overwrite_nil]
  exact hnone

/-- What a commit about a year that does not close it does: it reverses an entry, or moves nothing. -/
theorem Transacts.of_reopen (hc : Transacts strict c) (hyear : c.req.year = some fiscalYear)
    (hopens : c.req.closesYear = none) :
    (∃ r : ReopensYear strict c, r.fiscalYear = fiscalYear) ∨ ReopensEmpty fiscalYear c := by
  cases hc
  case reopenYear r =>
    rw [r.req] at hyear
    exact .inl ⟨r, Option.some.inj hyear⟩
  case reopenEmptyYear req sawClosed _ writes =>
    rw [req] at hyear
    obtain rfl := Option.some.inj hyear
    refine .inr ⟨sawClosed, fun accountId side p _ => entries.sum_putAll_of_nil _ _ ?_⟩
    rw [writes]
    rfl
  case closeYear t =>
    rw [t.req] at hopens
    cases hopens
  case account change _ =>
    cases change with
    | create _ _ req => rw [req] at hyear; cases hyear
    | update _ _ req => rcases req with req | req <;> rw [req] at hyear <;> cases hyear
    | delete _ _ _ _ req => rw [req] at hyear; cases hyear
  case periods change _ =>
    cases change with
    | generate _ _ _ _ _ req => rw [req] at hyear; cases hyear
    | close _ _ _ _ req => rw [req] at hyear; cases hyear
    | reopen _ _ req => rw [req] at hyear; cases hyear
  case postDocument t => rw [t.req] at hyear; cases hyear
  case voidDocument t => rw [t.req] at hyear; cases hyear
  case postPayment t => rw [t.req] at hyear; cases hyear
  case voidPayment t => rw [t.req] at hyear; cases hyear
  all_goals simp_all only [Request.year, Request.closesYear, reduceCtorEq]

end Reopening

/-! ## Runs -/

section Runs

variable {policy : Policy Row LockName Query Failure Response Request} {db₀ db : Db} {s : Server}

/-- What a history tells of its present store: what it has posted is there, and the entry of a record is
that of one of its closes. -/
structure Recorded (history : List Commit) (db : Db) : Prop where
  coherent : Coherent db
  reversible : Reversible db
  kept : ∀ c ∈ history, PostedKept c.after db
  record : ∀ {fiscalYear rec id}, Db.closing db fiscalYear = some rec →
    rec.closingEntryId = some id → ∃ close ∈ history, ∃ t : ClosesYear False close,
      t.fiscalYear = fiscalYear ∧ t.entryId = id

/-- **Every history tells this.** -/
theorem Chain.recorded (h₀ : Initial db₀) {history : List Commit}
    (hchain : Chain (protocol False) db₀ history db) : Recorded history db := by
  refine hchain.invariant ⟨h₀.coherent, h₀.reversible, List.forall_mem_nil _, fun hrec => ?_⟩ ?_
  · rw [h₀.closing] at hrec
    cases hrec
  · intro c history _ hc _ ih
    refine ⟨ih.coherent.after hc, ih.reversible.after hc, List.forall_mem_cons.mpr ⟨.refl _,
      fun c' hc' => (ih.kept c' hc').after hc ih.coherent ih.reversible⟩, ?_⟩
    intro fiscalYear rec id hrec hid
    have hbefore : ∀ {rec₀}, Db.closing c.before fiscalYear = some rec₀ →
        rec₀.closingEntryId = some id → ∃ close ∈ c :: history, ∃ t : ClosesYear False close,
          t.fiscalYear = fiscalYear ∧ t.entryId = id := by
      intro rec₀ hrec₀ hid₀
      obtain ⟨close, hclose, ht⟩ := ih.record hrec₀ hid₀
      exact ⟨close, List.mem_cons_of_mem c hclose, ht⟩
    rcases Transacts.closingNext hc fiscalYear with hsame | ⟨rec', hrec', hnext⟩
    · exact hbefore (hsame.symm.trans hrec) hid
    · obtain rfl : rec' = rec := Option.some.inj (hrec'.symm.trans hrec)
      cases hnext with
      | close t ht =>
        rw [t.record] at hid
        exact ⟨c, List.mem_cons_self, t, ht, Option.some.inj hid⟩
      | closeEmpty => cases hid
      | reopen t ht =>
        subst ht
        exact hbefore t.current hid
      | reopenEmpty _ _ rec₀ _ hrec₀ => exact hbefore hrec₀ hid

/-- **Every reopening takes back exactly one earlier close**, in any interleaving, and no later one takes
back the same close; or it has found a year closed without an entry, and moves nothing. -/
theorem takesBack_of_reachable (h₀ : Initial db₀) (h : Reachable code policy db₀ s)
    {h₁ h₂ : List Commit} {c : Commit} (hhistory : s.history = h₂ ++ c :: h₁) {fiscalYear : ℤ}
    (hyear : c.req.year = some fiscalYear) (hopens : c.req.closesYear = none) :
    ReopensEmpty fiscalYear c ∨ ∃ close ∈ h₁, close.req.closesYear = some fiscalYear ∧
      TakesBack c close ∧ (∀ close' ∈ h₁, TakesBack c close' → close' = close) ∧
        ∀ c' ∈ h₂, ¬ TakesBack c' close := by
  have hchain := chain_of_reachable h
  rw [hhistory] at hchain
  obtain ⟨db₁, hchain₁⟩ := hchain.of_append
  obtain ⟨hbefore, hc, hseen, -⟩ := hchain₁.last
  have hrecorded := Chain.recorded h₀ hbefore
  rcases Transacts.of_reopen hc hyear hopens with ⟨r, rfl⟩ | hempty
  · obtain ⟨db', hsaw, rec, hrec, -, hid⟩ := r.sawClosed
    obtain ⟨h₄, h₃, rfl, hpast⟩ := hbefore.split_of_past (hseen _ hsaw)
    obtain ⟨close, hclose, t, ht, hentry⟩ := (Chain.recorded h₀ hpast).record hrec hid
    have hmem : close ∈ h₄ ++ h₃ := List.mem_append_right h₄ hclose
    refine .inr ⟨close, hmem, by rw [t.req, ← ht]; rfl, ?_, ?_, ?_⟩
    · exact r.takesBack hrecorded.coherent hrecorded.reversible t hentry (hrecorded.kept close hmem)
    · rintro close' hmem' ⟨⟨id, hnone, hnew, ⟨e, he, hposted⟩, e', he', hreversed⟩, -⟩
      -- both have created the entry that is reversed
      have hid : id = t.entryId := by
        rw [hentry, ← r.prepared.originalId_eq]
        exact r.reversesEntry.eq_originalId he hposted he' hreversed
      rw [hid, Db.entry_eq_row] at hnone hnew
      have hfresh := t.created.fresh
      have hafter : Db.entry close.after t.entryId ≠ none := by
        rw [t.after_entry]
        exact Option.some_ne_none _
      rw [Db.entry_eq_row] at hfresh hafter
      exact hbefore.eq_of_creates hmem' hmem ⟨hnone, hnew⟩ ⟨hfresh, hafter⟩
    · rintro c' hc' ⟨⟨id, hnone, hnew, ⟨e, he, hposted⟩, -⟩, -⟩
      -- the entry has been reversed by then
      obtain ⟨h₆, h₅, rfl⟩ := List.append_of_mem hc'
      rw [List.append_assoc] at hchain
      obtain ⟨_, hlater⟩ := hchain.of_append
      have hkept := (Chain.recorded h₀ hlater.last.1).kept c
        (List.mem_append_right h₅ List.mem_cons_self)
      have hreversed : Db.entry c.after id = some (markReversed r.entryId r.o) := by
        rw [t.eq_of_new hnone hnew, hentry, ← r.prepared.originalId_eq]
        exact r.reversesEntry.after_original
      obtain ⟨e', he', -, hsame, -⟩ := hkept.entry hreversed nofun
      obtain rfl : e' = e := Option.some.inj (he'.symm.trans he)
      rw [hsame rfl] at hposted
      cases hposted
  · exact .inl hempty

/-- **A close keeps the totals of the balance sheet**, at every day: every close of a run of requests
served one at a time, where retained earnings are an equity account. -/
theorem sameTotals_of_reachable (h₀ : Initial db₀)
    (hperiods : ∀ x ∈ Db.periods db₀, 2000 ≤ x.2.startDate.year)
    (h : Reachable code (oneAtATime fun _ => True) db₀ s) {c : Commit} (hc : c ∈ s.history)
    {fiscalYear : ℤ} (hclose : c.req.closesYear = some fiscalYear) (hdigits : WithinDigits c.before)
    (hdigits' : WithinDigits c.after)
    (hequity : ∀ a ∈ Db.accountOfRole c.before .retainedEarnings, a.2.type = .equity) :
    ∃ settings ∈ Db.settings c.before,
      SameTotals settings.fiscalYearStartMonth fiscalYear c.before c.after := by
  have hserial : s.Serial := h.serial fun r _ => commitsOnce_code r
  obtain ⟨hguar, hbefore, -⟩ := (chain_of_reachable h).of_mem Persists.refl
    (fun _ _ _ => Persists.trans) (fun _ hc => hc.persists) hc
  obtain ⟨hvalid, hcentury⟩ := century_of_past h₀ hperiods h hbefore
  obtain ⟨hvalid', hcentury'⟩ := century_of_past h₀ hperiods h (.inr ⟨c, hc, rfl⟩)
  have hapart : RetainedApart c.before := fun a ha => by
    rw [Account.isPnl, hequity a ha]
    rfl
  obtain ⟨settings, hsettings, hbooks⟩ :=
    hguar.closesBooks (hserial.found c hc) hclose ⟨hvalid, hcentury, hdigits⟩ hapart
  refine ⟨settings, hsettings, hbooks.sameTotals ⟨hvalid, hcentury, hdigits⟩
    ⟨hvalid', hcentury', hdigits'⟩ (fun settings' hsettings' => ?_) hequity⟩
  rw [Option.mem_def.mp hsettings, Option.mem_def, Option.some.injEq] at hsettings'
  rw [hsettings']

/-- **A year that is not closed with an entry has no trace of its closes**: however often it has been
closed and reopened, its movements on every account are those of the other entries. -/
theorem ordinary_of_reachable {startMonth : StartMonth} (h₀ : Initial db₀)
    (hmonth : ∀ settings ∈ Db.settings db₀, settings.fiscalYearStartMonth = startMonth)
    (h : Reachable code policy db₀ s) (hkeeps : ∀ c ∈ s.history, KeepsStartMonth startMonth c)
    (hempty : ∀ c ∈ s.history, EmptyFindsNoEntry c) {t : Db} (ht : Past db₀ s.history t)
    {fiscalYear : ℤ} (hopen : ¬ ClosedWithEntry t fiscalYear) (accountId : Uuid) :
    creditNet t accountId (InYear startMonth fiscalYear) =
      Db.ordinaryOn t accountId (InYear startMonth fiscalYear) := by
  have hmirrored := past_of_reachable (I := fun db => Reversible db ∧ Mirrored db) (fun _ => True) h
    (fun _ _ => trivial) ⟨h₀.reversible, h₀.mirrored⟩
    fun _ hc _ hI _ => ⟨hI.1.after hc, hI.2.after hI.1 hc⟩
  obtain ⟨hcoh, hrev, hyears⟩ := yearsRecorded_of_past h₀ hmonth h hkeeps hempty t ht
  exact creditNet_eq_ordinary hyears hcoh hrev (hmirrored t ht).2 hopen accountId

end Runs

/-- The balance sheets around the close of a year with a sale. -/
theorem sameTotals_of_reachable_sale :
    ∃ c ∈ (Sample.served Sample.db Sample.saleClosed).history, c.req.closesYear = some 2026 ∧
      ∃ settings ∈ Db.settings c.before,
        SameTotals settings.fiscalYearStartMonth 2026 c.before c.after := by
  have hall : ∀ c ∈ (Sample.served Sample.db Sample.saleClosed).history[0]?,
      c.req.closesYear = some 2026 ∧ WithinDigits c.before ∧ WithinDigits c.after ∧
        ∀ a ∈ Db.accountOfRole c.before .retainedEarnings, a.2.type = .equity := by
    decide +kernel
  have hlength : (Sample.served Sample.db Sample.saleClosed).history.length = 2 := by decide +kernel
  obtain ⟨c, sale, hhistory⟩ := List.length_eq_two.mp hlength
  rw [hhistory] at hall ⊢
  obtain ⟨hclose, hdigits, hdigits', hequity⟩ := hall c rfl
  refine ⟨c, List.mem_cons_self, hclose, sameTotals_of_reachable Sample.initial (by decide +kernel)
    Sample.saleClosed_reachable ?_ hclose hdigits hdigits' hequity⟩
  rw [hhistory]
  exact List.mem_cons_self

namespace Sample

/-- A sale, the close of its year and the reopening. -/
def reopened : List (Event Request) :=
  request 0 (.createAndPostEntry cashSale 9 100 1) 16 ++
    request 1 (.closeYear thisYear 9 101 2) 24 ++
    request 2 (.reopenYear 2026 9 102 3) 20

end Sample

/-- The reopening takes back the close. -/
theorem takesBack_of_reachable_sale : ∃ reopen close sale : Commit,
    (Sample.server Sample.reopened).history = [reopen, close, sale] ∧
      close.req.closesYear = some 2026 ∧ TakesBack reopen close := by
  have hlength : (Sample.server Sample.reopened).history.length = 3 := by decide +kernel
  obtain ⟨reopen, close, sale, hhistory⟩ := List.length_eq_three.mp hlength
  have hreopen : ∀ c ∈ (Sample.server Sample.reopened).history[0]?, c.req.year = some 2026 ∧
      c.req.closesYear = none ∧ ∀ q ∈ c.seen, ∀ rec ∈ Db.closing q.2 2026,
        rec.closingEntryId ≠ none := by
    decide +kernel
  have hclose : ∀ c ∈ (Sample.server Sample.reopened).history[2]?, c.req.closesYear = none := by
    decide +kernel
  rw [hhistory] at hreopen hclose
  obtain ⟨hyear, hopens, hwith⟩ := hreopen reopen rfl
  have hreachable : Reachable code (anytime fun _ => True) Sample.db (Sample.server Sample.reopened) :=
    Sample.reachable (by decide +kernel)
  have hsplit : (Sample.server Sample.reopened).history = [] ++ reopen :: [close, sale] := hhistory
  rcases takesBack_of_reachable Sample.initial hreachable hsplit hyear hopens with
    ⟨hempty, -⟩ | ⟨close', hmem, hcloses, htakes, -, -⟩
  · obtain ⟨db, hsaw, rec, hrec, -, hnone⟩ := hempty
    exact absurd hnone (hwith _ hsaw rec hrec)
  · -- the sale closes no year
    rcases List.mem_cons.mp hmem with rfl | hmem
    · exact ⟨reopen, close', sale, hhistory, hcloses, htakes⟩
    · obtain rfl := List.mem_singleton.mp hmem
      cases (hclose close' rfl).symm.trans hcloses

/-- After the reopening the movements of the year are those of the sale. -/
theorem ordinary_of_reachable_sale : (Sample.server Sample.reopened).history.length = 3 ∧
    ∀ accountId, creditNet (Sample.server Sample.reopened).db accountId
      (InYear ⟨1, by decide, by decide⟩ 2026) =
        Db.ordinaryOn (Sample.server Sample.reopened).db accountId
          (InYear ⟨1, by decide, by decide⟩ 2026) := by
  have hmonth : ∀ settings ∈ Db.settings Sample.db,
      settings.fiscalYearStartMonth = ⟨1, by decide, by decide⟩ := by
    decide
  have hreachable : Reachable code (anytime fun _ => True) Sample.db (Sample.server Sample.reopened) :=
    Sample.reachable (by decide +kernel)
  exact ⟨by decide +kernel, ordinary_of_reachable Sample.initial hmonth hreachable
    (by decide +kernel) (by decide +kernel) (chain_of_reachable hreachable).past_self
    (by decide +kernel)⟩

end AccountingApi
