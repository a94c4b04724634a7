import AccountingApi.Books
import AccountingApi.Century
import AccountingApi.Reporting.GeneralLedger
import AccountingApi.Sorting.Stable

/-!
# The general ledger adds up

The running balances of a report are the opening balance plus the lines so far, so that the last one is
the closing balance of the aggregate. Where the lines of the account that tie are equal, a report that is
cut off has the first lines of the whole one, and the reports of two ranges, one right after the other,
are that of both; where they are not, two reports of one range can differ.

## Main definitions

* `signed`: the net on the normal side, exact
* `GeneralLedger.AddsUp`: what holds of the report of a range
* `GeneralLedger.Continues`: what holds of the reports of two ranges
* `Db.TiesEqual`: lines of the account that tie are equal

## Main results

* `GeneralLedger.balances_of_le`, `GeneralLedger.balance_of_next`: what holds of every report
* `generalLedger_addsUp_iff`
-/

namespace AccountingApi

open ReadCommitted Balances

/-! ## Statements -/

/-- What one side exceeds the other by, on the normal side. -/
def signed (normalBalance : NormalBalance) (debit credit : ℤ) : ℤ :=
  match normalBalance with
  | .debit => debit - credit
  | .credit => credit - debit

namespace GeneralLedger

/-- The balances of the report of a range: every running balance is the opening balance plus the lines
so far, the last one of a whole report is the closing balance, and this is the account's balance at the
end of the range. -/
structure Balanced (db : Db) (accountId : Uuid) (t : Instant) (ledger : GeneralLedger) : Prop where
  running : ∀ k (hk : k < ledger.lines.length), ledger.lines[k].runningBalance =
    ledger.openingBalance + ((ledger.lines.take (k + 1)).map fun l =>
      signed ledger.account.normalBalance l.debit l.credit).sum
  last : ledger.truncated = false →
    (ledger.lines.getLast?.map (·.runningBalance)).getD ledger.openingBalance =
      ledger.closingBalance
  closing : ∃ balance, accountBalance db accountId (truncateToUtcDay t) = .ok balance ∧
    ledger.closingBalance = balance.balance

/-- The report of a range adds up: its balances are right, and its lines are the first ones of every
whole report, which some limit leaves room for. -/
structure AddsUp (db : Db) (accountId : Uuid) (f t : Instant) (maxLines : ℕ) (ledger : GeneralLedger) :
    Prop extends Balanced db accountId t ledger where
  first : ∀ {scan n full}, generate db accountId f t scan n = .ok full → full.truncated = false →
    ledger.lines = full.lines.take maxLines
  whole : ∀ scan, ∃ n full, generate db accountId f t scan n = .ok full ∧ full.truncated = false

/-- The reports of two ranges, one right after the other, and that of both: the closing balance of the
first is the opening balance of the second, and the lines of the two are those of both. -/
structure Continues (ledger ledger' both : GeneralLedger) : Prop where
  balance : ledger.closingBalance = ledger'.openingBalance
  lines : ledger.truncated = false → ledger'.truncated = false → both.truncated = false →
    both.lines = ledger.lines ++ ledger'.lines

/-- All reports of an account add up and continue each other, in whatever order each of the queries
comes across the lines. -/
structure AllAddUp (db : Db) (accountId : Uuid) : Prop where
  addsUp : ∀ {f t scan maxLines ledger}, f ≤ t →
    generate db accountId f t scan maxLines = .ok ledger → AddsUp db accountId f t maxLines ledger
  continues : ∀ {f t f' t' scan scan' scan'' n n' m ledger ledger' both}, f ≤ t → f' ≤ t' →
    f'.day = t.day.next → generate db accountId f t scan n = .ok ledger →
    generate db accountId f' t' scan' n' = .ok ledger' →
    generate db accountId f t' scan'' m = .ok both → Continues ledger ledger' both

end GeneralLedger

/-- Lines of the account that tie in the order of the report, as those of one entry do, are equal. -/
def Db.TiesEqual (db : Db) (accountId : Uuid) : Prop :=
  ∀ r ∈ Db.storedRows db accountId fun _ => True, ∀ r' ∈ Db.storedRows db accountId fun _ => True,
    r.date = r'.date → r.entryNumber = r'.entryNumber → r = r'

instance (db : Db) (accountId : Uuid) : Decidable (Db.TiesEqual db accountId) :=
  inferInstanceAs (Decidable (∀ r ∈ _, ∀ r' ∈ _, _ → _ → _))

/-! ## The order of the lines -/

namespace LineRow

theorem date_le_of_le {r r' : LineRow} (h : r.Le r') : r.date ≤ r'.date := by
  unfold Le at h
  split at h
  · rename_i hdate
    rw [hdate, UtcDay.le_iff]
  · exact h

instance : Std.Total Le where
  total r r' := by
    unfold Le
    by_cases hdate : r.date = r'.date
    · rw [if_pos hdate, if_pos hdate.symm]
      cases r.entryNumber <;> cases r'.entryNumber <;> simp [numberLe, le_total]
    · rw [if_neg hdate, if_neg (Ne.symm hdate), UtcDay.le_iff, UtcDay.le_iff]
      exact le_total _ _

instance : IsTrans LineRow Le where
  trans r r' r'' h h' := by
    have hle := date_le_of_le h
    have hle' := date_le_of_le h'
    unfold Le at h h' ⊢
    rw [UtcDay.le_iff] at hle hle'
    by_cases hdate : r.date = r''.date
    · -- the one in between is of the same day
      have hsame : r.date = r'.date := UtcDay.eq_of_ord (by rw [← hdate] at hle'; omega)
      rw [if_pos hsame] at h
      rw [if_pos (hsame.symm.trans hdate)] at h'
      rw [if_pos hdate]
      revert h h'
      cases r.entryNumber <;> cases r'.entryNumber <;> cases r''.entryNumber <;>
        simp [numberLe]
      omega
    · rw [if_neg hdate, UtcDay.le_iff]
      omega

theorem numberLe_antisymm {n n' : Option ℕ} (h : numberLe n n' = true) (h' : numberLe n' n = true) :
    n = n' := by
  cases n <;> cases n' <;> simp_all [numberLe]
  omega

/-- Rows tie if they have the date and the number in common. -/
theorem tie_iff {r r' : LineRow} :
    AntisymmRel Le r r' ↔ r.date = r'.date ∧ r.entryNumber = r'.entryNumber := by
  constructor
  · rintro ⟨h, h'⟩
    have hdate : r.date = r'.date := UtcDay.eq_of_ord
      (le_antisymm (UtcDay.le_iff.mp (date_le_of_le h)) (UtcDay.le_iff.mp (date_le_of_le h')))
    unfold Le at h h'
    rw [if_pos hdate] at h
    rw [if_pos hdate.symm] at h'
    exact ⟨hdate, numberLe_antisymm h h'⟩
  · rintro ⟨hdate, hnumber⟩
    have hrefl : ∀ n, numberLe n n = true := fun n => by cases n <;> simp [numberLe]
    unfold AntisymmRel Le
    rw [if_pos hdate, if_pos hdate.symm, hnumber]
    exact ⟨hrefl _, hrefl _⟩

end LineRow

/-! ## The lines of an account -/

section Rows

variable {db : Db} {accountId : Uuid} {p q : UtcDay → Prop} [DecidablePred p] [DecidablePred q]
  {scan scan' : ScanOrder LineRow}

/-- What the row under a key adds to the lines of an account. -/
def rowsAt (db : Db) (accountId : Uuid) (p : UtcDay → Prop) [DecidablePred p] : Key → List LineRow
  | .entry id => (Db.entry db id).elim [] fun e =>
    if e.Counts ∧ p e.date then e.lineRows accountId else []
  | _ => []

theorem storedRows_eq : Db.storedRows db accountId p = db.keys.flatMap (rowsAt db accountId p) := by
  unfold Db.storedRows Store.collect
  -- key by key; a key that is not one of an entry has no lines
  induction db.keys with
  | nil => rfl
  | cons k keys ih =>
    rw [List.flatMap_cons, ← ih]
    cases k with
    | entry id =>
      rw [rowsAt, Db.entry_eq_row]
      cases hrow : db.row (.entry id) with
      | none => simp [hrow]
      | some e =>
        by_cases hcounts : e.Counts ∧ p e.date <;> simp [hrow, hcounts]
    | _ =>
      refine (congrArg List.flatten (List.filterMap_cons_none ?_)).trans rfl
      simp

theorem mem_storedRows {r : LineRow} : r ∈ Db.storedRows db accountId p ↔
    ∃ id e, Db.entry db id = some e ∧ e.Counts ∧ p e.date ∧ r ∈ e.lineRows accountId := by
  rw [storedRows_eq, List.mem_flatMap]
  constructor
  · rintro ⟨k, -, hr⟩
    cases k with
    | entry id =>
      rw [rowsAt] at hr
      cases he : Db.entry db id with
      | none =>
        rw [he] at hr
        cases hr
      | some e =>
        rw [he, Option.elim_some] at hr
        split at hr
        · rename_i hcounts
          exact ⟨id, e, he, hcounts.1, hcounts.2, hr⟩
        · cases hr
    | _ => cases hr
  · rintro ⟨id, e, he, hcounts, hp, hr⟩
    refine ⟨.entry id, db.mem_keys _ ?_, ?_⟩
    · rw [← Db.entry_eq_row, he]
      exact Option.some_ne_none e
    · rw [rowsAt, he, Option.elim_some, if_pos ⟨hcounts, hp⟩]
      exact hr

theorem date_of_mem_lineRows {e : JournalEntry} {r : LineRow} (h : r ∈ e.lineRows accountId) :
    r.date = e.date := by
  obtain ⟨l, -, rfl⟩ := List.mem_map.mp h
  rfl

/-- The lines of some dates, out of those of more. -/
theorem filter_storedRows : (Db.storedRows db accountId p).filter (fun r => q r.date) =
    Db.storedRows db accountId fun d => p d ∧ q d := by
  rw [storedRows_eq, storedRows_eq, List.filter_flatMap]
  refine List.flatMap_congr fun k _ => ?_
  cases k with
  | entry id =>
    rw [rowsAt, rowsAt]
    cases Db.entry db id with
    | none => rfl
    | some e =>
      rw [Option.elim_some, Option.elim_some]
      by_cases hcounts : e.Counts ∧ p e.date
      · rw [if_pos hcounts]
        by_cases hq : q e.date
        · rw [if_pos ⟨hcounts.1, hcounts.2, hq⟩]
          exact List.filter_eq_self.mpr fun r hr => by simpa [date_of_mem_lineRows hr] using hq
        · rw [if_neg fun h => hq h.2.2]
          exact List.filter_eq_nil_iff.mpr fun r hr => by simpa [date_of_mem_lineRows hr] using hq
      · rw [if_neg hcounts, if_neg fun h => hcounts ⟨h.1, h.2.1⟩]
        rfl
  | _ => rfl

theorem Agree.storedRows (h : Agree db p q) :
    Db.storedRows db accountId p = Db.storedRows db accountId q := by
  rw [storedRows_eq, storedRows_eq]
  refine List.flatMap_congr fun k _ => ?_
  cases k with
  | entry id =>
    rw [rowsAt, rowsAt]
    cases he : Db.entry db id with
    | none => rfl
    | some e =>
      rw [Option.elim_some, Option.elim_some]
      by_cases hcounts : e.Counts
      · simp only [hcounts, true_and, h he hcounts]
      · simp only [hcounts, false_and]
  | _ => rfl

variable (scan) in
/-- The report has the stored rows, in some order. -/
theorem lineRows_perm : (Db.lineRows db accountId p scan).Perm (Db.storedRows db accountId p) :=
  (List.perm_insertionSort _ _).trans (scan.perm _)

/-- Where rows that tie are equal, rows in the order of the report come in one way only. -/
theorem Db.TiesEqual.eq_of_sorted (h : Db.TiesEqual db accountId) {l l' : List LineRow}
    (hl : l.Perm (Db.storedRows db accountId p)) (hl' : l'.Perm (Db.storedRows db accountId p))
    (hsorted : l.Pairwise LineRow.Le) (hsorted' : l'.Pairwise LineRow.Le) : l = l' := by
  have hstored : ∀ r ∈ Db.storedRows db accountId p,
      r ∈ Db.storedRows db accountId fun _ => True := by
    intro r hr
    obtain ⟨id, e, he, hcounts, -, hr⟩ := mem_storedRows.mp hr
    exact mem_storedRows.mpr ⟨id, e, he, hcounts, trivial, hr⟩
  refine Sorting.sorted_unique_iff.mpr (fun r hr r' hr' htie => ?_) l l' hl hl' hsorted hsorted'
  obtain ⟨hdate, hnumber⟩ := LineRow.tie_iff.mp htie
  exact h r (hstored r hr) r' (hstored r' hr') hdate hnumber

theorem Db.TiesEqual.lineRows_eq (h : Db.TiesEqual db accountId) (scan scan' : ScanOrder LineRow) :
    Db.lineRows db accountId p scan = Db.lineRows db accountId p scan' :=
  h.eq_of_sorted (lineRows_perm scan) (lineRows_perm scan') (List.pairwise_insertionSort _ _)
    (List.pairwise_insertionSort _ _)

/-- **The lines of an account add up to its sums.** -/
theorem sum_lineRows {f : LineRow → ℤ} {side : JournalLine → ℤ}
    (hf : ∀ (e : JournalEntry) (l : JournalLine),
      f ⟨e.date, e.entryNumber, e.entryRef, l.description, l.debit, l.credit⟩ = side l) :
    ((Db.lineRows db accountId p scan).map f).sum = Db.sideOn db accountId side p := by
  -- the order of the lines does not matter to their sum
  rw [((lineRows_perm scan).map f).sum_eq, storedRows_eq]
  unfold Db.sideOn Table.sum Store.sum
  induction db.keys with
  | nil => rfl
  | cons k keys ih =>
    rw [List.flatMap_cons, List.map_append, List.sum_append, List.map_cons, List.sum_cons, ih]
    refine congrArg (· + _) ?_
    cases k with
    | entry id =>
      rw [rowsAt, Db.entry_eq_row]
      cases hrow : db.row (.entry id) with
      | none => rw [Store.term_of_none hrow, Option.elim_none, List.map_nil, List.sum_nil]
      | some e =>
        rw [Store.term_of_row hrow, Option.elim_some]
        change _ = if e.Counts ∧ p e.date then e.sideOn accountId side else 0
        by_cases hcounts : e.Counts ∧ p e.date
        · rw [if_pos hcounts, if_pos hcounts, JournalEntry.lineRows, List.map_map]
          exact congrArg List.sum (List.map_congr_left fun l _ => hf e l)
        · rw [if_neg hcounts, if_neg hcounts, List.map_nil, List.sum_nil]
    | _ =>
      unfold Store.term
      generalize db.row _ = row
      cases row <;> rfl

variable (db accountId p scan) in
theorem sums_lineRows : ((Db.lineRows db accountId p scan).map (·.debit)).sum =
      Db.sideOn db accountId (·.debit) p ∧
    ((Db.lineRows db accountId p scan).map (·.credit)).sum = Db.sideOn db accountId (·.credit) p :=
  ⟨sum_lineRows fun _ _ => rfl, sum_lineRows fun _ _ => rfl⟩

end Rows

/-! ## Running balances -/

namespace GeneralLedger

section Running

variable {normalBalance : NormalBalance} {debit credit : ℤ} {rows : List LineRow}

theorem add_signedNet (normalBalance : NormalBalance) {d c : ℤ} (hdebit : 0 ≤ debit)
    (hcredit : 0 ≤ credit) (hd : 0 ≤ d) (hc : 0 ≤ c) (hdlt : debit + d < 10 ^ 20)
    (hclt : credit + c < 10 ^ 20) :
    Money.add (signed normalBalance debit credit) (signedNet normalBalance d c) =
      signed normalBalance (debit + d) (credit + c) := by
  have hsub : signedNet normalBalance d c = signed normalBalance d c := by
    cases normalBalance <;> exact Money.subtract_eq (by unfold Money.Storable; omega)
  rw [hsub]
  have hsum : signed normalBalance debit credit + signed normalBalance d c =
      signed normalBalance (debit + d) (credit + c) := by
    cases normalBalance <;> simp only [signed] <;> ring
  rw [← hsum]
  refine Money.add_eq ?_
  rw [hsum, Money.Storable]
  cases normalBalance <;> simp only [signed] <;> omega

/-- The balance after some rows. -/
def after (normalBalance : NormalBalance) (running : ℤ) (rows : List LineRow) : ℤ :=
  rows.foldl (fun running r => Money.add running (signedNet normalBalance r.debit r.credit)) running

/-- **The balance after some rows is the one before them plus the rows**, where the sums of both sides
have no more digits than the arithmetic. -/
theorem after_signed (hdebit : 0 ≤ debit) (hcredit : 0 ≤ credit)
    (hrows : ∀ r ∈ rows, 0 ≤ r.debit ∧ 0 ≤ r.credit)
    (hdlt : debit + (rows.map (·.debit)).sum < 10 ^ 20)
    (hclt : credit + (rows.map (·.credit)).sum < 10 ^ 20) :
    after normalBalance (signed normalBalance debit credit) rows =
      signed normalBalance debit credit +
        (rows.map fun r => signed normalBalance r.debit r.credit).sum := by
  -- the induction is on the rows, over the sums of both sides so far
  induction rows generalizing debit credit with
  | nil => exact (add_zero _).symm
  | cons r rows ih =>
    obtain ⟨⟨hd, hc⟩, hrest⟩ := List.forall_mem_cons.mp hrows
    have hdrest : 0 ≤ (rows.map (·.debit)).sum :=
      List.sum_nonneg (List.forall_mem_map.mpr fun r hr => (hrest r hr).1)
    have hcrest : 0 ≤ (rows.map (·.credit)).sum :=
      List.sum_nonneg (List.forall_mem_map.mpr fun r hr => (hrest r hr).2)
    rw [List.map_cons, List.sum_cons] at hdlt hclt
    have hnext := add_signedNet normalBalance hdebit hcredit hd hc (by omega) (by omega)
    rw [after, List.foldl_cons, hnext]
    refine (ih (by omega) (by omega) hrest (by omega) (by omega)).trans ?_
    rw [List.map_cons, List.sum_cons, ← add_assoc]
    refine congrArg (· + _) ?_
    cases normalBalance <;> simp only [signed] <;> ring

/-! What a list of lines with running balances depends on. -/

/-- The sides of the lines are those of the rows. -/
theorem map_withRunning {β : Type} (g : ℤ → ℤ → β) (running : ℤ) :
    ((withRunning normalBalance running rows).map fun l => g l.debit l.credit) =
      rows.map fun r => g r.debit r.credit := by
  induction rows generalizing running with
  | nil => rfl
  | cons r rows ih => simp only [withRunning, List.map_cons, ih]

theorem withRunning_take (running : ℤ) (n : ℕ) :
    withRunning normalBalance running (rows.take n) =
      (withRunning normalBalance running rows).take n := by
  induction rows generalizing running n with
  | nil => simp [withRunning]
  | cons r rows ih =>
    cases n with
    | zero => rfl
    | succ n => simp only [List.take_succ_cons, withRunning, ih]

/-- A running balance is the balance after the rows so far. -/
theorem getElem_withRunning (running : ℤ) (k : ℕ)
    (hk : k < (withRunning normalBalance running rows).length) :
    (withRunning normalBalance running rows)[k].runningBalance =
      after normalBalance running (rows.take (k + 1)) := by
  induction rows generalizing running k with
  | nil => cases hk
  | cons r rows ih =>
    cases k with
    | zero => rfl
    | succ k => exact ih _ k (Nat.lt_of_succ_lt_succ hk)

theorem withRunning_append (running : ℤ) (rows' : List LineRow) :
    withRunning normalBalance running (rows ++ rows') = withRunning normalBalance running rows ++
      withRunning normalBalance (after normalBalance running rows) rows' := by
  induction rows generalizing running with
  | nil => rfl
  | cons r rows ih => simp only [List.cons_append, withRunning, ih, after, List.foldl_cons]

/-- The last running balance is the balance after the rows. -/
theorem getLast_withRunning (running : ℤ) :
    ((withRunning normalBalance running rows).getLast?.map (·.runningBalance)).getD running =
      after normalBalance running rows := by
  rcases List.eq_nil_or_concat rows with rfl | ⟨rows, r, rfl⟩
  · rfl
  · rw [List.concat_eq_append, withRunning_append]
    simp [withRunning, after]

end Running

/-! ## The reports of ranges -/

section Ranges

variable {db : Db} (h : Ledger db) {accountId : Uuid} {account : Account}
  (haccount : Db.liveAccount db accountId = some account)
include h

/-- The balance of an account over some dates. -/
theorem signedNet_eq (accountId : Uuid) (normalBalance : NormalBalance) (p : UtcDay → Prop)
    [DecidablePred p] :
    signedNet normalBalance (Db.sideOn db accountId (·.debit) p)
        (Db.sideOn db accountId (·.credit) p) =
      signed normalBalance (Db.sideOn db accountId (·.debit) p)
        (Db.sideOn db accountId (·.credit) p) := by
  obtain ⟨⟨hd₀, hd⟩, hc₀, hc⟩ := h.sideOn_lt (p := p) accountId
  cases normalBalance <;> exact Money.subtract_eq (by unfold Money.Storable; omega)

/-- The lines of an account are not negative. -/
theorem lineRows_nonneg (accountId : Uuid) (p : UtcDay → Prop) [DecidablePred p]
    (scan : ScanOrder LineRow) :
    ∀ r ∈ Db.lineRows db accountId p scan, 0 ≤ r.debit ∧ 0 ≤ r.credit := by
  intro r hr
  obtain ⟨id, e, he, hcounts, -, hr⟩ := mem_storedRows.mp ((lineRows_perm scan).mem_iff.mp hr)
  obtain ⟨l, hl, rfl⟩ := List.mem_map.mp hr
  have hvalid := (h.valid he hcounts l (List.mem_of_mem_filter hl)).1
  exact ⟨hvalid.1, hvalid.2.1⟩

/-- The account's balance over some dates, on its normal side. -/
def balanceOn (db : Db) (accountId : Uuid) (normalBalance : NormalBalance) (p : UtcDay → Prop)
    [DecidablePred p] : ℤ :=
  signed normalBalance (Db.sideOn db accountId (·.debit) p) (Db.sideOn db accountId (·.credit) p)

include haccount in
/-- The balance of an account on a day, whatever the time of day is. -/
theorem accountBalance_eq {p : UtcDay → Prop} [DecidablePred p] {asOf : UtcDay}
    (hagree : Agree db (· ≤ asOf) p) : accountBalance db accountId asOf =
      .ok ⟨accountId, Db.sideOn db accountId (·.debit) p, Db.sideOn db accountId (·.credit) p,
        balanceOn db accountId account.normalBalance p⟩ := by
  rw [accountBalance, haccount]
  simp only [hagree.sideOn]
  rw [signedNet_eq h]
  rfl

/-- A report without the limits of the arithmetic. -/
def report (db : Db) (accountId : Uuid) (account : Account) (f t : Instant) (scan : ScanOrder LineRow)
    (maxLines : ℕ) : GeneralLedger where
  account := ⟨accountId, account.code, account.name, account.normalBalance⟩
  fromDay := f.day
  toDay := t.day
  openingBalance := balanceOn db accountId account.normalBalance fun d => ¬ f.day ≤ d
  lines := withRunning account.normalBalance
    (balanceOn db accountId account.normalBalance fun d => ¬ f.day ≤ d)
    ((Db.lineRows db accountId (Between f t) scan).take maxLines)
  truncated := maxLines < (Db.lineRows db accountId (Between f t) scan).length
  closingBalance := balanceOn db accountId account.normalBalance (· ≤ t.day)

include haccount in
/-- **The report of a range.** -/
theorem generate_eq (f t : Instant) (scan : ScanOrder LineRow) (maxLines : ℕ) :
    generate db accountId f t scan maxLines =
      .ok (report db accountId account f t scan maxLines) := by
  have hclosing : Agree db (· ≤ truncateToUtcDay (.midnight (truncateToUtcDay t))) (· ≤ t.day) :=
    fun _ _ he hcounts => (truncateToUtcDay_compare (h.century he hcounts) _).1.trans
      (truncateToUtcDay_compare (h.century he hcounts) t).1
  have hrows : Db.lineRows db accountId
      (fun d => truncateToUtcDay f ≤ d ∧ d ≤ truncateToUtcDay t) scan =
      Db.lineRows db accountId (Between f t) scan :=
    congrArg (fun rows => (scan.order rows).insertionSort LineRow.Le)
      (agree_between h.century f t).storedRows
  rw [generate, haccount, report]
  simp only [accountBalance_eq h haccount (h.agree_before f), accountBalance_eq h haccount hclosing,
    hrows]
  generalize Db.lineRows db accountId (Between f t) scan = rows
  -- a cut-off list is one line longer than the limit
  have htruncated : decide ((rows.take (maxLines + 1)).length > maxLines) =
      decide (maxLines < rows.length) := by
    rw [List.length_take]
    grind
  have hincluded : (if decide (maxLines < rows.length) = true then
      (rows.take (maxLines + 1)).take maxLines else rows.take (maxLines + 1)) =
        rows.take maxLines := by
    split
    · rw [List.take_take, Nat.min_eq_left (Nat.le_succ _)]
    · rename_i hnot
      have hle : rows.length ≤ maxLines := by simpa using hnot
      rw [List.take_of_length_le hle, List.take_of_length_le (hle.trans (Nat.le_succ _))]
  simp only [htruncated, hincluded]
  rfl

omit h in
/-- The balance up to the end of a range: the balance before it, and the lines in it. -/
theorem balanceOn_add {f t : Instant} (hle : f ≤ t) (accountId : Uuid)
    (normalBalance : NormalBalance) (scan : ScanOrder LineRow) :
    balanceOn db accountId normalBalance (· ≤ t.day) =
      balanceOn db accountId normalBalance (fun d => ¬ f.day ≤ d) +
        ((Db.lineRows db accountId (Between f t) scan).map fun r =>
          signed normalBalance r.debit r.credit).sum := by
  obtain ⟨hdebit, hcredit⟩ := sums_lineRows db accountId (Between f t) scan
  have hsum : ∀ rows : List LineRow, (rows.map fun r => signed normalBalance r.debit r.credit).sum =
      signed normalBalance (rows.map (·.debit)).sum (rows.map (·.credit)).sum := by
    intro rows
    induction rows with
    | nil => cases normalBalance <;> rfl
    | cons r rows ih =>
      simp only [List.map_cons, List.sum_cons, ih]
      cases normalBalance <;> simp only [signed] <;> ring
  have hapart := apart_before db hle
  rw [hsum, hdebit, hcredit, balanceOn, balanceOn, hapart.sideOn, hapart.sideOn]
  cases normalBalance <;> simp only [signed] <;> ring

/-- The balance after some of the lines of a range. -/
theorem after_opening {f t : Instant} (hle : f ≤ t) (normalBalance : NormalBalance)
    {scan : ScanOrder LineRow} {rows : List LineRow}
    (hrows : rows.Sublist (Db.lineRows db accountId (Between f t) scan)) :
    after normalBalance (balanceOn db accountId normalBalance fun d => ¬ f.day ≤ d) rows =
      balanceOn db accountId normalBalance (fun d => ¬ f.day ≤ d) +
        (rows.map fun r => signed normalBalance r.debit r.credit).sum := by
  have hnonneg := lineRows_nonneg h accountId (Between f t) scan
  obtain ⟨hdebit, hcredit⟩ := sums_lineRows db accountId (Between f t) scan
  obtain ⟨⟨hd₀, -⟩, hc₀, -⟩ := h.sideOn_lt (p := fun d => ¬ f.day ≤ d) accountId
  obtain ⟨⟨-, hd⟩, -, hc⟩ := h.sideOn_lt (p := (· ≤ t.day)) accountId
  rw [(apart_before db hle).sideOn, ← hdebit] at hd
  rw [(apart_before db hle).sideOn, ← hcredit] at hc
  -- the sums up to the end of the range bound those of its first lines
  have hdle := List.Sublist.sum_le_sum (hrows.map (·.debit))
    (List.forall_mem_map.mpr fun r hr => (hnonneg r hr).1)
  have hcle := List.Sublist.sum_le_sum (hrows.map (·.credit))
    (List.forall_mem_map.mpr fun r hr => (hnonneg r hr).2)
  exact after_signed hd₀ hc₀ (fun r hr => hnonneg r (hrows.subset hr))
    ((add_le_add_right hdle _).trans_lt hd) ((add_le_add_right hcle _).trans_lt hc)

/-- The balance after all lines of a range is the one up to its end. -/
theorem after_lineRows {f t : Instant} (hle : f ≤ t) (accountId : Uuid)
    (normalBalance : NormalBalance) (scan : ScanOrder LineRow) :
    after normalBalance (balanceOn db accountId normalBalance fun d => ¬ f.day ≤ d)
        (Db.lineRows db accountId (Between f t) scan) =
      balanceOn db accountId normalBalance (· ≤ t.day) :=
  (after_opening h hle normalBalance (.refl _)).trans
    (balanceOn_add hle accountId normalBalance scan).symm

omit h in
/-- The rows of a whole report. -/
theorem take_of_whole {f t : Instant} {scan : ScanOrder LineRow} {n : ℕ}
    (hfull : (report db accountId account f t scan n).truncated = false) :
    (Db.lineRows db accountId (Between f t) scan).take n =
      Db.lineRows db accountId (Between f t) scan :=
  List.take_of_length_le (not_lt.mp (of_decide_eq_false hfull))

omit h in
/-- A limit that leaves room for all rows. -/
theorem whole_length (f t : Instant) (scan : ScanOrder LineRow) :
    (report db accountId account f t scan
      (Db.storedRows db accountId (Between f t)).length).truncated = false :=
  decide_eq_false (not_lt.mpr (lineRows_perm scan).length_eq.le)

include haccount in
/-- **The balances of a report are right**, in whatever order its query comes across the lines. -/
theorem balances_of_le {f t : Instant} (hle : f ≤ t) (scan : ScanOrder LineRow) (maxLines : ℕ) :
    Balanced db accountId t (report db accountId account f t scan maxLines) := by
  refine ⟨fun k hk => ?_, fun hfull => ?_, ?_⟩
  · have hsides : ((report db accountId account f t scan maxLines).lines.map fun l =>
        signed account.normalBalance l.debit l.credit) =
          ((Db.lineRows db accountId (Between f t) scan).take maxLines).map fun r =>
            signed account.normalBalance r.debit r.credit :=
      map_withRunning (signed account.normalBalance) _
    change _ = _ + (((report db accountId account f t scan maxLines).lines.take (k + 1)).map fun l =>
      signed account.normalBalance l.debit l.credit).sum
    rw [List.map_take, hsides, ← List.map_take]
    have hrows : (((Db.lineRows db accountId (Between f t) scan).take maxLines).take (k + 1)).Sublist
        (Db.lineRows db accountId (Between f t) scan) :=
      (List.take_sublist _ _).trans (List.take_sublist _ _)
    exact (getElem_withRunning _ k hk).trans (after_opening h hle account.normalBalance hrows)
  · refine getLast_withRunning _ |>.trans ?_
    rw [take_of_whole hfull]
    exact after_lineRows h hle accountId account.normalBalance scan
  · exact ⟨_, accountBalance_eq h haccount (h.agree_asOf t), rfl⟩

omit h in
/-- **The closing balance of a report is the opening balance of the next**, in whatever order their
queries come across the lines. -/
theorem balance_of_next {f t f' t' : Instant} (hnext : f'.day = t.day.next) (account : Account)
    (scan scan' : ScanOrder LineRow) (n n' : ℕ) :
    (report db accountId account f t scan n).closingBalance =
      (report db accountId account f' t' scan' n').openingBalance := by
  change balanceOn db accountId account.normalBalance (· ≤ t.day) =
    balanceOn db accountId account.normalBalance fun d => ¬ f'.day ≤ d
  unfold balanceOn
  rw [(agree_next db hnext).sideOn, (agree_next db hnext).sideOn]

/-! ### Lines that tie -/

section Ties

variable (hties : Db.TiesEqual db accountId)
include hties

omit h in
/-- The lines of two ranges, one right after the other. -/
theorem lineRows_append {f t f' t' : Instant} (hle : f ≤ t) (hle' : f' ≤ t')
    (hnext : f'.day = t.day.next) (scan scan' scan'' : ScanOrder LineRow) :
    Db.lineRows db accountId (Between f t') scan'' =
      Db.lineRows db accountId (Between f t) scan ++
        Db.lineRows db accountId (Between f' t') scan' := by
  have hday := Instant.day_le hle
  have hday' := Instant.day_le hle'
  have hfirst : Agree db (fun d => Between f t' d ∧ d ≤ t.day) (Between f t) := by
    intro id e _ _
    simp only [Between, hnext, UtcDay.le_iff_epochDay, UtcDay.epochDay_next] at hday hday' ⊢
    omega
  have hsecond : Agree db (fun d => Between f t' d ∧ ¬ d ≤ t.day) (Between f' t') := by
    intro id e _ _
    simp only [Between, hnext, UtcDay.le_iff_epochDay, UtcDay.epochDay_next] at hday hday' ⊢
    omega
  have hlow : ((Db.storedRows db accountId (Between f t')).filter fun r => r.date ≤ t.day) =
      Db.storedRows db accountId (Between f t) := filter_storedRows.trans hfirst.storedRows
  have hhigh : ((Db.storedRows db accountId (Between f t')).filter fun r => !(r.date ≤ t.day)) =
      Db.storedRows db accountId (Between f' t') := by
    rw [← hsecond.storedRows, ← filter_storedRows]
    exact List.filter_congr fun r _ => (decide_not).symm
  -- both are the stored rows in their order
  refine hties.eq_of_sorted (lineRows_perm scan'') ?_ (List.pairwise_insertionSort _ _) ?_
  · refine ((lineRows_perm scan).append (lineRows_perm scan')).trans ?_
    rw [← hlow, ← hhigh]
    exact List.filter_append_perm _ _
  · refine List.pairwise_append.mpr ⟨List.pairwise_insertionSort _ _,
      List.pairwise_insertionSort _ _, fun r hr r' hr' => ?_⟩
    -- the days of the first range are before those of the second
    obtain ⟨_, e, -, -, hin, hr⟩ := mem_storedRows.mp ((lineRows_perm scan).mem_iff.mp hr)
    obtain ⟨_, e', -, -, hin', hr'⟩ := mem_storedRows.mp ((lineRows_perm scan').mem_iff.mp hr')
    rw [← date_of_mem_lineRows hr] at hin
    rw [← date_of_mem_lineRows hr'] at hin'
    have hlt : r.date.epochDay < r'.date.epochDay := by
      simp only [Between, hnext, UtcDay.le_iff_epochDay, UtcDay.epochDay_next] at hin hin'
      omega
    unfold LineRow.Le
    rw [if_neg fun heq => by rw [heq] at hlt; exact lt_irrefl _ hlt]
    exact UtcDay.le_iff_epochDay.mpr hlt.le

include haccount in
/-- **The report of a range adds up.** -/
theorem addsUp_of_le {f t : Instant} (hle : f ≤ t) (scan : ScanOrder LineRow) (maxLines : ℕ) :
    AddsUp db accountId f t maxLines (report db accountId account f t scan maxLines) := by
  refine ⟨balances_of_le h haccount hle scan maxLines, fun {scan' n full} hfull huncut => ?_,
    fun scan' => ?_⟩
  · rw [generate_eq h haccount, Except.ok.injEq] at hfull
    subst hfull
    change withRunning _ _ _ = (withRunning _ _ _).take maxLines
    rw [take_of_whole huncut, withRunning_take, hties.lineRows_eq scan scan']
  · exact ⟨_, _, generate_eq h haccount f t scan' _, whole_length f t scan'⟩

/-- **The reports of two ranges, one right after the other**, continue each other. -/
theorem continues_of_next {f t f' t' : Instant} (hle : f ≤ t) (hle' : f' ≤ t')
    (hnext : f'.day = t.day.next) (account : Account) (scan scan' scan'' : ScanOrder LineRow)
    (n n' m : ℕ) :
    Continues (report db accountId account f t scan n) (report db accountId account f' t' scan' n')
      (report db accountId account f t' scan'' m) := by
  have hbalance : (report db accountId account f t scan n).closingBalance =
      (report db accountId account f' t' scan' n').openingBalance :=
    balance_of_next hnext account scan scan' n n'
  refine ⟨hbalance, fun hfull hfull' hboth => ?_⟩
  change withRunning _ _ _ = withRunning _ _ _ ++ withRunning _ _ _
  rw [take_of_whole hfull, take_of_whole hfull', take_of_whole hboth,
    lineRows_append hties hle hle' hnext scan scan' scan'', withRunning_append,
    after_lineRows h hle]
  exact congrArg (fun running => _ ++ withRunning _ running _) hbalance

end Ties

omit h in
/-- Rows of one day in the order of the report that lead to the same lines are the same. -/
theorem eq_of_withRunning {d : UtcDay} {normalBalance : NormalBalance} {running : ℤ}
    {rows rows' : List LineRow} (hperm : rows.Perm rows') (hday : ∀ r ∈ rows, r.date = d)
    (hsorted : rows.Pairwise LineRow.Le) (hsorted' : rows'.Pairwise LineRow.Le)
    (heq : withRunning normalBalance running rows = withRunning normalBalance running rows') :
    rows = rows' := by
  have hshown : ∀ (running : ℤ) (rows : List LineRow),
      rows.map (fun r => (r.date, r.entryRef, r.description, r.debit, r.credit)) =
        (withRunning normalBalance running rows).map fun l =>
          (l.date, l.entryRef, l.description, l.debit, l.credit) := by
    intro running rows
    induction rows generalizing running with
    | nil => rfl
    | cons r rows ih => simp only [List.map_cons, withRunning, ← ih]
  -- the numbers are not shown, but they are in their order
  have hnumbers : ∀ {rows : List LineRow}, (∀ r ∈ rows, r.date = d) → rows.Pairwise LineRow.Le →
      (rows.map (·.entryNumber)).Pairwise fun n n' => numberLe n n' = true := by
    intro rows hday hsorted
    refine List.pairwise_map.mpr (hsorted.imp_of_mem fun {r r'} hr hr' hle => ?_)
    unfold LineRow.Le at hle
    rwa [if_pos ((hday r hr).trans (hday r' hr').symm)] at hle
  have hnumber : rows.map (·.entryNumber) = rows'.map (·.entryNumber) :=
    List.Perm.eq_of_pairwise (fun _ _ _ _ => LineRow.numberLe_antisymm) (hnumbers hday hsorted)
      (hnumbers (fun r hr => hday r (hperm.mem_iff.mpr hr)) hsorted') (hperm.map _)
  have hboth := congrArg₂ List.zip hnumber
    ((hshown running rows).trans ((congrArg _ heq).trans (hshown running rows').symm))
  rw [List.zip_map', List.zip_map'] at hboth
  refine List.map_injective_iff.mpr (fun r r' hr => ?_) hboth
  simp only [Prod.mk.injEq] at hr
  obtain ⟨hnumber, hdate, href, hdescription, hdebit, hcredit⟩ := hr
  cases r
  cases r'
  congr

include haccount in
/-- Where all reports of an account add up, its rows that tie are equal. -/
theorem AllAddUp.tiesEqual (hall : AllAddUp db accountId) : Db.TiesEqual db accountId := by
  intro r hr r' hr' hdate hnumber
  -- the reports of their day
  let atDay : Instant := .midnight r.date
  have hin : ∀ x ∈ Db.storedRows db accountId fun _ => True, x.date = r.date →
      x ∈ Db.storedRows db accountId (Between atDay atDay) := by
    intro x hx hday
    obtain ⟨id, e, he, hcounts, -, hx⟩ := mem_storedRows.mp hx
    refine mem_storedRows.mpr ⟨id, e, he, hcounts, ?_, hx⟩
    rw [← date_of_mem_lineRows hx, hday]
    exact ⟨le_refl r.date.ord, le_refl r.date.ord⟩
  have hday : ∀ x ∈ Db.storedRows db accountId (Between atDay atDay), x.date = r.date := by
    intro x hx
    obtain ⟨id, e, -, -, hbetween, hx⟩ := mem_storedRows.mp hx
    rw [date_of_mem_lineRows hx]
    exact UtcDay.eq_of_ord (le_antisymm hbetween.2 hbetween.1)
  refine Sorting.sorted_unique_iff.mp (fun l l' hl hl' hsorted hsorted' => ?_) r (hin r hr rfl) r'
    (hin r' hr' hdate.symm) (LineRow.tie_iff.mpr ⟨hdate, hnumber⟩)
  -- every list in the order of the report is what some query answers with
  have hrows : ∀ {m : List LineRow}
      (hm : m.Perm (Db.storedRows db accountId (Between atDay atDay))), m.Pairwise LineRow.Le →
        Db.lineRows db accountId (Between atDay atDay) (.ofPerm hm) = m := by
    intro m hm hsorted
    rw [Db.lineRows, ScanOrder.ofPerm_order, hsorted.insertionSort_eq]
  -- two reports that are not cut off have the same lines
  have hwhole (scan : ScanOrder LineRow) :
      (report db accountId account atDay atDay scan
        (Db.storedRows db accountId (Between atDay atDay)).length).truncated = false :=
    whole_length atDay atDay scan
  have hfirst := (hall.addsUp (le_refl atDay.getTime) (generate_eq h haccount atDay atDay (.ofPerm hl)
    (Db.storedRows db accountId (Between atDay atDay)).length)).first
      (generate_eq h haccount atDay atDay (.ofPerm hl') _) (hwhole _)
  change withRunning _ _ _ = (withRunning _ _ _).take _ at hfirst
  rw [take_of_whole (hwhole _), take_of_whole (hwhole _), ← withRunning_take, hrows hl hsorted,
    hrows hl' hsorted', ← hl'.length_eq, List.take_length] at hfirst
  exact eq_of_withRunning (hl.trans hl'.symm) (fun x hx => hday x (hl.mem_iff.mp hx)) hsorted
    hsorted' hfirst

end Ranges

/-- A report is one of an account that is not deleted. -/
theorem account_of_generate {db : Db} {accountId : Uuid} {f t : Instant} {scan : ScanOrder LineRow}
    {maxLines : ℕ} {ledger : GeneralLedger}
    (h : generate db accountId f t scan maxLines = .ok ledger) :
    ∃ account, Db.liveAccount db accountId = some account := by
  refine Option.ne_none_iff_exists'.mp fun hnone => ?_
  rw [generate, hnone] at h
  cases h

end GeneralLedger

open GeneralLedger in
/-- **When the general ledger adds up**: the reports of an account, of whatever ranges, add up and
continue each other if and only if its lines that tie in the order of the report are equal, or the
account is deleted. -/
theorem generalLedger_addsUp_iff {db : Db} (h : Ledger db) (accountId : Uuid) :
    AllAddUp db accountId ↔
      Db.liveAccount db accountId = none ∨ Db.TiesEqual db accountId := by
  constructor
  · intro hall
    refine (Option.eq_none_or_eq_some (Db.liveAccount db accountId)).imp id fun haccount => ?_
    obtain ⟨account, haccount⟩ := haccount
    exact hall.tiesEqual h haccount
  · intro hor
    have hties : ∀ {account}, Db.liveAccount db accountId = some account →
        Db.TiesEqual db accountId := fun haccount =>
      hor.resolve_left fun hnone => by rw [hnone] at haccount; cases haccount
    constructor
    · intro f t scan maxLines ledger hle hok
      obtain ⟨account, haccount⟩ := account_of_generate hok
      rw [generate_eq h haccount, Except.ok.injEq] at hok
      subst hok
      exact addsUp_of_le h haccount (hties haccount) hle scan maxLines
    · intro f t f' t' scan scan' scan'' n n' m ledger ledger' both hle hle' hnext hok hok' hboth
      obtain ⟨account, haccount⟩ := account_of_generate hok
      rw [generate_eq h haccount, Except.ok.injEq] at hok hok' hboth
      subst hok hok' hboth
      exact continues_of_next h (hties haccount) hle hle' hnext account scan scan' scan'' n n' m

open GeneralLedger in
/-- The cash account of a year with a sale and an invoice, which is closed and reopened. -/
theorem generalLedger_addsUp_iff_year : AllAddUp (Sample.served Sample.db Sample.year).db 1 :=
  (generalLedger_addsUp_iff Sample.year_ledger 1).mpr (.inr (by decide +kernel))

namespace Sample

/-- A sale of two goods for cash. -/
def twoGoods : CreateJournalEntryDto :=
  ⟨midYear, "Two goods", [⟨1, some (rupiah 300), none, none⟩,
    ⟨5, none, some (rupiah 120), some "First"⟩, ⟨5, none, some (rupiah 180), some "Second"⟩]⟩

/-- The company that has sold them. -/
def soldServer : Server := served db [(.createAndPostEntry twoGoods 9 100 1, 16)]

theorem soldServer_reachable : Reachable code (oneAtATime fun _ => True) db soldServer :=
  served_reachable (fun _ _ => trivial) (by decide +kernel)

/-- The order from the last row to the first. -/
def backwards : ScanOrder LineRow := ⟨List.reverse, List.reverse_perm⟩

end Sample

open Sample GeneralLedger in
/-- Of a sale of two goods in one entry the report of one line shows the first, and a whole report can
start with the second. -/
theorem ties_reordered : Reachable code (oneAtATime fun _ => True) db soldServer ∧
    ¬ AllAddUp soldServer.db 5 := by
  refine ⟨soldServer_reachable, fun hall => ?_⟩
  obtain ⟨cut, hcut, hline⟩ : ∃ cut, generate soldServer.db 5 (.midnight midYear)
      (.midnight midYear) .plain 1 = .ok cut ∧ cut.lines.map (·.credit) = [1200000] :=
    exists_ok_of_toOption (by decide +kernel)
  obtain ⟨full, hfull, hlines⟩ : ∃ full, generate soldServer.db 5 (.midnight midYear)
      (.midnight midYear) backwards = .ok full ∧
        (full.truncated, full.lines.map (·.credit)) = (false, [1800000, 1200000]) :=
    exists_ok_of_toOption (by decide +kernel)
  obtain ⟨huncut, hlines⟩ := Prod.mk.inj hlines
  have hfirst := (hall.addsUp (le_refl (Instant.midnight midYear).getTime) hcut).first hfull huncut
  have hcredits := congrArg (List.map (·.credit)) hfirst
  rw [List.map_take, hline, hlines] at hcredits
  exact absurd hcredits (by decide)

end AccountingApi
