import AccountingApi.Closings
import AccountingApi.Reversals
import AccountingApi.Reporting.BalanceSheet

/-!
# Double entry

Every posted entry has passed the double-entry check, or is the reversal of one that has. As long as
the ledger's totals fit the decimal arithmetic, its debits then equal its credits. The sums per account
add up to the sums over all entries when every posted line is on an account that is not deleted, so the
trial balance and the balance sheet balance.

## Main definitions

* `Db.total`: the sum of one side over all lines of the posted entries of some dates
* `WithinDigits`: the totals have no more digits than the arithmetic
* `PostedLinesLive`: every line of a posted or reversed entry is on an account that is not deleted
* `DoubleEntry`: the check every posted entry has passed

## Main results

* `sum_groupedBalances`: the grouped balances add up to the totals
* `doubleEntry_of_reachable`: every posted entry of a reachable state has passed the check
* `trialBalance_balanced`, `balanceSheet_balanced`
-/

namespace AccountingApi

open ReadCommitted Posting Balances

/-! ## Totals -/

/-- The sum of one side of the entry's lines. -/
def JournalEntry.side (e : JournalEntry) (side : JournalLine → ℤ) : ℤ := (e.lines.map side).sum

/-- The sum of one side over all lines of the counting entries whose date satisfies `p`. -/
def Db.total (db : Db) (side : JournalLine → ℤ) (p : UtcDay → Prop) [DecidablePred p] : ℤ :=
  entries.sum (fun _ e => if e.Counts ∧ p e.date then e.side side else 0) db

/-- The totals of the ledger stay below ten to the sixteenth rupiah. -/
def WithinDigits (db : Db) : Prop :=
  Db.total db (·.debit) (fun _ => True) < 10 ^ 20 ∧ Db.total db (·.credit) (fun _ => True) < 10 ^ 20

instance (db : Db) : Decidable (WithinDigits db) := inferInstanceAs (Decidable (_ ∧ _))

/-- Every line of a posted or reversed entry is on an account that is not deleted. -/
def PostedLinesLive (db : Db) : Prop :=
  ∀ ⦃id : Uuid⦄ ⦃e : JournalEntry⦄, Db.entry db id = some e → e.status ≠ .draft →
    ∀ l ∈ e.lines, ∃ a, Db.liveAccount db l.accountId = some a

/-! What the sums over the counting entries depend on. -/

/-- The lines of the counting entries pass the checks of their table. -/
def LinesValid (db : Db) : Prop :=
  ∀ ⦃id : Uuid⦄ ⦃e : JournalEntry⦄, Db.entry db id = some e → e.Counts → e.Valid

/-- The lines of the counting entries are on accounts that are not deleted. -/
def LinesLive (db : Db) : Prop :=
  ∀ ⦃id : Uuid⦄ ⦃e : JournalEntry⦄, Db.entry db id = some e → e.Counts →
    ∀ l ∈ e.lines, ∃ a, Db.liveAccount db l.accountId = some a

/-- The counting entries are balanced. -/
def EntriesBalanced (db : Db) : Prop :=
  ∀ ⦃id : Uuid⦄ ⦃e : JournalEntry⦄, Db.entry db id = some e → e.Counts →
    e.side (·.debit) = e.side (·.credit)

theorem Coherent.linesValid {db : Db} (h : Coherent db) : LinesValid db :=
  fun _ _ he _ => (h.entry he).valid

theorem PostedLinesLive.linesLive {db : Db} (h : PostedLinesLive db) (hcoh : Coherent db) :
    LinesLive db :=
  fun _ _ he hcounts => h he fun hdraft => hcounts.1 ((hcoh.entry he).posted.mp hdraft)

section Totals

variable {db : Db}

theorem total_eq_sum (side : JournalLine → ℤ) (p : UtcDay → Prop) [DecidablePred p] :
    Db.total db side p = ∑ id ∈ entries.indices db,
      Table.rowTerm (fun _ e => if e.Counts ∧ p e.date then e.side side else 0) id
        (Db.entry db id) :=
  entries.sum_eq_sum_indices _ db

theorem sideOn_eq_sum (accountId : Uuid) (side : JournalLine → ℤ) (p : UtcDay → Prop)
    [DecidablePred p] : Db.sideOn db accountId side p = ∑ id ∈ entries.indices db,
      Table.rowTerm (fun _ e => if e.Counts ∧ p e.date then e.sideOn accountId side else 0) id
        (Db.entry db id) :=
  entries.sum_eq_sum_indices _ db

/-- An account without a line on some dates has no sums on them. -/
theorem sideOn_of_not_hasLine {accountId : Uuid} {p : UtcDay → Prop} [DecidablePred p]
    (h : Db.hasLine db accountId p = false) (side : JournalLine → ℤ) :
    Db.sideOn db accountId side p = 0 := by
  rw [sideOn_eq_sum]
  refine Finset.sum_eq_zero fun id _ => ?_
  cases he : Db.entry db id with
  | none => rfl
  | some e =>
    rw [Table.rowTerm_some]
    split
    · rename_i hcounts
      have hnone : (e.lines.filter fun l => l.accountId = accountId) = [] := by
        refine List.filter_eq_nil_iff.mpr fun l hl hid => ?_
        have hline := hasLine_iff.mpr
          ⟨id, e, he, hcounts.1, hcounts.2, l, hl, of_decide_eq_true hid⟩
        cases hline.symm.trans h
      rw [JournalEntry.sideOn, hnone]
      rfl
    · rfl

theorem mem_accounts_of_live {id : Uuid} {a : Account} (h : Db.liveAccount db id = some a) :
    id ∈ (Db.accounts db).map Prod.fst := by
  obtain ⟨ha, hlive⟩ := Option.filter_eq_some_iff.mp h
  exact List.mem_map.mpr ⟨(id, a), mem_accounts.mpr ⟨ha, Option.isNone_iff_eq_none.mp hlive⟩, rfl⟩

/-- The sums of one side over all accounts, entry by entry. -/
theorem sum_accounts_eq (side : JournalLine → ℤ) (p : UtcDay → Prop) [DecidablePred p] :
    ((Db.accounts db).map fun a => Db.sideOn db a.1 side p).sum =
      ∑ id ∈ entries.indices db, Table.rowTerm (fun _ e => if e.Counts ∧ p e.date then
        ∑ accountId ∈ ((Db.accounts db).map Prod.fst).toFinset, e.sideOn accountId side else 0) id
        (Db.entry db id) := by
  have hids : ((Db.accounts db).map fun a => Db.sideOn db a.1 side p) =
      ((Db.accounts db).map Prod.fst).map fun id => Db.sideOn db id side p := by
    rw [List.map_map]
    rfl
  rw [hids, ← List.sum_toFinset _ (nodup_accounts db)]
  simp only [sideOn_eq_sum]
  rw [Finset.sum_comm]
  refine Finset.sum_congr rfl fun id _ => ?_
  cases he : Db.entry db id with
  | none => simp
  | some e =>
    simp only [Table.rowTerm_some]
    by_cases hcounts : e.Counts ∧ p e.date
    · simp only [if_pos hcounts]
    · simp only [if_neg hcounts, Finset.sum_const_zero]

/-- The sums of one side over all accounts add up to the total. -/
theorem sum_accounts (hlive : LinesLive db) (side : JournalLine → ℤ) (p : UtcDay → Prop)
    [DecidablePred p] :
    ((Db.accounts db).map fun a => Db.sideOn db a.1 side p).sum = Db.total db side p := by
  rw [sum_accounts_eq, total_eq_sum]
  refine Finset.sum_congr rfl fun id _ => ?_
  cases he : Db.entry db id with
  | none => rfl
  | some e =>
    simp only [Table.rowTerm_some]
    by_cases hcounts : e.Counts ∧ p e.date
    · rw [if_pos hcounts, if_pos hcounts]
      refine sum_groups (fun l hl => ?_) side
      obtain ⟨a, ha⟩ := hlive he hcounts.1 l hl
      exact List.mem_toFinset.mpr (mem_accounts_of_live ha)
    · rw [if_neg hcounts, if_neg hcounts]

/-- The sums of one side over all accounts are no more than the total. -/
theorem sum_accounts_le {side : JournalLine → ℤ}
    (hside : ∀ {id e}, Db.entry db id = some e → e.Counts → ∀ l ∈ e.lines, 0 ≤ side l)
    (p : UtcDay → Prop) [DecidablePred p] :
    ((Db.accounts db).map fun a => Db.sideOn db a.1 side p).sum ≤ Db.total db side p := by
  rw [sum_accounts_eq, total_eq_sum]
  refine Finset.sum_le_sum fun id _ => ?_
  cases he : Db.entry db id with
  | none => exact le_rfl
  | some e =>
    simp only [Table.rowTerm_some]
    by_cases hcounts : e.Counts ∧ p e.date
    · rw [if_pos hcounts, if_pos hcounts]
      exact sum_groups_le _ (hside he hcounts.1)
    · rw [if_neg hcounts, if_neg hcounts]

/-- The row of an account over some dates, be there a line or not. -/
def accountRow (db : Db) (p : UtcDay → Prop) [DecidablePred p] (a : Uuid × Account) :
    AccountBalanceRow :=
  toRow a.1 a.2 (Db.sideOn db a.1 (·.debit) p) (Db.sideOn db a.1 (·.credit) p)

/-- A sum over some of the grouped balances is one over the accounts, as those without a line add
nothing. -/
theorem sum_groupedBalances_filter (p : UtcDay → Prop) [DecidablePred p]
    (q : AccountBalanceRow → Bool) {f : AccountBalanceRow → ℤ}
    (hf : ∀ r, r.debit = 0 → r.credit = 0 → f r = 0) :
    (((groupedBalances db p).filter q).map f).sum =
      (((Db.accounts db).filter fun a => q (accountRow db p a)).map fun a =>
        f (accountRow db p a)).sum := by
  have hrows : groupedBalances db p =
      (((Db.accounts db).filter fun a => Db.hasLine db a.1 p).insertionSort
        fun a b => a.2.code ≤ b.2.code).map (accountRow db p) := rfl
  rw [hrows, List.filter_map, List.map_map,
    (((List.perm_insertionSort _ _).filter _).map _).sum_eq, List.filter_comm]
  refine sum_filter_of_zero fun a _ ha => hf _ ?_ ?_
  · exact sideOn_of_not_hasLine ha (·.debit)
  · exact sideOn_of_not_hasLine ha (·.credit)

/-- The sums of the grouped balances are those of the accounts. -/
theorem sum_groupedBalances_eq (p : UtcDay → Prop) [DecidablePred p] :
    ((groupedBalances db p).map (·.debit)).sum =
        ((Db.accounts db).map fun a => Db.sideOn db a.1 (·.debit) p).sum ∧
      ((groupedBalances db p).map (·.credit)).sum =
        ((Db.accounts db).map fun a => Db.sideOn db a.1 (·.credit) p).sum := by
  constructor
  · have hdebit : (((groupedBalances db p).filter fun _ => true).map (·.debit)).sum = _ :=
      sum_groupedBalances_filter p (fun _ => true) fun _ hd _ => hd
    simpa using! hdebit
  · have hcredit : (((groupedBalances db p).filter fun _ => true).map (·.credit)).sum = _ :=
      sum_groupedBalances_filter p (fun _ => true) fun _ _ hc => hc
    simpa using! hcredit

/-- **The grouped balances add up to the totals.** -/
theorem sum_groupedBalances (hlive : LinesLive db) (p : UtcDay → Prop) [DecidablePred p] :
    ((groupedBalances db p).map (·.debit)).sum = Db.total db (·.debit) p ∧
      ((groupedBalances db p).map (·.credit)).sum = Db.total db (·.credit) p := by
  rw [(sum_groupedBalances_eq p).1, (sum_groupedBalances_eq p).2]
  exact ⟨sum_accounts hlive _ p, sum_accounts hlive _ p⟩

end Totals

/-! ## The check -/

/-- The entry's lines pass the double-entry check, or those of its reversal do. -/
def JournalEntry.Checked (e : JournalEntry) : Prop :=
  assertBalanced (draftLines e.lines) = .ok () ∨
    assertBalanced (draftLines (e.lines.map swapLine)) = .ok ()

/-- Every posted or reversed entry has passed the check. -/
def DoubleEntry (db : Db) : Prop :=
  ∀ ⦃id : Uuid⦄ ⦃e : JournalEntry⦄, Db.entry db id = some e → e.status ≠ .draft → e.Checked

section Check

/-- What has been added up is exact while the sums have no more digits than the arithmetic. -/
theorem lineTotals_eq {lines : List PostLineInput} {debit credit : ℤ} {totals : ℤ × ℤ}
    (hok : lineTotals debit credit lines = .ok totals) (hdebit : 0 ≤ debit) (hcredit : 0 ≤ credit)
    (hd : ∀ l ∈ lines, 0 ≤ l.debitOrZero) (hc : ∀ l ∈ lines, 0 ≤ l.creditOrZero)
    (hdsum : debit + (lines.map (·.debitOrZero)).sum < 10 ^ 20)
    (hcsum : credit + (lines.map (·.creditOrZero)).sum < 10 ^ 20) :
    totals = (debit + (lines.map (·.debitOrZero)).sum,
      credit + (lines.map (·.creditOrZero)).sum) := by
  induction lines generalizing debit credit with
  | nil =>
    cases hok
    simp
  | cons l lines ih =>
    obtain ⟨hdl, hd⟩ := List.forall_mem_cons.mp hd
    obtain ⟨hcl, hc⟩ := List.forall_mem_cons.mp hc
    have hdrest : 0 ≤ (lines.map (·.debitOrZero)).sum :=
      List.sum_nonneg (List.forall_mem_map.mpr hd)
    have hcrest : 0 ≤ (lines.map (·.creditOrZero)).sum :=
      List.sum_nonneg (List.forall_mem_map.mpr hc)
    simp only [List.map_cons, List.sum_cons] at hdsum hcsum ⊢
    have hadd : Money.add debit l.debitOrZero = debit + l.debitOrZero :=
      Money.add_eq (by simp only [Money.Storable]; omega)
    have hadd' : Money.add credit l.creditOrZero = credit + l.creditOrZero :=
      Money.add_eq (by simp only [Money.Storable]; omega)
    dsimp only [lineTotals] at hok
    split at hok
    · cases hok
    · rw [hadd, hadd'] at hok
      rw [ih hok (by omega) (by omega) hd hc (by omega) (by omega), add_assoc, add_assoc]

/-- The sums of one side of lines to be checked again. -/
theorem sum_draftLines (lines : List JournalLine) :
    ((draftLines lines).map (·.debitOrZero)).sum = (lines.map (·.debit)).sum ∧
      ((draftLines lines).map (·.creditOrZero)).sum = (lines.map (·.credit)).sum := by
  simp only [draftLines, List.map_map]
  exact ⟨rfl, rfl⟩

/-- Lines that have passed the check have equal sums. -/
theorem sum_eq_of_assertBalanced {lines : List JournalLine}
    (hok : assertBalanced (draftLines lines) = .ok ())
    (hvalid : ∀ l ∈ lines, 0 ≤ l.debit ∧ 0 ≤ l.credit)
    (hdebit : (lines.map (·.debit)).sum < 10 ^ 20)
    (hcredit : (lines.map (·.credit)).sum < 10 ^ 20) :
    (lines.map (·.debit)).sum = (lines.map (·.credit)).sum := by
  obtain ⟨hd, hc⟩ := sum_draftLines lines
  unfold assertBalanced at hok
  split at hok
  · cases hok
  · split at hok
    · cases hok
    · rename_i debit credit htotals
      have hnonneg : ∀ l ∈ draftLines lines, 0 ≤ l.debitOrZero ∧ 0 ≤ l.creditOrZero := by
        intro l hl
        obtain ⟨l', hl', rfl⟩ := List.mem_map.mp hl
        exact hvalid l' hl'
      have hexact := lineTotals_eq htotals le_rfl le_rfl (fun l hl => (hnonneg l hl).1)
        (fun l hl => (hnonneg l hl).2) (by rw [hd]; simpa [Money.zero] using hdebit)
        (by rw [hc]; simpa [Money.zero] using hcredit)
      rw [hd, hc, Prod.mk.injEq] at hexact
      obtain ⟨rfl, rfl⟩ := hexact
      split at hok
      · rename_i heq
        simpa [Money.zero] using heq
      · cases hok

/-- **A checked entry is balanced** as long as its sums have no more digits than the arithmetic. -/
theorem JournalEntry.Checked.balanced {e : JournalEntry} (h : e.Checked) (hvalid : e.Valid)
    (hdebit : e.side (·.debit) < 10 ^ 20) (hcredit : e.side (·.credit) < 10 ^ 20) :
    e.side (·.debit) = e.side (·.credit) := by
  have hnonneg : ∀ l ∈ e.lines, 0 ≤ l.debit ∧ 0 ≤ l.credit := fun l hl =>
    ⟨(hvalid l hl).1.1, (hvalid l hl).1.2.1⟩
  rcases h with hok | hok
  · exact sum_eq_of_assertBalanced hok hnonneg hdebit hcredit
  · have hswap : ∀ l ∈ e.lines.map swapLine, 0 ≤ l.debit ∧ 0 ≤ l.credit := by
      intro l hl
      obtain ⟨l', hl', rfl⟩ := List.mem_map.mp hl
      exact (hnonneg l' hl').symm
    have hsums : ((e.lines.map swapLine).map (·.debit)).sum = e.side (·.credit) ∧
        ((e.lines.map swapLine).map (·.credit)).sum = e.side (·.debit) := by
      simp only [List.map_map]
      exact ⟨rfl, rfl⟩
    have heq := sum_eq_of_assertBalanced hok hswap (hsums.1 ▸ hcredit) (hsums.2 ▸ hdebit)
    rw [hsums.1, hsums.2] at heq
    exact heq.symm

theorem JournalEntry.Checked.of_lines {e e' : JournalEntry} (h : e.Checked)
    (hlines : e'.lines = e.lines) : e'.Checked := by
  unfold JournalEntry.Checked at h ⊢
  rwa [hlines]

/-- A reversal of a checked entry is checked. -/
theorem JournalEntry.Checked.swap {e e' : JournalEntry} (h : e.Checked)
    (hlines : e'.lines = e.lines.map swapLine) : e'.Checked := by
  have hback : (e.lines.map swapLine).map swapLine = e.lines := by
    rw [List.map_map]
    exact List.map_id' e.lines
  unfold JournalEntry.Checked
  rw [hlines, hback]
  exact h.symm

/-- **A commit posts checked entries only.** -/
theorem DoubleEntry.after {strict : Prop} {c : Commit} (h : DoubleEntry c.before)
    (hc : Transacts strict c) : DoubleEntry c.after := by
  intro id e he hnot
  cases hb : Db.entry c.before id with
  | none =>
    rcases (hc.entryNew hb he).vetted hnot with hvetted | ⟨t, -, rfl⟩
    · exact .inl hvetted.balanced
    · exact (h t.reversed.original t.reversed.notDraft).swap t.mirrors.2
  | some e₀ =>
    obtain ⟨e₁, he₁, hnext⟩ := hc.entryNext hb
    obtain rfl : e = e₁ := Option.some.inj (he ▸ he₁)
    have hlines := hnext.entryStep.lines.2
    by_cases hdraft : e₀.status = .draft
    · cases hnext with
      | reverse t hid ho => exact absurd (ho ▸ hdraft) t.reversed.notDraft
      | step _ _ hvetted =>
        exact JournalEntry.Checked.of_lines (.inl (hvetted hdraft hnot).balanced) hlines
    · exact (h hb hdraft).of_lines hlines

theorem Initial.doubleEntry {db : Db} (h : Initial db) : DoubleEntry db :=
  fun _ _ he => by rw [h.entry] at he; cases he

/-- **Every posted entry of a reachable state has passed the double-entry check.** -/
theorem doubleEntry_of_reachable {policy : Policy Row LockName Query Failure Response Request}
    {db₀ : Db} {s : Server} (h₀ : Initial db₀) (h : Reachable code policy db₀ s) :
    DoubleEntry s.db :=
  invariant_of_reachable (fun _ => True) h (fun _ _ => trivial)
    h₀.doubleEntry fun _ hc _ hI _ => hI.after hc

end Check

/-! ## Balanced books -/

section Totals

variable {db : Db}

/-- The sides of a counting entry are not negative. -/
theorem LinesValid.side_nonneg (h : LinesValid db) {id : Uuid} {e : JournalEntry}
    (he : Db.entry db id = some e) (hcounts : e.Counts) :
    0 ≤ e.side (·.debit) ∧ 0 ≤ e.side (·.credit) :=
  ⟨List.sum_nonneg (List.forall_mem_map.mpr fun l hl => (h he hcounts l hl).1.1),
    List.sum_nonneg (List.forall_mem_map.mpr fun l hl => (h he hcounts l hl).1.2.1)⟩

section Side

variable {side : JournalLine → ℤ}
  (hside : ∀ {id e}, Db.entry db id = some e → e.Counts → 0 ≤ e.side side)
include hside

/-- An entry does not take anything away from a total. -/
theorem rowTerm_nonneg (p : UtcDay → Prop) [DecidablePred p] (id : Uuid) :
    0 ≤ Table.rowTerm (fun _ e => if JournalEntry.Counts e ∧ p e.date then e.side side else 0) id
      (Db.entry db id) := by
  cases he : Db.entry db id with
  | none => exact le_rfl
  | some e =>
    rw [Table.rowTerm_some]
    split
    · rename_i hcounts
      exact hside he hcounts.1
    · exact le_rfl

/-- The total over some dates is at most the total over all. -/
theorem total_le_total (p : UtcDay → Prop) [DecidablePred p] :
    Db.total db side p ≤ Db.total db side fun _ => True := by
  rw [total_eq_sum, total_eq_sum]
  refine Finset.sum_le_sum fun id _ => ?_
  have hnonneg := rowTerm_nonneg hside (fun _ => True) id
  cases he : Db.entry db id with
  | none => exact le_rfl
  | some e =>
    rw [he] at hnonneg
    simp only [Table.rowTerm_some, and_true] at hnonneg ⊢
    by_cases hcounts : e.Counts ∧ p e.date
    · rw [if_pos hcounts, if_pos hcounts.1]
    · rwa [if_neg hcounts]

/-- No entry is more than the total. -/
theorem side_le_total {id : Uuid} {e : JournalEntry} (he : Db.entry db id = some e)
    (hcounts : e.Counts) : e.side side ≤ Db.total db side fun _ => True := by
  have hmem : id ∈ entries.indices db :=
    entries.mem_indices.mpr (by change Db.entry db _ ≠ none; rw [he]; exact nofun)
  have hle := Finset.single_le_sum (fun i _ => rowTerm_nonneg hside (fun _ => True) i) hmem
  rw [total_eq_sum]
  rw [he, Table.rowTerm_some, if_pos ⟨hcounts, trivial⟩] at hle
  exact hle

end Side

/-- **Every posted entry is balanced.** -/
theorem entry_balanced (hcoh : Coherent db) (hdouble : DoubleEntry db) (hdigits : WithinDigits db)
    {id : Uuid} {e : JournalEntry} (he : Db.entry db id = some e) (hnot : e.status ≠ .draft) :
    e.side (·.debit) = e.side (·.credit) := by
  have hcounts := hcoh.counts he hnot
  refine (hdouble he hnot).balanced (hcoh.entry he).valid ?_ ?_
  · exact (side_le_total (fun he hc => (hcoh.linesValid.side_nonneg he hc).1) he
      hcounts).trans_lt hdigits.1
  · exact (side_le_total (fun he hc => (hcoh.linesValid.side_nonneg he hc).2) he
      hcounts).trans_lt hdigits.2

/-- The entries of checked books are balanced. -/
theorem entriesBalanced (hcoh : Coherent db) (hdouble : DoubleEntry db)
    (hdigits : WithinDigits db) : EntriesBalanced db :=
  fun _ _ he hcounts => entry_balanced hcoh hdouble hdigits he fun hdraft =>
    hcounts.1 ((hcoh.entry he).posted.mp hdraft)

/-- The debits of all posted entries equal their credits, over any dates. -/
theorem total_balanced (hbalanced : EntriesBalanced db) (p : UtcDay → Prop) [DecidablePred p] :
    Db.total db (·.debit) p = Db.total db (·.credit) p := by
  rw [total_eq_sum, total_eq_sum]
  refine Finset.sum_congr rfl fun id _ => ?_
  cases he : Db.entry db id with
  | none => rfl
  | some e =>
    simp only [Table.rowTerm_some]
    by_cases hcounts : e.Counts ∧ p e.date
    · rw [if_pos hcounts, if_pos hcounts]
      exact hbalanced he hcounts.1
    · rw [if_neg hcounts, if_neg hcounts]

end Totals

/-! ## The reports -/

/-- Rows whose sums are not negative and add up to less than the arithmetic can hold. -/
structure ExactRows (rows : List AccountBalanceRow) : Prop where
  debit_nonneg : ∀ r ∈ rows, 0 ≤ r.debit
  credit_nonneg : ∀ r ∈ rows, 0 ≤ r.credit
  debit_lt : (rows.map (·.debit)).sum < 10 ^ 20
  credit_lt : (rows.map (·.credit)).sum < 10 ^ 20

namespace ExactRows

variable {rows : List AccountBalanceRow} (h : ExactRows rows)
include h

theorem sum_nonneg : 0 ≤ (rows.map (·.debit)).sum ∧ 0 ≤ (rows.map (·.credit)).sum :=
  ⟨List.sum_nonneg (List.forall_mem_map.mpr h.debit_nonneg),
    List.sum_nonneg (List.forall_mem_map.mpr h.credit_nonneg)⟩

theorem filter (p : AccountBalanceRow → Bool) : ExactRows (rows.filter p) where
  debit_nonneg := fun r hr => h.debit_nonneg r (List.mem_of_mem_filter hr)
  credit_nonneg := fun r hr => h.credit_nonneg r (List.mem_of_mem_filter hr)
  debit_lt := (List.Sublist.sum_le_sum (List.filter_sublist.map _)
    (List.forall_mem_map.mpr h.debit_nonneg)).trans_lt h.debit_lt
  credit_lt := (List.Sublist.sum_le_sum (List.filter_sublist.map _)
    (List.forall_mem_map.mpr h.credit_nonneg)).trans_lt h.credit_lt

theorem ofType (type : AccountType) : ExactRows (BalanceSheet.ofType type rows) := h.filter _

/-- The difference of the two sides of a row is exact. -/
theorem subtract {r : AccountBalanceRow} (hr : r ∈ rows) :
    Money.subtract r.debit r.credit = r.debit - r.credit ∧
      Money.subtract r.credit r.debit = r.credit - r.debit := by
  have hd : r.debit ≤ (rows.map (·.debit)).sum :=
    List.single_le_sum (List.forall_mem_map.mpr h.debit_nonneg) _ (List.mem_map_of_mem hr)
  have hc : r.credit ≤ (rows.map (·.credit)).sum :=
    List.single_le_sum (List.forall_mem_map.mpr h.credit_nonneg) _ (List.mem_map_of_mem hr)
  have hdlt := h.debit_lt
  have hclt := h.credit_lt
  have hd₀ := h.debit_nonneg r hr
  have hc₀ := h.credit_nonneg r hr
  constructor <;> refine Money.subtract_eq ?_ <;> simp only [Money.Storable] <;> omega

/-- The total of amounts that are debits less credits. -/
theorem sum_debit_sub {f : AccountBalanceRow → ℤ}
    (hf : ∀ r ∈ rows, f r = Money.subtract r.debit r.credit) :
    Money.sum (rows.map f) = (rows.map (·.debit)).sum - (rows.map (·.credit)).sum := by
  rw [List.map_congr_left fun r hr => (hf r hr).trans (h.subtract hr).1]
  exact Money.sum_sub h.debit_nonneg h.credit_nonneg h.debit_lt h.credit_lt

/-- The total of amounts that are credits less debits. -/
theorem sum_credit_sub {f : AccountBalanceRow → ℤ}
    (hf : ∀ r ∈ rows, f r = Money.subtract r.credit r.debit) :
    Money.sum (rows.map f) = (rows.map (·.credit)).sum - (rows.map (·.debit)).sum := by
  rw [List.map_congr_left fun r hr => (hf r hr).trans (h.subtract hr).2]
  exact Money.sum_sub h.credit_nonneg h.debit_nonneg h.credit_lt h.debit_lt

end ExactRows

/-- The sum over some rows by the sections of the balance sheet. -/
theorem sum_sections (rows : List AccountBalanceRow) (f : AccountBalanceRow → ℤ) :
    (rows.map f).sum = ((BalanceSheet.ofType .asset rows).map f).sum +
      ((BalanceSheet.ofType .liability rows).map f).sum +
      ((BalanceSheet.ofType .equity rows).map f).sum +
      ((rows.filter BalanceSheet.isPnl).map f).sum := by
  induction rows with
  | nil => rfl
  | cons r rows ih =>
    have hcons : ∀ p : AccountBalanceRow → Bool, (((r :: rows).filter p).map f).sum =
        (if p r then f r else 0) + ((rows.filter p).map f).sum := by
      intro p
      rw [List.filter_cons]
      split <;> simp
    unfold BalanceSheet.ofType at ih ⊢
    rw [hcons, hcons, hcons, hcons, List.map_cons, List.sum_cons, ih]
    -- the row is in the section of its type only
    cases htype : r.type <;> simp [BalanceSheet.isPnl, htype] <;> omega

/-- **The sheet of balanced rows balances.** -/
theorem ExactRows.balanced {rows : List AccountBalanceRow} (h : ExactRows rows)
    (heq : (rows.map (·.debit)).sum = (rows.map (·.credit)).sum) (asOf : UtcDay)
    (fyRows : List AccountBalanceRow) :
    (BalanceSheet.ofRows asOf rows fyRows).balanced = true ∧
      (BalanceSheet.ofRows asOf rows fyRows).totalAssets =
        (BalanceSheet.ofRows asOf rows fyRows).totalLiabilities +
          (BalanceSheet.ofRows asOf rows fyRows).totalEquity := by
  have htype : ∀ {type r}, r ∈ BalanceSheet.ofType type rows → r.type = type := fun hr =>
    of_decide_eq_true (List.mem_filter.mp hr).2
  have hassets : (BalanceSheet.group (BalanceSheet.ofType .asset rows)).2 = _ :=
    (h.ofType .asset).sum_debit_sub (f := BalanceSheet.amount) fun r hr => by
      simp [BalanceSheet.amount, naturalSide, htype hr]
  have hliabilities : (BalanceSheet.group (BalanceSheet.ofType .liability rows)).2 = _ :=
    (h.ofType .liability).sum_credit_sub (f := BalanceSheet.amount) fun r hr => by
      simp [BalanceSheet.amount, naturalSide, htype hr]
  have hequity : (BalanceSheet.group (BalanceSheet.ofType .equity rows)).2 = _ :=
    (h.ofType .equity).sum_credit_sub (f := BalanceSheet.amount) fun r hr => by
      simp [BalanceSheet.amount, naturalSide, htype hr]
  have hearnings : BalanceSheet.earnings rows = _ :=
    (h.filter BalanceSheet.isPnl).sum_credit_sub fun _ _ => rfl
  have hd := sum_sections rows (·.debit)
  have hc := sum_sections rows (·.credit)
  have ha₀ := (h.ofType .asset).sum_nonneg
  have hl₀ := (h.ofType .liability).sum_nonneg
  have he₀ := (h.ofType .equity).sum_nonneg
  have hp₀ := (h.filter BalanceSheet.isPnl).sum_nonneg
  have hdlt := h.debit_lt
  have hclt := h.credit_lt
  have hown : Money.add (BalanceSheet.group (BalanceSheet.ofType .equity rows)).2
      (BalanceSheet.earnings rows) = (BalanceSheet.group (BalanceSheet.ofType .equity rows)).2 +
        BalanceSheet.earnings rows := by
    refine Money.add_eq ?_
    rw [hequity, hearnings]
    simp only [Money.Storable]
    omega
  have hboth : Money.add (BalanceSheet.group (BalanceSheet.ofType .liability rows)).2
      ((BalanceSheet.group (BalanceSheet.ofType .equity rows)).2 + BalanceSheet.earnings rows) =
        (BalanceSheet.group (BalanceSheet.ofType .liability rows)).2 +
          ((BalanceSheet.group (BalanceSheet.ofType .equity rows)).2 +
            BalanceSheet.earnings rows) := by
    refine Money.add_eq ?_
    rw [hliabilities, hequity, hearnings]
    simp only [Money.Storable]
    omega
  have htotals : (BalanceSheet.group (BalanceSheet.ofType .asset rows)).2 =
      (BalanceSheet.group (BalanceSheet.ofType .liability rows)).2 +
        ((BalanceSheet.group (BalanceSheet.ofType .equity rows)).2 +
          BalanceSheet.earnings rows) := by
    rw [hassets, hliabilities, hequity, hearnings]
    omega
  constructor
  · refine decide_eq_true ?_
    rw [hown, hboth]
    exact htotals
  · change _ = _ + Money.add _ _
    rw [hown]
    exact htotals

section Reports

variable {db : Db}

section Rows

variable (hvalid : LinesValid db)
include hvalid

/-- The sums of an account are not negative. -/
theorem sideOn_nonneg {side : JournalLine → ℤ} (hside : ∀ l : JournalLine, l.Valid → 0 ≤ side l)
    (accountId : Uuid) (p : UtcDay → Prop) [DecidablePred p] :
    0 ≤ Db.sideOn db accountId side p := by
  rw [sideOn_eq_sum]
  refine Finset.sum_nonneg fun id _ => ?_
  cases he : Db.entry db id with
  | none => exact le_rfl
  | some e =>
    rw [Table.rowTerm_some]
    split
    · rename_i hcounts
      refine List.sum_nonneg (List.forall_mem_map.mpr fun l hl => ?_)
      exact hside l (hvalid he hcounts.1 l (List.mem_of_mem_filter hl))
    · exact le_rfl

/-- The grouped balances are no more than the totals. -/
theorem sum_groupedBalances_le (p : UtcDay → Prop) [DecidablePred p] :
    ((groupedBalances db p).map (·.debit)).sum ≤ Db.total db (·.debit) p ∧
      ((groupedBalances db p).map (·.credit)).sum ≤ Db.total db (·.credit) p := by
  rw [(sum_groupedBalances_eq p).1, (sum_groupedBalances_eq p).2]
  exact ⟨sum_accounts_le (fun he hc l hl => (hvalid he hc l hl).1.1) p,
    sum_accounts_le (fun he hc l hl => (hvalid he hc l hl).1.2.1) p⟩

/-- The grouped balances are exact rows. -/
theorem exactRows_groupedBalances (hdigits : WithinDigits db) (p : UtcDay → Prop)
    [DecidablePred p] : ExactRows (groupedBalances db p) := by
  obtain ⟨hd, hc⟩ := sum_groupedBalances_le hvalid p
  refine ⟨fun r hr => ?_, fun r hr => ?_, ?_, ?_⟩
  · obtain ⟨a, -, rfl⟩ := List.mem_map.mp hr
    exact sideOn_nonneg hvalid (fun l hl => hl.1.1) a.1 p
  · obtain ⟨a, -, rfl⟩ := List.mem_map.mp hr
    exact sideOn_nonneg hvalid (fun l hl => hl.1.2.1) a.1 p
  · have htotal := total_le_total (fun he hc => (hvalid.side_nonneg he hc).1) p
    exact (hd.trans htotal).trans_lt hdigits.1
  · have htotal := total_le_total (fun he hc => (hvalid.side_nonneg he hc).2) p
    exact (hc.trans htotal).trans_lt hdigits.2

end Rows

variable (hvalid : LinesValid db) (hlive : LinesLive db) (hdigits : WithinDigits db)
include hvalid hlive hdigits

/-- The totals of the trial balance are those of the posted entries. -/
theorem trialBalance_totals (asOf : UtcDay) :
    (trialBalance db asOf).totalDebit = Db.total db (·.debit) (· ≤ asOf) ∧
      (trialBalance db asOf).totalCredit = Db.total db (·.credit) (· ≤ asOf) := by
  have hrows := exactRows_groupedBalances hvalid hdigits (· ≤ asOf)
  obtain ⟨hd, hc⟩ := sum_groupedBalances hlive (· ≤ asOf)
  have hzero : ∀ r : AccountBalanceRow,
      (!(Money.isZero r.debit && Money.isZero r.credit)) = false → r.debit = 0 ∧ r.credit = 0 := by
    intro r hr
    simpa [Money.isZero] using hr
  have hkept := hrows.filter fun r => !(Money.isZero r.debit && Money.isZero r.credit)
  constructor
  · change Money.sum (((groupedBalances db (· ≤ asOf)).filter fun r =>
      !(Money.isZero r.debit && Money.isZero r.credit)).map (·.debit)) = _
    rw [Money.sum_eq_of_lt hkept.debit_nonneg hkept.debit_lt, ← hd]
    exact sum_filter_of_zero fun r _ hr => (hzero r hr).1
  · change Money.sum (((groupedBalances db (· ≤ asOf)).filter fun r =>
      !(Money.isZero r.debit && Money.isZero r.credit)).map (·.credit)) = _
    rw [Money.sum_eq_of_lt hkept.credit_nonneg hkept.credit_lt, ← hc]
    exact sum_filter_of_zero fun r _ hr => (hzero r hr).2

variable (hbalanced : EntriesBalanced db)
include hbalanced

/-- **The trial balance balances.** -/
theorem trialBalance_balanced (asOf : UtcDay) :
    (trialBalance db asOf).totalDebit = (trialBalance db asOf).totalCredit := by
  obtain ⟨hd, hc⟩ := trialBalance_totals hvalid hlive hdigits asOf
  rw [hd, hc]
  exact total_balanced hbalanced (· ≤ asOf)

/-- **The balance sheet balances.** -/
theorem balanceSheet_balanced (hsettings : Db.settings db ≠ none) (asOf : UtcDay) :
    ∃ sheet, BalanceSheet.generate db asOf = .ok sheet ∧ sheet.balanced = true ∧
      sheet.totalAssets = sheet.totalLiabilities + sheet.totalEquity := by
  obtain ⟨settings, hsome⟩ := Option.ne_none_iff_exists'.mp hsettings
  unfold BalanceSheet.generate
  rw [hsome]
  refine ⟨_, rfl, ?_⟩
  obtain ⟨hd, hc⟩ := sum_groupedBalances hlive (· ≤ asOf)
  refine (exactRows_groupedBalances hvalid hdigits (· ≤ asOf)).balanced ?_ asOf _
  rw [hd, hc]
  exact total_balanced hbalanced (· ≤ asOf)

end Reports

end AccountingApi
