import AccountingApi.DoubleEntry

/-!
# Movements

What the credits of some accounts exceed their debits by, over some dates, is additive in the accounts
and in the dates. The reports add up such nets, by way of the grouped balances, and are exact as long
as the totals of the ledger fit the arithmetic.

## Main definitions

* `Ledger`: what the reports rely on
* `Db.net`: the net of the accounts of one kind
* `Between`: the days of a range of moments
* `Apart`: the dates of two ranges that make up a third one

## Main results

* `Apart.net`, `net_add`: the net is additive in the dates, and in the accounts
* `net_all`: the net of all accounts is zero
* `Ledger.sum_credit_sub`: the reports' totals of the grouped balances are nets
-/

namespace AccountingApi

open ReadCommitted Balances

/-- What the reports rely on: the lines of the counting entries are valid, the entries are of this
century, and the totals have no more digits than the arithmetic. -/
structure Ledger (db : Db) : Prop where
  valid : LinesValid db
  century : ∀ ⦃id : Uuid⦄ ⦃e : JournalEntry⦄, Db.entry db id = some e → e.Counts →
    2000 ≤ e.date.year
  digits : WithinDigits db

/-- What the credits of the accounts that satisfy `keep` exceed their debits by, over some dates. -/
def Db.net (db : Db) (keep : Account → Bool) (p : UtcDay → Prop) [DecidablePred p] : ℤ :=
  (((Db.accounts db).filter fun a => keep a.2).map fun a => creditNet db a.1 p).sum

/-- The days of a range, the times of day aside. -/
def Between (f t : Instant) (d : UtcDay) : Prop := f.day ≤ d ∧ d ≤ t.day

instance (f t : Instant) : DecidablePred (Between f t) :=
  fun _ => inferInstanceAs (Decidable (_ ∧ _))

/-! ## The dates -/

/-- The predicates agree on the dates of the counting entries. -/
def Agree (db : Db) (p q : UtcDay → Prop) : Prop :=
  ∀ ⦃id : Uuid⦄ ⦃e : JournalEntry⦄, Db.entry db id = some e → e.Counts → (p e.date ↔ q e.date)

/-- The dates of `r` are those of `p` and those of `q`, which have none in common. -/
def Apart (db : Db) (p q r : UtcDay → Prop) : Prop :=
  ∀ ⦃id : Uuid⦄ ⦃e : JournalEntry⦄, Db.entry db id = some e → e.Counts →
    (r e.date ↔ p e.date ∨ q e.date) ∧ ¬ (p e.date ∧ q e.date)

section Dates

variable {db : Db} {p q r : UtcDay → Prop} [DecidablePred p] [DecidablePred q] [DecidablePred r]

theorem Agree.sideOn (h : Agree db p q) (accountId : Uuid) (side : JournalLine → ℤ) :
    Db.sideOn db accountId side p = Db.sideOn db accountId side q := by
  rw [sideOn_eq_sum, sideOn_eq_sum]
  refine Finset.sum_congr rfl fun id _ => ?_
  cases he : Db.entry db id with
  | none => rfl
  | some e =>
    simp only [Table.rowTerm_some]
    by_cases hcounts : e.Counts
    · simp only [h he hcounts]
    · simp only [hcounts, false_and]

theorem Agree.hasLine (h : Agree db p q) (accountId : Uuid) :
    Db.hasLine db accountId p = Db.hasLine db accountId q := by
  rw [Bool.eq_iff_iff, hasLine_iff, hasLine_iff]
  constructor
  · rintro ⟨id, e, he, hcounts, hp, hl⟩
    exact ⟨id, e, he, hcounts, (h he hcounts).mp hp, hl⟩
  · rintro ⟨id, e, he, hcounts, hq, hl⟩
    exact ⟨id, e, he, hcounts, (h he hcounts).mpr hq, hl⟩

/-- The grouped balances depend on the dates of the counting entries only. -/
theorem Agree.groupedBalances (h : Agree db p q) :
    groupedBalances db p = groupedBalances db q := by
  unfold Balances.groupedBalances
  simp only [h.hasLine, h.sideOn]

theorem Apart.sideOn (h : Apart db p q r) (accountId : Uuid) (side : JournalLine → ℤ) :
    Db.sideOn db accountId side r =
      Db.sideOn db accountId side p + Db.sideOn db accountId side q := by
  rw [sideOn_eq_sum, sideOn_eq_sum, sideOn_eq_sum, ← Finset.sum_add_distrib]
  refine Finset.sum_congr rfl fun id _ => ?_
  cases he : Db.entry db id with
  | none => rfl
  | some e =>
    simp only [Table.rowTerm_some]
    by_cases hcounts : e.Counts
    · obtain ⟨hor, hnot⟩ := h he hcounts
      by_cases hp : p e.date
      · have hq : ¬ q e.date := fun hq => hnot ⟨hp, hq⟩
        simp only [hcounts, hor, hp, hq, true_or, and_self, and_false, if_true, if_false, add_zero]
      · simp only [hcounts, hor, hp, false_or, true_and, and_false, if_false, zero_add]
    · simp only [hcounts, false_and, if_false, add_zero]

theorem Apart.creditNet (h : Apart db p q r) (accountId : Uuid) :
    creditNet db accountId r = creditNet db accountId p + creditNet db accountId q := by
  unfold AccountingApi.creditNet
  rw [h.sideOn, h.sideOn]
  ring

/-- **The net is additive in the dates.** -/
theorem Apart.net (h : Apart db p q r) (keep : Account → Bool) :
    Db.net db keep r = Db.net db keep p + Db.net db keep q := by
  unfold Db.net
  rw [← List.sum_map_add]
  simp only [h.creditNet]

end Dates

/-- The days of a range are those the statements take for it. -/
theorem agree_between {db : Db} (hcentury : ∀ ⦃id : Uuid⦄ ⦃e : JournalEntry⦄,
    Db.entry db id = some e → e.Counts → 2000 ≤ e.date.year) (f t : Instant) :
    Agree db (fun d => truncateToUtcDay f ≤ d ∧ d ≤ truncateToUtcDay t) (Between f t) :=
  fun _ _ he hcounts => and_congr (truncateToUtcDay_compare (hcentury he hcounts) f).2
    (truncateToUtcDay_compare (hcentury he hcounts) t).1

/-! ## The accounts -/

section Accounts

variable {db : Db} {p : UtcDay → Prop} [DecidablePred p]

/-- **The net is additive in the accounts.** -/
theorem net_add {keep keep₁ keep₂ : Account → Bool}
    (h : ∀ a, keep a = (keep₁ a || keep₂ a) ∧ ¬ (keep₁ a = true ∧ keep₂ a = true)) :
    Db.net db keep p = Db.net db keep₁ p + Db.net db keep₂ p := by
  unfold Db.net
  induction Db.accounts db with
  | nil => rfl
  | cons a as ih =>
    obtain ⟨hor, hnot⟩ := h a.2
    simp only [List.filter_cons, hor]
    cases h₁ : keep₁ a.2 with
    | false =>
      cases h₂ : keep₂ a.2 with
      | false => simpa using ih
      | true =>
        simp only [Bool.or_true, if_true, if_false, Bool.false_eq_true, List.map_cons, List.sum_cons,
          ih]
        ring
    | true =>
      have h₂ : keep₂ a.2 = false := Bool.eq_false_iff.mpr fun h₂ => hnot ⟨h₁, h₂⟩
      simp only [h₂, Bool.or_false, if_true, if_false, Bool.false_eq_true, List.map_cons,
        List.sum_cons, ih]
      ring

/-- The net depends on which accounts of the chart are kept. -/
theorem net_congr {keep keep' : Account → Bool}
    (h : ∀ a ∈ Db.accounts db, keep a.2 = keep' a.2) : Db.net db keep p = Db.net db keep' p := by
  unfold Db.net
  rw [List.filter_congr h]

/-- There is no net of no accounts. -/
theorem net_of_none {keep : Account → Bool} (h : ∀ a ∈ Db.accounts db, keep a.2 = false) :
    Db.net db keep p = 0 := by
  have hnil : ((Db.accounts db).filter fun a => keep a.2) = [] :=
    List.filter_eq_nil_iff.mpr fun a ha => by rw [h a ha]; exact Bool.false_ne_true
  rw [Db.net, hnil]
  rfl

/-- The net of some accounts, as the difference of their sums. -/
theorem net_eq_sub (keep : Account → Bool) : Db.net db keep p =
    (((Db.accounts db).filter fun a => keep a.2).map fun a => Db.sideOn db a.1 (·.credit) p).sum -
      (((Db.accounts db).filter fun a => keep a.2).map fun a =>
        Db.sideOn db a.1 (·.debit) p).sum := by
  unfold Db.net creditNet
  rw [eq_sub_iff_add_eq, ← List.sum_map_add]
  simp only [sub_add_cancel]

/-- **The net of all accounts is zero**, when the entries are balanced and on accounts that are not
deleted. -/
theorem net_all (hbalanced : EntriesBalanced db) (hlive : LinesLive db) :
    Db.net db (fun _ => true) p = 0 := by
  rw [net_eq_sub, List.filter_true, sum_accounts hlive, sum_accounts hlive,
    total_balanced hbalanced, sub_self]

/-- The grouped balances are the rows of the accounts with a line. -/
theorem mem_groupedBalances {r : AccountBalanceRow} : r ∈ groupedBalances db p ↔
    ∃ a ∈ Db.accounts db, Db.hasLine db a.1 p = true ∧ r = accountRow db p a := by
  simp only [groupedBalances, List.mem_map, List.mem_insertionSort, List.mem_filter]
  constructor
  · rintro ⟨a, ⟨ha, hline⟩, rfl⟩
    exact ⟨a, ha, hline, rfl⟩
  · rintro ⟨a, ha, hline, rfl⟩
    exact ⟨a, ⟨ha, hline⟩, rfl⟩

/-- **The sums of the grouped balances of one kind are the net of its accounts.** -/
theorem sum_rows {q : AccountBalanceRow → Bool} {keep : Account → Bool}
    (hq : ∀ a, q (accountRow db p a) = keep a.2) :
    (((groupedBalances db p).filter q).map (·.credit)).sum -
      (((groupedBalances db p).filter q).map (·.debit)).sum = Db.net db keep p := by
  rw [sum_groupedBalances_filter p q fun _ _ hc => hc,
    sum_groupedBalances_filter p q fun _ hd _ => hd, net_eq_sub]
  simp only [hq]
  rfl

end Accounts

/-! ## The arithmetic -/

namespace Ledger

variable {db : Db} (h : Ledger db) {p : UtcDay → Prop} [DecidablePred p]
include h

/-- The sums of some accounts fit the arithmetic. -/
theorem sum_filter_lt (side : JournalLine → ℤ) (hside : ∀ l : JournalLine, l.Valid → 0 ≤ side l)
    {n : ℤ} (htotal : Db.total db side (fun _ => True) < n) (keep : Account → Bool) :
    0 ≤ (((Db.accounts db).filter fun a => keep a.2).map fun a => Db.sideOn db a.1 side p).sum ∧
      (((Db.accounts db).filter fun a => keep a.2).map fun a => Db.sideOn db a.1 side p).sum < n := by
  have hnonneg : ∀ a : Uuid × Account, 0 ≤ Db.sideOn db a.1 side p := fun a =>
    sideOn_nonneg h.valid hside a.1 p
  refine ⟨List.sum_nonneg (List.forall_mem_map.mpr fun a _ => hnonneg a), ?_⟩
  have hsub : (((Db.accounts db).filter fun a => keep a.2).map fun a =>
      Db.sideOn db a.1 side p).sum ≤ ((Db.accounts db).map fun a => Db.sideOn db a.1 side p).sum :=
    List.Sublist.sum_le_sum (List.filter_sublist.map _)
      (List.forall_mem_map.mpr fun a _ => hnonneg a)
  have hall := sum_accounts_le (fun he hc l hl => hside l (h.valid he hc l hl)) p
  have hle := total_le_total (fun he hc =>
    List.sum_nonneg (List.forall_mem_map.mpr fun l hl => hside l (h.valid he hc l hl))) p
  exact ((hsub.trans hall).trans hle).trans_lt htotal

omit [DecidablePred p] in
/-- The sums of an account are part of the totals. -/
theorem sideOn_le_total {side : JournalLine → ℤ} (hside : ∀ l : JournalLine, l.Valid → 0 ≤ side l)
    (accountId : Uuid) (p : UtcDay → Prop) [DecidablePred p] :
    Db.sideOn db accountId side p ≤ Db.total db side p := by
  rw [sideOn_eq_sum, total_eq_sum]
  refine Finset.sum_le_sum fun id _ => ?_
  cases he : Db.entry db id with
  | none => exact le_rfl
  | some e =>
    simp only [Table.rowTerm_some]
    by_cases hcounts : e.Counts ∧ p e.date
    · rw [if_pos hcounts, if_pos hcounts]
      exact List.Sublist.sum_le_sum (List.filter_sublist.map side)
        (List.forall_mem_map.mpr fun l hl => hside l (h.valid he hcounts.1 l hl))
    · rw [if_neg hcounts, if_neg hcounts]

/-- The sums of an account fit the arithmetic. -/
theorem sideOn_lt (accountId : Uuid) :
    (0 ≤ Db.sideOn db accountId (·.debit) p ∧ Db.sideOn db accountId (·.debit) p < 10 ^ 20) ∧
      (0 ≤ Db.sideOn db accountId (·.credit) p ∧
        Db.sideOn db accountId (·.credit) p < 10 ^ 20) := by
  have hdebit := total_le_total (fun he hc => (h.valid.side_nonneg he hc).1) p
  have hcredit := total_le_total (fun he hc => (h.valid.side_nonneg he hc).2) p
  refine ⟨⟨sideOn_nonneg h.valid (fun l hl => hl.1.1) accountId p, ?_⟩,
    ⟨sideOn_nonneg h.valid (fun l hl => hl.1.2.1) accountId p, ?_⟩⟩
  · exact ((h.sideOn_le_total (fun l hl => hl.1.1) accountId p).trans hdebit).trans_lt h.digits.1
  · exact ((h.sideOn_le_total (fun l hl => hl.1.2.1) accountId p).trans hcredit).trans_lt h.digits.2

/-- The difference of the sums of an account is exact. -/
theorem subtract_sides (accountId : Uuid) :
    Money.subtract (Db.sideOn db accountId (·.credit) p) (Db.sideOn db accountId (·.debit) p) =
        creditNet db accountId p ∧
      Money.subtract (Db.sideOn db accountId (·.debit) p) (Db.sideOn db accountId (·.credit) p) =
        -creditNet db accountId p := by
  obtain ⟨⟨hd₀, hd⟩, hc₀, hc⟩ := h.sideOn_lt (p := p) accountId
  unfold creditNet
  constructor
  · exact Money.subtract_eq (by unfold Money.Storable; omega)
  · rw [neg_sub]
    exact Money.subtract_eq (by unfold Money.Storable; omega)

/-- A net is storable. -/
theorem net_storable (keep : Account → Bool) : Money.Storable (Db.net db keep p) := by
  obtain ⟨hc₀, hc⟩ := h.sum_filter_lt (p := p) (·.credit) (fun l hl => hl.1.2.1) h.digits.2 keep
  obtain ⟨hd₀, hd⟩ := h.sum_filter_lt (p := p) (·.debit) (fun l hl => hl.1.1) h.digits.1 keep
  rw [net_eq_sub, Money.Storable]
  omega

/-- The net of two kinds of accounts, as the reports add it up. -/
theorem add_net {keep keep₁ keep₂ : Account → Bool}
    (hkeep : ∀ a, keep a = (keep₁ a || keep₂ a) ∧ ¬ (keep₁ a = true ∧ keep₂ a = true)) :
    Money.add (Db.net db keep₁ p) (Db.net db keep₂ p) = Db.net db keep p := by
  have hsum : Db.net db keep p = Db.net db keep₁ p + Db.net db keep₂ p := net_add hkeep
  rw [Money.add_eq (hsum ▸ h.net_storable keep), hsum]

/-- The same, where the net of the second kind is an expense. -/
theorem subtract_net {keep keep₁ keep₂ : Account → Bool}
    (hkeep : ∀ a, keep a = (keep₁ a || keep₂ a) ∧ ¬ (keep₁ a = true ∧ keep₂ a = true)) :
    Money.subtract (Db.net db keep₁ p) (-Db.net db keep₂ p) = Db.net db keep p := by
  have hadd := h.add_net (p := p) hkeep
  rwa [Money.add, ← sub_neg_eq_add] at hadd

/-- The total of the credits less the debits of rows of one kind. -/
theorem sum_credit_sub {q : AccountBalanceRow → Bool} {keep : Account → Bool}
    (hq : ∀ a, q (accountRow db p a) = keep a.2) {f : AccountBalanceRow → ℤ}
    (hf : ∀ a ∈ Db.accounts db, keep a.2 = true → f (accountRow db p a) =
      Money.subtract (Db.sideOn db a.1 (·.credit) p) (Db.sideOn db a.1 (·.debit) p)) :
    Money.sum (((groupedBalances db p).filter q).map f) = Db.net db keep p := by
  have hrows := (exactRows_groupedBalances h.valid h.digits p).filter q
  refine (hrows.sum_credit_sub fun r hr => ?_).trans (sum_rows hq)
  obtain ⟨hr, hkeep⟩ := List.mem_filter.mp hr
  obtain ⟨a, ha, -, rfl⟩ := mem_groupedBalances.mp hr
  exact hf a ha ((hq a).symm.trans hkeep)

/-- The total of the debits less the credits of rows of one kind. -/
theorem sum_debit_sub {q : AccountBalanceRow → Bool} {keep : Account → Bool}
    (hq : ∀ a, q (accountRow db p a) = keep a.2) {f : AccountBalanceRow → ℤ}
    (hf : ∀ a ∈ Db.accounts db, keep a.2 = true → f (accountRow db p a) =
      Money.subtract (Db.sideOn db a.1 (·.debit) p) (Db.sideOn db a.1 (·.credit) p)) :
    Money.sum (((groupedBalances db p).filter q).map f) = -Db.net db keep p := by
  have hrows := (exactRows_groupedBalances h.valid h.digits p).filter q
  rw [← sum_rows hq, neg_sub]
  refine hrows.sum_debit_sub fun r hr => ?_
  obtain ⟨hr, hkeep⟩ := List.mem_filter.mp hr
  obtain ⟨a, ha, -, rfl⟩ := mem_groupedBalances.mp hr
  exact hf a ha ((hq a).symm.trans hkeep)

/-! The dates of the reports, whatever the times of day are. -/

omit [DecidablePred p]

theorem agree_asOf (t : Instant) : Agree db (· ≤ truncateToUtcDay t) (· ≤ t.day) :=
  fun _ _ he hcounts => (truncateToUtcDay_compare (h.century he hcounts) t).1

theorem agree_before (f : Instant) :
    Agree db (· ≤ truncateToUtcDay (dayBefore f)) fun d => ¬ f.day ≤ d :=
  fun _ _ he hcounts => le_dayBefore_iff (h.century he hcounts) f

theorem movementsBetween_eq (f t : Instant) :
    movementsBetween db (truncateToUtcDay f) (truncateToUtcDay t) =
      groupedBalances db (Between f t) :=
  (agree_between h.century f t).groupedBalances

/-- The movements since the start of a fiscal year. -/
theorem movementsBetween_fiscalYear (fiscalYear : ℤ) (startMonth : StartMonth) (asOf : UtcDay) :
    movementsBetween db (fiscalYearStartDate fiscalYear startMonth) asOf =
      groupedBalances db fun d => fiscalYearFirstDay fiscalYear startMonth ≤ d ∧ d ≤ asOf :=
  Agree.groupedBalances fun _ _ he hcounts =>
    and_congr_left' (fiscalYearStartDate_le_iff (h.century he hcounts) fiscalYear startMonth)

theorem balancesAsOf_eq (t : Instant) :
    balancesAsOf db (truncateToUtcDay t) = groupedBalances db (· ≤ t.day) :=
  (h.agree_asOf t).groupedBalances

theorem balancesBefore_eq (f : Instant) :
    balancesAsOf db (truncateToUtcDay (dayBefore f)) = groupedBalances db fun d => ¬ f.day ≤ d :=
  (h.agree_before f).groupedBalances

end Ledger

/-! ## Ranges -/

section Ranges

variable (db : Db) {f t f' t' : Instant}

/-- The days up to the end of a range are those before it and those in it. -/
theorem apart_before (hle : f ≤ t) :
    Apart db (fun d => ¬ f.day ≤ d) (Between f t) (· ≤ t.day) := by
  have hday := Instant.day_le hle
  intro id e _ _
  simp only [Between, UtcDay.le_iff] at hday ⊢
  omega

/-- The days of two ranges, one right after the other. -/
theorem apart_next (hle : f ≤ t) (hle' : f' ≤ t') (hnext : f'.day = t.day.next) :
    Apart db (Between f t) (Between f' t') (Between f t') := by
  have hday := Instant.day_le hle
  have hday' := Instant.day_le hle'
  intro id e _ _
  simp only [Between, hnext, UtcDay.le_iff_epochDay, UtcDay.epochDay_next] at hday hday' ⊢
  omega

/-- The days before a range are those up to the end of the one right before it. -/
theorem agree_next (hnext : f'.day = t.day.next) :
    Agree db (fun d => ¬ f'.day ≤ d) (· ≤ t.day) := by
  intro id e _ _
  simp only [hnext, UtcDay.next_le_iff, not_not]

end Ranges

end AccountingApi
