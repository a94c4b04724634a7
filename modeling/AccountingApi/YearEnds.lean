import AccountingApi.FiscalConsistency
import AccountingApi.NetIncome

/-!
# The close of a year

A close takes from every profit and loss account what the year has brought to it, as long as the sums
fit the arithmetic. The net income it records, and brings to retained earnings, is the net of these
accounts. The closing entry counts like any other one, so that the statements of the year are empty
after its close.

## Main definitions

* `linesNetOn`: what some lines credit an account with, less what they debit it with
* `ClosesBooks`: what a close makes of the ledger
* `ReportsClosed`: what the statements of a year say around its close

## Main results

* `closingOf_net`: the net income and the closing lines of a year
* `Closed.closesBooks`, `Transacts.closesBooks`: every close on the store it has read
* `reportsClosed_of_reachable`: the statements around the closes of a run
* `statements_after_close`: a close changes them
-/

namespace AccountingApi

open ReadCommitted Posting YearEndClose Balances

/-- What some lines credit an account with, less what they debit it with. -/
def linesNetOn (lines : List PostLineInput) (accountId : Uuid) : ℤ :=
  linesSideOn lines accountId (·.credit) - linesSideOn lines accountId (·.debit)

/-- What a close makes of a ledger: settings and accounts are the same, the record has the net of the
profit and loss accounts over the year, which goes from these to retained earnings on the last day of
the year, and no other account is changed. -/
structure ClosesBooks (db : Db) (startMonth : StartMonth) (fiscalYear : ℤ) (db' : Db) : Prop where
  settings : Db.settings db' = Db.settings db
  accounts : Db.accounts db' = Db.accounts db
  record : ∃ rec, Db.closing db' fiscalYear = some rec ∧ rec.status = .closed ∧
    rec.netIncome = Db.net db Account.isPnl (InYear startMonth fiscalYear)
  pnl : ∀ a ∈ Db.accounts db, a.2.isPnl = true → ∀ (p : UtcDay → Prop) [DecidablePred p],
    creditNet db' a.1 p = creditNet db a.1 p - if p (fiscalYearLastDay fiscalYear startMonth) then
      creditNet db a.1 (InYear startMonth fiscalYear) else 0
  retained : ∀ {id a}, Db.accountOfRole db .retainedEarnings = some (id, a) →
    ∀ (p : UtcDay → Prop) [DecidablePred p], creditNet db' id p = creditNet db id p +
      if p (fiscalYearLastDay fiscalYear startMonth) then
        Db.net db Account.isPnl (InYear startMonth fiscalYear) else 0
  found : Db.net db Account.isPnl (InYear startMonth fiscalYear) ≠ 0 →
    Db.accountOfRole db .retainedEarnings ≠ none
  other : ∀ {id}, (∀ a ∈ Db.accounts db, a.1 = id → a.2.isPnl = false) →
    (∀ a, Db.accountOfRole db .retainedEarnings ≠ some (id, a)) →
    ∀ (side : JournalLine → ℤ) (p : UtcDay → Prop) [DecidablePred p],
      Db.sideOn db' id side p = Db.sideOn db id side p

/-- The movement of an account in the year, if it is a profit and loss account. -/
def Db.pnlMovement (db : Db) (startMonth : StartMonth) (fiscalYear : ℤ) (accountId : Uuid) : ℤ :=
  (((Db.accounts db).filter fun a => a.2.isPnl && a.1 = accountId).map fun a =>
    creditNet db a.1 (InYear startMonth fiscalYear)).sum

/-- Retained earnings are no profit and loss account. -/
def RetainedApart (db : Db) : Prop :=
  ∀ a ∈ Db.accountOfRole db .retainedEarnings, a.2.isPnl = false

instance (db : Db) : Decidable (RetainedApart db) :=
  inferInstanceAs (Decidable (∀ a ∈ Db.accountOfRole db .retainedEarnings, a.2.isPnl = false))

/-! ## The closing lines -/

theorem linesSideOn_append {side : JournalLine → ℤ} {f : PostLineInput → ℤ}
    (hf : ∀ (l : PostLineInput) (n : ℕ), side (l.toJournalLine n) = f l)
    (lines lines' : List PostLineInput) (accountId : Uuid) :
    linesSideOn (lines ++ lines') accountId side =
      linesSideOn lines accountId side + linesSideOn lines' accountId side := by
  simp only [linesSideOn_eq hf, List.filter_append, List.map_append, List.sum_append]

theorem linesNetOn_append (lines lines' : List PostLineInput) (accountId : Uuid) :
    linesNetOn (lines ++ lines') accountId =
      linesNetOn lines accountId + linesNetOn lines' accountId := by
  unfold linesNetOn
  rw [linesSideOn_append (f := PostLineInput.creditOrZero) fun _ _ => rfl,
    linesSideOn_append (f := PostLineInput.debitOrZero) fun _ _ => rfl]
  ring

/-- The net of a single line. -/
theorem linesNetOn_singleton (l : PostLineInput) (accountId : Uuid) :
    linesNetOn [l] accountId =
      if l.accountId = accountId then l.creditOrZero - l.debitOrZero else 0 := by
  unfold linesNetOn
  rw [linesSideOn_eq (f := PostLineInput.creditOrZero) fun _ _ => rfl,
    linesSideOn_eq (f := PostLineInput.debitOrZero) fun _ _ => rfl]
  by_cases hid : l.accountId = accountId
  · simp [hid]
  · simp [hid]

/-- The zeroing line of an account takes its position away. -/
theorem zeroingLine_net {n : ℤ} (h : Money.Storable n) (id accountId : Uuid) :
    linesNetOn [zeroingLine id n] accountId = if id = accountId then n else 0 := by
  rw [linesNetOn_singleton]
  unfold zeroingLine
  split
  · simp [PostLineInput.creditOrZero, PostLineInput.debitOrZero, Money.multiply_neg_one h]
  · simp [PostLineInput.creditOrZero, PostLineInput.debitOrZero]

/-- **The closing lines** add up to the net income, and take the net of each row away. The amounts so
far are kept as a difference of two sums that are not negative. -/
theorem closingLines_net {rows : List AccountBalanceRow} {lines : List PostLineInput} {a b : ℤ}
    (ha : 0 ≤ a) (hb : 0 ≤ b) (hcredit : ∀ r ∈ rows, 0 ≤ r.credit) (hdebit : ∀ r ∈ rows, 0 ≤ r.debit)
    (halt : a + (rows.map (·.credit)).sum < 10 ^ 20) (hblt : b + (rows.map (·.debit)).sum < 10 ^ 20)
    (accountId : Uuid) :
    (closingLines lines (a - b) rows).2 =
        a + (rows.map (·.credit)).sum - (b + (rows.map (·.debit)).sum) ∧
      linesNetOn (closingLines lines (a - b) rows).1 accountId = linesNetOn lines accountId +
        ((rows.filter fun r => r.accountId = accountId).map fun r => r.debit - r.credit).sum := by
  induction rows generalizing lines a b with
  | nil => simp [closingLines]
  | cons r rows ih =>
    obtain ⟨hc, hcredit⟩ := List.forall_mem_cons.mp hcredit
    obtain ⟨hd, hdebit⟩ := List.forall_mem_cons.mp hdebit
    have hcsum : 0 ≤ (rows.map (·.credit)).sum := List.sum_nonneg (List.forall_mem_map.mpr hcredit)
    have hdsum : 0 ≤ (rows.map (·.debit)).sum := List.sum_nonneg (List.forall_mem_map.mpr hdebit)
    simp only [List.map_cons, List.sum_cons] at halt hblt ⊢
    have hexact : position r = r.debit - r.credit :=
      Money.subtract_eq (by simp only [Money.Storable]; omega)
    have hstorable : Money.Storable (position r) := by
      rw [hexact, Money.Storable]
      omega
    have hnext : a - b - position r = a + r.credit - (b + r.debit) := by
      rw [hexact]
      ring
    have hsubtract : Money.subtract (a - b) (position r) = a + r.credit - (b + r.debit) := by
      rw [← hnext]
      refine Money.subtract_eq ?_
      rw [hnext, Money.Storable]
      omega
    have hrow : (((r :: rows).filter fun r => r.accountId = accountId).map fun r =>
        r.debit - r.credit).sum = (if r.accountId = accountId then position r else 0) +
          ((rows.filter fun r => r.accountId = accountId).map fun r => r.debit - r.credit).sum := by
      rw [List.filter_cons, hexact]
      by_cases hid : r.accountId = accountId
      · simp [hid]
      · simp [hid]
    rw [hrow]
    have ih := fun lines' => @ih lines' (a + r.credit) (b + r.debit) (by omega) (by omega) hcredit
      hdebit (by omega) (by omega)
    unfold closingLines
    split
    · rename_i hzero
      -- the row is skipped, as its two sides are equal
      have hzero : position r = 0 := of_decide_eq_true hzero
      rw [hzero, sub_zero] at hnext
      rw [hzero, ite_self, zero_add, hnext]
      obtain ⟨hnet, hlines⟩ := ih lines
      exact ⟨by rw [hnet]; ring, hlines⟩
    · rw [hsubtract]
      obtain ⟨hnet, hlines⟩ := ih (lines ++ [zeroingLine r.accountId (position r)])
      refine ⟨by rw [hnet]; ring, ?_⟩
      rw [hlines, linesNetOn_append, zeroingLine_net hstorable]
      ring

/-! ## The closing of a year -/

/-- The account of an index is the only one of the chart that has it. -/
theorem filter_accounts {db : Db} {a : Uuid × Account} (ha : a ∈ Db.accounts db) :
    ((Db.accounts db).filter fun b => b.1 = a.1) = [a] := by
  have hnodup := nodup_accounts db
  generalize Db.accounts db = accounts at ha hnodup ⊢
  induction accounts with
  | nil => cases ha
  | cons b as ih =>
    rw [List.map_cons, List.nodup_cons] at hnodup
    rcases List.mem_cons.mp ha with rfl | hmem
    · have hnone : (as.filter fun b => b.1 = a.1) = [] :=
        List.filter_eq_nil_iff.mpr fun b hb hid =>
          hnodup.1 (of_decide_eq_true hid ▸ List.mem_map_of_mem hb)
      rw [List.filter_cons_of_pos (by simp), hnone]
    · have hne : b.1 ≠ a.1 := fun hid => hnodup.1 (hid ▸ List.mem_map_of_mem hmem)
      rw [List.filter_cons_of_neg (by simpa using hne), ih hmem hnodup.2]

/-- What the rows of the profit and loss accounts say about one account. -/
theorem sum_pnlRows (db : Db) (p : UtcDay → Prop) [DecidablePred p] (accountId : Uuid) :
    (((groupedBalances db p).filter fun r => isPnl r.type && r.accountId = accountId).map fun r =>
      r.debit - r.credit).sum = -(((Db.accounts db).filter fun a =>
        a.2.isPnl && a.1 = accountId).map fun a => creditNet db a.1 p).sum := by
  rw [sum_groupedBalances_filter p _ fun r hd hc => by rw [hd, hc, sub_zero], List.sum_neg,
    List.map_map]
  refine congrArg List.sum (List.map_congr_left fun a _ => ?_)
  exact (neg_sub _ _).symm

section Years

variable {db : Db} (startMonth : StartMonth) (fiscalYear : ℤ)

/-- An account that is no profit and loss account has no closing line. -/
theorem accountId_ne_of_not_pnl {accountId : Uuid}
    (hother : ∀ a ∈ Db.accounts db, a.1 = accountId → a.2.isPnl = false) {l : PostLineInput}
    (hl : l ∈ (closingOf db startMonth fiscalYear).1) : l.accountId ≠ accountId := by
  intro hid
  rcases accountId_of_mem_closingLines hl with hnil | ⟨r, hr, hrid⟩
  · cases hnil
  · obtain ⟨hr, hpnl⟩ := List.mem_filter.mp hr
    obtain ⟨a, ha, -, rfl⟩ := mem_groupedBalances.mp hr
    have hpnl : a.2.isPnl = true := hpnl
    rw [hother a ha (hrid.trans hid)] at hpnl
    cases hpnl

/-- **The net income and the closing lines of a year**: these take from every profit and loss account
what the year has brought to it. -/
theorem closingOf_net (hvalid : LinesValid db) (hdigits : WithinDigits db) :
    (closingOf db startMonth fiscalYear).2 =
        Db.net db Account.isPnl (InYear startMonth fiscalYear) ∧
      ∀ accountId, linesNetOn (closingOf db startMonth fiscalYear).1 accountId =
        -Db.pnlMovement db startMonth fiscalYear accountId := by
  have hrows : ExactRows ((groupedBalances db (InYear startMonth fiscalYear)).filter fun r =>
      isPnl r.type) := (exactRows_groupedBalances hvalid hdigits _).filter _
  have hall := fun accountId => @closingLines_net _ [] 0 0 le_rfl le_rfl hrows.credit_nonneg
    hrows.debit_nonneg (by rw [zero_add]; exact hrows.credit_lt)
    (by rw [zero_add]; exact hrows.debit_lt) accountId
  simp only [zero_add, sub_zero] at hall
  refine ⟨(hall 0).1.trans (sum_rows fun _ => rfl), fun accountId => ?_⟩
  refine (hall accountId).2.trans ?_
  rw [show linesNetOn [] accountId = 0 from rfl, zero_add, List.filter_filter]
  simp only [Bool.and_comm (decide _)]
  exact sum_pnlRows db _ accountId

/-- The movement of one of the profit and loss accounts. -/
theorem pnlMovement_eq {a : Uuid × Account} (ha : a ∈ Db.accounts db) (hpnl : a.2.isPnl = true) :
    Db.pnlMovement db startMonth fiscalYear a.1 =
      creditNet db a.1 (InYear startMonth fiscalYear) := by
  have hone : ((Db.accounts db).filter fun b => b.2.isPnl && b.1 = a.1) = [a] := by
    rw [← List.filter_filter, filter_accounts ha]
    exact List.filter_eq_self.mpr (List.forall_mem_singleton.mpr hpnl)
  rw [Db.pnlMovement, hone, List.map_singleton, List.sum_singleton]

end Years

/-! ## The close -/

/-- Lines on other accounts add nothing to an account. -/
theorem linesSideOn_of_ne {lines : List PostLineInput} {accountId : Uuid}
    (h : ∀ l ∈ lines, l.accountId ≠ accountId) (side : JournalLine → ℤ) :
    linesSideOn lines accountId side = 0 := by
  unfold linesSideOn
  rw [List.filter_eq_nil_iff.mpr, List.map_nil, List.sum_nil]
  intro l hl
  obtain ⟨i, hi, rfl⟩ := List.mem_mapIdx.mp hl
  simpa using! h _ (List.getElem_mem hi)

section Close

variable {db db' : Db} {startMonth : StartMonth} {retainedId : Uuid} {fiscalYear : ℤ}

@[simp] theorem retainedLine_accountId (retainedId : Uuid) (netIncome : ℤ) :
    (retainedLine retainedId netIncome).accountId = retainedId := by
  unfold retainedLine
  split <;> rfl

/-- What the retained-earnings line adds to an account. -/
theorem linesNetOn_retained {netIncome : ℤ} (h : Money.Storable netIncome) (accountId : Uuid) :
    linesNetOn (if netIncome = 0 then [] else [retainedLine retainedId netIncome]) accountId =
      if retainedId = accountId then netIncome else 0 := by
  by_cases hzero : netIncome = 0
  · rw [if_pos hzero, hzero, ite_self]
    rfl
  · rw [if_neg hzero, linesNetOn_singleton, retainedLine_accountId, retainedLine_net h]

/-- What the close of one year adds to the net of an account. -/
theorem Closed.creditNet_eq (h : Closed db startMonth retainedId [fiscalYear] db')
    (accountId : Uuid) (p : UtcDay → Prop) [DecidablePred p] :
    creditNet db' accountId p = creditNet db accountId p +
      if p (fiscalYearLastDay fiscalYear startMonth) then
        linesNetOn (closingEntryLines db startMonth retainedId fiscalYear) accountId else 0 := by
  rw [creditNet, h.sums, h.sums, creditNet, List.map_singleton, List.map_singleton,
    List.sum_singleton, List.sum_singleton, closingSideOn, closingSideOn]
  split
  · rw [linesNetOn]
    ring
  · ring

/-- **What the close of one year makes of a ledger**, where retained earnings are no profit and loss
account. -/
theorem Closed.closesBooks (h : Closed db startMonth retainedId [fiscalYear] db') (hledger : Ledger db)
    (hapart : RetainedApart db)
    (hid : ∀ id a, Db.accountOfRole db .retainedEarnings = some (id, a) → id = retainedId)
    (hfound : (closingOf db startMonth fiscalYear).2 ≠ 0 →
      Db.accountOfRole db .retainedEarnings ≠ none) :
    ClosesBooks db startMonth fiscalYear db' := by
  obtain ⟨hnet, hpnl⟩ := closingOf_net startMonth fiscalYear hledger.valid hledger.digits
  have hstorable : Money.Storable (closingOf db startMonth fiscalYear).2 :=
    hnet ▸ hledger.net_storable Account.isPnl
  have hlines : ∀ accountId, linesNetOn (closingEntryLines db startMonth retainedId fiscalYear)
      accountId = linesNetOn (closingOf db startMonth fiscalYear).1 accountId +
        if retainedId = accountId then (closingOf db startMonth fiscalYear).2 else 0 := fun _ => by
    rw [closingEntryLines, linesNetOn_append, linesNetOn_retained hstorable]
  -- the account of retained earnings, where a line is on it
  have hrole : (closingOf db startMonth fiscalYear).2 ≠ 0 →
      ∃ a, Db.accountOfRole db .retainedEarnings = some (retainedId, a) := by
    intro hne
    obtain ⟨⟨id, a⟩, ha⟩ := Option.ne_none_iff_exists'.mp (hfound hne)
    obtain rfl := hid id a ha
    exact ⟨a, ha⟩
  have hunique : ∀ {id a}, Db.accountOfRole db .retainedEarnings = some (id, a) →
      ∀ b ∈ Db.accounts db, b.1 = id → b.2.isPnl = false := by
    intro id a ha b hb hsame
    have hmem : (id, a) ∈ Db.accounts db := List.mem_of_find?_eq_some ha
    obtain rfl : b = (id, a) := List.inj_on_of_nodup_map (nodup_accounts db) hb hmem hsame
    exact hapart _ ha
  refine ⟨h.settings, h.accounts, ?_, fun a ha hapnl p _ => ?_, fun {id a} ha p _ => ?_, fun hne => ?_,
    fun {id} hother hnot side p _ => ?_⟩
  · obtain ⟨rec, hrec, hclosed, -, hincome⟩ := h.records fiscalYear List.mem_cons_self
    exact ⟨rec, hrec, hclosed, hincome.trans hnet⟩
  · have hzero : (if retainedId = a.1 then (closingOf db startMonth fiscalYear).2 else 0) = 0 := by
      split
      · rename_i hsame
        by_contra hne
        obtain ⟨b, hb⟩ := hrole hne
        exact absurd hapnl (by rw [hunique hb a ha hsame.symm]; exact Bool.false_ne_true)
      · rfl
    rw [h.creditNet_eq, hlines, hzero, hpnl, pnlMovement_eq _ _ ha hapnl, add_zero]
    split <;> ring
  · have hnone : linesNetOn (closingOf db startMonth fiscalYear).1 id = 0 := by
      have hne := fun l hl => @accountId_ne_of_not_pnl db startMonth fiscalYear id (hunique ha) l hl
      rw [linesNetOn, linesSideOn_of_ne hne, linesSideOn_of_ne hne, sub_self]
    rw [h.creditNet_eq, hlines, hnone, if_pos (hid id a ha).symm, zero_add, hnet]
  · exact hfound (hnet ▸ hne)
  · have hzero : linesSideOn (closingEntryLines db startMonth retainedId fiscalYear) id side = 0 := by
      refine linesSideOn_of_ne (fun l hl => ?_) side
      rcases List.mem_append.mp hl with hl | hl
      · exact accountId_ne_of_not_pnl startMonth fiscalYear hother hl
      · split at hl
        · cases hl
        · rename_i hne
          obtain ⟨a, ha⟩ := hrole hne
          rw [List.mem_singleton.mp hl, retainedLine_accountId]
          rintro rfl
          exact hnot a ha
    rw [h.sums, List.map_singleton, List.sum_singleton, closingSideOn, hzero, ite_self, add_zero]

end Close

/-! ## The statements of a year that is closed -/

/-- Every total of the statement is zero. -/
structure IncomeStatement.Zero (statement : IncomeStatement) : Prop where
  revenue : statement.revenue = 0
  cogs : statement.cogs = 0
  grossProfit : statement.grossProfit = 0
  operatingExpense : statement.operatingExpense = 0
  operatingProfit : statement.operatingProfit = 0
  otherIncome : statement.otherIncome = 0
  otherExpense : statement.otherExpense = 0
  profitBeforeTax : statement.profitBeforeTax = 0
  taxExpense : statement.taxExpense = 0
  netIncome : statement.netIncome = 0

/-- What the statements of a year say around its close: afterwards nothing is left in them, and the
record has the net income they had before, where no role was misplaced. -/
structure ReportsClosed (db : Db) (fiscalYear : ℤ) (f t : Instant) (db' : Db) : Prop where
  income : (IncomeStatement.generate db' f t).Zero
  cash : (CashFlow.generate db' f t).netIncome = 0
  recorded : NoRoleMisplaced db f t →
    ∃ rec, Db.closing db' fiscalYear = some rec ∧ rec.status = .closed ∧
      rec.netIncome = (IncomeStatement.generate db f t).netIncome ∧
      rec.netIncome = (CashFlow.generate db f t).netIncome

theorem moneySum_of_zero {xs : List ℤ} (h : ∀ x ∈ xs, x = 0) : Money.sum xs = 0 := by
  rw [List.eq_replicate_of_mem h]
  generalize xs.length = n
  induction n with
  | zero => rfl
  | succ n ih => exact ih

section Statements

variable {rows : List AccountBalanceRow}
  (h : ∀ r ∈ rows, BalanceSheet.isPnl r = true → r.debit = r.credit)
include h

/-- A section of rows whose sides are equal adds up to zero. -/
theorem IncomeStatement.totalOf_zero (part : Part) : totalOf rows part = 0 := by
  refine moneySum_of_zero (List.forall_mem_map.mpr fun r hr => ?_)
  rw [rowsIn_eq] at hr
  obtain ⟨hr, hin⟩ := List.mem_filter.mp hr
  have hpnl : BalanceSheet.isPnl r = true := by
    cases hpart : part.subtype <;> rw [hpart] at hin <;> simp only [Bool.and_eq_true] at hin
    · exact hin.2
    · exact hin.2.2
  rw [BalanceSheet.amount, naturalSide, h r hr hpnl, Money.subtract, sub_self, ite_self]
  rfl

/-- **The income statement of rows whose sides are equal** is zero. -/
theorem IncomeStatement.ofRows_zero (fromDay toDay : UtcDay) : (ofRows fromDay toDay rows).Zero := by
  obtain ⟨hrevenue, hcogs, hopex, hother, hexpense, htax, -⟩ := ofRows_parts fromDay toDay rows
  rw [totalOf_zero h] at hrevenue hcogs hopex hother hexpense htax
  have hgross : (ofRows fromDay toDay rows).grossProfit = 0 := by
    change Money.subtract (ofRows fromDay toDay rows).revenue (ofRows fromDay toDay rows).cogs = 0
    rw [hrevenue, hcogs]
    rfl
  have hoperating : (ofRows fromDay toDay rows).operatingProfit = 0 := by
    change Money.subtract (ofRows fromDay toDay rows).grossProfit
      (ofRows fromDay toDay rows).operatingExpense = 0
    rw [hgross, hopex]
    rfl
  have hbefore : (ofRows fromDay toDay rows).profitBeforeTax = 0 := by
    change Money.subtract (Money.add (ofRows fromDay toDay rows).operatingProfit
      (ofRows fromDay toDay rows).otherIncome) (ofRows fromDay toDay rows).otherExpense = 0
    rw [hoperating, hother, hexpense]
    rfl
  refine ⟨hrevenue, hcogs, hgross, hopex, hoperating, hother, hexpense, hbefore, htax, ?_⟩
  change Money.subtract (ofRows fromDay toDay rows).profitBeforeTax
    (ofRows fromDay toDay rows).taxExpense = 0
  rw [hbefore, htax]
  rfl

/-- The net income of the cash flow of rows whose sides are equal is zero. -/
theorem CashFlow.ofRows_netIncome (fromDay toDay : UtcDay) (before after : List AccountBalanceRow) :
    (ofRows fromDay toDay rows before after).netIncome = 0 := by
  refine moneySum_of_zero (List.forall_mem_map.mpr fun r hr => ?_)
  obtain ⟨hr, hpnl⟩ := List.mem_filter.mp hr
  rw [cashEffect, h r (List.mem_filter.mp hr).1 hpnl, Money.subtract, sub_self]
  rfl

end Statements

/-- **The statements of a year around its close**, on entries of this century. -/
theorem ClosesBooks.reportsClosed {db db' : Db} {startMonth : StartMonth} {fiscalYear : ℤ}
    (h : ClosesBooks db startMonth fiscalYear db') (hledger : Ledger db) (hchart : Chart db)
    (hcentury : ∀ ⦃id : Uuid⦄ ⦃e : JournalEntry⦄, Db.entry db' id = some e → e.Counts →
      2000 ≤ e.date.year) {f t : Instant} (hf : f.day = fiscalYearFirstDay fiscalYear startMonth)
    (ht : t.day = fiscalYearLastDay fiscalYear startMonth) : ReportsClosed db fiscalYear f t db' := by
  have hyear : ∀ d, Between f t d ↔ InYear startMonth fiscalYear d := fun d => by
    rw [Between, InYear, hf, ht]
  have hagree : ∀ db : Db, Agree db (Between f t) (InYear startMonth fiscalYear) :=
    fun _ _ _ _ _ => hyear _
  have hend : InYear startMonth fiscalYear (fiscalYearLastDay fiscalYear startMonth) :=
    fiscalYearForDate_eq_iff.mp (fiscalYearForDate_lastDay fiscalYear startMonth)
  -- afterwards the sides of the profit and loss accounts are equal over the year
  have hequal : ∀ r ∈ groupedBalances db' (InYear startMonth fiscalYear),
      BalanceSheet.isPnl r = true → r.debit = r.credit := by
    intro r hr hpnl
    obtain ⟨a, ha, -, rfl⟩ := mem_groupedBalances.mp hr
    have hzero := h.pnl a (h.accounts ▸ ha) hpnl (InYear startMonth fiscalYear)
    rw [if_pos hend, sub_self] at hzero
    exact (sub_eq_zero.mp hzero).symm
  have hrows : movementsBetween db' (truncateToUtcDay f) (truncateToUtcDay t) =
      groupedBalances db' (InYear startMonth fiscalYear) :=
    (agree_between hcentury f t).groupedBalances.trans (hagree db').groupedBalances
  have hnet : Db.net db Account.isPnl (Between f t) =
      Db.net db Account.isPnl (InYear startMonth fiscalYear) := by
    unfold Db.net creditNet
    simp only [(hagree db).sideOn]
  refine ⟨?_, ?_, fun hroles => ?_⟩
  · rw [IncomeStatement.generate, hrows]
    exact IncomeStatement.ofRows_zero hequal _ _
  · rw [CashFlow.generate, hrows]
    exact CashFlow.ofRows_netIncome hequal _ _ _ _
  · have hbefore := (netIncomesAgree_iff hledger hchart f t).mpr hroles
    obtain ⟨rec, hrec, hclosed, hincome⟩ := h.record
    rw [← hnet] at hincome
    exact ⟨rec, hrec, hclosed, hincome.trans hbefore.income.symm, hincome.trans hbefore.cash.symm⟩

/-! ## Runs -/

section Runs

variable {strict : Prop} {c : Commit} {fiscalYear : ℤ}

/-- **A close that has read nothing but what it finds** closes the books. -/
theorem Transacts.closesBooks (hc : Transacts strict c) (hfound : ∀ q ∈ c.seen, q.2 = c.before)
    (hclose : c.req.closesYear = some fiscalYear) (hledger : Ledger c.before)
    (hapart : RetainedApart c.before) : ∃ settings ∈ Db.settings c.before,
      ClosesBooks c.before settings.fiscalYearStartMonth fiscalYear c.after := by
  obtain ⟨dto, user, entryId, now, rfl, hreq⟩ := Request.eq_of_closesYear hclose
  let retainedId := ((Db.accountOfRole c.before .retainedEarnings).map (·.1)).getD 0
  have hid : ∀ id a, Db.accountOfRole c.before .retainedEarnings = some (id, a) →
      id = retainedId := by
    intro id a ha
    simp only [retainedId, ha, Option.map_some, Option.getD_some]
  rcases hc.of_close hreq with ⟨t, hyear⟩ | ⟨start, yearEnd, netIncome, -, hbounds, hread, hwrites⟩
  · rw [← hyear]
    obtain ⟨settings, hsettings, -⟩ := t.bounds.of_found hfound
    have hnil := Closed.nil c.before settings.fiscalYearStartMonth retainedId
    have hmonth : ∃ s ∈ Db.settings c.before, s.fiscalYearStartMonth =
        settings.fiscalYearStartMonth := ⟨settings, hsettings, rfl⟩
    have hclosed := hnil.close t hfound List.not_mem_nil hmonth hid
    obtain ⟨-, hread⟩ := t.read_eq hnil hfound List.not_mem_nil hmonth
    refine ⟨settings, hsettings, hclosed.closesBooks hledger hapart hid fun hne => ?_⟩
    rw [← hread] at hne
    rcases t.retainedLines with ⟨hzero, -⟩ | ⟨-, id, hsaw, -⟩
    · exact absurd hzero hne
    · obtain ⟨a, ha⟩ := hsaw.of_found hfound
      rw [ha]
      exact Option.some_ne_none _
  · obtain ⟨settings, hsettings, hstart, hend⟩ := hbounds.of_found hfound
    have hnil := Closed.nil c.before settings.fiscalYearStartMonth retainedId
    have hclosed := hnil.closeEmpty hfound List.not_mem_nil ⟨settings, hsettings, rfl⟩ hbounds hread
      hwrites
    refine ⟨settings, hsettings, hclosed.closesBooks hledger hapart hid fun hne => absurd ?_ hne⟩
    have hzero := hread.of_found hfound
    rw [hstart, hend] at hzero
    exact closingLines_snd (congrArg Prod.fst hzero)

variable {db₀ : Db} {s : Server}

/-- **The statements of a year around its close**: every close of a run of requests served one at a time
leaves nothing in them, and records the net income they had. -/
theorem reportsClosed_of_reachable (h₀ : Initial db₀)
    (hperiods : ∀ x ∈ Db.periods db₀, 2000 ≤ x.2.startDate.year)
    (h : Reachable code (oneAtATime fun _ => True) db₀ s) (hc : c ∈ s.history)
    (hclose : c.req.closesYear = some fiscalYear) (hdigits : WithinDigits c.before)
    (hchart : Chart c.before) (hapart : RetainedApart c.before) :
    ∃ settings ∈ Db.settings c.before, ∀ f t,
      f.day = fiscalYearFirstDay fiscalYear settings.fiscalYearStartMonth →
      t.day = fiscalYearLastDay fiscalYear settings.fiscalYearStartMonth →
      ReportsClosed c.before fiscalYear f t c.after := by
  have hserial : s.Serial := h.serial fun r _ => commitsOnce_code r
  obtain ⟨hguar, hbefore, -⟩ := (chain_of_reachable h).of_mem Persists.refl
    (fun _ _ _ => Persists.trans) (fun _ hc => hc.persists) hc
  obtain ⟨hvalid, hcentury⟩ := century_of_past h₀ hperiods h hbefore
  have hledger : Ledger c.before := ⟨hvalid, hcentury, hdigits⟩
  obtain ⟨settings, hsettings, hbooks⟩ :=
    hguar.closesBooks (hserial.found c hc) hclose hledger hapart
  refine ⟨settings, hsettings, fun f t hf ht => ?_⟩
  exact hbooks.reportsClosed hledger hchart
    (century_of_past h₀ hperiods h (.inr ⟨c, hc, rfl⟩)).2 hf ht

end Runs

namespace Sample

/-- A sale, and the close of its year. -/
def saleClosed : List (Request × ℕ) := [
  (.createAndPostEntry cashSale 9 100 1, 16),
  (.closeYear thisYear 9 101 2, 24)]

theorem saleClosed_reachable :
    Reachable code (oneAtATime fun _ => True) db (served db saleClosed) :=
  served_reachable (fun _ _ => trivial) (by decide +kernel)

end Sample

/-- The statements of a year with a sale, around its close. -/
theorem reportsClosed_of_reachable_sale :
    ∃ c ∈ (Sample.served Sample.db Sample.saleClosed).history,
      c.req.closesYear = some 2026 ∧
        ReportsClosed c.before 2026 (.midnight Sample.newYearsDay) (.midnight Sample.yearEnd)
          c.after := by
  have hall : ∀ c ∈ (Sample.served Sample.db Sample.saleClosed).history[0]?,
      WithinDigits c.before ∧ Chart c.before ∧ RetainedApart c.before ∧
        (Db.settings c.before).map (·.fiscalYearStartMonth.month) = some 1 := by
    decide +kernel
  have hreq : ∀ c ∈ (Sample.served Sample.db Sample.saleClosed).history[0]?,
      c.req.closesYear = some 2026 := by
    decide +kernel
  have hlength : (Sample.served Sample.db Sample.saleClosed).history.length = 2 := by decide +kernel
  obtain ⟨c, sale, hhistory⟩ := List.length_eq_two.mp hlength
  rw [hhistory] at hall hreq ⊢
  obtain ⟨hdigits, hchart, hapart, hmonth⟩ := hall c rfl
  have hc : c ∈ (Sample.served Sample.db Sample.saleClosed).history := by
    rw [hhistory]
    exact List.mem_cons_self
  obtain ⟨settings, hsettings, hreports⟩ := reportsClosed_of_reachable Sample.initial
    (by decide +kernel) Sample.saleClosed_reachable hc (hreq c rfl) hdigits hchart hapart
  have hstart : settings.fiscalYearStartMonth = ⟨1, by decide, by decide⟩ := by
    rw [Option.mem_def.mp hsettings, Option.map_some, Option.some.injEq] at hmonth
    generalize settings.fiscalYearStartMonth = m at hmonth ⊢
    cases m
    cases hmonth
    rfl
  refine ⟨c, List.mem_cons_self, hreq c rfl, hreports _ _ ?_ ?_⟩
  · rw [hstart]
    rfl
  · rw [hstart]
    rfl

/-- **A close changes the statements of its year**: after a sale over a hundred rupiah the income
statement shows them, after the close it shows nothing. -/
theorem statements_after_close : ¬ ∀ (s : Server) (c : Commit) (fiscalYear : ℤ),
    Reachable code (oneAtATime fun _ => True) Sample.db s → c ∈ s.history →
    c.req.closesYear = some fiscalYear →
    (IncomeStatement.generate c.after (.midnight Sample.newYearsDay)
      (.midnight Sample.yearEnd)).netIncome =
    (IncomeStatement.generate c.before (.midnight Sample.newYearsDay)
      (.midnight Sample.yearEnd)).netIncome := by
  intro hall
  have hne : ∀ c ∈ (Sample.served Sample.db Sample.saleClosed).history[0]?,
      c.req.closesYear = some 2026 ∧
        (IncomeStatement.generate c.after (.midnight Sample.newYearsDay)
          (.midnight Sample.yearEnd)).netIncome ≠
        (IncomeStatement.generate c.before (.midnight Sample.newYearsDay)
          (.midnight Sample.yearEnd)).netIncome := by
    decide +kernel
  have hlength : (Sample.served Sample.db Sample.saleClosed).history.length = 2 := by decide +kernel
  obtain ⟨c, sale, hhistory⟩ := List.length_eq_two.mp hlength
  rw [hhistory] at hne
  obtain ⟨hreq, hne⟩ := hne c rfl
  refine hne (hall _ c 2026 Sample.saleClosed_reachable ?_ hreq)
  rw [hhistory]
  exact List.mem_cons_self

end AccountingApi
