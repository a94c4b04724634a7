import AccountingApi.AccountTree
import AccountingApi.Reopenings
import Mathlib.Algebra.BigOperators.Ring.List

/-!
# The articulation of the statements

The balance sheets at the two ends of a range, its income statement and its cash-flow statement are
computed from the grouped balances of different dates. They fit together: the equity has changed by the
net income and by what the equity accounts have moved, the cash by the net change of the cash flow. The
statements of consecutive ranges add up to that of the whole range, figure by figure.

## Main definitions

* `TaxIsExpense`: no revenue account has the role of the income tax
* `TaxFits`: it has not, or there is room for the difference from it
* `cashHeld`: the balances of the cash accounts
* `Articulates`: how the statements of a range fit together
* `Consecutive`: ranges that follow one another without a gap
* `StatementsAddUp`: the figures of consecutive ranges add up

## Main results

* `articulates_of_reachable`: the statements of every reachable state articulate
* `statementsAddUp_of_reachable`: the statements of consecutive ranges
-/

namespace AccountingApi

open ReadCommitted Balances

/-! ## Statements -/

/-- The income tax is an expense. -/
def TaxIsExpense (db : Db) : Prop :=
  ∀ a ∈ Db.accounts db, a.2.type = .revenue → a.2.role ≠ some .taxExpense

instance (db : Db) : Decidable (TaxIsExpense db) :=
  inferInstanceAs (Decidable (∀ a ∈ Db.accounts db, _))

/-- The income tax is an expense, or the totals of the ledger stay below half of what the arithmetic
holds: a tax that is a revenue is taken away from the others. -/
def TaxFits (db : Db) : Prop :=
  TaxIsExpense db ∨ Db.total db (·.debit) (fun _ => True) < 5 * 10 ^ 19 ∧
    Db.total db (·.credit) (fun _ => True) < 5 * 10 ^ 19

instance (db : Db) : Decidable (TaxFits db) := inferInstanceAs (Decidable (_ ∨ _ ∧ _))

/-- What the balances of the cash accounts add up to at a day. -/
def cashHeld (db : Db) (asOf : UtcDay) : ℤ :=
  (((Db.accounts db).filter fun a => a.2.role = some .cash).map fun a =>
    match accountBalance db a.1 asOf with
    | .ok b => b.debit - b.credit
    | .error _ => 0).sum

/-- **The statements of a range articulate**: the balance sheets of the day before and of its last day,
and the income statement and the cash flow in between. -/
structure Articulates (db : Db) (f t : Instant) (opening closing : BalanceSheet) : Prop where
  balance : closing.totalAssets - opening.totalAssets =
    closing.totalLiabilities - opening.totalLiabilities + (closing.totalEquity - opening.totalEquity)
  equity : closing.totalEquity - opening.totalEquity = (IncomeStatement.generate db f t).netIncome +
    Db.net db (fun a => a.type = .equity) (Between f t)
  opened : (CashFlow.generate db f t).kasAwal = cashHeld db f.day.prev
  closed : (CashFlow.generate db f t).kasAkhir = cashHeld db t.day
  cash : cashHeld db t.day - cashHeld db f.day.prev = (CashFlow.generate db f t).netChange

/-- The figures of an income statement. -/
inductive IncomeFigure where
  | revenue | cogs | grossProfit | operatingExpense | operatingProfit | otherIncome | otherExpense
  | profitBeforeTax | taxExpense | netIncome

def IncomeStatement.figure (statement : IncomeStatement) : IncomeFigure → ℤ
  | .revenue => statement.revenue
  | .cogs => statement.cogs
  | .grossProfit => statement.grossProfit
  | .operatingExpense => statement.operatingExpense
  | .operatingProfit => statement.operatingProfit
  | .otherIncome => statement.otherIncome
  | .otherExpense => statement.otherExpense
  | .profitBeforeTax => statement.profitBeforeTax
  | .taxExpense => statement.taxExpense
  | .netIncome => statement.netIncome

/-- The figures of a cash-flow statement but for the cash at its ends. -/
inductive CashFigure where
  | netIncome | operating | investing | financing | netChange

def CashFlow.figure (statement : CashFlow) : CashFigure → ℤ
  | .netIncome => statement.netIncome
  | .operating => statement.operating.total
  | .investing => statement.investing.total
  | .financing => statement.financing.total
  | .netChange => statement.netChange

/-- The ranges follow one another without a gap, from `f` to `t`. -/
inductive Consecutive : Instant → Instant → List (Instant × Instant) → Prop
  | single {f t : Instant} : f ≤ t → Consecutive f t [(f, t)]
  | cons {f t f' t' : Instant} {ranges : List (Instant × Instant)} : f ≤ t → f'.day = t.day.next →
      Consecutive f' t' ranges → Consecutive f t' ((f, t) :: ranges)

/-- **Every figure of the whole range** is the sum of those of its parts. -/
structure StatementsAddUp (db : Db) (f t : Instant) (ranges : List (Instant × Instant)) : Prop where
  income : ∀ figure, (IncomeStatement.generate db f t).figure figure =
    (ranges.map fun r => (IncomeStatement.generate db r.1 r.2).figure figure).sum
  cash : ∀ figure, (CashFlow.generate db f t).figure figure =
    (ranges.map fun r => (CashFlow.generate db r.1 r.2).figure figure).sum

/-! ## Consecutive ranges -/

/-- A range of several is one. -/
theorem Consecutive.le {f t : Instant} {ranges : List (Instant × Instant)}
    (h : Consecutive f t ranges) : f.day ≤ t.day := by
  induction h with
  | single hle => exact Instant.day_le hle
  | cons hle hnext _ ih =>
    have hday := Instant.day_le hle
    simp only [hnext, UtcDay.le_iff_epochDay, UtcDay.epochDay_next] at hday ih ⊢
    omega

/-- **The net of consecutive ranges** is the sum of the nets of each of them. -/
theorem net_consecutive {db : Db} {f t : Instant} {ranges : List (Instant × Instant)}
    (h : Consecutive f t ranges) (keep : Account → Bool) : Db.net db keep (Between f t) =
      (ranges.map fun r => Db.net db keep (Between r.1 r.2)).sum := by
  induction h with
  | single hle => simp
  | @cons f t f' t' ranges hle hnext hrest ih =>
    rw [List.map_cons, List.sum_cons, ← ih]
    refine Apart.net (fun id e _ _ => ?_) keep
    have hday := Instant.day_le hle
    have hday' := hrest.le
    simp only [Between, hnext, UtcDay.le_iff_epochDay, UtcDay.epochDay_next] at hday hday' ⊢
    omega

/-! ## The figures as nets -/

section Figures

variable {db : Db} (h : Ledger db)
include h

namespace IncomeStatement

/-- The subtotals of the statement before its tax. -/
theorem subtotals_eq (hchart : Chart db) {p : UtcDay → Prop} [DecidablePred p]
    (fromDay toDay : UtcDay) : let statement := ofRows fromDay toDay (groupedBalances db p)
    statement.grossProfit = Db.net db (fun a => inPart .revenue a || inPart .cogs a) p ∧
      statement.operatingProfit = Db.net db
        (fun a => inPart .revenue a || inPart .cogs a || inPart .operatingExpense a) p := by
  obtain ⟨hrevenue, hcogs, hopex, -⟩ := totalOf_eq h hchart (p := p)
  have hgross : Money.subtract (Db.net db (inPart .revenue) p) (-Db.net db (inPart .cogs) p) =
      Db.net db (fun a => inPart .revenue a || inPart .cogs a) p :=
    h.subtract_net fun a => ⟨rfl, by simp only [inPart, Part.subtype]; grind⟩
  have hoperating : Money.subtract (Db.net db (fun a => inPart .revenue a || inPart .cogs a) p)
      (-Db.net db (inPart .operatingExpense) p) =
      Db.net db (fun a => inPart .revenue a || inPart .cogs a || inPart .operatingExpense a) p :=
    h.subtract_net fun a => ⟨rfl, by simp only [inPart, Part.subtype]; grind⟩
  constructor
  · change Money.subtract (totalOf _ .revenue) (totalOf _ .cogs) = _
    rw [hrevenue, hcogs, hgross]
  · change Money.subtract (Money.subtract (totalOf _ .revenue) (totalOf _ .cogs))
      (totalOf _ .operatingExpense) = _
    rw [hrevenue, hcogs, hopex, hgross, hoperating]

/-- The total of the tax, where it is an expense, and the net income. -/
theorem tax_eq (hchart : Chart db) (htax : TaxIsExpense db) {p : UtcDay → Prop} [DecidablePred p]
    (fromDay toDay : UtcDay) : let statement := ofRows fromDay toDay (groupedBalances db p)
    statement.taxExpense = -Db.net db (inPart .taxExpense) p ∧
      statement.netIncome = Db.net db Account.isPnl p := by
  constructor
  · obtain ⟨-, -, -, -, -, htotal, -⟩ := ofRows_parts fromDay toDay (groupedBalances db p)
    refine htotal.trans (totalOf_expense h fun a ha hpart => ?_)
    have hrole : a.2.role = some .taxExpense ∧ (a.2.type = .revenue ∨ a.2.type = .expense) := by
      simpa [inPart, Part.subtype, Account.isPnl, YearEndClose.isPnl] using hpart
    exact hrole.2.resolve_left fun htype => htax a ha htype hrole.1
  · refine (netIncome_eq_iff h hchart fromDay toDay).mpr (net_of_none fun a ha => ?_)
    by_cases htype : a.2.type = .revenue
    · simp [htax a ha htype]
    · simp [htype]

/-- The total of the tax, where it is a revenue, and the net income. -/
theorem tax_eq_of_revenue (hchart : Chart db) (hnot : ¬ TaxIsExpense db)
    (hdebit : Db.total db (·.debit) (fun _ => True) < 5 * 10 ^ 19)
    (hcredit : Db.total db (·.credit) (fun _ => True) < 5 * 10 ^ 19)
    {p : UtcDay → Prop} [DecidablePred p] (fromDay toDay : UtcDay) :
    let statement := ofRows fromDay toDay (groupedBalances db p)
    statement.taxExpense = Db.net db (inPart .taxExpense) p ∧
      statement.netIncome = Db.net db (fun a => !decide (a.role = some .taxExpense) && a.isPnl) p -
        Db.net db (inPart .taxExpense) p := by
  have htotal : totalOf (groupedBalances db p) .taxExpense = Db.net db (inPart .taxExpense) p := by
    refine (totalOf_tax h hchart (p := p)).elim (fun hnone => ?_) And.right
    refine absurd (fun a ha htype hrole => ?_) hnot
    simpa [htype, hrole] using hnone.1 a ha
  obtain ⟨-, -, -, -, -, hparts, -⟩ := ofRows_parts fromDay toDay (groupedBalances db p)
  refine ⟨hparts.trans htotal, ?_⟩
  -- both sides are below half of what the arithmetic holds, so their difference is not rounded
  have hbound : ∀ keep : Account → Bool, (Db.net db keep p).natAbs < 5 * 10 ^ 19 := by
    intro keep
    obtain ⟨hc₀, hc⟩ := h.sum_filter_lt (p := p) (·.credit) (fun l hl => hl.1.2.1) hcredit keep
    obtain ⟨hd₀, hd⟩ := h.sum_filter_lt (p := p) (·.debit) (fun l hl => hl.1.1) hdebit keep
    rw [net_eq_sub]
    omega
  have hrest := hbound fun a => !decide (a.role = some .taxExpense) && a.isPnl
  have htax := hbound (inPart .taxExpense)
  rw [netIncome_eq h hchart, htotal]
  refine Money.subtract_eq ?_
  unfold Money.Storable
  omega

/-- **Every figure of the statement** adds up nets of some accounts, or takes them away. -/
theorem figure_eq (hchart : Chart db) (htax : TaxFits db) (figure : IncomeFigure) :
    ∃ (sign sign' : ℤ) (keep keep' : Account → Bool), ∀ f t, (generate db f t).figure figure =
      sign * Db.net db keep (Between f t) + sign' * Db.net db keep' (Between f t) := by
  suffices hall : ∃ (sign sign' : ℤ) (keep keep' : Account → Bool), ∀ (f t : Instant),
      (ofRows f.day t.day (groupedBalances db (Between f t))).figure figure =
        sign * Db.net db keep (Between f t) + sign' * Db.net db keep' (Between f t) by
    obtain ⟨sign, sign', keep, keep', hall⟩ := hall
    refine ⟨sign, sign', keep, keep', fun f t => ?_⟩
    rw [generate, h.movementsBetween_eq, hall]
  -- all but the tax and what remains after it are one net
  have hone : ∀ (sign : ℤ) (keep : Account → Bool), (∀ (f t : Instant),
      (ofRows f.day t.day (groupedBalances db (Between f t))).figure figure =
        sign * Db.net db keep (Between f t)) → ∃ (sign sign' : ℤ) (keep keep' : Account → Bool),
      ∀ (f t : Instant), (ofRows f.day t.day (groupedBalances db (Between f t))).figure figure =
        sign * Db.net db keep (Between f t) + sign' * Db.net db keep' (Between f t) :=
    fun sign keep hall => ⟨sign, 0, keep, keep, fun f t => by rw [hall, zero_mul, add_zero]⟩
  have hparts := fun f t : Instant => totalOf_eq h hchart (p := Between f t)
  have htotals := fun f t : Instant =>
    ofRows_parts f.day t.day (groupedBalances db (Between f t))
  have hsubtotals := fun f t : Instant => subtotals_eq h hchart (p := Between f t) f.day t.day
  cases figure with
  | revenue =>
    exact hone 1 (inPart .revenue) fun f t =>
      (htotals f t).1.trans ((hparts f t).1.trans (one_mul _).symm)
  | cogs =>
    exact hone (-1) (inPart .cogs) fun f t =>
      (htotals f t).2.1.trans ((hparts f t).2.1.trans (neg_one_mul _).symm)
  | grossProfit => exact hone 1 _ fun f t => (hsubtotals f t).1.trans (one_mul _).symm
  | operatingExpense =>
    exact hone (-1) (inPart .operatingExpense) fun f t =>
      (htotals f t).2.2.1.trans ((hparts f t).2.2.1.trans (neg_one_mul _).symm)
  | operatingProfit => exact hone 1 _ fun f t => (hsubtotals f t).2.trans (one_mul _).symm
  | otherIncome =>
    exact hone 1 (inPart .otherIncome) fun f t =>
      (htotals f t).2.2.2.1.trans ((hparts f t).2.2.2.1.trans (one_mul _).symm)
  | otherExpense =>
    exact hone (-1) (inPart .otherExpense) fun f t =>
      (htotals f t).2.2.2.2.1.trans ((hparts f t).2.2.2.2.trans (neg_one_mul _).symm)
  | profitBeforeTax =>
    exact hone 1 _ fun f t => (profitBeforeTax_eq h hchart f.day t.day).trans (one_mul _).symm
  | taxExpense =>
    by_cases hexpense : TaxIsExpense db
    · exact hone (-1) (inPart .taxExpense) fun f t =>
        (tax_eq h hchart hexpense f.day t.day).1.trans (neg_one_mul _).symm
    · obtain ⟨hdebit, hcredit⟩ := htax.resolve_left hexpense
      exact hone 1 (inPart .taxExpense) fun f t =>
        (tax_eq_of_revenue h hchart hexpense hdebit hcredit f.day t.day).1.trans (one_mul _).symm
  | netIncome =>
    by_cases hexpense : TaxIsExpense db
    · exact hone 1 _ fun f t =>
        (tax_eq h hchart hexpense f.day t.day).2.trans (one_mul _).symm
    · obtain ⟨hdebit, hcredit⟩ := htax.resolve_left hexpense
      refine ⟨1, -1, fun a => !decide (a.role = some .taxExpense) && a.isPnl, inPart .taxExpense,
        fun f t => ?_⟩
      rw [one_mul, neg_one_mul, ← sub_eq_add_neg]
      exact (tax_eq_of_revenue h hchart hexpense hdebit hcredit f.day t.day).2

end IncomeStatement

/-- Every figure of the cash flow is the net of some accounts. -/
theorem CashFlow.figure_eq (figure : CashFigure) : ∃ keep : Account → Bool, ∀ f t,
    (CashFlow.generate db f t).figure figure = Db.net db keep (Between f t) := by
  have hall := fun f t : Instant => ofRows_eq h (p := Between f t) (q := fun d => ¬ f.day ≤ d)
    (r := (· ≤ t.day)) f.day t.day
  cases figure with
  | netIncome =>
    refine ⟨earns, fun f t => ?_⟩
    rw [generate_eq h]
    exact netIncome_eq h
  | operating =>
    refine ⟨operates, fun f t => ?_⟩
    rw [generate_eq h]
    exact (hall f t).1
  | investing =>
    refine ⟨flows .investing, fun f t => ?_⟩
    rw [generate_eq h]
    exact (hall f t).2.1
  | financing =>
    refine ⟨flows .financing, fun f t => ?_⟩
    rw [generate_eq h]
    exact (hall f t).2.2.1
  | netChange =>
    refine ⟨fun a => !(a.role = some .cash), fun f t => ?_⟩
    rw [generate_eq h]
    exact (hall f t).2.2.2.1

/-- The statements of consecutive ranges add up. -/
theorem Ledger.statementsAddUp (hchart : Chart db) (htax : TaxFits db)
    {f t : Instant} {ranges : List (Instant × Instant)} (hranges : Consecutive f t ranges) :
    StatementsAddUp db f t ranges where
  income := by
    intro figure
    obtain ⟨sign, sign', keep, keep', hfigure⟩ := IncomeStatement.figure_eq h hchart htax figure
    simp only [hfigure]
    rw [net_consecutive hranges, net_consecutive hranges, List.sum_map_add, List.sum_map_mul_left,
      List.sum_map_mul_left]
  cash := by
    intro figure
    obtain ⟨keep, hfigure⟩ := CashFlow.figure_eq h figure
    simp only [hfigure]
    exact net_consecutive hranges keep

omit h in
/-- The balances of the cash accounts, as a net. -/
theorem cashHeld_eq (asOf : UtcDay) :
    cashHeld db asOf = -Db.net db (fun a => a.role = some .cash) (· ≤ asOf) := by
  unfold cashHeld Db.net
  rw [List.sum_neg, List.map_map]
  refine congrArg List.sum (List.map_congr_left fun a ha => ?_)
  obtain ⟨hrow, hlive⟩ := mem_accounts.mp (List.mem_of_mem_filter ha)
  have hfind : Db.liveAccount db a.1 = some a.2 :=
    Option.filter_eq_some_iff.mpr ⟨hrow, Option.isNone_iff_eq_none.mpr hlive⟩
  simp only [accountBalance, hfind, Function.comp_apply, creditNet, neg_sub]

omit h in
/-- The days up to the eve of a range are those before it. -/
theorem agree_eve (f : Instant) : Agree db (· ≤ f.day.prev) fun d => ¬ f.day ≤ d := by
  intro id e _ _
  have hnext := UtcDay.next_le_iff (d := f.day.prev) (e := e.date)
  rw [UtcDay.next_prev] at hnext
  exact not_iff_not.mp (hnext.symm.trans not_not.symm)

variable {f t : Instant} {opening closing : BalanceSheet} {settings : CompanySettings}

/-- **The statements of a range articulate.** -/
theorem Ledger.articulates (hchart : Chart db) (htax : TaxIsExpense db)
    (hbalanced : EntriesBalanced db) (hlive : LinesLive db) (hsettings : Db.settings db = some settings)
    (hle : f ≤ t) (hopening : BalanceSheet.generate db f.day.prev = .ok opening)
    (hclosing : BalanceSheet.generate db t.day = .ok closing) :
    Articulates db f t opening closing := by
  have heve : ∀ keep, Db.net db keep (· ≤ f.day.prev) = Db.net db keep fun d => ¬ f.day ≤ d := by
    intro keep
    unfold Db.net creditNet
    simp only [(agree_eve f).sideOn]
  have happart := fun keep => (apart_before db hle).net keep
  obtain ⟨-, hassets, hliabilities, hequity, -⟩ := h.sheet hsettings hopening
  obtain ⟨-, hassets', hliabilities', hequity', -⟩ := h.sheet hsettings hclosing
  have hawal : (CashFlow.generate db f t).kasAwal = cashHeld db f.day.prev := by
    rw [cashHeld_eq, heve, CashFlow.generate_eq h]
    exact (CashFlow.ofRows_eq h (p := Between f t) f.day t.day).2.2.2.2.1
  have hakhir : (CashFlow.generate db f t).kasAkhir = cashHeld db t.day := by
    rw [cashHeld_eq, CashFlow.generate_eq h]
    exact (CashFlow.ofRows_eq h (p := Between f t) f.day t.day).2.2.2.2.2
  refine ⟨?_, ?_, hawal, hakhir, ?_⟩
  · -- each of the two sheets balances
    have hbalance : ∀ asOf sheet, BalanceSheet.generate db asOf = .ok sheet →
        sheet.totalAssets = sheet.totalLiabilities + sheet.totalEquity := by
      intro asOf sheet hsheet
      have hsome : Db.settings db ≠ none := by rw [hsettings]; exact Option.some_ne_none _
      obtain ⟨sheet', hsheet', -, heq⟩ :=
        balanceSheet_balanced h.valid hlive h.digits hbalanced hsome asOf
      obtain rfl : sheet' = sheet := Except.ok.inj (hsheet'.symm.trans hsheet)
      exact heq
    have hbefore := hbalance _ _ hopening
    have hafter := hbalance _ _ hclosing
    omega
  · have hnet : (IncomeStatement.generate db f t).netIncome =
        Db.net db Account.isPnl (Between f t) := by
      rw [IncomeStatement.generate, h.movementsBetween_eq]
      exact (IncomeStatement.tax_eq h hchart htax f.day t.day).2
    have hsplit : Db.net db Account.inEquity (Between f t) =
        Db.net db (fun a => a.type = .equity) (Between f t) +
          Db.net db Account.isPnl (Between f t) :=
      net_add fun a => by
        unfold Account.inEquity Account.isPnl YearEndClose.isPnl
        cases a.type <;> simp
    rw [hequity, hequity', heve, happart, hnet, hsplit]
    ring
  · rw [← hawal, ← hakhir, ← (CashFlow.reconciles_of_le h hbalanced hlive hle).change]
    ring

end Figures

/-! ## Runs -/

section Runs

variable {policy : Policy Row LockName Query Failure Response Request} {db₀ : Db} {s : Server}

/-- The accounts that are not deleted are a chart the statements rely on. -/
theorem AccountTree.chart {db : Db} (h : AccountTree db) : Chart db where
  subtype := fun a ha => h.subtype a.1 a.2 (mem_accounts.mp ha).1
  singleton := by
    intro a ha b hb hsingle hrole
    obtain ⟨hrow, -⟩ := mem_accounts.mp ha
    obtain ⟨hrow', -⟩ := mem_accounts.mp hb
    have hid : b.1 = a.1 := by
      by_contra hne
      exact h.unique a.1 a.2 hrow ⟨b.1, b.2, hrow', hne, .inr ⟨hsingle, hrole.symm⟩⟩
    refine Prod.ext hid.symm (Option.some.inj ?_)
    rw [← hrow, ← hrow', hid]

/-- There is a balance sheet of every day. -/
theorem exists_sheet {db : Db} (hsettings : Db.settings db ≠ none) (asOf : UtcDay) :
    ∃ sheet, BalanceSheet.generate db asOf = .ok sheet := by
  obtain ⟨settings, hsome⟩ := Option.ne_none_iff_exists'.mp hsettings
  exact ⟨_, by rw [BalanceSheet.generate, hsome]⟩

/-- What the statements of a run rely on: it starts from a chart of accounts and from periods of this
century, and the totals have no more digits than the arithmetic. -/
structure Reported (db₀ : Db) (s : Server) : Prop where
  initial : Initial db₀
  tree : AccountTree db₀
  century : ∀ x ∈ Db.periods db₀, 2000 ≤ x.2.startDate.year
  digits : WithinDigits s.db

/-- **The statements of every reachable state articulate**, in any interleaving in which no posting and
no deletion is overtaken, where the income tax is an expense: over any range, the balance sheets at its
ends differ by its income statement and what the equity accounts have moved, and the cash by its cash
flow. -/
theorem articulates_of_reachable (hreported : Reported db₀ s) (htax : TaxIsExpense s.db)
    (h : Reachable code policy db₀ s)
    (hfound : ∀ c ∈ s.history, PostsOnLive c ∧ DeletesUnposted c) {f t : Instant} (hle : f ≤ t)
    {opening closing : BalanceSheet}
    (hopening : BalanceSheet.generate s.db f.day.prev = .ok opening)
    (hclosing : BalanceSheet.generate s.db t.day = .ok closing) :
    Articulates s.db f t opening closing := by
  obtain ⟨hinitial, htree, hcentury, hdigits⟩ := hreported
  have hcoh := coherent_of_reachable hinitial h
  obtain ⟨settings, hsettings⟩ : ∃ settings, Db.settings s.db = some settings := by
    cases hsettings : Db.settings s.db with
    | none =>
      rw [BalanceSheet.generate, hsettings] at hclosing
      cases hclosing
    | some settings => exact ⟨settings, rfl⟩
  exact (ledger_of_reachable hinitial hcentury h hdigits).articulates
    (accountTree_kept htree h).chart htax
    (entriesBalanced hcoh (doubleEntry_of_reachable hinitial h) hdigits)
    ((postedLinesLive_of_reachable hinitial h hfound).linesLive hcoh) hsettings hle hopening hclosing

end Runs

/-- What the statements of the sample year rely on. -/
theorem Sample.year_reported : Reported Sample.db (Sample.served Sample.db Sample.year) :=
  ⟨Sample.initial, Sample.accountTree, by decide +kernel, by decide +kernel⟩

/-- The statements of a year with a sale and an invoice, which is closed and reopened. -/
theorem articulates_of_reachable_year : ∃ opening closing,
    BalanceSheet.generate (Sample.served Sample.db Sample.year).db Sample.yearEnd = .ok closing ∧
      Articulates (Sample.served Sample.db Sample.year).db (.midnight Sample.newYearsDay)
        (.midnight Sample.yearEnd) opening closing := by
  have hsettings : Db.settings (Sample.served Sample.db Sample.year).db ≠ none := by decide +kernel
  obtain ⟨opening, hopening⟩ := exists_sheet hsettings Sample.newYearsDay.prev
  obtain ⟨closing, hclosing⟩ := exists_sheet hsettings Sample.yearEnd
  exact ⟨opening, closing, hclosing, articulates_of_reachable Sample.year_reported
    (by decide +kernel) Sample.year_reachable (by decide +kernel) (by decide +kernel) hopening hclosing⟩

end AccountingApi
