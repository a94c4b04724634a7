import AccountingApi.Books
import AccountingApi.Century
import AccountingApi.Reporting.CashFlow

/-!
# The cash flow reconciles

The movements of all accounts add up to zero, so that those of all other accounts are what the cash
accounts have moved by. Every balance-sheet account that has moved is a line of one section.

## Main definitions

* `CashFlow.Moved`: the accounts a statement lists
* `CashFlow.Reconciles`: what holds of the statement of a range
* `CashFlow.Continues`: what holds of the statements of two ranges, one right after the other

## Main results

* `cashFlow_reconciles`
-/

namespace AccountingApi

open ReadCommitted Balances YearEndClose

namespace CashFlow

/-! ## Statements -/

/-- The account is neither cash nor a profit and loss account, and its credits and debits over some
dates differ. -/
def Moved (db : Db) (p : UtcDay → Prop) [DecidablePred p] (a : Uuid × Account) : Prop :=
  a.2.role ≠ some .cash ∧ a.2.type ≠ .revenue ∧ a.2.type ≠ .expense ∧ creditNet db a.1 p ≠ 0

instance (db : Db) (p : UtcDay → Prop) [DecidablePred p] : DecidablePred (Moved db p) :=
  fun _ => inferInstanceAs (Decidable (_ ∧ _))

/-- The statement of a range reconciles: the change is what takes the cash at the beginning to the cash
at the end, it is the sum of the three sections, and these list every other balance-sheet account that
has moved, each of them once. -/
structure Reconciles (db : Db) (f t : Instant) : Prop where
  reconciles : (generate db f t).reconciles = true
  change : (generate db f t).kasAwal + (generate db f t).netChange = (generate db f t).kasAkhir
  totals : (generate db f t).netChange = (generate db f t).operating.total +
    (generate db f t).investing.total + (generate db f t).financing.total
  lists : ((generate db f t).operating.lines ++ (generate db f t).investing.lines ++
    (generate db f t).financing.lines).Perm (((Db.accounts db).filter fun a =>
      Moved db (Between f t) a).map fun a =>
        ⟨a.2.code, a.2.name, creditNet db a.1 (Between f t)⟩)

/-- The statements of two ranges, one right after the other: the cash at the end of the first is that
at the beginning of the second, and the changes add up to that of both. -/
structure Continues (db : Db) (f t f' t' : Instant) : Prop where
  cash : (generate db f t).kasAkhir = (generate db f' t').kasAwal
  change : (generate db f t).netChange + (generate db f' t').netChange =
    (generate db f t').netChange

end CashFlow

/-! ## The figures as nets -/

open CashFlow in
/-- Rows that have not moved may be left out of a total. -/
theorem ExactRows.sum_moved {rows : List AccountBalanceRow} (h : ExactRows rows) :
    Money.sum ((rows.filter fun r => !Money.isZero (cashEffect r)).map cashEffect) =
      (rows.map (·.credit)).sum - (rows.map (·.debit)).sum := by
  have hnet : ∀ rows : List AccountBalanceRow, (rows.map fun r => r.credit - r.debit).sum =
      (rows.map (·.credit)).sum - (rows.map (·.debit)).sum := by
    intro rows
    rw [eq_sub_iff_add_eq, ← List.sum_map_add]
    simp only [sub_add_cancel]
  rw [(h.filter _).sum_credit_sub (f := cashEffect) fun _ _ => rfl, ← hnet, ← hnet]
  refine sum_filter_of_zero fun r hr hzero => ?_
  rw [← (h.subtract hr).2]
  have hmoved : Money.isZero (cashEffect r) = true := by simpa using hzero
  exact of_decide_eq_true hmoved

/-- Rows of three kinds, one kind after the other, are the rows in another order. -/
theorem perm_buckets {α : Type} (rows : List α) (key : α → CashFlow.Bucket) :
    (rows.filter (key · = .operating) ++ rows.filter (key · = .investing) ++
      rows.filter (key · = .financing)).Perm rows := by
  induction rows with
  | nil => exact .refl _
  | cons r rows ih =>
    cases hr : key r with
    | operating => simpa [List.filter_cons, hr] using ih
    | investing =>
      rw [List.append_assoc] at ih
      simpa [List.filter_cons, hr] using List.perm_middle.trans (ih.cons r)
    | financing => simpa [List.filter_cons, hr] using! List.perm_middle.trans (ih.cons r)

namespace CashFlow

/-- The lines of a section, out of those of all rows that have moved. -/
theorem lines_sections (rows : List AccountBalanceRow) (b : Bucket) :
    (sections rows b).lines = ((rows.filter fun r => !Money.isZero (cashEffect r)).filter fun r =>
      bucket r.cashFlowCategory = b).map toLine := by
  rw [sections_eq, List.filter_filter]
  rfl

section Figures

/-- The accounts of the net income. -/
def earns (a : Account) : Bool := isPnl a.type && !(a.role = some .cash)

/-- The accounts of a section. -/
def flows (b : Bucket) (a : Account) : Bool :=
  !isPnl a.type && !(a.role = some .cash) && bucket a.cashFlowCategory = b

/-- The accounts of the operating section, the net income among them. -/
def operates (a : Account) : Bool := earns a || flows .operating a

theorem apart_operating (a : Account) :
    operates a = (earns a || flows .operating a) ∧ ¬ (earns a = true ∧ flows .operating a = true) :=
  ⟨rfl, by unfold earns flows; grind⟩

theorem apart_investing (a : Account) :
    (operates a || flows .investing a) = (operates a || flows .investing a) ∧
      ¬ (operates a = true ∧ flows .investing a = true) :=
  ⟨rfl, by unfold operates earns flows; grind⟩

/-- Every account but cash is in one of the sections. -/
theorem apart_financing (a : Account) :
    (!(a.role = some .cash)) = ((operates a || flows .investing a) || flows .financing a) ∧
      ¬ ((operates a || flows .investing a) = true ∧ flows .financing a = true) := by
  refine ⟨?_, by unfold operates earns flows; grind⟩
  unfold operates earns flows
  cases bucket a.cashFlowCategory <;> cases isPnl a.type <;>
    cases decide (a.role = some AccountRole.cash) <;> rfl

variable {db : Db} (h : Ledger db) {p : UtcDay → Prop} [DecidablePred p]
include h

theorem cashBalance_eq :
    cashBalance (groupedBalances db p) = -Db.net db (fun a => a.role = some .cash) p :=
  h.sum_debit_sub (fun _ => rfl) fun _ _ _ => rfl

/-- The net income of the statement. -/
theorem netIncome_eq : Money.sum ((((groupedBalances db p).filter fun r => !isCash r).filter
    BalanceSheet.isPnl).map cashEffect) = Db.net db earns p := by
  rw [List.filter_filter]
  exact h.sum_credit_sub (fun _ => rfl) fun _ _ _ => rfl

/-- The total of a section. -/
theorem total_sections (b : Bucket) : (sections (((groupedBalances db p).filter fun r =>
    !isCash r).filter fun r => !BalanceSheet.isPnl r) b).total = Db.net db (flows b) p := by
  have hexact := exactRows_groupedBalances h.valid h.digits p
  have hsplit : ((((groupedBalances db p).filter fun r => !isCash r).filter fun r =>
      !BalanceSheet.isPnl r).filter (inBucket b)) =
      (((groupedBalances db p).filter fun r => !BalanceSheet.isPnl r && !isCash r &&
        bucket r.cashFlowCategory = b).filter fun r => !Money.isZero (cashEffect r)) := by
    simp only [List.filter_filter, inBucket]
    refine List.filter_congr fun r _ => ?_
    ac_rfl
  rw [sections_eq, hsplit]
  exact (hexact.filter _).sum_moved.trans (sum_rows fun _ => rfl)

/-- **The statement in nets.** -/
theorem ofRows_eq (fromDay toDay : UtcDay) {q r : UtcDay → Prop} [DecidablePred q]
    [DecidablePred r] :
    let statement := ofRows fromDay toDay (groupedBalances db p) (groupedBalances db q)
      (groupedBalances db r)
    statement.operating.total = Db.net db operates p ∧
      statement.investing.total = Db.net db (flows .investing) p ∧
      statement.financing.total = Db.net db (flows .financing) p ∧
      statement.netChange = Db.net db (fun a => !(a.role = some .cash)) p ∧
      statement.kasAwal = -Db.net db (fun a => a.role = some .cash) q ∧
      statement.kasAkhir = -Db.net db (fun a => a.role = some .cash) r := by
  have hoperating := h.add_net (p := p) apart_operating
  have hinvesting := h.add_net (p := p) apart_investing
  have hfinancing := h.add_net (p := p) apart_financing
  refine ⟨?_, total_sections h .investing, total_sections h .financing, ?_, cashBalance_eq h,
    cashBalance_eq h⟩
  · simp only [ofRows]
    rw [netIncome_eq h, total_sections h, hoperating]
  · simp only [ofRows]
    rw [netIncome_eq h, total_sections h, total_sections h, total_sections h, hoperating, hinvesting,
      hfinancing]

/-- The movement of an account, as the statement reports it. -/
theorem cashEffect_accountRow (a : Uuid × Account) :
    cashEffect (accountRow db p a) = creditNet db a.1 p :=
  (h.subtract_sides a.1).1

/-- The rows of the sections are those of the accounts that have moved. -/
theorem moved_perm : ((((groupedBalances db p).filter fun r => !isCash r).filter fun r =>
    !BalanceSheet.isPnl r).filter fun r => !Money.isZero (cashEffect r)).Perm
      (((Db.accounts db).filter fun a => Moved db p a).map (accountRow db p)) := by
  have hrows : groupedBalances db p =
      (((Db.accounts db).filter fun a => Db.hasLine db a.1 p).insertionSort
        fun a b => a.2.code ≤ b.2.code).map (accountRow db p) := rfl
  rw [hrows, List.filter_filter, List.filter_filter, List.filter_map]
  refine (((List.perm_insertionSort _ _).filter _).map _).trans (.of_eq ?_)
  rw [List.filter_filter]
  refine congrArg _ (List.filter_congr fun a _ => ?_)
  -- an account that has moved has a line
  have hline : creditNet db a.1 p ≠ 0 → Db.hasLine db a.1 p = true := by
    intro hne
    by_contra hno
    refine hne ?_
    unfold creditNet
    rw [sideOn_of_not_hasLine (Bool.eq_false_iff.mpr hno),
      sideOn_of_not_hasLine (Bool.eq_false_iff.mpr hno), sub_self]
  have hmoved : Money.isZero (cashEffect (accountRow db p a)) = true ↔ creditNet db a.1 p = 0 := by
    rw [cashEffect_accountRow h]
    exact decide_eq_true_iff
  have hpnl : BalanceSheet.isPnl (accountRow db p a) = true ↔
      a.2.type = .revenue ∨ a.2.type = .expense :=
    (Bool.or_eq_true _ _).to_iff.trans (or_congr decide_eq_true_iff decide_eq_true_iff)
  have hcash : isCash (accountRow db p a) = true ↔ a.2.role = some .cash := decide_eq_true_iff
  rw [Bool.eq_iff_iff, decide_eq_true_iff, Moved]
  simp only [Function.comp_apply, Bool.and_eq_true, Bool.not_eq_true', ← Bool.not_eq_true, hmoved,
    hpnl, hcash, not_or]
  constructor
  · rintro ⟨⟨⟨hne, hrevenue, hexpense⟩, hrole⟩, -⟩
    exact ⟨hrole, hrevenue, hexpense, hne⟩
  · rintro ⟨hrole, hrevenue, hexpense, hne⟩
    exact ⟨⟨⟨hne, hrevenue, hexpense⟩, hrole⟩, hline hne⟩

/-- **The sections list every account that has moved, once.** -/
theorem lines_perm : let bs := ((groupedBalances db p).filter fun r => !isCash r).filter fun r =>
      !BalanceSheet.isPnl r
    ((sections bs .operating).lines ++ (sections bs .investing).lines ++
      (sections bs .financing).lines).Perm (((Db.accounts db).filter fun a =>
        Moved db p a).map fun a => ⟨a.2.code, a.2.name, creditNet db a.1 p⟩) := by
  intro bs
  rw [lines_sections, lines_sections, lines_sections, ← List.map_append, ← List.map_append]
  refine ((perm_buckets _ _).trans (moved_perm h)).map toLine |>.trans (.of_eq ?_)
  rw [List.map_map]
  refine List.map_congr_left fun a _ => ?_
  rw [Function.comp_apply, toLine, cashEffect_accountRow h]
  rfl

end Figures

/-! ## The statements of ranges -/

section Ranges

variable {db : Db} (h : Ledger db)
include h

/-- The statement of a range, in nets. -/
theorem generate_eq (f t : Instant) :
    generate db f t = ofRows f.day t.day (groupedBalances db (Between f t))
      (groupedBalances db fun d => ¬ f.day ≤ d) (groupedBalances db (· ≤ t.day)) := by
  rw [generate, h.movementsBetween_eq, h.balancesBefore_eq, h.balancesAsOf_eq]

variable (hbalanced : EntriesBalanced db) (hlive : LinesLive db)
include hbalanced hlive

omit h in
/-- The other accounts have moved by what the cash accounts have not. -/
theorem net_nonCash (p : UtcDay → Prop) [DecidablePred p] :
    Db.net db (fun a => !(a.role = some .cash)) p = -Db.net db (fun a => a.role = some .cash) p := by
  have hall := net_all (p := p) hbalanced hlive
  have hsplit : Db.net db (fun _ => true) p = Db.net db (fun a => !(a.role = some .cash)) p +
      Db.net db (fun a => a.role = some .cash) p := net_add fun a => by simp
  omega

/-- **The statement of a range reconciles.** -/
theorem reconciles_of_le {f t : Instant} (hle : f ≤ t) : Reconciles db f t := by
  obtain ⟨hoperating, hinvesting, hfinancing, hchange, hawal, hakhir⟩ :=
    ofRows_eq h (p := Between f t) (q := fun d => ¬ f.day ≤ d) (r := (· ≤ t.day)) f.day t.day
  rw [← generate_eq h] at hoperating hinvesting hfinancing hchange hawal hakhir
  have hcash := (apart_before db hle).net fun a => a.role = some .cash
  have hsum : (generate db f t).kasAwal + (generate db f t).netChange =
      (generate db f t).kasAkhir := by
    rw [hawal, hchange, hakhir, net_nonCash hbalanced hlive, hcash]
    ring
  have hstorable : Money.Storable ((generate db f t).kasAwal + (generate db f t).netChange) := by
    rw [hsum, hakhir]
    have := h.net_storable (p := (· ≤ t.day)) fun a => a.role = some .cash
    unfold Money.Storable at this ⊢
    rwa [Int.natAbs_neg]
  refine ⟨?_, hsum, ?_, ?_⟩
  · exact decide_eq_true ((Money.add_eq hstorable).trans hsum)
  · rw [hchange, hoperating, hinvesting, hfinancing, net_add apart_financing,
      net_add apart_investing]
  · rw [generate_eq h]
    exact lines_perm h

omit hbalanced hlive in
/-- **The statements of two ranges**, one right after the other, continue each other. -/
theorem continues_of_next {f t f' t' : Instant} (hle : f ≤ t) (hle' : f' ≤ t')
    (hnext : f'.day = t.day.next) : Continues db f t f' t' := by
  obtain ⟨-, -, -, hchange, -, hakhir⟩ :=
    ofRows_eq h (p := Between f t) (q := fun d => ¬ f.day ≤ d) (r := (· ≤ t.day)) f.day t.day
  obtain ⟨-, -, -, hchange', hawal, -⟩ :=
    ofRows_eq h (p := Between f' t') (q := fun d => ¬ f'.day ≤ d) (r := (· ≤ t'.day)) f'.day t'.day
  obtain ⟨-, -, -, hboth, -, -⟩ :=
    ofRows_eq h (p := Between f t') (q := fun d => ¬ f.day ≤ d) (r := (· ≤ t'.day)) f.day t'.day
  rw [← generate_eq h] at hchange hakhir hchange' hawal hboth
  constructor
  · rw [hakhir, hawal]
    unfold Db.net creditNet
    simp only [(agree_next db hnext).sideOn]
  · rw [hchange, hchange', hboth, (apart_next db hle hle' hnext).net]

end Ranges

end CashFlow

/-- **The cash flow reconciles** on every range, and continues from one range to the next, where the
posted entries are balanced and on accounts that are not deleted. -/
theorem cashFlow_reconciles {db : Db} (h : Ledger db) (hbalanced : EntriesBalanced db)
    (hlive : LinesLive db) : (∀ f t, f ≤ t → CashFlow.Reconciles db f t) ∧
      ∀ f t f' t', f ≤ t → f' ≤ t' → f'.day = t.day.next → CashFlow.Continues db f t f' t' :=
  ⟨fun _ _ => CashFlow.reconciles_of_le h hbalanced hlive,
    fun _ _ _ _ => CashFlow.continues_of_next h⟩

/-- The cash flows of a year with a sale and an invoice, which is closed and reopened. -/
theorem cashFlow_reconciles_year :
    let db := (Sample.served Sample.db Sample.year).db
    (∀ f t, f ≤ t → CashFlow.Reconciles db f t) ∧
      ∀ f t f' t', f ≤ t → f' ≤ t' → f'.day = t.day.next → CashFlow.Continues db f t f' t' := by
  have h := Sample.year_reachable
  have hcoh := coherent_of_reachable Sample.initial h
  exact cashFlow_reconciles Sample.year_ledger
    (entriesBalanced hcoh (doubleEntry_of_reachable Sample.initial h) Sample.year_ledger.digits)
    ((postedLinesLive_of_serial Sample.initial h).linesLive hcoh)

end AccountingApi
