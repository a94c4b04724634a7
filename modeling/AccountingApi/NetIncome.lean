import AccountingApi.CashFlows
import AccountingApi.Ledger.Accounts
import AccountingApi.Reporting.IncomeStatement

/-!
# The net income of the statements

The income statement has a section for every subtype of the profit and loss accounts, and one for the
account of the income tax. It agrees with the cash-flow statement and the balance sheet unless a role
is given to an account it does not suit: a revenue account of the income tax counts as an expense, and
a profit and loss account that is cash does not count as income.

## Main definitions

* `Chart`: the accounts that the accounts service creates
* `IncomeStatement.rowsIn`: the rows of a section
* `NetIncomesAgree`: the net incomes of a range agree
* `NoRoleMisplaced`: the accounts with an unsuitable role have no movement

## Main results

* `netIncomesAgree_iff`
* `tax_on_revenue`: a revenue account of the income tax
-/

namespace AccountingApi

open ReadCommitted Balances YearEndClose

/-! ## Statements -/

/-- A chart as the accounts service builds it: every subtype goes with its type, and a role that is not
cash belongs to one account. -/
structure Chart (db : Db) : Prop where
  subtype : ∀ a ∈ Db.accounts db, a.2.subtype ∈ a.2.type.subtypes
  singleton : ∀ a ∈ Db.accounts db, ∀ b ∈ Db.accounts db,
    Accounts.isSingleton a.2.role = true → a.2.role = b.2.role → a = b

instance (db : Db) : Decidable (Chart db) :=
  decidable_of_iff ((∀ a ∈ Db.accounts db, a.2.subtype ∈ a.2.type.subtypes) ∧
      ∀ a ∈ Db.accounts db, ∀ b ∈ Db.accounts db,
        Accounts.isSingleton a.2.role = true → a.2.role = b.2.role → a = b)
    ⟨fun h => ⟨h.1, h.2⟩, fun h => ⟨h.subtype, h.singleton⟩⟩

namespace IncomeStatement

/-- The sections of the statement. -/
inductive Part where
  | revenue | cogs | operatingExpense | otherIncome | otherExpense | taxExpense
deriving DecidableEq

/-- The subtype of a section. -/
def Part.subtype : Part → Option AccountSubtype
  | .revenue => some .revenue
  | .cogs => some .cogs
  | .operatingExpense => some .operatingExpense
  | .otherIncome => some .otherIncome
  | .otherExpense => some .otherExpense
  | .taxExpense => none

/-- The rows that enter a section. -/
def rowsIn (movements : List AccountBalanceRow) (part : Part) : List AccountBalanceRow :=
  match part.subtype with
  | none => (movements.filter BalanceSheet.isPnl).filter isTax
  | some subtype => ((movements.filter BalanceSheet.isPnl).filter fun r => !isTax r).filter fun r =>
    r.subtype = subtype

/-- The total of a section. -/
def totalOf (movements : List AccountBalanceRow) (part : Part) : ℤ :=
  Money.sum ((rowsIn movements part).map BalanceSheet.amount)

/-- The sections of the statement are made of their rows. -/
theorem ofRows_parts (fromDay toDay : UtcDay) (movements : List AccountBalanceRow) :
    let statement := ofRows fromDay toDay movements
    statement.revenue = totalOf movements .revenue ∧
      statement.cogs = totalOf movements .cogs ∧
      statement.operatingExpense = totalOf movements .operatingExpense ∧
      statement.otherIncome = totalOf movements .otherIncome ∧
      statement.otherExpense = totalOf movements .otherExpense ∧
      statement.taxExpense = totalOf movements .taxExpense ∧
      statement.revenueLines = (rowsIn movements .revenue).map BalanceSheet.toLine ∧
      statement.cogsLines = (rowsIn movements .cogs).map BalanceSheet.toLine ∧
      statement.operatingExpenseLines =
        (rowsIn movements .operatingExpense).map BalanceSheet.toLine := by
  have htax : ∀ rows : List AccountBalanceRow, (rows.filter fun _ => true) = rows :=
    fun rows => List.filter_true rows
  refine ⟨rfl, rfl, rfl, rfl, rfl, ?_, rfl, rfl, rfl⟩
  simp only [ofRows, sectionOf, htax]
  rfl

end IncomeStatement

/-- The profit and loss accounts. -/
def Account.isPnl (a : Account) : Bool := YearEndClose.isPnl a.type

/-- The net incomes of a range agree: those of the income statement and the cash-flow statement are
what the credits of the profit and loss accounts exceed their debits by, every such account with a line
enters one section of the income statement, and from the start of the fiscal year on these are the
current earnings of the balance sheet. -/
structure NetIncomesAgree (db : Db) (f t : Instant) : Prop where
  income : (IncomeStatement.generate db f t).netIncome = Db.net db Account.isPnl (Between f t)
  cash : (CashFlow.generate db f t).netIncome = Db.net db Account.isPnl (Between f t)
  parts : ∀ a ∈ Db.accounts db, a.2.isPnl = true → Db.hasLine db a.1 (Between f t) = true →
    ∃! part, ∃ r ∈ IncomeStatement.rowsIn (movementsBetween db (truncateToUtcDay f)
      (truncateToUtcDay t)) part, r.accountId = a.1
  earnings : ∀ settings ∈ Db.settings db, f.day = fiscalYearFirstDay (fiscalYearForDate t.day
      settings.fiscalYearStartMonth) settings.fiscalYearStartMonth →
    ∃ sheet, BalanceSheet.generate db t.day = .ok sheet ∧
      sheet.currentYearEarnings = (IncomeStatement.generate db f t).netIncome

/-- The revenue account of the income tax, and the profit and loss accounts that are cash, have equal
debits and credits. -/
def NoRoleMisplaced (db : Db) (f t : Instant) : Prop :=
  Db.net db (fun a => a.type = .revenue && a.role = some .taxExpense) (Between f t) = 0 ∧
    Db.net db (fun a => a.isPnl && a.role = some .cash) (Between f t) = 0

instance (db : Db) (f t : Instant) : Decidable (NoRoleMisplaced db f t) :=
  inferInstanceAs (Decidable (_ ∧ _))

/-! ## The sections as nets -/

namespace IncomeStatement

/-- The account's row enters the section. -/
def inPart (part : Part) (a : Account) : Bool :=
  match part.subtype with
  | none => decide (a.role = some .taxExpense) && a.isPnl
  | some subtype =>
    decide (a.subtype = subtype) && (!decide (a.role = some .taxExpense) && a.isPnl)

/-- The type of the accounts of a subtype. -/
theorem type_of_subtype {a : Account} (h : a.subtype ∈ a.type.subtypes) (hpnl : a.isPnl = true) :
    ((a.subtype = .revenue ∨ a.subtype = .otherIncome) ∧ a.type = .revenue) ∨
      ((a.subtype = .cogs ∨ a.subtype = .operatingExpense ∨ a.subtype = .otherExpense) ∧
        a.type = .expense) := by
  unfold Account.isPnl YearEndClose.isPnl at hpnl
  cases htype : a.type <;> rw [htype] at h hpnl <;>
    simp_all [AccountType.subtypes]

theorem rowsIn_eq (movements : List AccountBalanceRow) (part : Part) :
    rowsIn movements part = movements.filter fun r => match part.subtype with
      | none => isTax r && BalanceSheet.isPnl r
      | some subtype => decide (r.subtype = subtype) && (!isTax r && BalanceSheet.isPnl r) := by
  unfold rowsIn
  cases part.subtype with
  | none => exact List.filter_filter
  | some subtype => simp only [List.filter_filter]

section Parts

variable {db : Db} (h : Ledger db) (hchart : Chart db) {p : UtcDay → Prop} [DecidablePred p]
include h

/-- The total of a section whose accounts are revenues. -/
theorem totalOf_revenue {part : Part}
    (htype : ∀ a ∈ Db.accounts db, inPart part a.2 = true → a.2.type = .revenue) :
    totalOf (groupedBalances db p) part = Db.net db (inPart part) p := by
  rw [totalOf, rowsIn_eq]
  refine h.sum_credit_sub (fun a => ?_) fun a ha hkeep => ?_
  · unfold inPart
    cases part.subtype <;> rfl
  · exact if_neg (by rw [accountRow, toRow, htype a ha hkeep]; simp)

/-- The total of a section whose accounts are expenses. -/
theorem totalOf_expense {part : Part}
    (htype : ∀ a ∈ Db.accounts db, inPart part a.2 = true → a.2.type = .expense) :
    totalOf (groupedBalances db p) part = -Db.net db (inPart part) p := by
  rw [totalOf, rowsIn_eq]
  refine h.sum_debit_sub (fun a => ?_) fun a ha hkeep => ?_
  · unfold inPart
    cases part.subtype <;> rfl
  · exact if_pos (.inr (htype a ha hkeep))

include hchart

/-- The totals of the sections by subtype. -/
theorem totalOf_eq :
    totalOf (groupedBalances db p) .revenue = Db.net db (inPart .revenue) p ∧
      totalOf (groupedBalances db p) .cogs = -Db.net db (inPart .cogs) p ∧
      totalOf (groupedBalances db p) .operatingExpense = -Db.net db (inPart .operatingExpense) p ∧
      totalOf (groupedBalances db p) .otherIncome = Db.net db (inPart .otherIncome) p ∧
      totalOf (groupedBalances db p) .otherExpense = -Db.net db (inPart .otherExpense) p := by
  have htype : ∀ {part subtype} {a : Uuid × Account}, Part.subtype part = some subtype →
      a ∈ Db.accounts db → inPart part a.2 = true → a.2.subtype = subtype ∧
        (((a.2.subtype = .revenue ∨ a.2.subtype = .otherIncome) ∧ a.2.type = .revenue) ∨
          ((a.2.subtype = .cogs ∨ a.2.subtype = .operatingExpense ∨ a.2.subtype = .otherExpense) ∧
            a.2.type = .expense)) := by
    intro part subtype a hpart ha hin
    rw [inPart, hpart] at hin
    simp only [Bool.and_eq_true, decide_eq_true_eq] at hin
    exact ⟨hin.1, type_of_subtype (hchart.subtype a ha) hin.2.2⟩
  refine ⟨totalOf_revenue h fun a ha hin => ?_, totalOf_expense h fun a ha hin => ?_,
    totalOf_expense h fun a ha hin => ?_, totalOf_revenue h fun a ha hin => ?_,
    totalOf_expense h fun a ha hin => ?_⟩
  all_goals
    obtain ⟨hsubtype, hall⟩ := htype rfl ha hin
    simpa [hsubtype] using hall

/-- What is earned before the tax. -/
theorem profitBeforeTax_eq (fromDay toDay : UtcDay) :
    (ofRows fromDay toDay (groupedBalances db p)).profitBeforeTax =
      Db.net db (fun a => !decide (a.role = some .taxExpense) && a.isPnl) p := by
  obtain ⟨hrevenue, hcogs, hopex, hother, hexpense⟩ := totalOf_eq h hchart (p := p)
  have hgross : Money.subtract (Db.net db (inPart .revenue) p) (-Db.net db (inPart .cogs) p) =
      Db.net db (fun a => inPart .revenue a || inPart .cogs a) p :=
    h.subtract_net fun a => ⟨rfl, by simp only [inPart, Part.subtype]; grind⟩
  have hoperating : Money.subtract (Db.net db (fun a => inPart .revenue a || inPart .cogs a) p)
      (-Db.net db (inPart .operatingExpense) p) =
      Db.net db (fun a => inPart .revenue a || inPart .cogs a || inPart .operatingExpense a) p :=
    h.subtract_net fun a => ⟨rfl, by simp only [inPart, Part.subtype]; grind⟩
  have hincome : Money.add
      (Db.net db (fun a => inPart .revenue a || inPart .cogs a || inPart .operatingExpense a) p)
      (Db.net db (inPart .otherIncome) p) = Db.net db (fun a => inPart .revenue a ||
        inPart .cogs a || inPart .operatingExpense a || inPart .otherIncome a) p :=
    h.add_net fun a => ⟨rfl, by simp only [inPart, Part.subtype]; grind⟩
  have hbefore : Money.subtract (Db.net db (fun a => inPart .revenue a ||
        inPart .cogs a || inPart .operatingExpense a || inPart .otherIncome a) p)
      (-Db.net db (inPart .otherExpense) p) = Db.net db (fun a => inPart .revenue a ||
        inPart .cogs a || inPart .operatingExpense a || inPart .otherIncome a ||
        inPart .otherExpense a) p :=
    h.subtract_net fun a => ⟨rfl, by simp only [inPart, Part.subtype]; grind⟩
  change Money.subtract (Money.add (Money.subtract (Money.subtract (totalOf _ .revenue)
    (totalOf _ .cogs)) (totalOf _ .operatingExpense)) (totalOf _ .otherIncome))
    (totalOf _ .otherExpense) = _
  rw [hrevenue, hcogs, hopex, hother, hexpense, hgross, hoperating, hincome, hbefore]
  refine net_congr fun a ha => ?_
  -- every account has one of the subtypes
  by_cases hpnl : a.2.isPnl = true
  · have hsubtype := type_of_subtype (hchart.subtype a ha) hpnl
    simp only [inPart, Part.subtype, hpnl]
    grind
  · simp [inPart, Part.subtype, hpnl]

/-- The total of the tax, which is an expense or, where the account is a revenue, a negative one. -/
theorem totalOf_tax :
    ((∀ a ∈ Db.accounts db, (a.2.type = .revenue && a.2.role = some .taxExpense) = false) ∧
        totalOf (groupedBalances db p) .taxExpense = -Db.net db (inPart .taxExpense) p) ∨
      (∀ a ∈ Db.accounts db, (a.2.type = .revenue && a.2.role = some .taxExpense) =
          inPart .taxExpense a.2) ∧
        totalOf (groupedBalances db p) .taxExpense = Db.net db (inPart .taxExpense) p := by
  have hin : ∀ {a : Account}, inPart .taxExpense a = true →
      a.role = some .taxExpense ∧ (a.type = .revenue ∨ a.type = .expense) := by
    intro a hin
    simpa [inPart, Part.subtype, Account.isPnl, YearEndClose.isPnl] using hin
  by_cases hrevenue : ∃ a ∈ Db.accounts db, a.2.type = .revenue ∧ a.2.role = some .taxExpense
  · -- it is the only account with this role
    obtain ⟨a, ha, htype, hrole⟩ := hrevenue
    have honly : ∀ b ∈ Db.accounts db, b.2.role = some .taxExpense → b.2.type = .revenue := by
      intro b hb hrole'
      rw [← hchart.singleton a ha b hb (by rw [hrole]; rfl) (hrole.trans hrole'.symm)]
      exact htype
    refine .inr ⟨fun b hb => ?_, totalOf_revenue h fun b hb hpart => honly b hb (hin hpart).1⟩
    by_cases hrole' : b.2.role = some .taxExpense
    · simp [inPart, Part.subtype, Account.isPnl, YearEndClose.isPnl, hrole', honly b hb hrole']
    · simp [inPart, Part.subtype, hrole']
  · have hnone : ∀ a ∈ Db.accounts db, a.2.type = .revenue → a.2.role ≠ some .taxExpense :=
      fun a ha htype hrole => hrevenue ⟨a, ha, htype, hrole⟩
    refine .inl ⟨fun a ha => ?_, totalOf_expense h fun a ha hpart => ?_⟩
    · by_cases htype : a.2.type = .revenue
      · simp [htype, hnone a ha htype]
      · simp [htype]
    · exact (hin hpart).2.resolve_left fun htype => hnone a ha htype (hin hpart).1

/-- The net income is the profit before the tax less the tax. -/
theorem netIncome_eq (fromDay toDay : UtcDay) :
    (ofRows fromDay toDay (groupedBalances db p)).netIncome =
      Money.subtract (Db.net db (fun a => !decide (a.role = some .taxExpense) && a.isPnl) p)
        (totalOf (groupedBalances db p) .taxExpense) := by
  obtain ⟨-, -, -, -, -, htax, -⟩ := ofRows_parts fromDay toDay (groupedBalances db p)
  rw [← profitBeforeTax_eq h hchart fromDay toDay, ← htax]
  rfl

/-- **The net income of the income statement** is that of the profit and loss accounts if and only if a
revenue account of the income tax has not moved. -/
theorem netIncome_eq_iff (fromDay toDay : UtcDay) :
    (ofRows fromDay toDay (groupedBalances db p)).netIncome = Db.net db Account.isPnl p ↔
      Db.net db (fun a => a.type = .revenue && a.role = some .taxExpense) p = 0 := by
  have hsplit : ∀ a : Account, a.isPnl =
      (!decide (a.role = some .taxExpense) && a.isPnl || inPart .taxExpense a) ∧
        ¬ ((!decide (a.role = some .taxExpense) && a.isPnl) = true ∧ inPart .taxExpense a = true) :=
    fun a => by simp only [inPart, Part.subtype]; grind
  rw [netIncome_eq h hchart]
  rcases totalOf_tax h hchart (p := p) with ⟨hnone, htax⟩ | ⟨hall, htax⟩
  · have hzero : Db.net db (fun a => a.type = .revenue && a.role = some .taxExpense) p = 0 :=
      net_of_none hnone
    rw [htax, h.subtract_net hsplit]
    exact iff_of_true rfl hzero
  · have hrevenue : Db.net db (fun a => a.type = .revenue && a.role = some .taxExpense) p =
        Db.net db (inPart .taxExpense) p := net_congr hall
    rw [htax, hrevenue, net_add hsplit]
    constructor
    · intro heq
      -- the difference is exact, as the sum is storable
      have hstorable := h.net_storable (p := p) Account.isPnl
      rw [net_add hsplit, ← heq] at hstorable
      have hexact := Decimals.toSignificant_of_natAbs_lt (by decide) hstorable
      rw [← Money.subtract, heq] at hexact
      omega
    · intro hzero
      rw [hzero, add_zero]
      exact (Money.subtract_eq (by rw [sub_zero]; exact h.net_storable _)).trans (sub_zero _)

omit h in
/-- **Every profit and loss account enters one section.** -/
theorem existsUnique_part {a : Uuid × Account} (ha : a ∈ Db.accounts db) (hpnl : a.2.isPnl = true) :
    ∃! part, inPart part a.2 = true := by
  have hexists : ∃ part, inPart part a.2 = true := by
    by_cases htax : a.2.role = some .taxExpense
    · exact ⟨.taxExpense, by simp [inPart, Part.subtype, htax, hpnl]⟩
    · rcases type_of_subtype (hchart.subtype a ha) hpnl with ⟨hsubtype | hsubtype, -⟩ |
        ⟨hsubtype | hsubtype | hsubtype, -⟩
      · exact ⟨.revenue, by simp [inPart, Part.subtype, htax, hpnl, hsubtype]⟩
      · exact ⟨.otherIncome, by simp [inPart, Part.subtype, htax, hpnl, hsubtype]⟩
      · exact ⟨.cogs, by simp [inPart, Part.subtype, htax, hpnl, hsubtype]⟩
      · exact ⟨.operatingExpense, by simp [inPart, Part.subtype, htax, hpnl, hsubtype]⟩
      · exact ⟨.otherExpense, by simp [inPart, Part.subtype, htax, hpnl, hsubtype]⟩
  obtain ⟨part, hpart⟩ := hexists
  refine ⟨part, hpart, fun part' hpart' => ?_⟩
  cases part <;> cases part' <;> simp_all [inPart, Part.subtype]

omit h hchart in
/-- The row of an account is in a section if the account enters it. -/
theorem mem_rowsIn_iff {a : Uuid × Account} (ha : a ∈ Db.accounts db)
    (hline : Db.hasLine db a.1 p = true) (part : Part) :
    (∃ r ∈ rowsIn (groupedBalances db p) part, r.accountId = a.1) ↔ inPart part a.2 = true := by
  have hrow : ∀ b : Uuid × Account, (match part.subtype with
      | none => isTax (accountRow db p b) && BalanceSheet.isPnl (accountRow db p b)
      | some subtype => decide ((accountRow db p b).subtype = subtype) &&
        (!isTax (accountRow db p b) && BalanceSheet.isPnl (accountRow db p b))) =
      inPart part b.2 := by
    intro b
    unfold inPart
    cases part.subtype <;> rfl
  simp only [rowsIn_eq, List.mem_filter]
  constructor
  · rintro ⟨r, ⟨hr, hin⟩, hid⟩
    obtain ⟨b, hb, -, rfl⟩ := mem_groupedBalances.mp hr
    have hsame : b = a := List.inj_on_of_nodup_map (nodup_accounts db) hb ha hid
    rwa [hrow, hsame] at hin
  · intro hin
    exact ⟨accountRow db p a, ⟨mem_groupedBalances.mpr ⟨a, ha, hline, rfl⟩, (hrow a).trans hin⟩, rfl⟩

end Parts

end IncomeStatement

/-! ## The statements -/

section Ranges

variable {db : Db} (h : Ledger db)
include h

/-- The current earnings of the balance sheet. -/
theorem earnings_eq (p : UtcDay → Prop) [DecidablePred p] :
    BalanceSheet.earnings (groupedBalances db p) = Db.net db Account.isPnl p :=
  h.sum_credit_sub (fun _ => rfl) fun _ _ _ => rfl

/-- **The net income of the cash-flow statement** is that of the profit and loss accounts if and only
if those that are cash have not moved. -/
theorem CashFlow.netIncome_eq_iff (f t : Instant) :
    (CashFlow.generate db f t).netIncome = Db.net db Account.isPnl (Between f t) ↔
      Db.net db (fun a => a.isPnl && a.role = some .cash) (Between f t) = 0 := by
  have hnet : (CashFlow.generate db f t).netIncome = Db.net db CashFlow.earns (Between f t) := by
    rw [CashFlow.generate_eq h]
    exact CashFlow.netIncome_eq h
  have hsplit : Db.net db Account.isPnl (Between f t) = Db.net db CashFlow.earns (Between f t) +
      Db.net db (fun a => a.isPnl && a.role = some .cash) (Between f t) :=
    net_add fun a => by simp only [CashFlow.earns, Account.isPnl]; grind
  rw [hnet, hsplit]
  omega

/-- **The net incomes of a range agree** if and only if the accounts with an unsuitable role have no
movement in it. -/
theorem netIncomesAgree_iff (hchart : Chart db) (f t : Instant) :
    NetIncomesAgree db f t ↔ NoRoleMisplaced db f t := by
  have hincome : (IncomeStatement.generate db f t).netIncome =
      Db.net db Account.isPnl (Between f t) ↔
        Db.net db (fun a => a.type = .revenue && a.role = some .taxExpense) (Between f t) = 0 := by
    rw [IncomeStatement.generate, h.movementsBetween_eq]
    exact IncomeStatement.netIncome_eq_iff h hchart f.day t.day
  constructor
  · rintro ⟨hstatement, hcash, -, -⟩
    exact ⟨hincome.mp hstatement, (CashFlow.netIncome_eq_iff h f t).mp hcash⟩
  · rintro ⟨htax, hcash⟩
    refine ⟨hincome.mpr htax, (CashFlow.netIncome_eq_iff h f t).mpr hcash, ?_, ?_⟩
    · intro a ha hpnl hline
      rw [h.movementsBetween_eq]
      simp only [IncomeStatement.mem_rowsIn_iff ha hline]
      exact IncomeStatement.existsUnique_part hchart ha hpnl
    · intro settings hsettings hstart
      rw [BalanceSheet.generate, hsettings, hincome.mpr htax]
      refine ⟨_, rfl, ?_⟩
      dsimp only [BalanceSheet.ofRows]
      rw [h.movementsBetween_fiscalYear, ← hstart]
      exact earnings_eq h (Between f t)

end Ranges

namespace Sample

/-- A revenue account with the role of the income tax. -/
def taxRefunds : Accounts.CreateInput :=
  ⟨"4900", "Tax refunds", .revenue, .otherIncome, .credit, none, some .taxExpense, none, none⟩

/-- The account is created, and a refund is posted. -/
def refund : List (Request × ℕ) := [
  (.createAccount taxRefunds 30, 8),
  (.createAndPostEntry ⟨midYear, "Tax refund",
    [⟨1, some (rupiah 70), none, none⟩, ⟨30, none, some (rupiah 70), none⟩]⟩ 9 100 1, 16)]

end Sample

/-- **A revenue account of the income tax** counts as an expense in the income statement, and as income
in the cash-flow statement. -/
theorem tax_on_revenue : ¬ ∀ (s : Server) (f t : Instant),
    Reachable code (oneAtATime fun _ => True) Sample.db s → Ledger s.db → Chart s.db → f ≤ t →
    NetIncomesAgree s.db f t := by
  intro hall
  have h : Reachable code (oneAtATime fun _ => True) Sample.db (Sample.served Sample.db Sample.refund) :=
    Sample.served_reachable (fun _ _ => trivial) (by decide +kernel)
  have hagree := hall _ (.midnight Sample.newYearsDay) (.midnight Sample.yearEnd) h
    (ledger_of_reachable Sample.initial (by decide +kernel) h (by decide +kernel))
    (by decide +kernel) (by decide +kernel)
  exact absurd (hagree.income.trans hagree.cash.symm) (by decide +kernel)

/-- The net incomes of a year with a sale and an invoice, which is closed and reopened. -/
theorem netIncomesAgree_iff_year :
    NetIncomesAgree (Sample.served Sample.db Sample.year).db (.midnight Sample.newYearsDay)
      (.midnight Sample.yearEnd) :=
  (netIncomesAgree_iff Sample.year_ledger (by decide +kernel) _ _).mpr (by decide +kernel)

end AccountingApi
