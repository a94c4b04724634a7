import AccountingApi.TaxRounding

/-!
# The totals of a tax calculation

The sides of the journal lines are decided one by one: for the lines and the settlement by the nature
of the transaction, for the taxes by their kind. As long as the sums fit the arithmetic the lines
balance, so that a calculation is rejected by a check of its input or not at all.

## Main definitions

* `TaxService.SumsFit`: the amounts are not negative, and lines and taxes add up to less than 10^16
* `TaxService.exactSettlement`: the settlement of the exact sums
* `TaxService.AddsUp`: what a calculation says about its input

## Main results

* `TaxService.summarize_eq`: the result for resolved tax codes
* `TaxService.calculate_addsUp`: a calculation that is not rejected adds up
-/

namespace AccountingApi

namespace TaxService

/-! ## Statements -/

/-- The tax of a code on the lines: the exact base times the rate, as the arithmetic rounds it. -/
def taxAmount (lines : List TaxableLineInput) (id : Uuid) (c : TaxCode) : ℤ :=
  Money.roundToRupiah (Money.multiply (exactBase lines id) c.rate 6)

/-- The exact sum of the amounts of some lines. -/
def exactSubtotal (lines : List TaxableLineInput) : ℤ := (lines.map (·.amount)).sum

/-- The exact sum of the taxes of the codes the lines carry, where the codes exist and satisfy
`keep`. -/
def exactTaxes (codes : Uuid → Option TaxCode) (lines : List TaxableLineInput)
    (keep : TaxCode → Bool) : ℤ :=
  ((taxCodeIds lines).map fun id =>
    ((codes id).filter keep).elim 0 fun c => taxAmount lines id c).sum

/-- The amounts of the lines are not negative, the rates are those the service accepts, and the lines
and their taxes add up to less than 10^16 rupiah. -/
structure SumsFit (codes : Uuid → Option TaxCode) (lines : List TaxableLineInput) : Prop where
  amount : ∀ l ∈ lines, 0 ≤ l.amount
  rate : ∀ id c, codes id = some c → TaxCodes.validateRate c.rate = .ok ()
  sum : exactSubtotal lines + exactTaxes codes lines (fun _ => true) < 10 ^ 20

/-- The settlement of the exact sums: the subtotal and the value-added taxes less the withholding
taxes. -/
def exactSettlement (codes : Uuid → Option TaxCode) (lines : List TaxableLineInput) : ℤ :=
  exactSubtotal lines + exactTaxes codes lines (isPpn ·.kind) -
    exactTaxes codes lines (!isPpn ·.kind)

/-- The debit of an account less its credit, over some lines. -/
def netOf (lines : List PostLineInput) (accountId : Uuid) : ℤ :=
  ((lines.filter (·.accountId = accountId)).map fun l => l.debitOrZero - l.creditOrZero).sum

/-- The amount with the sign of a base line: a purchase is a debit, a sale a credit. -/
def signed (nature : TaxNature) (amount : ℤ) : ℤ :=
  match nature with
  | .sale => -amount
  | .purchase => amount

/-- The amount of a tax with the sign of its kind. -/
def signedTax (t : TaxBreakdownRow) : ℤ := if isDebitKind t.kind then t.amount else -t.amount

/-- What a calculation says about its input. -/
structure AddsUp (input : TaxableTransaction) (res : TaxCalculation) : Prop where
  balanced : (res.journalLines.map (·.debitOrZero)).sum = (res.journalLines.map (·.creditOrZero)).sum
  subtotal : res.subtotal = exactSubtotal input.lines
  settlement : res.settlementAmount = res.subtotal + res.taxTotal - res.withholdingTotal
  positive : 0 < res.settlementAmount
  taxTotal : res.taxTotal = ((res.taxes.filter (isPpn ·.kind)).map (·.amount)).sum
  withholdingTotal : res.withholdingTotal = ((res.taxes.filter (!isPpn ·.kind)).map (·.amount)).sum
  once : (res.taxes.map (·.taxCodeId)).Nodup
  carried : ∀ id, id ∈ res.taxes.map (·.taxCodeId) ↔ ∃ l ∈ input.lines, id ∈ l.taxCodeIds
  base : ∀ t ∈ res.taxes, t.base = exactBase input.lines t.taxCodeId
  accounts : ∀ accountId, netOf res.journalLines accountId =
    ((input.lines.filter (·.accountId = accountId)).map (signed input.nature ·.amount)).sum +
      ((res.taxes.filter (·.accountId = accountId)).map signedTax).sum +
      if input.settlementAccountId = accountId then -signed input.nature res.settlementAmount else 0

/-! ## The codes of the lines -/

section Codes

variable {codes : Uuid → Option TaxCode} {cs : List (Uuid × TaxCode)} {ids : List Uuid}

/-- The tax codes with the given keys, in their order. -/
theorem resolveCodes_eq (h : resolveCodes codes ids = .ok cs) :
    cs.map Prod.fst = ids ∧ ∀ x ∈ cs, codes x.1 = some x.2 ∧ x.2.isActive = true := by
  induction ids generalizing cs with
  | nil =>
    cases h
    simp
  | cons id ids ih =>
    unfold resolveCodes at h
    split at h
    · cases h
    · rename_i c hc
      split at h
      · rename_i hactive
        split at h
        · cases h
        · rename_i cs' hcs'
          cases h
          obtain ⟨hids, hall⟩ := ih hcs'
          exact ⟨by rw [List.map_cons, hids], List.forall_mem_cons.mpr ⟨⟨hc, hactive⟩, hall⟩⟩
      · cases h

/-- A code that is not resolved is rejected by a validation error. -/
theorem resolveCodes_error {e : Failure} (h : resolveCodes codes ids = .error e) :
    ∃ message details, e = .validationFailed message details := by
  induction ids with
  | nil => cases h
  | cons id ids ih =>
    unfold resolveCodes at h
    split at h
    · cases h
      exact ⟨_, _, rfl⟩
    · split at h
      · split at h
        · rename_i hrest
          cases h
          exact ih hrest
        · cases h
      · cases h
        exact ⟨_, _, rfl⟩

/-- The codes are resolved if all of them are known and active. -/
theorem resolveCodes_isOk_iff : (∃ cs, resolveCodes codes ids = .ok cs) ↔
    ∀ id ∈ ids, ∃ c, codes id = some c ∧ c.isActive = true := by
  constructor
  · rintro ⟨cs, hcs⟩ id hid
    obtain ⟨hids, hall⟩ := resolveCodes_eq hcs
    rw [← hids] at hid
    obtain ⟨x, hx, rfl⟩ := List.mem_map.mp hid
    exact ⟨x.2, hall x hx⟩
  · intro hall
    induction ids with
    | nil => exact ⟨[], rfl⟩
    | cons id ids ih =>
      obtain ⟨⟨c, hc, hactive⟩, hall⟩ := List.forall_mem_cons.mp hall
      obtain ⟨cs, hcs⟩ := ih hall
      exact ⟨(id, c) :: cs, by simp [resolveCodes, hc, hactive, hcs]⟩

/-- The kinds are allowed if that of each code is. -/
theorem checkKinds_eq_ok_iff {nature : TaxNature} :
    checkKinds nature cs = .ok () ↔ ∀ x ∈ cs, x.2.kind ∈ allowedKinds nature := by
  unfold checkKinds
  split
  · rename_i id c hfind
    have hkind : c.kind ∉ allowedKinds nature := by simpa using List.find?_some hfind
    simp only [reduceCtorEq, false_iff]
    exact fun hall => hkind (hall _ (List.mem_of_find?_eq_some hfind))
  · rename_i hfind
    refine iff_of_true rfl fun x hx => ?_
    have hnone := List.find?_eq_none.mp hfind x hx
    simpa using hnone

theorem mem_taxCodeIds {lines : List TaxableLineInput} {id : Uuid} :
    id ∈ taxCodeIds lines ↔ ∃ l ∈ lines, id ∈ l.taxCodeIds := by
  rw [taxCodeIds, List.mem_eraseDups, List.mem_flatMap]

/-- The keys are listed once each. -/
theorem nodup_taxCodeIds (lines : List TaxableLineInput) : (taxCodeIds lines).Nodup := by
  have hnodup : ∀ (n : ℕ) (l : List Uuid), l.length ≤ n → l.eraseDups.Nodup := by
    intro n
    induction n with
    | zero =>
      intro l hl
      rw [List.length_eq_zero_iff.mp (Nat.le_zero.mp hl)]
      exact List.nodup_nil
    | succ n ih =>
      intro l hl
      cases l with
      | nil => exact List.nodup_nil
      | cons a l =>
        rw [List.length_cons] at hl
        have hlength := List.length_filter_le (fun b => !b == a) l
        rw [List.eraseDups_cons, List.nodup_cons]
        exact ⟨by simp [List.mem_eraseDups], ih _ (by omega)⟩
  exact hnodup _ _ le_rfl

end Codes

/-! ## The exact sums -/

/-- A sum over the elements that satisfy a predicate. -/
theorem sum_map_filter {α : Type} (l : List α) (keep : α → Bool) (f : α → ℤ) :
    ((l.filter keep).map f).sum = (l.map fun x => if keep x then f x else 0).sum := by
  induction l with
  | nil => rfl
  | cons x l ih =>
    rw [List.filter_cons, List.map_cons, List.sum_cons, ← ih]
    split
    · rw [List.map_cons, List.sum_cons]
    · rw [zero_add]

section Sums

variable {collation : Collation} {codes : Uuid → Option TaxCode} {lines : List TaxableLineInput}
  {cs : List (Uuid × TaxCode)}

/-- The taxes as a sum over the resolved codes. -/
theorem exactTaxes_eq (hcs : resolveCodes codes (taxCodeIds lines) = .ok cs) (keep : TaxCode → Bool) :
    exactTaxes codes lines keep =
      ((cs.filter (keep ·.2)).map fun x => taxAmount lines x.1 x.2).sum := by
  obtain ⟨hids, hall⟩ := resolveCodes_eq hcs
  rw [exactTaxes, ← hids, List.map_map, sum_map_filter]
  refine congrArg List.sum (List.map_congr_left fun x hx => ?_)
  simp only [Function.comp_apply, (hall x hx).1, Option.filter_some]
  split <;> rfl

variable (h : SumsFit codes lines)
include h

theorem SumsFit.taxAmount_nonneg {id : Uuid} {c : TaxCode} (hc : codes id = some c) :
    0 ≤ taxAmount lines id c := by
  have hbase : 0 ≤ exactBase lines id := List.sum_nonneg (List.forall_mem_map.mpr fun l hl =>
    h.amount l (List.mem_of_mem_filter hl))
  have hrate := (validateRate_ok (h.rate id c hc)).1
  exact Money.roundToRupiah_nonneg (Money.multiply_nonneg (mul_nonneg hbase hrate.le) 6)

theorem SumsFit.subtotal_nonneg : 0 ≤ exactSubtotal lines :=
  List.sum_nonneg (List.forall_mem_map.mpr h.amount)

theorem SumsFit.taxes_nonneg (keep : TaxCode → Bool) : 0 ≤ exactTaxes codes lines keep := by
  refine List.sum_nonneg (List.forall_mem_map.mpr fun id _ => ?_)
  cases hc : (codes id).filter keep with
  | none => exact le_rfl
  | some c => exact h.taxAmount_nonneg (Option.filter_eq_some_iff.mp hc).1

omit h in
/-- The taxes of one kind and those of the other are all taxes. -/
theorem exactTaxes_add (codes : Uuid → Option TaxCode) (lines : List TaxableLineInput)
    (keep : TaxCode → Bool) : exactTaxes codes lines keep + exactTaxes codes lines (!keep ·) =
      exactTaxes codes lines fun _ => true := by
  unfold exactTaxes
  rw [← List.sum_map_add]
  refine congrArg List.sum (List.map_congr_left fun id _ => ?_)
  cases codes id with
  | none => rfl
  | some c =>
    simp only [Option.filter_some]
    cases keep c <;> simp

theorem SumsFit.subtotal_lt : exactSubtotal lines < 10 ^ 20 := by
  have hsum := h.sum
  have htaxes := h.taxes_nonneg fun _ => true
  omega

/-- The row of a code has the exact base and its tax. -/
theorem SumsFit.breakdownRow_eq (x : Uuid × TaxCode) :
    (breakdownRow lines x).base = exactBase lines x.1 ∧
      (breakdownRow lines x).amount = taxAmount lines x.1 x.2 := by
  have hbase := (baseOf_eq h.amount h.subtotal_lt x.1).1
  refine ⟨hbase, ?_⟩
  rw [taxAmount, ← hbase]
  rfl

/-- The rows of the codes of one kind, in any order, add up to the exact taxes. -/
theorem SumsFit.sum_rows (hcs : resolveCodes codes (taxCodeIds lines) = .ok cs)
    (keep : TaxKind → Bool) :
    ((sortRows collation (cs.map (breakdownRow lines))).filter (keep ·.kind) |>.map (·.amount)).sum =
      exactTaxes codes lines (keep ·.kind) := by
  rw [exactTaxes_eq hcs, sortRows, (((List.perm_insertionSort _ _).filter _).map _).sum_eq,
    List.filter_map, List.map_map]
  refine congrArg List.sum (List.map_congr_left fun x _ => ?_)
  exact (h.breakdownRow_eq x).2

/-- The rows of the codes of one kind have no negative amount. -/
theorem SumsFit.amount_nonneg (hcs : resolveCodes codes (taxCodeIds lines) = .ok cs) :
    ∀ t ∈ sortRows collation (cs.map (breakdownRow lines)), 0 ≤ t.amount := by
  intro t ht
  obtain ⟨x, hx, rfl⟩ := List.mem_map.mp ((List.mem_insertionSort _).mp ht)
  rw [(h.breakdownRow_eq x).2]
  exact h.taxAmount_nonneg ((resolveCodes_eq hcs).2 x hx).1

/-- The totals of the rows of one kind are exact. -/
theorem SumsFit.money_sum_rows (hcs : resolveCodes codes (taxCodeIds lines) = .ok cs)
    (keep : TaxKind → Bool) :
    Money.sum
        ((sortRows collation (cs.map (breakdownRow lines))).filter (keep ·.kind) |>.map (·.amount)) =
      exactTaxes codes lines (keep ·.kind) := by
  rw [Money.sum_eq_of_lt (fun t ht => h.amount_nonneg hcs t (List.mem_of_mem_filter ht)),
    h.sum_rows hcs]
  rw [h.sum_rows hcs]
  have hsum := h.sum
  have hadd := exactTaxes_add codes lines (keep ·.kind)
  have hrest := h.taxes_nonneg (!keep ·.kind)
  have hsubtotal := h.subtotal_nonneg
  omega

end Sums

/-! ## The sides of the journal lines -/

section Sides

/-- The journal lines of a calculation. -/
def journalLinesOf (input : TaxableTransaction) (taxes : List TaxBreakdownRow) (settlement : ℤ) :
    List PostLineInput :=
  input.lines.map (baseLine input.nature) ++ taxes.map taxLine ++
    [settlementLine input.nature input.settlementAccountId settlement]

/-- A tax is on the side of the base lines if it is a value-added tax. -/
theorem isDebitKind_of_allowed : (∀ kind ∈ allowedKinds .sale, isDebitKind kind = !isPpn kind) ∧
    ∀ kind ∈ allowedKinds .purchase, isDebitKind kind = isPpn kind := by
  decide

variable {input : TaxableTransaction} {taxes : List TaxBreakdownRow} {settlement : ℤ}

/-- The sum of one side of the journal lines, part by part. -/
theorem sum_journalLinesOf (side : PostLineInput → ℤ) :
    ((journalLinesOf input taxes settlement).map side).sum =
      (input.lines.map fun l => side (baseLine input.nature l)).sum +
        (taxes.map fun t => side (taxLine t)).sum +
          side (settlementLine input.nature input.settlementAccountId settlement) := by
  simp only [journalLinesOf, List.map_append, List.map_map, List.sum_append, List.map_cons,
    List.map_nil, List.sum_singleton]
  rfl

theorem taxLine_sides (t : TaxBreakdownRow) :
    (taxLine t).debitOrZero = (if isDebitKind t.kind then t.amount else 0) ∧
      (taxLine t).creditOrZero = if !isDebitKind t.kind then t.amount else 0 := by
  unfold taxLine
  cases isDebitKind t.kind <;> exact ⟨rfl, rfl⟩

/-- **The side of the base lines** has the subtotal and the value-added taxes, the other one the
withholding taxes and the settlement. -/
theorem sum_sides (settlement : ℤ) (hkinds : ∀ t ∈ taxes, t.kind ∈ allowedKinds input.nature) :
    let debit := ((journalLinesOf input taxes settlement).map (·.debitOrZero)).sum
    let credit := ((journalLinesOf input taxes settlement).map (·.creditOrZero)).sum
    let gross := exactSubtotal input.lines + ((taxes.filter (isPpn ·.kind)).map (·.amount)).sum
    let settled := ((taxes.filter (!isPpn ·.kind)).map (·.amount)).sum + settlement
    match input.nature with
    | .sale => debit = settled ∧ credit = gross
    | .purchase => debit = gross ∧ credit = settled := by
  have hzero : (input.lines.map fun _ => (0 : ℤ)).sum = 0 := by simp
  rw [sum_map_filter, sum_map_filter]
  simp only [sum_journalLinesOf, taxLine_sides]
  cases hnature : input.nature with
  | sale =>
    have hside : ∀ t ∈ taxes, isDebitKind t.kind = !isPpn t.kind := fun t ht =>
      isDebitKind_of_allowed.1 t.kind (hnature ▸ hkinds t ht)
    have hdebit : (input.lines.map fun l => (baseLine .sale l).debitOrZero).sum = 0 := hzero
    have hcredit : (input.lines.map fun l => (baseLine .sale l).creditOrZero).sum =
        exactSubtotal input.lines := rfl
    rw [hdebit, hcredit]
    constructor
    · rw [zero_add, List.map_congr_left fun t ht => by rw [hside t ht]]
      rfl
    · rw [List.map_congr_left fun t ht => by rw [hside t ht, Bool.not_not]]
      exact add_zero _
  | purchase =>
    have hside : ∀ t ∈ taxes, isDebitKind t.kind = isPpn t.kind := fun t ht =>
      isDebitKind_of_allowed.2 t.kind (hnature ▸ hkinds t ht)
    have hdebit : (input.lines.map fun l => (baseLine .purchase l).debitOrZero).sum =
        exactSubtotal input.lines := rfl
    have hcredit : (input.lines.map fun l => (baseLine .purchase l).creditOrZero).sum = 0 := hzero
    rw [hdebit, hcredit]
    constructor
    · rw [List.map_congr_left fun t ht => by rw [hside t ht]]
      exact add_zero _
    · rw [zero_add, List.map_congr_left fun t ht => by rw [hside t ht]]
      rfl

/-- The net of the journal lines on an account, part by part. -/
theorem netOf_journalLinesOf (accountId : Uuid) :
    netOf (journalLinesOf input taxes settlement) accountId =
      ((input.lines.filter (·.accountId = accountId)).map (signed input.nature ·.amount)).sum +
        ((taxes.filter (·.accountId = accountId)).map signedTax).sum +
          if input.settlementAccountId = accountId then -signed input.nature settlement else 0 := by
  have hbase : ∀ l : TaxableLineInput, (baseLine input.nature l).accountId = l.accountId ∧
      (baseLine input.nature l).debitOrZero - (baseLine input.nature l).creditOrZero =
        signed input.nature l.amount := by
    intro l
    cases input.nature with
    | sale => exact ⟨rfl, zero_sub _⟩
    | purchase => exact ⟨rfl, sub_zero _⟩
  have htax : ∀ t : TaxBreakdownRow, (taxLine t).accountId = t.accountId ∧
      (taxLine t).debitOrZero - (taxLine t).creditOrZero = signedTax t := by
    intro t
    unfold taxLine signedTax
    split
    · exact ⟨rfl, sub_zero _⟩
    · exact ⟨rfl, zero_sub _⟩
  have hsettlement : (settlementLine input.nature input.settlementAccountId settlement).accountId =
      input.settlementAccountId ∧
        (settlementLine input.nature input.settlementAccountId settlement).debitOrZero -
          (settlementLine input.nature input.settlementAccountId settlement).creditOrZero =
            -signed input.nature settlement := by
    cases input.nature with
    | sale => exact ⟨rfl, (sub_zero _).trans (neg_neg _).symm⟩
    | purchase => exact ⟨rfl, zero_sub _⟩
  rw [netOf, sum_map_filter, sum_journalLinesOf, sum_map_filter, sum_map_filter]
  simp only [hbase, htax, hsettlement, decide_eq_true_eq]

end Sides

/-! ## The result -/

section Result

variable {collation : Collation} {codes : Uuid → Option TaxCode} {input : TaxableTransaction}
  {cs : List (Uuid × TaxCode)}

/-- The result of the exact sums, for resolved tax codes. -/
def resultOf (collation : Collation) (codes : Uuid → Option TaxCode)
    (input : TaxableTransaction) (cs : List (Uuid × TaxCode)) : TaxCalculation :=
  let taxes := sortRows collation (cs.map (breakdownRow input.lines))
  let settlement := exactSettlement codes input.lines
  ⟨exactSubtotal input.lines, taxes, settlement, journalLinesOf input taxes settlement,
    exactTaxes codes input.lines (isPpn ·.kind), exactTaxes codes input.lines (!isPpn ·.kind)⟩

variable (h : SumsFit codes input.lines)
  (hcs : resolveCodes codes (taxCodeIds input.lines) = .ok cs)
  (hkinds : checkKinds input.nature cs = .ok ())
include h

/-- The settlement as the arithmetic has it. -/
theorem settlement_eq : Money.subtract
    (Money.add (exactSubtotal input.lines) (exactTaxes codes input.lines (isPpn ·.kind)))
    (exactTaxes codes input.lines (!isPpn ·.kind)) = exactSettlement codes input.lines := by
  have hsum := h.sum
  have hadd := exactTaxes_add codes input.lines (isPpn ·.kind)
  have hsubtotal := h.subtotal_nonneg
  have hppn := h.taxes_nonneg (isPpn ·.kind)
  have hpph := h.taxes_nonneg (!isPpn ·.kind)
  rw [Money.add_eq, Money.subtract_eq]
  · rfl
  · simp only [Money.Storable]
    omega
  · simp only [Money.Storable]
    omega

include hcs

include hkinds

/-- The exact sums of the two sides are equal. -/
theorem sums_balanced :
    ((resultOf collation codes input cs).journalLines.map (·.debitOrZero)).sum =
        exactSubtotal input.lines + exactTaxes codes input.lines (isPpn ·.kind) ∧
      ((resultOf collation codes input cs).journalLines.map (·.creditOrZero)).sum =
        exactSubtotal input.lines + exactTaxes codes input.lines (isPpn ·.kind) := by
  have hallowed : ∀ t ∈ sortRows collation (cs.map (breakdownRow input.lines)),
      t.kind ∈ allowedKinds input.nature := by
    intro t ht
    obtain ⟨x, hx, rfl⟩ := List.mem_map.mp ((List.mem_insertionSort _).mp ht)
    exact checkKinds_eq_ok_iff.mp hkinds x hx
  have hsides := sum_sides (exactSettlement codes input.lines) hallowed
  rw [h.sum_rows hcs isPpn, h.sum_rows hcs (!isPpn ·)] at hsides
  have hsettled : exactTaxes codes input.lines (!isPpn ·.kind) + exactSettlement codes input.lines =
      exactSubtotal input.lines + exactTaxes codes input.lines (isPpn ·.kind) := by
    rw [exactSettlement]
    ring
  simp only [hsettled] at hsides
  revert hsides
  cases input.nature with
  | sale => exact id
  | purchase => exact id

/-- **The result for resolved tax codes**: the exact sums, unless the settlement is not positive. -/
theorem summarize_eq : summarize collation input cs =
    if 0 < exactSettlement codes input.lines then .ok (resultOf collation codes input cs)
    else .error (.validationFailed "Total withholding leaves a non-positive settlement amount"
      [("subtotal", .amount (exactSubtotal input.lines)),
        ("totalWithheld", .amount (exactTaxes codes input.lines (!isPpn ·.kind)))]) := by
  have hsubtotal : Money.sum (input.lines.map (·.amount)) = exactSubtotal input.lines :=
    Money.sum_eq_of_lt h.amount h.subtotal_lt
  have hsettlement := settlement_eq h
  have hppn := @SumsFit.money_sum_rows collation _ _ _ h hcs isPpn
  have hpph := @SumsFit.money_sum_rows collation _ _ _ h hcs (!isPpn ·)
  simp only [summarize, hsubtotal, hppn, hpph, hsettlement, Money.isZero, Money.isNegative]
  by_cases hpos : 0 < exactSettlement codes input.lines
  · have hnot : ¬ (decide (exactSettlement codes input.lines = 0) ||
        decide (exactSettlement codes input.lines < 0)) = true := by
      simp only [Bool.or_eq_true, decide_eq_true_eq]
      omega
    rw [if_neg hnot, if_pos hpos]
    -- both totals are exact, as no side is negative
    obtain ⟨hdebit, hcredit⟩ := sums_balanced h hcs hkinds
    have hsides : ∀ l ∈ (resultOf collation codes input cs).journalLines,
        0 ≤ l.debitOrZero ∧ 0 ≤ l.creditOrZero := by
      intro l hl
      rcases List.mem_append.mp hl with hl | hl
      · rcases List.mem_append.mp hl with hl | hl
        · obtain ⟨x, hx, rfl⟩ := List.mem_map.mp hl
          have hamount := h.amount x hx
          cases input.nature with
          | sale => exact ⟨le_rfl, hamount⟩
          | purchase => exact ⟨hamount, le_rfl⟩
        · obtain ⟨t, ht, rfl⟩ := List.mem_map.mp hl
          have hamount := h.amount_nonneg hcs t ht
          unfold taxLine
          split
          · exact ⟨hamount, le_rfl⟩
          · exact ⟨le_rfl, hamount⟩
      · rw [List.mem_singleton.mp hl]
        cases input.nature with
        | sale => exact ⟨hpos.le, le_rfl⟩
        | purchase => exact ⟨le_rfl, hpos.le⟩
    have hlt : exactSubtotal input.lines + exactTaxes codes input.lines (isPpn ·.kind) < 10 ^ 20 := by
      have hsum := h.sum
      have hadd := exactTaxes_add codes input.lines (isPpn ·.kind)
      have hrest := h.taxes_nonneg (!isPpn ·.kind)
      omega
    have hequal : Money.sum ((resultOf collation codes input cs).journalLines.map (·.debitOrZero)) =
        Money.sum ((resultOf collation codes input cs).journalLines.map (·.creditOrZero)) := by
      rw [Money.sum_eq_of_lt (fun l hl => (hsides l hl).1) (hdebit ▸ hlt),
        Money.sum_eq_of_lt (fun l hl => (hsides l hl).2) (hcredit ▸ hlt), hdebit, hcredit]
    exact if_pos hequal
  · have hnot : (decide (exactSettlement codes input.lines = 0) ||
        decide (exactSettlement codes input.lines < 0)) = true := by
      simp only [Bool.or_eq_true, decide_eq_true_eq]
      omega
    rw [if_pos hnot, if_neg hpos]

end Result

section Calculate

variable {collation : Collation} {codes : Uuid → Option TaxCode} {input : TaxableTransaction}
  {res : TaxCalculation}

theorem checkLines_eq_ok_iff {lines : List TaxableLineInput} :
    checkLines lines = .ok () ↔ lines ≠ [] ∧ ∀ l ∈ lines, l.taxCodeIds.Nodup := by
  unfold checkLines
  cases lines with
  | nil => simp
  | cons l lines =>
    simp only [List.isEmpty_cons, Bool.false_eq_true, if_false, ne_eq, reduceCtorEq,
      not_false_eq_true, true_and]
    split
    · rename_i x hfind
      have hrepeated : ¬ x.taxCodeIds.Nodup := by simpa using List.find?_some hfind
      simp only [reduceCtorEq, false_iff]
      exact fun hall => hrepeated (hall x (List.mem_of_find?_eq_some hfind))
    · rename_i hfind
      refine iff_of_true rfl fun x hx => ?_
      simpa using List.find?_eq_none.mp hfind x hx

variable (h : SumsFit codes input.lines)
include h

variable (input) in
/-- **What the engine accepts, and the result.** -/
theorem calculate_eq_ok_iff : calculate collation codes input = .ok res ↔
    (input.lines ≠ [] ∧ ∀ l ∈ input.lines, l.taxCodeIds.Nodup) ∧
      ∃ cs, resolveCodes codes (taxCodeIds input.lines) = .ok cs ∧
        (∀ x ∈ cs, x.2.kind ∈ allowedKinds input.nature) ∧
          0 < exactSettlement codes input.lines ∧ res = resultOf collation codes input cs := by
  rw [← checkLines_eq_ok_iff]
  constructor
  · intro hres
    simp only [calculate, applyCodes, bind, Except.bind] at hres
    split at hres
    · cases hres
    · rename_i hlines
      split at hres
      · cases hres
      · rename_i cs hcs
        split at hres
        · cases hres
        · rename_i hkinds
          rw [summarize_eq h hcs hkinds] at hres
          split at hres
          · rename_i hpos
            cases hres
            exact ⟨hlines, cs, hcs, checkKinds_eq_ok_iff.mp hkinds, hpos, rfl⟩
          · cases hres
  · rintro ⟨hlines, cs, hcs, hkinds, hpos, rfl⟩
    have hkinds := checkKinds_eq_ok_iff.mpr hkinds
    simp only [calculate, applyCodes, bind, Except.bind, hlines, hcs, hkinds,
      summarize_eq h hcs hkinds, hpos, if_true]

/-- A calculation is rejected by a validation error only. -/
theorem calculate_error {e : Failure} (he : calculate collation codes input = .error e) :
    ∃ message details, e = .validationFailed message details := by
  simp only [calculate, applyCodes, bind, Except.bind] at he
  split at he
  · rename_i hlines
    cases he
    unfold checkLines at hlines
    split at hlines
    · cases hlines
      exact ⟨_, _, rfl⟩
    · split at hlines
      · cases hlines
        exact ⟨_, _, rfl⟩
      · cases hlines
  · split at he
    · rename_i hcs
      cases he
      exact resolveCodes_error hcs
    · rename_i cs hcs
      split at he
      · rename_i hkinds
        cases he
        unfold checkKinds at hkinds
        split at hkinds
        · cases hkinds
          exact ⟨_, _, rfl⟩
        · cases hkinds
      · rename_i hkinds
        rw [summarize_eq h hcs hkinds] at he
        split at he
        · cases he
        · cases he
          exact ⟨_, _, rfl⟩

/-- A result adds up. -/
theorem addsUp_of_ok (hres : calculate collation codes input = .ok res) : AddsUp input res := by
  obtain ⟨-, cs, hcs, hkinds, hpos, rfl⟩ := (calculate_eq_ok_iff input h).mp hres
  obtain ⟨hdebit, hcredit⟩ := sums_balanced h hcs (checkKinds_eq_ok_iff.mpr hkinds)
  have hperm : (resultOf collation codes input cs).taxes.Perm (cs.map (breakdownRow input.lines)) :=
    List.perm_insertionSort _ _
  have hids : ((resultOf collation codes input cs).taxes.map (·.taxCodeId)).Perm
      (taxCodeIds input.lines) := by
    refine (hperm.map _).trans ?_
    rw [List.map_map, ← (resolveCodes_eq hcs).1]
    exact .rfl
  refine ⟨hdebit.trans hcredit.symm, rfl, rfl, hpos, (h.sum_rows hcs isPpn).symm,
    (h.sum_rows hcs (!isPpn ·)).symm, hids.nodup_iff.mpr (nodup_taxCodeIds _), fun id => ?_,
    fun t ht => ?_, netOf_journalLinesOf⟩
  · rw [hids.mem_iff, mem_taxCodeIds]
  · obtain ⟨x, -, rfl⟩ := List.mem_map.mp (hperm.mem_iff.mp ht)
    exact (h.breakdownRow_eq x).1

/-- **A calculation that is not rejected adds up**: the lines balance, so that the check for this never
fails. -/
theorem calculate_addsUp
    (haccepted : ∀ message details,
      calculate collation codes input ≠ .error (.validationFailed message details)) :
    ∃ res, calculate collation codes input = .ok res ∧ AddsUp input res := by
  cases hres : calculate collation codes input with
  | ok res => exact ⟨res, rfl, addsUp_of_ok h hres⟩
  | error e =>
    obtain ⟨message, details, rfl⟩ := calculate_error h hres
    exact absurd hres (haccepted message details)

end Calculate

end TaxService

namespace Sample

/-- The value-added tax of eleven percent under the key `31`, and a withholding tax of two percent under
the key `32`. -/
def saleTaxes (id : Uuid) : Option TaxCode :=
  if id = 32 then some ⟨"PPH23-PRE", .pphPrepaid, 20000, 33, true, none⟩ else ppn id

/-- A sale of goods and services, of which only the services are subject to withholding. -/
def goodsAndServices : TaxableTransaction :=
  ⟨.sale, 2, [⟨5, 1000000, [31]⟩, ⟨5, 2500000, [32, 31]⟩, ⟨6, 300000, []⟩]⟩

theorem saleTaxes_fit : TaxService.SumsFit saleTaxes goodsAndServices.lines where
  amount := by decide
  rate := by
    intro id c hc
    unfold saleTaxes at hc
    split at hc
    · cases hc
      rfl
    · exact ppn_rate id c hc
  sum := by decide +kernel

end Sample

namespace TaxService

/-- A sale with two taxes on overlapping lines. -/
theorem calculate_addsUp_sale : ∃ res,
    calculate .ordinal Sample.saleTaxes Sample.goodsAndServices = .ok res ∧
      AddsUp Sample.goodsAndServices res :=
  calculate_addsUp Sample.saleTaxes_fit fun _ _ he => by
    have hok : (calculate .ordinal Sample.saleTaxes Sample.goodsAndServices).isOk = true := by
      decide +kernel
    rw [he] at hok
    cases hok

end TaxService

end AccountingApi
