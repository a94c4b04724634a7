import AccountingApi.Sorting.Stable
import AccountingApi.TaxTotals

/-!
# Rearranged transactions

The engine adds up the amounts that carry a tax code before it computes the tax. So neither the order of
lines and codes nor the way an amount is split over lines of the same account and codes changes the
amounts it calculates. The taxes are sorted by code, and codes that tie in the order of strings come as
they first occur: there the order of the lines does reach the result.

## Main definitions

* `TaxService.Rearranges`, `TaxService.Rearranged`: one rearrangement, and any number of them
* `TaxService.SameContent`: what rearranged lines have in common
* `TaxService.SameCalculation`: what their calculations should have in common
* `TaxService.Acceptable`: the transactions that are not rejected
* `TaxService.TiesAlike`: codes that tie occur in the same order

## Main results

* `Rearranged.sameContent`
* `TaxService.calculate_rearranged_iff`: when rearranged transactions have the same calculation
* `TaxService.taxes_swapped`: two codes that tie, and two orders of lines
-/

namespace AccountingApi

open Relation

namespace TaxService

/-! ## The order of tax codes -/

/-- The rows in the order of their codes. -/
def RowLe (collation : Collation) (a b : TaxBreakdownRow) : Prop :=
  collation.localeCompare a.code b.code ≠ .gt

section RowLe

variable {collation : Collation}

instance : DecidableRel (RowLe collation) := fun a b =>
  inferInstanceAs (Decidable (collation.localeCompare a.code b.code ≠ .gt))

theorem not_gt_iff_swap (a b : String) :
    collation.localeCompare b a ≠ .gt ↔ collation.localeCompare a b ≠ .lt := by
  have hswap : collation.localeCompare b a = (collation.localeCompare a b).swap :=
    Std.OrientedCmp.eq_swap
  rw [hswap]
  cases collation.localeCompare a b <;> decide

instance : Std.Total (RowLe collation) where
  total a b := by
    rw [RowLe, RowLe, not_gt_iff_swap a.code]
    cases collation.localeCompare a.code b.code <;> decide

instance : IsTrans TaxBreakdownRow (RowLe collation) where
  trans a b c hab hbc := by
    have hle : ∀ {o : Ordering}, o ≠ .gt ↔ o.isLE = true := by
      intro o
      cases o <;> decide
    exact hle.mpr (Std.TransCmp.isLE_trans (hle.mp hab) (hle.mp hbc))

/-- Rows whose codes the order does not tell apart. -/
theorem antisymmRel_iff {a b : TaxBreakdownRow} : AntisymmRel (RowLe collation) a b ↔
    collation.localeCompare a.code b.code = .eq := by
  rw [AntisymmRel, RowLe, RowLe, not_gt_iff_swap a.code]
  cases collation.localeCompare a.code b.code <;> decide

end RowLe

/-! ## Rearrangements -/

/-- The lines in another order, the codes of a line in another order, or a line split into several ones
whose amounts add up to its own. -/
inductive Rearranges : List TaxableLineInput → List TaxableLineInput → Prop
  | lines {ls ls' : List TaxableLineInput} : ls.Perm ls' → Rearranges ls ls'
  | codes (l : TaxableLineInput) (ids : List Uuid) (ls : List TaxableLineInput) :
      l.taxCodeIds.Perm ids → Rearranges (l :: ls) ({ l with taxCodeIds := ids } :: ls)
  | split (l : TaxableLineInput) (amounts : List ℤ) (ls : List TaxableLineInput) : amounts ≠ [] →
      amounts.sum = l.amount →
      Rearranges (l :: ls) (amounts.map (fun amount => { l with amount := amount }) ++ ls)

/-- The lines can be obtained from one another by rearranging, splitting and merging. -/
def Rearranged : List TaxableLineInput → List TaxableLineInput → Prop := EqvGen Rearranges

/-- A property of lines that depends on the account and the set of codes. -/
def OfKind (keep : TaxableLineInput → Bool) : Prop :=
  ∀ (l : TaxableLineInput) (amount : ℤ) (ids : List Uuid), l.taxCodeIds.Perm ids →
    keep ⟨l.accountId, amount, ids⟩ = keep l

/-- What rearranged lines have in common: they are empty alike, repeat a code in a line alike, have
lines of the same kinds, and these have the same sums. -/
structure SameContent (ls ls' : List TaxableLineInput) : Prop where
  nil : ls = [] ↔ ls' = []
  nodup : (∀ l ∈ ls, l.taxCodeIds.Nodup) ↔ ∀ l ∈ ls', l.taxCodeIds.Nodup
  kinds : ∀ keep, OfKind keep → ((∃ l ∈ ls, keep l = true) ↔ ∃ l ∈ ls', keep l = true)
  sums : ∀ keep, OfKind keep →
    ((ls.filter keep).map (·.amount)).sum = ((ls'.filter keep).map (·.amount)).sum

theorem sameContent_equivalence : Equivalence SameContent where
  refl _ := ⟨.rfl, .rfl, fun _ _ => .rfl, fun _ _ => rfl⟩
  symm h := ⟨h.nil.symm, h.nodup.symm, fun keep hk => (h.kinds keep hk).symm,
    fun keep hk => (h.sums keep hk).symm⟩
  trans h h' := ⟨h.nil.trans h'.nil, h.nodup.trans h'.nodup,
    fun keep hk => (h.kinds keep hk).trans (h'.kinds keep hk),
    fun keep hk => (h.sums keep hk).trans (h'.sums keep hk)⟩

/-- **One rearrangement** keeps the content. -/
theorem Rearranges.sameContent {ls ls' : List TaxableLineInput} (h : Rearranges ls ls') :
    SameContent ls ls' := by
  cases h with
  | lines hperm =>
    refine ⟨⟨?_, ?_⟩, ?_, fun keep _ => ?_, fun keep _ => ?_⟩
    · rintro rfl
      exact hperm.nil_eq.symm
    · rintro rfl
      exact hperm.symm.nil_eq.symm
    · simp only [hperm.mem_iff]
    · simp only [hperm.mem_iff]
    · exact ((hperm.filter keep).map _).sum_eq
  | codes l ids ls hids =>
    refine ⟨by simp, ?_, fun keep hkeep => ?_, fun keep hkeep => ?_⟩
    · simp only [List.forall_mem_cons, hids.nodup_iff]
    · simp only [List.exists_mem_cons_iff, hkeep l l.amount ids hids]
    · simp only [sum_map_filter, List.map_cons, List.sum_cons, hkeep l l.amount ids hids]
  | split l amounts ls hne hsum =>
    have hkind : ∀ keep, OfKind keep → ∀ amount : ℤ, keep { l with amount := amount } = keep l :=
      fun keep hkeep amount => hkeep l amount l.taxCodeIds .rfl
    -- a line that stays a line of its kind needs one part
    obtain ⟨first, rest, rfl⟩ := List.exists_cons_of_ne_nil hne
    refine ⟨by simp, ?_, fun keep hkeep => ?_, fun keep hkeep => ?_⟩
    · simp only [List.forall_mem_append, List.forall_mem_map, List.forall_mem_cons]
      tauto
    · constructor
      · rintro ⟨x, hx, hkept⟩
        rcases List.mem_cons.mp hx with rfl | hx
        · refine ⟨{ x with amount := first }, ?_, (hkind keep hkeep first).trans hkept⟩
          exact List.mem_append_left _ (List.mem_map_of_mem List.mem_cons_self)
        · exact ⟨x, List.mem_append_right _ hx, hkept⟩
      · rintro ⟨x, hx, hkept⟩
        rcases List.mem_append.mp hx with hx | hx
        · obtain ⟨amount, -, rfl⟩ := List.mem_map.mp hx
          exact ⟨l, List.mem_cons_self, (hkind keep hkeep amount).symm.trans hkept⟩
        · exact ⟨x, List.mem_cons_of_mem l hx, hkept⟩
    · have hparts : ((((first :: rest).map fun amount => { l with amount := amount }).filter
          keep).map (·.amount)).sum = if keep l then l.amount else 0 := by
        rw [sum_map_filter, List.map_map, ← hsum]
        have hpart : ∀ amount : ℤ, (if keep { l with amount := amount } then amount else 0) =
            if keep l then amount else 0 := fun amount => by rw [hkind keep hkeep amount]
        simp only [Function.comp_def, hpart]
        cases keep l <;> simp
      rw [List.filter_append, List.map_append, List.sum_append, hparts, sum_map_filter,
        sum_map_filter, List.map_cons, List.sum_cons]

/-- **Rearranged lines have the same content.** -/
theorem Rearranged.sameContent {ls ls' : List TaxableLineInput} (h : Rearranged ls ls') :
    SameContent ls ls' := by
  induction h with
  | rel _ _ hstep => exact hstep.sameContent
  | refl ls => exact sameContent_equivalence.refl ls
  | symm _ _ _ ih => exact sameContent_equivalence.symm ih
  | trans _ _ _ _ _ ih ih' => exact sameContent_equivalence.trans ih ih'

/-! ## Calculations -/

/-- What the calculations of rearranged transactions should have in common: the totals, the taxes in
their order, and the net of every account. -/
structure SameCalculation (res res' : TaxCalculation) : Prop where
  subtotal : res.subtotal = res'.subtotal
  taxTotal : res.taxTotal = res'.taxTotal
  withholdingTotal : res.withholdingTotal = res'.withholdingTotal
  settlementAmount : res.settlementAmount = res'.settlementAmount
  taxes : res.taxes = res'.taxes
  net : ∀ accountId, netOf res.journalLines accountId = netOf res'.journalLines accountId

/-- The transaction is not rejected: it has lines, no line repeats a code, all codes are known, active and
of an allowed kind, and the settlement is positive. -/
structure Acceptable (codes : Uuid → Option TaxCode) (input : TaxableTransaction) : Prop where
  lines : input.lines ≠ [] ∧ ∀ l ∈ input.lines, l.taxCodeIds.Nodup
  known : ∀ id ∈ taxCodeIds input.lines, ∃ c, codes id = some c ∧ c.isActive = true ∧
    c.kind ∈ allowedKinds input.nature
  settlement : 0 < exactSettlement codes input.lines

/-- Two codes that tie in the order of strings first occur in the same order in both lists of lines. -/
def TiesAlike (collation : Collation) (codes : Uuid → Option TaxCode)
    (lines lines' : List TaxableLineInput) : Prop :=
  ∀ id ∈ taxCodeIds lines, ∀ id' ∈ taxCodeIds lines, id ≠ id' → ∀ c ∈ codes id, ∀ c' ∈ codes id',
    collation.localeCompare c.code c'.code = .eq →
      ([id, id'].Sublist (taxCodeIds lines) ↔ [id, id'].Sublist (taxCodeIds lines'))

instance (collation : Collation) (codes : Uuid → Option TaxCode) (lines lines' : List TaxableLineInput) :
    Decidable (TiesAlike collation codes lines lines') :=
  inferInstanceAs (Decidable (∀ id ∈ _, ∀ id' ∈ _, _ → ∀ c ∈ _, ∀ c' ∈ _, _ → (_ ↔ _)))

section Same

variable {collation : Collation} {codes : Uuid → Option TaxCode} {lines lines' : List TaxableLineInput}
  (h : SameContent lines lines')
include h

theorem SameContent.exactBase_eq (id : Uuid) : exactBase lines id = exactBase lines' id :=
  h.sums (fun l => id ∈ l.taxCodeIds) fun _ _ _ hids => decide_eq_decide.mpr hids.symm.mem_iff

theorem SameContent.exactSubtotal_eq : exactSubtotal lines = exactSubtotal lines' := by
  have hsums := h.sums (fun _ => true) fun _ _ _ _ => rfl
  rwa [List.filter_true, List.filter_true] at hsums

theorem SameContent.taxAmount_eq (id : Uuid) (c : TaxCode) :
    taxAmount lines id c = taxAmount lines' id c := by
  rw [taxAmount, taxAmount, h.exactBase_eq]

/-- The same codes are carried. -/
theorem SameContent.taxCodeIds_perm : (taxCodeIds lines).Perm (taxCodeIds lines') := by
  refine (List.perm_ext_iff_of_nodup (nodup_taxCodeIds _) (nodup_taxCodeIds _)).mpr fun id => ?_
  have hkinds := h.kinds (fun l => id ∈ l.taxCodeIds) fun _ _ _ hids =>
    decide_eq_decide.mpr hids.symm.mem_iff
  rw [mem_taxCodeIds, mem_taxCodeIds]
  simpa using hkinds

theorem SameContent.exactTaxes_eq (keep : TaxCode → Bool) :
    exactTaxes codes lines keep = exactTaxes codes lines' keep := by
  simp only [exactTaxes, h.taxAmount_eq]
  exact (h.taxCodeIds_perm.map _).sum_eq

theorem SameContent.exactSettlement_eq : exactSettlement codes lines = exactSettlement codes lines' := by
  rw [exactSettlement, exactSettlement, h.exactSubtotal_eq, h.exactTaxes_eq, h.exactTaxes_eq]

/-- Rearranged lines fit the arithmetic as well. -/
theorem SameContent.sumsFit (hfit : SumsFit codes lines) (hamount : ∀ l ∈ lines', 0 ≤ l.amount) :
    SumsFit codes lines' :=
  ⟨hamount, hfit.rate, by rw [← h.exactSubtotal_eq, ← h.exactTaxes_eq]; exact hfit.sum⟩

/-- The same codes are resolved. -/
theorem SameContent.resolveCodes_perm {cs : List (Uuid × TaxCode)}
    (hcs : resolveCodes codes (taxCodeIds lines) = .ok cs) :
    ∃ cs', resolveCodes codes (taxCodeIds lines') = .ok cs' ∧ cs.Perm cs' := by
  have hknown := resolveCodes_isOk_iff.mp ⟨cs, hcs⟩
  simp only [h.taxCodeIds_perm.mem_iff] at hknown
  obtain ⟨cs', hcs'⟩ := resolveCodes_isOk_iff.mpr hknown
  refine ⟨cs', hcs', ?_⟩
  -- every code is resolved once
  have hnodup : ∀ {ls : List TaxableLineInput} {cs : List (Uuid × TaxCode)},
      resolveCodes codes (taxCodeIds ls) = .ok cs → cs.Nodup := by
    intro ls cs hcs
    refine List.Nodup.of_map Prod.fst ?_
    rw [(resolveCodes_eq hcs).1]
    exact nodup_taxCodeIds ls
  refine (List.perm_ext_iff_of_nodup (hnodup hcs) (hnodup hcs')).mpr fun x => ?_
  rw [mem_resolveCodes hcs, mem_resolveCodes hcs', h.taxCodeIds_perm.mem_iff]

/-- The sum of signed amounts of one account's lines. -/
theorem SameContent.sum_signed (nature : TaxNature) (accountId : Uuid) :
    ((lines.filter (·.accountId = accountId)).map (signed nature ·.amount)).sum =
      ((lines'.filter (·.accountId = accountId)).map (signed nature ·.amount)).sum := by
  have hsums := h.sums (fun l => l.accountId = accountId) fun _ _ _ _ => rfl
  cases nature with
  | sale =>
    have hneg : ∀ ls : List TaxableLineInput, (ls.map (signed .sale ·.amount)).sum =
        -(ls.map (·.amount)).sum := by
      intro ls
      rw [List.sum_neg, List.map_map]
      rfl
    rw [hneg, hneg, hsums]
  | purchase => exact hsums

/-- The row of a code is the same. -/
theorem SameContent.breakdownRow_eq (hfit : SumsFit codes lines) (hfit' : SumsFit codes lines') :
    breakdownRow lines = breakdownRow lines' := by
  funext x
  have hbase : baseOf lines x.1 = baseOf lines' x.1 :=
    (hfit.breakdownRow_eq x).1.trans ((h.exactBase_eq x.1).trans (hfit'.breakdownRow_eq x).1.symm)
  unfold breakdownRow
  rw [hbase]

/-- Rearranged lines are acceptable alike. -/
theorem SameContent.acceptable {nature : TaxNature} {settlementAccountId : Uuid}
    (ha : Acceptable codes ⟨nature, settlementAccountId, lines⟩) :
    Acceptable codes ⟨nature, settlementAccountId, lines'⟩ where
  lines := ⟨mt h.nil.mpr ha.lines.1, h.nodup.mp ha.lines.2⟩
  known := fun id hid => ha.known id (h.taxCodeIds_perm.mem_iff.mpr hid)
  settlement := h.exactSettlement_eq ▸ ha.settlement

end Same

section Calculations

variable {collation : Collation} {codes : Uuid → Option TaxCode} {nature : TaxNature}
  {settlementAccountId : Uuid} {lines lines' : List TaxableLineInput}

/-- **Which transactions are accepted.** -/
theorem calculate_isOk_iff {input : TaxableTransaction} (hfit : SumsFit codes input.lines) :
    (∃ res, calculate collation codes input = .ok res) ↔ Acceptable codes input := by
  constructor
  · rintro ⟨res, hres⟩
    obtain ⟨hlines, cs, hcs, hkinds, hpos, -⟩ := (calculate_eq_ok_iff input hfit).mp hres
    refine ⟨hlines, fun id hid => ?_, hpos⟩
    obtain ⟨hids, hall⟩ := resolveCodes_eq hcs
    rw [← hids] at hid
    obtain ⟨x, hx, rfl⟩ := List.mem_map.mp hid
    exact ⟨x.2, (hall x hx).1, (hall x hx).2, hkinds x hx⟩
  · rintro ⟨hlines, hcodes, hpos⟩
    obtain ⟨cs, hcs⟩ := resolveCodes_isOk_iff.mpr fun id hid => by
      obtain ⟨c, hc, hactive, -⟩ := hcodes id hid
      exact ⟨c, hc, hactive⟩
    refine ⟨_, (calculate_eq_ok_iff input hfit).mpr ⟨hlines, cs, hcs, fun x hx => ?_, hpos, rfl⟩⟩
    obtain ⟨hids, hall⟩ := resolveCodes_eq hcs
    obtain ⟨c, hc, -, hkind⟩ := hcodes x.1 (hids ▸ List.mem_map_of_mem hx)
    obtain rfl : x.2 = c := Option.some.inj ((hall x hx).1.symm.trans hc)
    exact hkind

/-- Two rows come in the order in which their codes do. -/
theorem pair_sublist_rows_iff {cs : List (Uuid × TaxCode)}
    (hcs : resolveCodes codes (taxCodeIds lines) = .ok cs) (ls : List TaxableLineInput)
    {x y : Uuid × TaxCode} (hx : x ∈ cs) (hy : y ∈ cs) (hne : x ≠ y) :
    [breakdownRow ls x, breakdownRow ls y].Sublist (cs.map (breakdownRow ls)) ↔
      [x.1, y.1].Sublist (taxCodeIds lines) := by
  have hids : (cs.map Prod.fst).Nodup := by
    rw [(resolveCodes_eq hcs).1]
    exact nodup_taxCodeIds lines
  have hrows : (cs.map (breakdownRow ls)).Nodup := by
    refine List.Nodup.of_map (·.taxCodeId) ?_
    rw [List.map_map]
    exact hids
  rw [Sorting.pair_sublist_map_iff hrows hx hy hne, ← (resolveCodes_eq hcs).1,
    Sorting.pair_sublist_map_iff hids hx hy hne]

/-- **The taxes of lines of the same content** come in the same order if and only if the codes that tie
do. -/
theorem sortRows_eq_iff (h : SameContent lines lines') (hfit : SumsFit codes lines)
    (hfit' : SumsFit codes lines') {cs cs' : List (Uuid × TaxCode)}
    (hcs : resolveCodes codes (taxCodeIds lines) = .ok cs)
    (hcs' : resolveCodes codes (taxCodeIds lines') = .ok cs') (hperm : cs.Perm cs') :
    sortRows collation (cs.map (breakdownRow lines)) =
      sortRows collation (cs'.map (breakdownRow lines')) ↔ TiesAlike collation codes lines lines' := by
  rw [← h.breakdownRow_eq hfit hfit']
  have hnodup : (cs.map (breakdownRow lines)).Nodup := by
    refine List.Nodup.of_map (·.taxCodeId) ?_
    rw [List.map_map]
    exact (resolveCodes_eq hcs).1 ▸ nodup_taxCodeIds lines
  have hpairs : ∀ x ∈ cs, ∀ y ∈ cs, x ≠ y →
      (([breakdownRow lines x, breakdownRow lines y].Sublist (cs.map (breakdownRow lines)) ↔
        [breakdownRow lines x, breakdownRow lines y].Sublist (cs'.map (breakdownRow lines))) ↔
      ([x.1, y.1].Sublist (taxCodeIds lines) ↔ [x.1, y.1].Sublist (taxCodeIds lines'))) := by
    intro x hx y hy hne
    rw [pair_sublist_rows_iff hcs lines hx hy hne,
      pair_sublist_rows_iff hcs' lines (hperm.mem_iff.mp hx) (hperm.mem_iff.mp hy) hne]
  -- lists of the same rows sort alike if the rows that tie do, and these are those of codes that tie
  refine (Sorting.insertionSort_eq_iff (r := RowLe collation) (hperm.map _) hnodup).trans ?_
  constructor
  · intro hall id hid id' hid' hne c hc c' hc' htie
    have hx : (id, c) ∈ cs := (mem_resolveCodes hcs).mpr ⟨hid, hc⟩
    have hy : (id', c') ∈ cs := (mem_resolveCodes hcs).mpr ⟨hid', hc'⟩
    refine (hpairs _ hx _ hy fun heq => hne (congrArg Prod.fst heq)).mp ?_
    exact hall _ (List.mem_map_of_mem hx) _ (List.mem_map_of_mem hy)
      (fun heq => hne (congrArg (·.taxCodeId) heq)) (antisymmRel_iff.mpr htie)
  · intro hties a ha b hb hne htie
    obtain ⟨x, hx, rfl⟩ := List.mem_map.mp ha
    obtain ⟨y, hy, rfl⟩ := List.mem_map.mp hb
    obtain ⟨hid, hc⟩ := (mem_resolveCodes hcs).mp hx
    obtain ⟨hid', hc'⟩ := (mem_resolveCodes hcs).mp hy
    have hxy : x ≠ y := fun heq => hne (congrArg _ heq)
    have hids : x.1 ≠ y.1 := fun heq => hxy (Prod.ext heq (Option.some.inj (by
      rw [← hc, ← hc', heq])))
    exact (hpairs x hx y hy hxy).mpr
      (hties x.1 hid y.1 hid' hids x.2 hc y.2 hc' (antisymmRel_iff.mp htie))

/-- Calculations of lines of the same content agree if and only if the codes that tie do. -/
theorem sameCalculation_iff (h : SameContent lines lines') (hfit : SumsFit codes lines)
    (hamount : ∀ l ∈ lines', 0 ≤ l.amount) {res res' : TaxCalculation}
    (hres : calculate collation codes ⟨nature, settlementAccountId, lines⟩ = .ok res)
    (hres' : calculate collation codes ⟨nature, settlementAccountId, lines'⟩ = .ok res') :
    SameCalculation res res' ↔ TiesAlike collation codes lines lines' := by
  have hfit' := h.sumsFit hfit hamount
  obtain ⟨-, cs, hcs, -, -, rfl⟩ :=
    (calculate_eq_ok_iff ⟨nature, settlementAccountId, lines⟩ hfit).mp hres
  obtain ⟨-, cs', hcs', -, -, rfl⟩ :=
    (calculate_eq_ok_iff ⟨nature, settlementAccountId, lines'⟩ hfit').mp hres'
  obtain ⟨cs₁, hcs₁, hperm⟩ := h.resolveCodes_perm hcs
  obtain rfl : cs₁ = cs' := Except.ok.inj (hcs₁.symm.trans hcs')
  rw [← sortRows_eq_iff h hfit hfit' hcs hcs' hperm]
  -- all else adds up amounts of the lines, or of the taxes
  refine ⟨fun hsame => hsame.taxes, fun htaxes => ⟨h.exactSubtotal_eq, h.exactTaxes_eq _,
    h.exactTaxes_eq _, h.exactSettlement_eq, htaxes, fun accountId => ?_⟩⟩
  refine (netOf_journalLinesOf accountId).trans (Eq.trans ?_ (netOf_journalLinesOf accountId).symm)
  change (List.map _ (lines.filter _)).sum + _ + (if _ then -signed nature (exactSettlement _ lines)
    else 0) = (List.map _ (lines'.filter _)).sum + _ +
      if _ then -signed nature (exactSettlement _ lines') else 0
  rw [h.sum_signed, h.exactSettlement_eq]
  exact congrArg₂ (· + ·) (congrArg (_ + ·) (by rw [htaxes])) rfl

/-- **Rearranged transactions** are accepted alike, and their calculations are the same, if and only if
they are rejected or the codes that tie in the order of strings occur in the same order in both. -/
theorem calculate_rearranged_iff (h : Rearranged lines lines') (hfit : SumsFit codes lines)
    (hamount : ∀ l ∈ lines', 0 ≤ l.amount) :
    (((∃ res, calculate collation codes ⟨nature, settlementAccountId, lines⟩ = .ok res) ↔
        ∃ res', calculate collation codes ⟨nature, settlementAccountId, lines'⟩ = .ok res') ∧
      ∀ res res', calculate collation codes ⟨nature, settlementAccountId, lines⟩ = .ok res →
        calculate collation codes ⟨nature, settlementAccountId, lines'⟩ = .ok res' →
        SameCalculation res res') ↔
      ¬ Acceptable codes ⟨nature, settlementAccountId, lines⟩ ∨
        TiesAlike collation codes lines lines' := by
  have hsame := h.sameContent
  have hfit' := hsame.sumsFit hfit hamount
  have hok := @calculate_isOk_iff collation codes ⟨nature, settlementAccountId, lines⟩ hfit
  have hok' := @calculate_isOk_iff collation codes ⟨nature, settlementAccountId, lines'⟩ hfit'
  have halike : Acceptable codes ⟨nature, settlementAccountId, lines⟩ ↔
      Acceptable codes ⟨nature, settlementAccountId, lines'⟩ :=
    ⟨hsame.acceptable, (sameContent_equivalence.symm hsame).acceptable⟩
  constructor
  · rintro ⟨-, hcalc⟩
    refine or_iff_not_imp_left.mpr fun hacceptable => ?_
    have hacceptable := not_not.mp hacceptable
    obtain ⟨res, hres⟩ := hok.mpr hacceptable
    obtain ⟨res', hres'⟩ := hok'.mpr (halike.mp hacceptable)
    exact (sameCalculation_iff hsame hfit hamount hres hres').mp (hcalc res res' hres hres')
  · intro hor
    refine ⟨hok.trans (halike.trans hok'.symm), fun res res' hres hres' => ?_⟩
    exact (sameCalculation_iff hsame hfit hamount hres hres').mpr
      (hor.resolve_left fun hnot => hnot (hok.mp ⟨res, hres⟩))

end Calculations

end TaxService

namespace Sample

/-- The services first, split into two lines, with their codes in another order. -/
def splitServices : List TaxableLineInput :=
  [⟨5, 2000000, [31, 32]⟩, ⟨5, 500000, [31, 32]⟩, ⟨5, 1000000, [31]⟩, ⟨6, 300000, []⟩]

theorem splitServices_rearranged :
    TaxService.Rearranged goodsAndServices.lines splitServices := by
  refine .trans _ _ _ (.rel goodsAndServices.lines
    [⟨5, 2500000, [32, 31]⟩, ⟨5, 1000000, [31]⟩, ⟨6, 300000, []⟩]
    (.lines (List.Perm.swap _ _ _))) ?_
  refine .trans _ _ _ (.rel _ _ (.codes _ [31, 32] _ (List.Perm.swap _ _ _))) ?_
  exact .rel _ _ (.split ⟨5, 2500000, [31, 32]⟩ [2000000, 500000] _ (by decide) rfl)

/-- An order of strings that does not tell a letter with an accent from the letter and the accent. -/
def decomposed : Collation where
  localeCompare := compareOn fun s : String =>
    s.toList.flatMap fun c => if c.toNat = 0xC9 then [0x45, 0x301] else [c.toNat]
  trans := inferInstance

/-- Two value-added taxes, whose codes differ in how the accent of the letter is written. -/
def accented (id : Uuid) : Option TaxCode :=
  if id = 31 then some ⟨"\u00c9", .ppnOutput, 110000, 30, true, none⟩
  else if id = 32 then some ⟨"E\u0301", .ppnOutput, 20000, 30, true, none⟩
  else none

theorem accented_cases {id : Uuid} {c : TaxCode} (h : accented id = some c) :
    (id = 31 ∧ c = ⟨"\u00c9", .ppnOutput, 110000, 30, true, none⟩) ∨
      id = 32 ∧ c = ⟨"E\u0301", .ppnOutput, 20000, 30, true, none⟩ := by
  unfold accented at h
  split_ifs at h with h31 h32
  · exact .inl ⟨h31, (Option.some.inj h).symm⟩
  · exact .inr ⟨h32, (Option.some.inj h).symm⟩

theorem accented_distinct {id id' : Uuid} {c c' : TaxCode} (h : accented id = some c)
    (h' : accented id' = some c') (hcode : c.code = c'.code) : id = id' := by
  obtain ⟨rfl, rfl⟩ | ⟨rfl, rfl⟩ := accented_cases h <;>
    obtain ⟨rfl, rfl⟩ | ⟨rfl, rfl⟩ := accented_cases h'
  · rfl
  · exact absurd hcode (by decide)
  · exact absurd hcode (by decide)
  · rfl

theorem accented_fit : TaxService.SumsFit accented [⟨5, 1000000, [31]⟩, ⟨5, 2500000, [32]⟩] where
  amount := by decide
  rate := by
    intro id c hc
    obtain ⟨-, rfl⟩ | ⟨-, rfl⟩ := accented_cases hc <;> rfl
  sum := by decide +kernel

end Sample

namespace TaxService

open Sample

/-- Goods and services, and the same with the services split: the codes do not tie. -/
theorem calculate_rearranged_iff_split : ∃ res res',
    calculate .ordinal saleTaxes goodsAndServices = .ok res ∧
      calculate .ordinal saleTaxes ⟨.sale, 2, splitServices⟩ = .ok res' ∧ SameCalculation res res' := by
  have hties : TiesAlike .ordinal saleTaxes goodsAndServices.lines splitServices := by
    decide +kernel
  obtain ⟨haccepted, hsame⟩ :=
    (@calculate_rearranged_iff .ordinal saleTaxes .sale 2 _ _ splitServices_rearranged saleTaxes_fit
      (by decide)).mpr (.inr hties)
  obtain ⟨res, hres⟩ : ∃ res, calculate .ordinal saleTaxes goodsAndServices = .ok res := ⟨_, rfl⟩
  obtain ⟨res', hres'⟩ := haccepted.mp ⟨res, hres⟩
  exact ⟨res, res', hres, hres', hsame res res' hres hres'⟩

/-- **Two codes that tie**: the order of the lines is the order of the taxes. -/
theorem taxes_swapped :
    let lines : List TaxableLineInput := [⟨5, 1000000, [31]⟩, ⟨5, 2500000, [32]⟩]
    let lines' : List TaxableLineInput := [⟨5, 2500000, [32]⟩, ⟨5, 1000000, [31]⟩]
    (∀ id id' c c', accented id = some c → accented id' = some c' → c.code = c'.code → id = id') ∧
      Rearranged lines lines' ∧ SumsFit accented lines ∧
      ∃ res res', calculate decomposed accented ⟨.sale, 2, lines⟩ = .ok res ∧
        calculate decomposed accented ⟨.sale, 2, lines'⟩ = .ok res' ∧ res.taxes ≠ res'.taxes := by
  intro lines lines'
  obtain ⟨res, hres, hids⟩ : ∃ res, calculate decomposed accented ⟨.sale, 2, lines⟩ = .ok res ∧
      res.taxes.map (·.taxCodeId) = [31, 32] := exists_ok_of_toOption (by decide +kernel)
  obtain ⟨res', hres', hids'⟩ : ∃ res', calculate decomposed accented ⟨.sale, 2, lines'⟩ = .ok res' ∧
      res'.taxes.map (·.taxCodeId) = [32, 31] := exists_ok_of_toOption (by decide +kernel)
  refine ⟨fun _ _ _ _ => accented_distinct, .rel _ _ (.lines (.swap _ _ _)), accented_fit, res, res',
    hres, hres', fun heq => ?_⟩
  rw [heq, hids'] at hids
  cases hids

end TaxService

end AccountingApi
