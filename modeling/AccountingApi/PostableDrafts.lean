import AccountingApi.Runs
import AccountingApi.TaxRounding

/-!
# Drafts that can be posted

A draft is accepted when its settlement is positive. Its journal entry has a line for every line and
every tax, and each of them must have a positive side. What is too small to leave one is accepted as a
draft and cannot be posted.

## Main definitions

* `PostableLines`: the lines pass the check of a posting, with one positive side each
* `Chargeable`: no line and no tax is too small

## Main results

* `postableLines_iff`: the journal lines of a calculation
* `drafts_postable_iff`: the journal lines of the drafts of a run
-/

namespace AccountingApi

open ReadCommitted TaxService

/-- The lines pass the check of a posting, each with one positive side. -/
structure PostableLines (lines : List PostLineInput) : Prop where
  balanced : assertBalanced lines = .ok ()
  oneSided : ∀ l ∈ lines,
    (0 < l.debitOrZero ∧ l.creditOrZero = 0) ∨ (l.debitOrZero = 0 ∧ 0 < l.creditOrZero)

/-- Every line amounts to half a ten-thousandth of a rupiah at least, and the lines of every tax code
to 0.49995 rupiah of tax. -/
structure Chargeable (codes : Uuid → Option TaxCode) (lines : List DocumentLineInput) : Prop where
  amounts : ∀ l ∈ lines, 5000 ≤ l.unitPrice * l.quantity
  taxes : ∀ id ∈ taxCodeIds (taxableLines lines), ∀ c ∈ codes id,
    4999500000 ≤ exactBase (taxableLines lines) id * c.rate

/-! ## Lines with one side -/

section Lines

/-- A line with the amount on the debit side or on the credit side. -/
def PostLineInput.Carries (l : PostLineInput) (amount : ℤ) : Prop :=
  (l.debitOrZero = amount ∧ l.creditOrZero = 0) ∨ (l.debitOrZero = 0 ∧ l.creditOrZero = amount)

theorem carries_baseLine (nature : TaxNature) (l : TaxableLineInput) :
    (baseLine nature l).Carries l.amount := by
  cases nature with
  | sale => exact .inr ⟨rfl, rfl⟩
  | purchase => exact .inl ⟨rfl, rfl⟩

theorem carries_taxLine (t : TaxBreakdownRow) : (taxLine t).Carries t.amount := by
  unfold taxLine
  split
  · exact .inl ⟨rfl, rfl⟩
  · exact .inr ⟨rfl, rfl⟩

theorem carries_settlementLine (nature : TaxNature) (accountId : Uuid) (amount : ℤ) :
    (settlementLine nature accountId amount).Carries amount := by
  cases nature with
  | sale => exact .inl ⟨rfl, rfl⟩
  | purchase => exact .inr ⟨rfl, rfl⟩

variable {l : PostLineInput} {amount : ℤ}

theorem PostLineInput.Carries.hasOneSide_iff (h : l.Carries amount) :
    l.HasOneSide ↔ amount ≠ 0 := by
  unfold PostLineInput.HasOneSide
  rcases h with ⟨rfl, hcredit⟩ | ⟨hdebit, rfl⟩
  · simp [hcredit]
  · simp [hdebit]

theorem PostLineInput.Carries.oneSided (h : l.Carries amount) (hpos : 0 < amount) :
    (0 < l.debitOrZero ∧ l.creditOrZero = 0) ∨ (l.debitOrZero = 0 ∧ 0 < l.creditOrZero) := by
  rcases h with ⟨rfl, hcredit⟩ | ⟨hdebit, rfl⟩
  · exact .inl ⟨hpos, hcredit⟩
  · exact .inr ⟨hdebit, hpos⟩

end Lines

/-! ## Calculations -/

section Calculation

variable {collation : Collation} {codes : Uuid → Option TaxCode} {lines : List DocumentLineInput}
  {nature : TaxNature} {settlementId : Uuid} {res : TaxCalculation}

/-- An amount vanishes below half a ten-thousandth of a rupiah. -/
theorem DocumentLineInput.amount_pos_iff {l : DocumentLineInput}
    (h : 0 ≤ l.unitPrice * l.quantity) : 0 < l.amount ↔ 5000 ≤ l.unitPrice * l.quantity := by
  have hnonneg : 0 ≤ l.amount := Money.multiply_nonneg h 4
  have hzero : l.amount = 0 ↔ _ := Money.multiply_four_eq_zero_iff
  omega

/-- The amount of a tax vanishes below 0.49995 rupiah. -/
theorem amount_breakdownRow_pos_iff {ls : List TaxableLineInput} {id : Uuid} {c : TaxCode}
    (hbase : 0 ≤ baseOf ls id) (hrate : 0 < c.rate) :
    0 < (breakdownRow ls (id, c)).amount ↔ 4999500000 ≤ baseOf ls id * c.rate := by
  have hmul : 0 ≤ baseOf ls id * c.rate := Int.mul_nonneg hbase hrate.le
  have hnonneg : 0 ≤ (breakdownRow ls (id, c)).amount :=
    Money.roundToRupiah_nonneg (Money.multiply_nonneg hmul 6)
  have hzero : (breakdownRow ls (id, c)).amount = 0 ↔ _ := Money.roundToRupiah_multiply_eq_zero_iff
  change _ ↔ (baseOf ls id * c.rate).natAbs < _ at hzero
  omega

/-- The journal lines carry the amounts of the lines, the taxes and the settlement. -/
theorem carries_of_mem_journalLines
    (h : calculate collation codes ⟨nature, settlementId, taxableLines lines⟩ = .ok res)
    {l : PostLineInput} :
    l ∈ res.journalLines → (∃ x ∈ lines, l.Carries x.amount) ∨ (∃ t ∈ res.taxes, l.Carries t.amount) ∨
      l.Carries res.settlementAmount := by
  rw [calculate_journalLines h]
  simp only [List.mem_append, List.mem_map, List.mem_singleton, taxableLines]
  rintro ((⟨_, ⟨x, hx, rfl⟩, rfl⟩ | ⟨t, ht, rfl⟩) | rfl)
  · exact .inl ⟨x, hx, carries_baseLine nature _⟩
  · exact .inr (.inl ⟨t, ht, carries_taxLine t⟩)
  · exact .inr (.inr (carries_settlementLine nature settlementId _))

/-- Every line and every tax has a journal line that carries its amount. -/
theorem exists_mem_journalLines
    (h : calculate collation codes ⟨nature, settlementId, taxableLines lines⟩ = .ok res) :
    (∀ x ∈ lines, ∃ l ∈ res.journalLines, l.Carries x.amount) ∧
      ∀ t ∈ res.taxes, ∃ l ∈ res.journalLines, l.Carries t.amount := by
  rw [calculate_journalLines h]
  constructor
  · intro x hx
    refine ⟨baseLine nature ⟨x.accountId, x.amount, x.taxCodeIds⟩, ?_, carries_baseLine nature _⟩
    refine List.mem_append_left _ (List.mem_append_left _ (List.mem_map_of_mem ?_))
    exact List.mem_map_of_mem hx
  · intro t ht
    refine ⟨taxLine t, ?_, carries_taxLine t⟩
    exact List.mem_append_left _ (List.mem_append_right _ (List.mem_map_of_mem ht))

/-- The journal lines pass the check of a posting if and only if no amount is zero. -/
theorem assertBalanced_journalLines_iff
    (h : calculate collation codes ⟨nature, settlementId, taxableLines lines⟩ = .ok res) :
    assertBalanced res.journalLines = .ok () ↔
      (∀ x ∈ lines, x.amount ≠ 0) ∧ ∀ t ∈ res.taxes, t.amount ≠ 0 := by
  obtain ⟨hne, cs, -, hres⟩ := calculate_ok h
  obtain ⟨hlines, htaxes⟩ := exists_mem_journalLines h
  rw [assertBalanced_eq_ok_iff]
  constructor
  · rintro ⟨-, hone, -⟩
    constructor
    · intro x hx
      obtain ⟨l, hl, hcarries⟩ := hlines x hx
      exact hcarries.hasOneSide_iff.mp (hone l hl)
    · intro t ht
      obtain ⟨l, hl, hcarries⟩ := htaxes t ht
      exact hcarries.hasOneSide_iff.mp (hone l hl)
  · rintro ⟨hamount, htax⟩
    refine ⟨?_, fun l hl => ?_, hres.balanced⟩
    · -- one line at least, and the settlement
      have hlength : 0 < (taxableLines lines).length := List.length_pos_iff.mpr hne
      rw [hres.journalLines]
      simp only [List.length_append, List.length_map, List.length_singleton]
      omega
    · rcases carries_of_mem_journalLines h hl with ⟨x, hx, hl⟩ | ⟨t, ht, hl⟩ | hl
      · exact hl.hasOneSide_iff.mpr (hamount x hx)
      · exact hl.hasOneSide_iff.mpr (htax t ht)
      · exact hl.hasOneSide_iff.mpr hres.positive.ne'

/-- Where no amount is negative, the journal lines can be posted if and only if every amount is
positive. -/
theorem postableLines_iff_pos
    (h : calculate collation codes ⟨nature, settlementId, taxableLines lines⟩ = .ok res)
    (hamount : ∀ x ∈ lines, 0 ≤ x.amount) (htax : ∀ t ∈ res.taxes, 0 ≤ t.amount) :
    PostableLines res.journalLines ↔
      (∀ x ∈ lines, 0 < x.amount) ∧ ∀ t ∈ res.taxes, 0 < t.amount := by
  constructor
  · intro hpostable
    obtain ⟨hne, htaxne⟩ := (assertBalanced_journalLines_iff h).mp hpostable.balanced
    exact ⟨fun x hx => lt_of_le_of_ne (hamount x hx) (hne x hx).symm,
      fun t ht => lt_of_le_of_ne (htax t ht) (htaxne t ht).symm⟩
  · rintro ⟨hpos, htaxpos⟩
    refine ⟨(assertBalanced_journalLines_iff h).mpr
      ⟨fun x hx => (hpos x hx).ne', fun t ht => (htaxpos t ht).ne'⟩, fun l hl => ?_⟩
    rcases carries_of_mem_journalLines h hl with ⟨x, hx, hl⟩ | ⟨t, ht, hl⟩ | hl
    · exact hl.oneSided (hpos x hx)
    · exact hl.oneSided (htaxpos t ht)
    · exact hl.oneSided (calculate_pos h)

/-- **The journal lines of a calculation can be posted** if and only if no line and no tax is too
small. -/
theorem postableLines_iff
    (h : calculate collation codes ⟨nature, settlementId, taxableLines lines⟩ = .ok res)
    (hlines : ∀ l ∈ lines, 0 ≤ l.unitPrice * l.quantity) (hrange : Money.Storable res.subtotal)
    (hrate : ∀ id c, codes id = some c → TaxCodes.validateRate c.rate = .ok ()) :
    PostableLines res.journalLines ↔ Chargeable codes lines := by
  obtain ⟨-, cs, -, hres⟩ := calculate_ok h
  have hamount : ∀ x ∈ taxableLines lines, 0 ≤ x.amount :=
    List.forall_mem_map.mpr fun l hl => Money.multiply_nonneg (hlines l hl) 4
  have hsum : ((taxableLines lines).map (·.amount)).sum < 10 ^ 20 := by
    have hnonneg : ∀ x ∈ (taxableLines lines).map (·.amount), 0 ≤ x :=
      List.forall_mem_map.mpr hamount
    rw [hres.subtotal] at hrange
    have hexact := Money.sum_eq_of_storable hnonneg hrange
    rw [hexact] at hrange
    have hsum₀ := List.sum_nonneg hnonneg
    simp only [Money.Storable] at hrange
    omega
  have hbase := baseOf_eq hamount hsum
  have htax : ∀ id c, codes id = some c →
      0 ≤ (breakdownRow (taxableLines lines) (id, c)).amount ∧
        (0 < (breakdownRow (taxableLines lines) (id, c)).amount ↔
          4999500000 ≤ exactBase (taxableLines lines) id * c.rate) := by
    intro id c hc
    obtain ⟨hexact, hbase₀, -⟩ := hbase id
    rw [← hexact] at hbase₀ ⊢
    have hpos := (validateRate_ok (hrate id c hc)).1
    refine ⟨Money.roundToRupiah_nonneg (Money.multiply_nonneg ?_ 6), ?_⟩
    · exact Int.mul_nonneg hbase₀ hpos.le
    · exact amount_breakdownRow_pos_iff hbase₀ hpos
  rw [postableLines_iff_pos h (fun x hx => Money.multiply_nonneg (hlines x hx) 4) fun t ht => ?_]
  · constructor
    · rintro ⟨hpos, htaxpos⟩
      refine ⟨fun l hl => (DocumentLineInput.amount_pos_iff (hlines l hl)).mp (hpos l hl), ?_⟩
      intro id hid c hc
      exact (htax id c hc).2.mp (htaxpos _ ((mem_taxes h).mpr ⟨id, hid, c, hc, rfl⟩))
    · rintro ⟨hlarge, htaxlarge⟩
      refine ⟨fun l hl => (DocumentLineInput.amount_pos_iff (hlines l hl)).mpr (hlarge l hl), ?_⟩
      intro t ht
      obtain ⟨id, hid, c, hc, rfl⟩ := (mem_taxes h).mp ht
      exact (htax id c hc).2.mpr (htaxlarge id hid c hc)
  · obtain ⟨id, -, c, hc, rfl⟩ := (mem_taxes h).mp ht
    exact (htax id c hc).1

end Calculation

/-! ## Runs -/

/-- The lines of a draft are stored as they came. -/
theorem map_ofLine_buildLineCreateData (lines : List DocumentLineInput) :
    (buildLineCreateData lines).map DocumentLineInput.ofLine = lines :=
  List.ext_getElem (by simp [buildLineCreateData]) fun _ _ _ => by
    simp [buildLineCreateData, DocumentLineInput.ofLine]

/-- The lines of a stored document, as its posting takes them. -/
def storedLines (db : Db) (kind : DocumentKind) (id : Uuid) : List DocumentLineInput :=
  (Db.documentLines db kind id).map DocumentLineInput.ofLine

section Runs

variable {policy : Policy Row LockName Query Failure Response Request} {db₀ : Db} {s : Server}
  {c : Commit} {kind : DocumentKind} {dto : CreateDocumentDto} {user id : Uuid}
  {collation collation' : Collation}

/-- What the creation of a draft stores, and what its totals were computed from. -/
theorem storedLines_of_create {strict : Prop} (h : Transacts strict c)
    (hreq : c.req = .createDocument kind dto user id collation) :
    storedLines c.after kind id = dto.lines.map (·.toInput) ∧
      ∃ settlementId codes res, (.taxCodes, codes) ∈ c.seen ∧
        calculate collation (Db.liveTaxCode codes) ⟨kind.descriptor.nature, settlementId,
          taxableLines (storedLines c.after kind id)⟩ = .ok res ∧ Money.Storable res.subtotal := by
  cases h
  case createDocument kind' dto' user' id' _ totals lines doc req row computed linesRow valid _ _ writes =>
    have hsame := req.symm.trans hreq
    simp only [Request.createDocument.injEq] at hsame
    obtain ⟨rfl, rfl, rfl, rfl, rfl⟩ := hsame
    have hlines : c.after.row (.documentLines kind' id') = some lines := by
      rw [Commit.after, writes, Store.putAll_cons, Store.putAll_cons, Store.putAll_nil,
        Store.row_put_self]
    have hstored : storedLines c.after kind' id' = dto'.lines.map (·.toInput) := by
      have hget : linesOfDocuments.get c.after (kind', id') = some lines := by
        rw [Table.get]
        exact (congrArg (Option.map id) hlines).trans rfl
      rw [storedLines, Db.documentLines, hget, linesRow]
      exact map_ofLine_buildLineCreateData _
    refine ⟨hstored, ?_⟩
    obtain ⟨settlementId, codes, res, hseen, hres, rfl⟩ := computed
    rw [hstored]
    rw [row] at valid
    exact ⟨settlementId, codes, res, hseen, hres, valid.1⟩
  case account _ _ change _ =>
    cases change <;> simp_all only [reduceCtorEq, or_self]
  case periods _ change _ =>
    cases change <;> simp_all only [reduceCtorEq]
  all_goals first
    | (rename_i t; cases hreq.symm.trans t.req)
    | simp_all only [reduceCtorEq]

/-- **The drafts of a run can be posted** as far as their own amounts are concerned, if and only if no
line and no tax of theirs is too small: with any tax codes, any order of strings and any control account
for which the tax engine calculates the journal lines of the stored draft. -/
theorem drafts_postable_iff (h : Reachable code policy db₀ s) (hmem : c ∈ s.history)
    (hreq : c.req = .createDocument kind dto user id collation') {codes : Uuid → Option TaxCode}
    (hrate : ∀ id c, codes id = some c → TaxCodes.validateRate c.rate = .ok ())
    {settlementId : Uuid} {res : TaxCalculation}
    (hres : calculate collation codes ⟨kind.descriptor.nature, settlementId,
      taxableLines (storedLines c.after kind id)⟩ = .ok res) :
    PostableLines res.journalLines ↔ Chargeable codes (dto.lines.map (·.toInput)) := by
  obtain ⟨htransacts, -⟩ := commit_of_reachable (I := fun _ => True) (fun _ => True) h
    (fun _ _ => trivial) trivial (fun _ _ _ _ _ => trivial) hmem
  obtain ⟨hstored, settlementId', codes', res', -, hres', hrange⟩ :=
    storedLines_of_create htransacts hreq
  rw [hstored] at hres hres'
  have hlines : ∀ l ∈ dto.lines.map (·.toInput), 0 ≤ l.unitPrice * l.quantity :=
    List.forall_mem_map.mpr fun l _ => Int.mul_nonneg l.unitPrice.nonneg l.quantity.nonneg
  -- the subtotal does not depend on the tax codes
  have hsubtotal : res.subtotal = res'.subtotal := by
    obtain ⟨-, _, -, h₁⟩ := calculate_ok hres
    obtain ⟨-, _, -, h₂⟩ := calculate_ok hres'
    exact h₁.subtotal.trans h₂.subtotal.symm
  exact postableLines_iff hres hlines (hsubtotal ▸ hrange) hrate

end Runs

namespace Sample

/-- An invoice over four pieces for a hundred rupiah, and a line that costs nothing. -/
def freeLine : CreateDocumentDto :=
  ⟨7, none, midYear, none, none,
    [⟨"Goods", 5, ⟨40000, by decide, by decide⟩, rupiah 25, []⟩,
      ⟨"Sample", 5, ⟨40000, by decide, by decide⟩, rupiah 0, []⟩]⟩

/-- The draft of an invoice under the key `20`. -/
def drafted (dto : CreateDocumentDto) : List (Event Request) :=
  request 0 (.createDocument .salesInvoice dto 9 20 .ordinal) 9

/-- The tax engine calculates `res` from the stored draft. -/
def CalculatesStored (db : Db) (res : TaxCalculation) : Prop :=
  calculate .ordinal (Db.liveTaxCode db)
    ⟨.sale, 2, taxableLines (storedLines db .salesInvoice 20)⟩ = .ok res

/-- The company with a value-added tax of eleven percent under the key `31`. -/
def taxedRows : List (Write Row) := rows ++ [
  ⟨.account 30, account "2200" .liability none .credit⟩,
  ⟨.taxCode 31, ⟨"PPN", .ppnOutput, 110000, 30, true, none⟩⟩]

def taxedDb : Db := Store.empty.putAll taxedRows

theorem taxedDb_initial : Initial taxedDb := .of_rows (by simp [taxedRows, rows, Key.IsConfiguration])

/-- Goods with value-added tax, and a service without. -/
def taxedInvoice : CreateDocumentDto :=
  ⟨7, none, midYear, none, none,
    [⟨"Goods", 5, ⟨30000, by decide, by decide⟩, rupiah 25, [31]⟩,
      ⟨"Service", 5, ⟨20000, by decide, by decide⟩, rupiah 40, []⟩]⟩

/-- The draft of the taxed invoice under the key `20`. -/
def taxedServer : Server :=
  ((Server.start taxedDb).run code
    (request 0 (.createDocument .salesInvoice taxedInvoice 9 20 .ordinal) 9)).getD (.start taxedDb)

theorem taxedServer_reachable : Reachable code (anytime fun _ => True) taxedDb taxedServer := by
  have hsome : ((Server.start taxedDb).run code
      (request 0 (.createDocument .salesInvoice taxedInvoice 9 20 .ordinal) 9)).isSome = true := by
    decide +kernel
  obtain ⟨s, hs⟩ := Option.isSome_iff_exists.mp hsome
  rw [taxedServer, hs]
  exact Reachable.run .start (fun _ _ => trivial) hs

end Sample

open Sample in
/-- An invoice of two lines and a tax. -/
theorem drafts_postable_iff_invoice : ∃ c ∈ taxedServer.history, ∃ res,
    calculate .ordinal ppn ⟨.sale, 2, taxableLines (storedLines c.after .salesInvoice 20)⟩ = .ok res ∧
      res.taxes.length = 1 ∧
      (PostableLines res.journalLines ↔ Chargeable ppn (taxedInvoice.lines.map (·.toInput))) := by
  obtain ⟨c, hmem, hreq, res, hres, hlength⟩ : ∃ c ∈ taxedServer.history,
      c.req = .createDocument .salesInvoice taxedInvoice 9 20 .ordinal ∧ ∃ res, calculate .ordinal ppn
        ⟨.sale, 2, taxableLines (storedLines c.after .salesInvoice 20)⟩ = .ok res ∧
          res.taxes.length = 1 :=
    ⟨_, List.mem_cons_self, rfl, exists_ok_of_toOption (by decide +kernel)⟩
  exact ⟨c, hmem, res, hres, hlength,
    drafts_postable_iff taxedServer_reachable hmem hreq ppn_rate hres⟩

open Sample in
/-- A line that costs nothing: the draft is stored, and its journal entry has a line without a side. -/
theorem free_line_not_postable :
    (Db.document (server (drafted freeLine)).db .salesInvoice 20).isSome = true ∧
      ∃ res, CalculatesStored (server (drafted freeLine)).db res ∧
        ¬ PostableLines res.journalLines :=
  ⟨by decide +kernel, _, rfl, fun h => absurd h.balanced (by decide +kernel)⟩

end AccountingApi
