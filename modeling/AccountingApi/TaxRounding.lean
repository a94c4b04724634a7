import AccountingApi.Api

/-!
# The rounding of taxes

A tax is the product of a base with four decimal places and a rate with six. The arithmetic drops the
digits beyond twenty, then the places beyond four, and only then rounds to whole rupiah. The amount is
that of a single rounding unless the earlier steps carry a product from just below half a rupiah to it.

## Main definitions

* `TaxService.exactBase`, `TaxService.roundedOnce`: the tax of a single rounding
* `TaxService.CarriesToHalf`: the products on which the steps differ from it

## Main results

* `TaxService.amount_eq_roundedOnce_iff`: the amount of one tax
* `TaxService.taxes_roundedOnce_iff`: the amounts of a calculation
-/

namespace AccountingApi

open Decimals

namespace TaxService

/-- The exact sum of the amounts of the lines that carry a tax code. -/
def exactBase (lines : List TaxableLineInput) (id : Uuid) : ℤ :=
  ((lines.filter (id ∈ ·.taxCodeIds)).map (·.amount)).sum

/-- The exact product of base and rate, rounded once, half up, to whole rupiah. -/
def roundedOnce (base rate : ℤ) : ℤ := roundHalfUp (base * rate) (10 ^ 10) * 10 ^ 4

/-- What the steps before the last one add to a product at most: half a unit of the fourth place, and
half a unit of the twentieth digit where the product has more digits. -/
def slack (product : ℕ) : ℕ := 10 ^ excessDigits Money.precision product / 2 + 10 ^ 6 / 2

/-- The product of base and rate is below half a rupiah, and the first steps bring it there. -/
def CarriesToHalf (base rate : ℤ) : Prop :=
  JustBelowHalf (base * rate).toNat (10 ^ 10) (slack (base * rate).toNat)

instance (base rate : ℤ) : Decidable (CarriesToHalf base rate) :=
  inferInstanceAs (Decidable (JustBelowHalf _ _ _))

theorem validateRate_ok {rate : ℤ} (h : TaxCodes.validateRate rate = .ok ()) :
    0 < rate ∧ rate < 10 ^ 6 := by
  unfold TaxCodes.validateRate at h
  split at h
  · assumption
  · cases h

section Amount

variable {base rate : ℤ}

/-- The steps round the product once, but from higher up. -/
theorem roundToRupiah_multiply {product : ℕ} (hproduct : base * rate = product)
    (hlt : product < 10 ^ 24) :
    Money.roundToRupiah (Money.multiply base rate 6) =
      ((product + slack product + 10 ^ 10 / 2) / 10 ^ 10 : ℕ) * 10 ^ 4 := by
  have hexcess : excessDigits Money.precision product ≤ 4 :=
    excessDigits_le (by decide) hlt
  have hstep : ∀ x : ℕ, x + 10 ^ 6 / 2 + 10 ^ 6 * (10 ^ 4 / 2) = x + 10 ^ 6 / 2 + 10 ^ 10 / 2 := by
    intro x
    rfl
  rw [Money.roundToRupiah, Money.multiply, hproduct,
    roundHalfUp_toSignificant (by decide) (by omega), roundHalfUp_div _ (by decide) (by decide),
    hstep, slack, ← add_assoc]
  rfl

/-- **The amount of a tax is that of a single rounding** unless the first steps carry the product to
half a rupiah. -/
theorem amount_eq_roundedOnce_iff (hbase : 0 ≤ base) (hbase' : base < 10 ^ 18) (hrate : 0 < rate)
    (hrate' : rate < 10 ^ 6) :
    Money.roundToRupiah (Money.multiply base rate 6) = roundedOnce base rate ↔
      ¬ CarriesToHalf base rate := by
  obtain ⟨product, hproduct⟩ := Int.eq_ofNat_of_zero_le (Int.mul_nonneg hbase hrate.le)
  have hlt : product < 10 ^ 24 := by
    have hmul : base * rate < 10 ^ 18 * 10 ^ 6 :=
      mul_lt_mul'' hbase' hrate' hbase hrate.le
    have hpow : (10 : ℤ) ^ 18 * 10 ^ 6 = (10 ^ 24 : ℕ) := by norm_num
    rw [hproduct, hpow] at hmul
    exact_mod_cast hmul
  have hslack : slack product ≤ 10 ^ 10 / 2 := by
    have hexcess : excessDigits Money.precision product ≤ 4 :=
      excessDigits_le (by decide) hlt
    have hpow : 10 ^ excessDigits Money.precision product ≤ 10 ^ 4 :=
      Nat.pow_le_pow_right (by decide) hexcess
    unfold slack
    omega
  rw [roundToRupiah_multiply hproduct hlt, roundedOnce, CarriesToHalf, hproduct, Int.toNat_natCast,
    roundHalfUp_ten_pow product (by decide), ← add_div_eq_iff (by decide) (by decide) hslack]
  -- both sides count whole rupiah
  rw [mul_left_inj' (by decide), Nat.cast_inj]

end Amount

section Calculation

variable {collation : Collation} {codes : Uuid → Option TaxCode} {input : TaxableTransaction}
  {res : TaxCalculation}

/-- The amount of a tax is the exact product of the base and the rate of its code, rounded once. -/
def RoundedOnce (codes : Uuid → Option TaxCode) (lines : List TaxableLineInput)
    (t : TaxBreakdownRow) : Prop :=
  ∃ c ∈ codes t.taxCodeId, t.amount = roundedOnce (exactBase lines t.taxCodeId) c.rate

instance (codes : Uuid → Option TaxCode) (lines : List TaxableLineInput) (t : TaxBreakdownRow) :
    Decidable (RoundedOnce codes lines t) :=
  inferInstanceAs (Decidable (∃ c ∈ codes t.taxCodeId, _))

/-- The base of a code, where the amounts of the lines are not negative and stay within the digits of
the arithmetic. -/
theorem baseOf_eq {lines : List TaxableLineInput} (hamount : ∀ l ∈ lines, 0 ≤ l.amount)
    (hsum : (lines.map (·.amount)).sum < 10 ^ 20) (id : Uuid) :
    baseOf lines id = exactBase lines id ∧ 0 ≤ exactBase lines id ∧
      exactBase lines id ≤ (lines.map (·.amount)).sum := by
  have hnonneg : ∀ x ∈ (lines.filter (id ∈ ·.taxCodeIds)).map (·.amount), 0 ≤ x := by
    refine List.forall_mem_map.mpr fun l hl => ?_
    exact hamount l (List.mem_of_mem_filter hl)
  have hle : exactBase lines id ≤ (lines.map (·.amount)).sum :=
    List.Sublist.sum_le_sum (List.filter_sublist.map _) (List.forall_mem_map.mpr hamount)
  refine ⟨?_, List.sum_nonneg hnonneg, hle⟩
  exact Money.sum_eq_of_lt (List.forall_mem_map.mp hnonneg) (hle.trans_lt hsum)

/-- **The amounts of a calculation are those of a single rounding** if and only if no product of a base
and its rate is carried to half a rupiah. -/
theorem taxes_roundedOnce_iff (h : calculate collation codes input = .ok res)
    (hamount : ∀ l ∈ input.lines, 0 ≤ l.amount)
    (hsum : (input.lines.map (·.amount)).sum < 10 ^ 18)
    (hrate : ∀ id c, codes id = some c → TaxCodes.validateRate c.rate = .ok ()) :
    (∀ t ∈ res.taxes, RoundedOnce codes input.lines t) ↔
      ∀ id ∈ taxCodeIds input.lines, ∀ c ∈ codes id,
        ¬ CarriesToHalf (exactBase input.lines id) c.rate := by
  have hrow : ∀ id c, codes id = some c →
      (RoundedOnce codes input.lines (breakdownRow input.lines (id, c)) ↔
        ¬ CarriesToHalf (exactBase input.lines id) c.rate) := by
    intro id c hc
    obtain ⟨hbase, hbase₀, hle⟩ := baseOf_eq hamount (hsum.trans (by decide)) id
    obtain ⟨hrate₀, hrate'⟩ := validateRate_ok (hrate id c hc)
    have hamount' : (breakdownRow input.lines (id, c)).amount =
        Money.roundToRupiah (Money.multiply (exactBase input.lines id) c.rate 6) := by
      rw [← hbase]
      rfl
    rw [← amount_eq_roundedOnce_iff hbase₀ (hle.trans_lt hsum) hrate₀ hrate', ← hamount']
    constructor
    · rintro ⟨c', hc', hrounded⟩
      obtain rfl : c = c' := Option.some.inj (hc.symm.trans hc')
      exact hrounded
    · intro hrounded
      exact ⟨c, hc, hrounded⟩
  constructor
  · intro hall id hid c hc
    exact (hrow id c hc).mp (hall _ ((mem_taxes h).mpr ⟨id, hid, c, hc, rfl⟩))
  · intro hall t ht
    obtain ⟨id, hid, c, hc, rfl⟩ := (mem_taxes h).mp ht
    exact (hrow id c hc).mpr (hall id hid c hc)

end Calculation

end TaxService

namespace Sample

/-- A tax code of eleven percent under the key `31`. -/
def ppn (id : Uuid) : Option TaxCode :=
  if id = 31 then some ⟨"PPN", .ppnOutput, 110000, 30, true, none⟩ else none

/-- A taxed sale of one line, in ten-thousandths of a rupiah. -/
def taxedSale (amount : ℤ) : TaxableTransaction := ⟨.sale, 2, [⟨5, amount, [31]⟩]⟩

theorem ppn_rate (id : Uuid) (c : TaxCode) (h : ppn id = some c) :
    TaxCodes.validateRate c.rate = .ok () := by
  unfold ppn at h
  split at h
  · cases h
    rfl
  · cases h

end Sample

namespace TaxService

open Sample

/-- The tax of a hundred rupiah. -/
theorem taxes_roundedOnce_iff_sale : ∃ res, calculate .ordinal ppn (taxedSale 1000000) = .ok res ∧
    ((∀ t ∈ res.taxes, RoundedOnce ppn (taxedSale 1000000).lines t) ↔
      ∀ id ∈ taxCodeIds (taxedSale 1000000).lines, ∀ c ∈ ppn id,
        ¬ CarriesToHalf (exactBase (taxedSale 1000000).lines id) c.rate) :=
  ⟨_, rfl, taxes_roundedOnce_iff rfl (by decide) (by decide) ppn_rate⟩

/-- Eleven percent of 104.5450 rupiah are 11.49995 rupiah, of which the engine makes 12. -/
theorem tax_carried_to_half : ∃ res, calculate .ordinal ppn (taxedSale 1045450) = .ok res ∧
    (∀ t ∈ res.taxes, t.amount = 120000) ∧
      ¬ ∀ t ∈ res.taxes, RoundedOnce ppn (taxedSale 1045450).lines t :=
  ⟨_, rfl, by decide +kernel, by decide +kernel⟩

end TaxService

end AccountingApi
