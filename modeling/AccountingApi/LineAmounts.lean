import AccountingApi.PostableDrafts

/-!
# The amounts of document lines

A line amounts to its quantity times its unit price, a product with eight decimal places. The
arithmetic keeps twenty of its digits and then rounds to four places. The amount is that of a single
rounding unless the first step carries the product to the half of the last place.

## Main definitions

* `DocumentLineInput.exactAmount`: the amount of a single rounding
* `DocumentLineInput.CarriesToHalf`: the products on which the two steps differ from it
* `AmountsExact`: the amounts the tax engine takes and the rows have, also when they are read back

## Main results

* `DocumentLineInput.amount_eq_exactAmount_iff`: the amount of a line
* `amountsExact_iff`: the amounts of the lines of a document
-/

namespace AccountingApi

open Decimals

namespace DocumentLineInput

/-- The exact product of unit price and quantity, with eight decimal places. -/
def product (l : DocumentLineInput) : ℤ := l.unitPrice * l.quantity

/-- The exact product, rounded once, half up, to four decimal places. -/
def exactAmount (l : DocumentLineInput) : ℤ := roundHalfUp l.product (10 ^ 4)

/-- What the first step adds to a product at most: half a unit of the twentieth digit, where that digit
is beyond the fourth place. -/
def slack (product : ℕ) : ℕ :=
  if excessDigits Money.precision product < 4 then 10 ^ excessDigits Money.precision product / 2
  else 0

/-- The places beyond the fourth are below the half, and the first step brings them there. -/
def CarriesToHalf (l : DocumentLineInput) : Prop :=
  JustBelowHalf l.product.toNat (10 ^ 4) (slack l.product.toNat)

instance (l : DocumentLineInput) : Decidable l.CarriesToHalf :=
  inferInstanceAs (Decidable (JustBelowHalf _ _ _))

/-- Without slack nothing is just below the half. -/
theorem not_justBelowHalf_zero (n d : ℕ) : ¬ JustBelowHalf n d 0 := by
  rintro ⟨hlt, hle⟩
  omega

/-- **The amount of a line is that of a single rounding** unless the first step carries the product to
the half. -/
theorem amount_eq_exactAmount_iff {l : DocumentLineInput} (hnonneg : 0 ≤ l.product)
    (hlt : l.product < 10 ^ 24) : l.amount = l.exactAmount ↔ ¬ l.CarriesToHalf := by
  obtain ⟨product, hproduct⟩ := Int.eq_ofNat_of_zero_le hnonneg
  have hlt : product < 10 ^ 24 := by
    rw [hproduct] at hlt
    exact_mod_cast hlt
  have hexcess : excessDigits Money.precision product ≤ 4 := excessDigits_le (by decide) hlt
  have hamount : l.amount = roundHalfUp (toSignificant Money.precision product) (10 ^ 4) := by
    rw [← hproduct]
    rfl
  rw [hamount, exactAmount, CarriesToHalf, hproduct, Int.toNat_natCast]
  by_cases hplaces : excessDigits Money.precision product < 4
  · -- the first step keeps a place beyond the fourth
    have hslack : 10 ^ excessDigits Money.precision product / 2 ≤ 10 ^ 4 / 2 :=
      Nat.div_le_div_right (Nat.pow_le_pow_right (by decide) hplaces.le)
    rw [roundHalfUp_toSignificant (by decide) hplaces, roundHalfUp_ten_pow product (by decide),
      slack, if_pos hplaces, ← add_div_eq_iff (by decide) (by decide) hslack, Nat.cast_inj]
  · -- the first step rounds to the fourth place itself
    have hlarge : 10 ^ Money.precision ≤ product := by
      by_contra hsmall
      rw [excessDigits_eq_zero (by decide) (not_le.mp hsmall)] at hplaces
      exact hplaces (by decide)
    have hfour : excessDigits Money.precision product = 4 := by omega
    rw [slack, if_neg hplaces, toSignificant_natCast hlarge, hfour,
      roundHalfUp_ten_pow product (by decide), ← Nat.cast_mul, roundHalfUp_ten_pow _ (by decide)]
    refine iff_of_true ?_ (not_justBelowHalf_zero _ _)
    rw [Nat.mul_comm, Nat.mul_add_div (by decide)]
    rfl

end DocumentLineInput

/-- The lines read back from their rows. -/
def readBack (lines : List DocumentLineInput) : List DocumentLineInput :=
  (buildLineCreateData lines).map .ofLine

/-- The amounts the tax engine takes and those of the rows are the products rounded once, and the same
when the lines are read back. -/
structure AmountsExact (lines : List DocumentLineInput) : Prop where
  taxable : (taxableLines lines).map (·.amount) = lines.map (·.exactAmount)
  stored : (buildLineCreateData lines).map (·.amount) = lines.map (·.exactAmount)
  taxableBack : taxableLines (readBack lines) = taxableLines lines
  storedBack : buildLineCreateData (readBack lines) = buildLineCreateData lines

/-- The tax engine and the rows have the same amounts. -/
theorem map_amount_buildLineCreateData (lines : List DocumentLineInput) :
    (buildLineCreateData lines).map (·.amount) = lines.map (·.amount) :=
  List.ext_getElem (by simp [buildLineCreateData]) fun _ _ _ => by simp [buildLineCreateData]

theorem map_amount_taxableLines (lines : List DocumentLineInput) :
    (taxableLines lines).map (·.amount) = lines.map (·.amount) := by
  rw [taxableLines, List.map_map]
  rfl

/-- **The amounts of the lines are exact** if and only if no product is carried to the half. -/
theorem amountsExact_iff (lines : List DocumentLineDto)
    (hfits : ∀ l ∈ lines, l.unitPrice.amount * l.quantity.amount < 10 ^ 24) :
    AmountsExact (lines.map (·.toInput)) ↔ ∀ l ∈ lines, ¬ l.toInput.CarriesToHalf := by
  have hline : ∀ l ∈ lines, l.toInput.amount = l.toInput.exactAmount ↔ ¬ l.toInput.CarriesToHalf :=
    fun l hl => DocumentLineInput.amount_eq_exactAmount_iff
      (mul_nonneg l.unitPrice.nonneg l.quantity.nonneg) (hfits l hl)
  have hall : (lines.map (·.toInput)).map (·.amount) = (lines.map (·.toInput)).map (·.exactAmount) ↔
      ∀ l ∈ lines, ¬ l.toInput.CarriesToHalf := by
    rw [List.map_map, List.map_map, List.map_inj_left]
    exact forall₂_congr hline
  constructor
  · intro h
    exact hall.mp ((map_amount_taxableLines _).symm.trans h.taxable)
  · intro h
    refine ⟨(map_amount_taxableLines _).trans (hall.mpr h),
      (map_amount_buildLineCreateData _).trans (hall.mpr h), ?_, ?_⟩
    · rw [readBack, map_ofLine_buildLineCreateData]
    · rw [readBack, map_ofLine_buildLineCreateData]

namespace Sample

/-- A line with the given quantity and unit price, in ten-thousandths. -/
def line (quantity unitPrice : ℕ) (h : Money.Storable quantity := by decide)
    (h' : Money.Storable unitPrice := by decide) : DocumentLineDto :=
  ⟨"Goods", 5, ⟨quantity, Int.natCast_nonneg _, h⟩, ⟨unitPrice, Int.natCast_nonneg _, h'⟩, []⟩

end Sample

/-- Two lines of which each amounts to its exact product. -/
theorem amountsExact_iff_goods :
    AmountsExact ([Sample.line 10000 1000000, Sample.line 5 20000000000000000998].map (·.toInput)) :=
  (amountsExact_iff _ (by decide)).mpr (by decide +kernel)

/-- 0.0005 times 2000000000000000.0999 is 1000000000000.00004995, of which the steps make
1000000000000.0001. -/
theorem amount_carried_to_half : ¬ ∀ lines : List DocumentLineDto,
    (∀ l ∈ lines, l.unitPrice.amount * l.quantity.amount < 10 ^ 24) →
    AmountsExact (lines.map (·.toInput)) := by
  intro hall
  have h := hall [Sample.line 5 20000000000000000999] (by decide)
  exact absurd h.taxable (by decide +kernel)

end AccountingApi
