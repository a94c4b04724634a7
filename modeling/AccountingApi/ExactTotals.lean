import AccountingApi.Api
import AccountingApi.Decimals.Sums

/-!
# Exact totals

The double-entry check adds up the debits and the credits with twenty digits each, which is as many as
a single amount may have. Where both totals have more digits, the running sums are rounded, and the
check compares the totals that the roundings have led to. A total with no more digits is enough for the
check to be exact, and so is that no running sum loses a digit.

## Main definitions

* `ExactlyBalanced`: a balanced entry, by the exact totals
* `RoundingMisleads`: the roundings make equal totals differ or different totals equal
* `LosesNoDigit`: the running sums are not rounded

## Main results

* `assertBalanced_exact_of_lt`, `assertBalanced_exact_of_losesNoDigit`: where the check is exact
* `assertBalanced_exact_iff`: the check is exact unless the roundings mislead it
-/

namespace AccountingApi

open Decimals

/-- Exactly one side of the line is positive, and the other is zero. -/
def PostLineInput.OneSided (l : PostLineInput) : Prop :=
  (0 < l.debitOrZero ∧ l.creditOrZero = 0) ∨ (l.debitOrZero = 0 ∧ 0 < l.creditOrZero)

instance (l : PostLineInput) : Decidable l.OneSided := inferInstanceAs (Decidable (_ ∨ _))

/-- At least two lines, one positive side each, and equal exact totals. -/
structure ExactlyBalanced (lines : List PostLineInput) : Prop where
  length : 2 ≤ lines.length
  oneSided : ∀ l ∈ lines, l.OneSided
  totals : (lines.map (·.debitOrZero)).sum = (lines.map (·.creditOrZero)).sum

/-- What the roundings of the running sums add to a total. -/
def totalError (amounts : List ℤ) : ℤ := roundingError Money.precision 0 amounts

/-- Both totals have more digits than the arithmetic, and what the roundings add to them differs where
they are equal, or makes up their difference where they are not. -/
def RoundingMisleads (debits credits : List ℤ) : Prop :=
  10 ^ 20 ≤ debits.sum ∧ 10 ^ 20 ≤ credits.sum ∧
    ((debits.sum = credits.sum ∧ totalError debits ≠ totalError credits) ∨
      (debits.sum ≠ credits.sum ∧
        debits.sum - credits.sum = totalError credits - totalError debits))

instance (debits credits : List ℤ) : Decidable (RoundingMisleads debits credits) :=
  inferInstanceAs (Decidable (_ ∧ _))

/-- No running sum has more digits than the arithmetic but for zeros at its end. -/
def LosesNoDigit (amounts : List ℤ) : Prop := ∀ k < amounts.length,
  toSignificant Money.precision (amounts.take (k + 1)).sum = (amounts.take (k + 1)).sum

instance (amounts : List ℤ) : Decidable (LosesNoDigit amounts) :=
  inferInstanceAs (Decidable (∀ k < _, _))

/-- The total as the arithmetic has it. -/
theorem Money.sum_eq_add_totalError (amounts : List ℤ) :
    Money.sum amounts = amounts.sum + totalError amounts := by
  have h : Money.sum amounts = roundedSum Money.precision 0 amounts := rfl
  rw [h, roundedSum_eq, zero_add, totalError]

/-- A total of amounts that are not negative is on the same side of the bound as the exact one, and
below it they are the same. -/
theorem Money.sum_lt_iff {amounts : List ℤ} (hnonneg : ∀ x ∈ amounts, 0 ≤ x) :
    Money.sum amounts < 10 ^ 20 ↔ amounts.sum < 10 ^ 20 := by
  have h := roundedSum_lt_iff (p := Money.precision) (by decide) le_rfl hnonneg
  rwa [zero_add] at h

theorem totalError_eq_zero {amounts : List ℤ} (hnonneg : ∀ x ∈ amounts, 0 ≤ x)
    (hlt : amounts.sum < 10 ^ 20) : totalError amounts = 0 :=
  roundingError_eq_zero le_rfl hnonneg (by rwa [zero_add])

theorem LosesNoDigit.totalError_eq_zero {amounts : List ℤ} (h : LosesNoDigit amounts) :
    totalError amounts = 0 :=
  roundingError_eq_zero_of_exact fun k hk => by rw [zero_add]; exact h k hk

/-- Roundings that are not made do not mislead. -/
theorem LosesNoDigit.not_misleads {debits credits : List ℤ} (hdebits : LosesNoDigit debits)
    (hcredits : LosesNoDigit credits) : ¬ RoundingMisleads debits credits := by
  unfold RoundingMisleads
  rw [hdebits.totalError_eq_zero, hcredits.totalError_eq_zero]
  omega

/-- **Totals compare as the exact ones** unless the roundings mislead. -/
theorem Money.sum_eq_sum_iff {debits credits : List ℤ} (hdebits : ∀ x ∈ debits, 0 ≤ x)
    (hcredits : ∀ x ∈ credits, 0 ≤ x) :
    (Money.sum debits = Money.sum credits ↔ debits.sum = credits.sum) ↔
      ¬ RoundingMisleads debits credits := by
  have hd := Money.sum_lt_iff hdebits
  have hc := Money.sum_lt_iff hcredits
  unfold RoundingMisleads
  by_cases hboth : 10 ^ 20 ≤ debits.sum ∧ 10 ^ 20 ≤ credits.sum
  · rw [Money.sum_eq_add_totalError, Money.sum_eq_add_totalError]
    by_cases heq : debits.sum = credits.sum
    · simp only [hboth, heq, true_and, ne_eq, not_true_eq_false, false_and, or_false, iff_true,
        not_not]
      omega
    · simp only [hboth, heq, true_and, false_and, ne_eq, not_false_eq_true, false_or, iff_false]
      omega
  · -- a total below the bound is exact, and differs from one that is not below it
    have hnot : ¬ RoundingMisleads debits credits := fun h => hboth ⟨h.1, h.2.1⟩
    refine iff_of_true ?_ hnot
    by_cases hlt : debits.sum < 10 ^ 20 ∧ credits.sum < 10 ^ 20
    · rw [Money.sum_eq_add_totalError, Money.sum_eq_add_totalError,
        totalError_eq_zero hdebits hlt.1, totalError_eq_zero hcredits hlt.2, add_zero, add_zero]
    · omega

/-- The amounts of a request are not negative. -/
theorem JournalLineDto.nonneg (l : JournalLineDto) :
    0 ≤ l.toInput.debitOrZero ∧ 0 ≤ l.toInput.creditOrZero := by
  have hamount : ∀ amount : Option MoneyString, 0 ≤ (amount.map (·.amount)).getD 0 := by
    intro amount
    cases amount with
    | none => exact le_rfl
    | some amount => exact amount.nonneg
  exact ⟨hamount l.debit, hamount l.credit⟩

/-- A line of amounts that are not negative has one side if one of them is positive. -/
theorem JournalLineDto.hasOneSide_iff (l : JournalLineDto) :
    l.toInput.HasOneSide ↔ l.toInput.OneSided := by
  obtain ⟨hdebit, hcredit⟩ := l.nonneg
  unfold PostLineInput.HasOneSide PostLineInput.OneSided
  omega

section Check

variable (lines : List JournalLineDto)

/-- What the check compares. -/
theorem assertBalanced_toInput_iff : assertBalanced (lines.map (·.toInput)) = .ok () ↔
    2 ≤ lines.length ∧ (∀ l ∈ lines, l.toInput.OneSided) ∧
      Money.sum (lines.map (·.toInput.debitOrZero)) =
        Money.sum (lines.map (·.toInput.creditOrZero)) := by
  rw [assertBalanced_eq_ok_iff, List.length_map, List.forall_mem_map, List.map_map, List.map_map]
  simp only [JournalLineDto.hasOneSide_iff]
  rfl

/-- What it should compare. -/
theorem exactlyBalanced_toInput_iff : ExactlyBalanced (lines.map (·.toInput)) ↔
    2 ≤ lines.length ∧ (∀ l ∈ lines, l.toInput.OneSided) ∧
      (lines.map (·.toInput.debitOrZero)).sum = (lines.map (·.toInput.creditOrZero)).sum := by
  constructor
  · intro h
    have htotals := h.totals
    rw [List.map_map, List.map_map] at htotals
    exact ⟨by simpa using h.length, List.forall_mem_map.mp h.oneSided, htotals⟩
  · rintro ⟨hlength, hsides, htotals⟩
    refine ⟨by simpa using hlength, List.forall_mem_map.mpr hsides, ?_⟩
    rw [List.map_map, List.map_map]
    exact htotals

/-- The totals of a request compare as the exact ones unless the roundings mislead. -/
theorem sums_eq_iff : (Money.sum (lines.map (·.toInput.debitOrZero)) =
      Money.sum (lines.map (·.toInput.creditOrZero)) ↔
    (lines.map (·.toInput.debitOrZero)).sum = (lines.map (·.toInput.creditOrZero)).sum) ↔
      ¬ RoundingMisleads (lines.map (·.toInput.debitOrZero))
        (lines.map (·.toInput.creditOrZero)) :=
  Money.sum_eq_sum_iff (List.forall_mem_map.mpr fun l _ => l.nonneg.1)
    (List.forall_mem_map.mpr fun l _ => l.nonneg.2)

/-- **The double-entry check is exact** unless both totals of an entry of one-sided lines reach 10^16
rupiah and their roundings mislead it. -/
theorem assertBalanced_exact_iff :
    (assertBalanced (lines.map (·.toInput)) = .ok () ↔ ExactlyBalanced (lines.map (·.toInput))) ↔
      ¬ (2 ≤ lines.length ∧ (∀ l ∈ lines, l.toInput.OneSided) ∧
        RoundingMisleads (lines.map (·.toInput.debitOrZero))
          (lines.map (·.toInput.creditOrZero))) := by
  have htotals := sums_eq_iff lines
  rw [assertBalanced_toInput_iff, exactlyBalanced_toInput_iff]
  tauto

variable {lines}

/-- Where the roundings do not mislead, the check is exact. -/
theorem assertBalanced_exact_of_not_misleads
    (h : ¬ RoundingMisleads (lines.map (·.toInput.debitOrZero)) (lines.map (·.toInput.creditOrZero))) :
    assertBalanced (lines.map (·.toInput)) = .ok () ↔ ExactlyBalanced (lines.map (·.toInput)) := by
  rw [assertBalanced_toInput_iff, exactlyBalanced_toInput_iff, (sums_eq_iff lines).mpr h]

/-- **A total below 10^16 rupiah is enough** for the check to be exact. -/
theorem assertBalanced_exact_of_lt (h : (lines.map (·.toInput.debitOrZero)).sum < 10 ^ 20 ∨
    (lines.map (·.toInput.creditOrZero)).sum < 10 ^ 20) :
    assertBalanced (lines.map (·.toInput)) = .ok () ↔ ExactlyBalanced (lines.map (·.toInput)) := by
  refine assertBalanced_exact_of_not_misleads fun ⟨hdebits, hcredits, _⟩ => ?_
  exact h.elim (not_lt.mpr hdebits) (not_lt.mpr hcredits)

/-- **That no running sum loses a digit is enough** as well, however large the totals are. -/
theorem assertBalanced_exact_of_losesNoDigit
    (hdebits : LosesNoDigit (lines.map (·.toInput.debitOrZero)))
    (hcredits : LosesNoDigit (lines.map (·.toInput.creditOrZero))) :
    assertBalanced (lines.map (·.toInput)) = .ok () ↔ ExactlyBalanced (lines.map (·.toInput)) :=
  assertBalanced_exact_of_not_misleads (hdebits.not_misleads hcredits)

end Check

namespace Sample

/-- The largest amount of a request, 9999999999999999.9999. -/
def largest : MoneyString := ⟨99999999999999999999, by decide, by decide⟩

/-- Twice the largest amount on the debit side, and a ten-thousandth less on the credit side. -/
def almostBalanced : List JournalLineDto := [
  ⟨1, some largest, none, none⟩, ⟨1, some largest, none, none⟩, ⟨5, none, some largest, none⟩,
  ⟨5, none, some ⟨99999999999999999998, by decide, by decide⟩, none⟩]

end Sample

/-- The check accepts an entry whose debits exceed its credits by a ten-thousandth. -/
theorem unbalanced_accepted : ¬ ∀ lines : List JournalLineDto,
    assertBalanced (lines.map (·.toInput)) = .ok () ↔ ExactlyBalanced (lines.map (·.toInput)) := by
  intro hall
  have hbalanced := (hall Sample.almostBalanced).mp (by decide +kernel)
  exact absurd hbalanced.totals (by decide +kernel)

end AccountingApi
