import AccountingApi.Decimals.Rounding
import Mathlib.Algebra.Order.BigOperators.Group.List

/-!
# Rounded sums

A running sum that is rounded to a number of significant digits after every addition is the exact sum
and what the roundings have added to it. There is none as long as the sum has no more digits.

## Main definitions

* `roundedSum`: the running sum
* `roundingError`: what the roundings add to it

## Main results

* `roundedSum_eq`: the running sum as the exact sum and the error
* `roundingError_eq_zero`: sums within the digits are exact
* `roundingError_eq_zero_of_exact`: sums that lose no digit are exact
* `roundedSum_lt_iff`: a rounded sum stays on its side of a bound
-/

namespace Decimals

/-- The sum of some numbers, rounded to `p` significant digits after every addition. -/
def roundedSum (p : ℕ) (a : ℤ) (l : List ℤ) : ℤ := l.foldl (fun s x => toSignificant p (s + x)) a

/-- What the roundings add to a running sum. -/
def roundingError (p : ℕ) : ℤ → List ℤ → ℤ
  | _, [] => 0
  | a, x :: l =>
    toSignificant p (a + x) - (a + x) + roundingError p (toSignificant p (a + x)) l

section Sums

variable {p : ℕ} {a : ℤ} {l : List ℤ}

/-- The bound on the digits of a number that is not negative. -/
theorem natAbs_lt_ten_pow_iff {n : ℤ} (h : 0 ≤ n) : n.natAbs < 10 ^ p ↔ n < 10 ^ p := by
  obtain ⟨m, rfl⟩ := Int.eq_ofNat_of_zero_le h
  rw [Int.natAbs_natCast]
  exact_mod_cast Iff.rfl

/-- **A rounded sum** is the exact sum and the rounding error. -/
theorem roundedSum_eq (p : ℕ) (a : ℤ) (l : List ℤ) :
    roundedSum p a l = a + l.sum + roundingError p a l := by
  induction l generalizing a with
  | nil => simp [roundedSum, roundingError]
  | cons x l ih =>
    have hstep : roundedSum p a (x :: l) = roundedSum p (toSignificant p (a + x)) l := rfl
    rw [hstep, ih, roundingError, List.sum_cons]
    ring

/-- A sum of numbers that are not negative is exact within the digits. -/
theorem roundingError_eq_zero (ha : 0 ≤ a) (hl : ∀ x ∈ l, 0 ≤ x) (hlt : a + l.sum < 10 ^ p) :
    roundingError p a l = 0 := by
  induction l generalizing a with
  | nil => rfl
  | cons x l ih =>
    obtain ⟨hx, hl⟩ := List.forall_mem_cons.mp hl
    have hsum : 0 ≤ l.sum := List.sum_nonneg hl
    rw [List.sum_cons] at hlt
    have hexact : toSignificant p (a + x) = a + x :=
      toSignificant_of_lt ((natAbs_lt_ten_pow_iff (by omega)).mpr (by omega))
    rw [roundingError, hexact, ih (by omega) hl (by omega)]
    ring

/-- A sum is exact if no running sum loses a digit. -/
theorem roundingError_eq_zero_of_exact
    (h : ∀ k < l.length, toSignificant p (a + (l.take (k + 1)).sum) = a + (l.take (k + 1)).sum) :
    roundingError p a l = 0 := by
  induction l generalizing a with
  | nil => rfl
  | cons x l ih =>
    have hfirst : toSignificant p (a + x) = a + x := by
      simpa using h 0 (Nat.succ_pos _)
    have hrest : roundingError p (a + x) l = 0 := ih fun k hk => by
      simpa [add_assoc] using h (k + 1) (Nat.succ_lt_succ hk)
    rw [roundingError, hfirst, hrest, sub_self, add_zero]

/-- A sum of numbers that are not negative does not shrink below a bound of `p` digits. -/
theorem le_roundedSum (hp : 0 < p) (ha : 0 ≤ a) (hl : ∀ x ∈ l, 0 ≤ x) (hle : 10 ^ p ≤ a + l.sum) :
    10 ^ p ≤ roundedSum p a l := by
  induction l generalizing a with
  | nil => simpa [roundedSum] using hle
  | cons x l ih =>
    obtain ⟨hx, hl⟩ := List.forall_mem_cons.mp hl
    have hsum : 0 ≤ l.sum := List.sum_nonneg hl
    have hstep : roundedSum p a (x :: l) = roundedSum p (toSignificant p (a + x)) l := rfl
    have hnonneg : 0 ≤ toSignificant p (a + x) := toSignificant_nonneg (by omega)
    rw [hstep]
    refine ih hnonneg hl ?_
    rw [List.sum_cons] at hle
    by_cases hlt : (a + x).natAbs < 10 ^ p
    · rw [toSignificant_of_lt hlt]
      omega
    · -- the sum so far has reached the bound
      have hlarge : ¬ (toSignificant p (a + x)).natAbs < 10 ^ p :=
        not_lt.mpr (le_natAbs_toSignificant hp (not_lt.mp hlt))
      rw [natAbs_lt_ten_pow_iff hnonneg] at hlarge
      omega

/-- **A rounded sum stays on its side** of the bound of `p` digits. -/
theorem roundedSum_lt_iff (hp : 0 < p) (ha : 0 ≤ a) (hl : ∀ x ∈ l, 0 ≤ x) :
    roundedSum p a l < 10 ^ p ↔ a + l.sum < 10 ^ p := by
  constructor
  · intro hlt
    by_contra hle
    exact absurd (le_roundedSum hp ha hl (not_lt.mp hle)) (not_le.mpr hlt)
  · intro hlt
    rwa [roundedSum_eq, roundingError_eq_zero ha hl hlt, add_zero]

end Sums

end Decimals
