import Mathlib.Algebra.Order.Ring.Int
import Mathlib.Data.Nat.Log
import Mathlib.Tactic.NormNum
import Mathlib.Tactic.Positivity
import Mathlib.Tactic.Ring
import Mathlib.Algebra.Order.Group.Unbundled.Int

/-!
# Rounding of scaled integers

A decimal number with a fixed number of places is an integer, counted in its last place. Dropping
places and dropping significant digits both round half up, that is away from zero on a tie.

## Main definitions

* `roundHalfUp n d`: `n / d` rounded to the nearest integer
* `toSignificant p n`: `n` rounded to `p` significant digits
* `JustBelowHalf n d slack`: the remainder of `n` is too small to be rounded up, by `slack` at most

## Main results

* `toSignificant_of_lt`: a number of at most `p` digits is not rounded
* `toSignificant_of_natAbs_lt`: nor is one whose rounding has at most `p` digits
* `roundHalfUp_toSignificant`, `roundHalfUp_div`: rounding in steps is rounding once from higher up
* `add_div_eq_iff`: where that makes a difference
-/

namespace Decimals

/-- `n / d` rounded to the nearest integer, ties away from zero. -/
def roundHalfUp (n : ℤ) (d : ℕ) : ℤ := n.sign * ((2 * n.natAbs + d) / (2 * d) : ℕ)

/-- `n` rounded to `p` significant digits. -/
def toSignificant (p : ℕ) (n : ℤ) : ℤ :=
  if n.natAbs < 10 ^ p then n
  else
    let d := 10 ^ (Nat.log 10 n.natAbs + 1 - p)
    roundHalfUp n d * d

@[simp] theorem roundHalfUp_one (n : ℤ) : roundHalfUp n 1 = n := by
  have h : (2 * n.natAbs + 1) / (2 * 1) = n.natAbs := by omega
  rw [roundHalfUp, h, Int.sign_mul_natAbs]

/-- A multiple is not rounded. -/
theorem roundHalfUp_mul (n : ℤ) {d : ℕ} (hd : 0 < d) : roundHalfUp (n * d) d = n := by
  have hquot : (2 * (n.natAbs * d) + d) / (2 * d) = n.natAbs := by
    have hsplit : 2 * (n.natAbs * d) + d = 2 * d * n.natAbs + d := by ring
    rw [hsplit, Nat.mul_add_div (by omega), Nat.div_eq_of_lt (by omega), Nat.add_zero]
  have hsign : (d : ℤ).sign = 1 := Int.sign_eq_one_of_pos (by exact_mod_cast hd)
  rw [roundHalfUp, Int.sign_mul, hsign, mul_one, Int.natAbs_mul, Int.natAbs_natCast, hquot,
    Int.sign_mul_natAbs]

theorem toSignificant_of_lt {p : ℕ} {n : ℤ} (h : n.natAbs < 10 ^ p) : toSignificant p n = n :=
  if_pos h

theorem roundHalfUp_zero (d : ℕ) : roundHalfUp 0 d = 0 := by
  rw [roundHalfUp, Int.sign_zero, zero_mul]

theorem natAbs_roundHalfUp {n : ℤ} (hn : n ≠ 0) (d : ℕ) :
    (roundHalfUp n d).natAbs = (2 * n.natAbs + d) / (2 * d) := by
  rw [roundHalfUp, Int.natAbs_mul, Int.natAbs_sign_of_ne_zero hn, Nat.one_mul, Int.natAbs_natCast]

theorem roundHalfUp_nonneg {n : ℤ} (h : 0 ≤ n) (d : ℕ) : 0 ≤ roundHalfUp n d := by
  have hsign : 0 ≤ n.sign := Int.sign_nonneg_iff.mpr h
  unfold roundHalfUp
  positivity

/-- A rounded number is below a bound if and only if the number is below it by half a unit. -/
theorem natAbs_roundHalfUp_lt_iff {n : ℤ} {d k : ℕ} (hd : 0 < d) (hk : 0 < k) :
    (roundHalfUp n d).natAbs < k ↔ 2 * n.natAbs + d < k * (2 * d) := by
  by_cases hn : n = 0
  · have hmul : 2 * d ≤ k * (2 * d) := Nat.le_mul_of_pos_left _ hk
    simp only [hn, roundHalfUp_zero, Int.natAbs_zero]
    omega
  · rw [natAbs_roundHalfUp hn, Nat.div_lt_iff_lt_mul (by omega)]

/-- A number of more than `p` digits has more than `p` digits when it is rounded. -/
theorem le_natAbs_toSignificant {p : ℕ} {n : ℤ} (hp : 0 < p) (h : 10 ^ p ≤ n.natAbs) :
    10 ^ p ≤ (toSignificant p n).natAbs := by
  have hpos : 0 < n.natAbs := lt_of_lt_of_le (by positivity) h
  have hlog : p ≤ Nat.log 10 n.natAbs := (Nat.le_log_iff_pow_le (by norm_num) hpos.ne').mpr h
  have hle : 10 ^ Nat.log 10 n.natAbs ≤ n.natAbs := Nat.pow_log_le_self 10 hpos.ne'
  rw [toSignificant, if_neg (not_lt.mpr h)]
  set L := Nat.log 10 n.natAbs
  set d := 10 ^ (L + 1 - p) with hd
  have hdpos : 0 < d := by positivity
  have hL : 10 ^ L = 10 ^ (p - 1) * d := by rw [hd, ← pow_add]; congr 1; omega
  -- the quotient keeps `p` digits
  have hq : 10 ^ (p - 1) ≤ (2 * n.natAbs + d) / (2 * d) := by
    rw [Nat.le_div_iff_mul_le (by positivity)]
    calc 10 ^ (p - 1) * (2 * d) = 2 * 10 ^ L := by rw [hL]; ring
      _ ≤ 2 * n.natAbs + d := by omega
  calc 10 ^ p ≤ 10 ^ L := Nat.pow_le_pow_right (by norm_num) hlog
    _ = 10 ^ (p - 1) * d := hL
    _ ≤ (2 * n.natAbs + d) / (2 * d) * d := Nat.mul_le_mul_right d hq
    _ = (roundHalfUp n d * d).natAbs := by
      rw [Int.natAbs_mul, natAbs_roundHalfUp (Int.natAbs_pos.mp hpos), Int.natAbs_natCast]

/-- A number whose rounding has at most `p` digits was not rounded. -/
theorem toSignificant_of_natAbs_lt {p : ℕ} {n : ℤ} (hp : 0 < p)
    (h : (toSignificant p n).natAbs < 10 ^ p) : toSignificant p n = n := by
  refine toSignificant_of_lt (not_le.mp fun hle => ?_)
  exact absurd h (not_lt.mpr (le_natAbs_toSignificant hp hle))

/-- Rounding to `p` digits keeps a number on its side of a bound of at most `p` digits. -/
theorem natAbs_toSignificant_lt_iff {p k : ℕ} {n : ℤ} (hp : 0 < p) (hk : k ≤ 10 ^ p) :
    (toSignificant p n).natAbs < k ↔ n.natAbs < k := by
  rcases lt_or_ge n.natAbs (10 ^ p) with hlt | hle
  · rw [toSignificant_of_lt hlt]
  · have hrounded := le_natAbs_toSignificant hp hle
    constructor <;> intro h <;> omega

theorem toSignificant_nonneg {p : ℕ} {n : ℤ} (h : 0 ≤ n) : 0 ≤ toSignificant p n := by
  unfold toSignificant roundHalfUp
  have hsign : 0 ≤ n.sign := Int.sign_nonneg_iff.mpr h
  split
  · exact h
  · positivity

theorem toSignificant_neg {p : ℕ} {n : ℤ} (hp : 0 < p) (h : n < 0) : toSignificant p n < 0 := by
  by_cases hlt : n.natAbs < 10 ^ p
  · rwa [toSignificant_of_lt hlt]
  · -- the sign is kept, and enough digits are left
    have hle := le_natAbs_toSignificant hp (Nat.le_of_not_lt hlt)
    have hpos : 0 < 10 ^ p := Nat.pow_pos (by decide)
    have hnonpos : toSignificant p n ≤ 0 := by
      have hsign : n.sign ≤ 0 := (Int.sign_eq_neg_one_of_neg h).le.trans (by decide)
      unfold toSignificant roundHalfUp
      rw [if_neg hlt]
      exact mul_nonpos_of_nonpos_of_nonneg (mul_nonpos_of_nonpos_of_nonneg hsign (by positivity))
        (by positivity)
    omega

/-! ## Rounding in steps -/

/-- The digits a number has beyond `p`. -/
def excessDigits (p n : ℕ) : ℕ := Nat.log 10 n + 1 - p

/-- The remainder of `n` lies below the half of `d`, by `slack` at most. -/
def JustBelowHalf (n d slack : ℕ) : Prop := n % d < d / 2 ∧ d / 2 ≤ n % d + slack

instance (n d slack : ℕ) : Decidable (JustBelowHalf n d slack) :=
  inferInstanceAs (Decidable (_ ∧ _))

theorem roundHalfUp_natCast {n e : ℕ} (he : 0 < e) :
    roundHalfUp n (2 * e) = ((n + e) / (2 * e) : ℕ) := by
  have hdiv : (2 * n + 2 * e) / (2 * (2 * e)) = (n + e) / (2 * e) := by
    rw [← Nat.mul_add, Nat.mul_div_mul_left _ _ (by decide)]
  rcases Nat.eq_zero_or_pos n with rfl | hn
  · rw [Nat.zero_add, Nat.div_eq_of_lt (by omega : e < 2 * e)]
    exact roundHalfUp_zero _
  · have hsign : (n : ℤ).sign = 1 := Int.sign_eq_one_of_pos (by exact_mod_cast hn)
    rw [roundHalfUp, hsign, one_mul, Int.natAbs_natCast, hdiv]

theorem ten_pow_eq {k : ℕ} (hk : 0 < k) : 10 ^ k = 2 * (10 ^ k / 2) :=
  (Nat.mul_div_cancel' (dvd_pow (by decide) hk.ne')).symm

theorem half_ten_pow_pos {k : ℕ} (hk : 0 < k) : 0 < 10 ^ k / 2 := by
  have hpos : 0 < 10 ^ k := by positivity
  have hhalf := ten_pow_eq hk
  omega

/-- Rounding to a positive number of places. -/
theorem roundHalfUp_ten_pow (n : ℕ) {k : ℕ} (hk : 0 < k) :
    roundHalfUp n (10 ^ k) = ((n + 10 ^ k / 2) / 10 ^ k : ℕ) := by
  have h := roundHalfUp_natCast (n := n) (half_ten_pow_pos hk)
  rwa [← ten_pow_eq hk] at h

/-- Rounding what a division has left. -/
theorem roundHalfUp_div (n : ℕ) {a k : ℕ} (ha : 0 < a) (hk : 0 < k) :
    roundHalfUp (n / a : ℕ) (10 ^ k) = ((n + a * (10 ^ k / 2)) / (a * 10 ^ k) : ℕ) := by
  rw [roundHalfUp_ten_pow _ hk, ← Nat.add_mul_div_left n _ ha, Nat.div_div_eq_div_mul]

section Significant

variable {p n m : ℕ}

theorem excessDigits_eq_zero (hp : 0 < p) (h : n < 10 ^ p) : excessDigits p n = 0 := by
  have hlog : Nat.log 10 n < p := Nat.log_lt_of_lt_pow' hp.ne' h
  unfold excessDigits
  omega

theorem excessDigits_le (hp : 0 < p) (h : n < 10 ^ (p + m)) : excessDigits p n ≤ m := by
  have hlog : Nat.log 10 n < p + m := Nat.log_lt_of_lt_pow' (by omega) h
  unfold excessDigits
  omega

theorem excessDigits_pos (h : 10 ^ p ≤ n) : 0 < excessDigits p n := by
  have hn : n ≠ 0 := by
    have : 0 < 10 ^ p := by positivity
    omega
  have hlog : p ≤ Nat.log 10 n := (Nat.le_log_iff_pow_le (by decide) hn).mpr h
  unfold excessDigits
  omega

theorem toSignificant_natCast (h : 10 ^ p ≤ n) :
    toSignificant p n = roundHalfUp n (10 ^ excessDigits p n) * (10 ^ excessDigits p n : ℕ) := by
  rw [toSignificant, if_neg (by rw [Int.natAbs_natCast]; omega), Int.natAbs_natCast]
  rfl

/-- **Significant digits, then places**: the number is rounded once, but from half of the first step
higher. -/
theorem roundHalfUp_toSignificant (hp : 0 < p) (hk : excessDigits p n < m) :
    roundHalfUp (toSignificant p n) (10 ^ m) =
      ((n + 10 ^ excessDigits p n / 2 + 10 ^ m / 2) / 10 ^ m : ℕ) := by
  have hm : 0 < m := by omega
  by_cases hlt : n < 10 ^ p
  · rw [toSignificant_of_lt (by exact_mod_cast hlt), excessDigits_eq_zero hp hlt]
    exact roundHalfUp_ten_pow n hm
  · have hkpos := excessDigits_pos (not_lt.mp hlt)
    rw [toSignificant_natCast (not_lt.mp hlt), roundHalfUp_ten_pow n hkpos, ← Nat.cast_mul,
      roundHalfUp_ten_pow _ hm]
    generalize excessDigits p n = k at hk hkpos
    obtain ⟨j, hj, rfl⟩ : ∃ j, 0 < j ∧ m = k + j := ⟨m - k, by omega, by omega⟩
    have ha : 0 < 10 ^ k := by positivity
    -- the half of the places that stay is a multiple of the step that was dropped
    have hhalf : 10 ^ (k + j) / 2 = 10 ^ k * (10 ^ j / 2) := by
      rw [pow_add, Nat.mul_div_assoc _ (dvd_pow (by decide) hj.ne')]
    rw [hhalf, pow_add, ← Nat.div_div_eq_div_mul, ← Nat.div_div_eq_div_mul,
      Nat.add_mul_div_left _ _ ha, Nat.add_mul_div_left _ _ ha, Nat.mul_div_cancel _ ha]

end Significant

/-- Rounding from `slack` higher changes the result where the remainder lies just below the half. -/
theorem add_div_eq_iff {n d slack : ℕ} (hd : 0 < d) (heven : 2 ∣ d) (hslack : slack ≤ d / 2) :
    (n + slack + d / 2) / d = (n + d / 2) / d ↔ ¬ JustBelowHalf n d slack := by
  unfold JustBelowHalf
  have hn : n = d * (n / d) + n % d := (Nat.div_add_mod n d).symm
  have hr : n % d < d := Nat.mod_lt n hd
  generalize n / d = q at hn
  generalize n % d = r at hn hr
  have hstep : ∀ x, (n + x) / d = q + (r + x) / d := fun x => by
    rw [hn, add_assoc, Nat.mul_add_div hd]
  rw [add_assoc, hstep, hstep, Nat.add_left_cancel_iff]
  have hsmall : ∀ x, x < d → x / d = 0 := fun x hx => Nat.div_eq_of_lt hx
  have hlarge : ∀ x, d ≤ x → x < 2 * d → x / d = 1 := fun x hx hx' =>
    Nat.div_eq_of_lt_le (by omega) (by omega)
  by_cases hhalf : r < d / 2
  · rw [hsmall (r + d / 2) (by omega)]
    by_cases hcarry : r + slack < d / 2
    · rw [hsmall (r + (slack + d / 2)) (by omega)]
      omega
    · rw [hlarge (r + (slack + d / 2)) (by omega) (by omega)]
      omega
  · rw [hlarge (r + d / 2) (by omega) (by omega),
      hlarge (r + (slack + d / 2)) (by omega) (by omega)]
    omega

end Decimals
