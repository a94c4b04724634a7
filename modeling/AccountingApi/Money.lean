import AccountingApi.Decimals.Rounding
import Mathlib.Algebra.Order.BigOperators.Group.List

/-!
# Money

An amount of rupiah has four decimal places and is an integer here, counted in ten-thousandths. The
arithmetic is that of decimals with twenty significant digits, so it is exact on every amount the
ledger's columns hold.

## Main definitions

* `Money.add`, `Money.subtract`, `Money.multiply`, `Money.roundToRupiah`, `Money.sum`
* `Money.Storable`: the amounts of a column with twenty digits, four of them decimal places
* `MoneyString`: the amounts a request can carry

## Main results

* `Money.sum_eq_of_storable`: a sum of non-negative amounts that is storable is exact
* `Money.sum_sub`: so is a sum of differences, where the sums of both sides are
-/

namespace AccountingApi

open Decimals

namespace Money

/-- The significant digits of the decimal arithmetic. -/
def precision : ℕ := 20

def zero : ℤ := 0

def add (a b : ℤ) : ℤ := toSignificant precision (a + b)

def subtract (a b : ℤ) : ℤ := toSignificant precision (a - b)

/-- The amount times `factor / 10 ^ places`. -/
def multiply (a : ℤ) (factor : ℤ) (places : ℕ) : ℤ :=
  roundHalfUp (toSignificant precision (a * factor)) (10 ^ places)

/-- The amount rounded half up to whole rupiah. -/
def roundToRupiah (a : ℤ) : ℤ := roundHalfUp a (10 ^ 4) * 10 ^ 4

def sum (amounts : List ℤ) : ℤ := amounts.foldl add zero

def isZero (a : ℤ) : Bool := a = 0

/-- No subtraction of this arithmetic yields a negative zero. -/
def isNegative (a : ℤ) : Bool := a < 0

/-- The amounts a column with twenty digits, four of them decimal places, can hold. -/
def Storable (a : ℤ) : Prop := a.natAbs < 10 ^ 20

instance (a : ℤ) : Decidable (Storable a) := inferInstanceAs (Decidable (_ < _))

theorem add_eq {a b : ℤ} (h : Storable (a + b)) : add a b = a + b := toSignificant_of_lt h

theorem subtract_eq {a b : ℤ} (h : Storable (a - b)) : subtract a b = a - b :=
  toSignificant_of_lt h

/-- The difference of two non-negative storable amounts is exact. -/
theorem subtract_eq_of_nonneg {a b : ℤ} (ha : 0 ≤ a) (hb : 0 ≤ b) (has : Storable a)
    (hbs : Storable b) : subtract a b = a - b := by
  refine subtract_eq ?_
  simp only [Storable] at *
  omega

/-- A difference that is negative stays so when it is rounded. -/
theorem subtract_neg {a b : ℤ} (h : a < b) : subtract a b < 0 :=
  toSignificant_neg (by decide) (by omega)

theorem multiply_nonneg {a factor : ℤ} (h : 0 ≤ a * factor) (places : ℕ) :
    0 ≤ multiply a factor places :=
  roundHalfUp_nonneg (toSignificant_nonneg h) _

/-- The multiplication by minus one is exact. -/
theorem multiply_neg_one {a : ℤ} (h : Storable a) : multiply a (-1) 0 = -a := by
  have hstorable : (a * -1).natAbs < 10 ^ precision := by
    simp only [Storable, precision] at h ⊢
    omega
  rw [multiply, toSignificant_of_lt hstorable, pow_zero, roundHalfUp_one, mul_neg_one]

theorem roundToRupiah_nonneg {a : ℤ} (h : 0 ≤ a) : 0 ≤ roundToRupiah a :=
  Int.mul_nonneg (roundHalfUp_nonneg h _) (by decide)

/-- An amount times a factor with four places vanishes below half a ten-thousandth. -/
theorem multiply_four_eq_zero_iff {a factor : ℤ} :
    multiply a factor 4 = 0 ↔ (a * factor).natAbs < 5000 := by
  have hdigits := natAbs_toSignificant_lt_iff (p := precision) (k := 5000) (n := a * factor)
    (by decide) (by decide)
  have hplaces := natAbs_roundHalfUp_lt_iff (n := toSignificant precision (a * factor))
    (d := 10 ^ 4) (k := 1) (by decide) (by decide)
  rw [← hdigits, multiply]
  omega

/-- An amount times a factor with six places, in whole rupiah, vanishes below 0.49995 rupiah. -/
theorem roundToRupiah_multiply_eq_zero_iff {a factor : ℤ} :
    roundToRupiah (multiply a factor 6) = 0 ↔ (a * factor).natAbs < 4999500000 := by
  have hdigits := natAbs_toSignificant_lt_iff (p := precision) (k := 4999500000) (n := a * factor)
    (by decide) (by decide)
  have hplaces := natAbs_roundHalfUp_lt_iff (n := toSignificant precision (a * factor))
    (d := 10 ^ 6) (k := 5000) (by decide) (by decide)
  have hrupiah := natAbs_roundHalfUp_lt_iff (n := multiply a factor 6) (d := 10 ^ 4) (k := 1)
    (by decide) (by decide)
  rw [← hdigits, roundToRupiah]
  unfold multiply at hrupiah ⊢
  omega

theorem foldl_add_eq_of_storable {l : List ℤ} {a : ℤ} (ha : 0 ≤ a) (hl : ∀ x ∈ l, 0 ≤ x)
    (h : Storable (l.foldl add a)) : l.foldl add a = a + l.sum := by
  induction l generalizing a with
  | nil => exact (add_zero a).symm
  | cons x l ih =>
    have hx : 0 ≤ x := hl x List.mem_cons_self
    have hl' : ∀ y ∈ l, 0 ≤ y := fun y hy => hl y (List.mem_cons_of_mem x hy)
    have hadd : 0 ≤ add a x := toSignificant_nonneg (Int.add_nonneg ha hx)
    have hrest := ih hadd hl' h
    have hsum : 0 ≤ l.sum := List.sum_nonneg hl'
    -- what is added later is not negative, so the sum so far is storable as well
    have hstorable : Storable (add a x) := by
      rw [List.foldl_cons, hrest] at h
      simp only [Storable] at *
      omega
    have hexact : add a x = a + x := toSignificant_of_natAbs_lt (by decide) hstorable
    rw [List.foldl_cons, hrest, hexact, List.sum_cons, add_assoc]

/-- A sum of non-negative amounts that is storable is exact. -/
theorem sum_eq_of_storable {l : List ℤ} (hl : ∀ x ∈ l, 0 ≤ x) (h : Storable (sum l)) :
    sum l = l.sum :=
  (foldl_add_eq_of_storable le_rfl hl h).trans (zero_add _)

/-- A sum of differences is exact when both sides' sums have no more digits than the arithmetic. -/
theorem foldl_add_sub {α : Type} {f g : α → ℤ} {l : List α} {a b : ℤ} (ha : 0 ≤ a) (hb : 0 ≤ b)
    (hf : ∀ x ∈ l, 0 ≤ f x) (hg : ∀ x ∈ l, 0 ≤ g x) (hfl : a + (l.map f).sum < 10 ^ 20)
    (hgl : b + (l.map g).sum < 10 ^ 20) :
    (l.map fun x => f x - g x).foldl add (a - b) = a + (l.map f).sum - (b + (l.map g).sum) := by
  induction l generalizing a b with
  | nil => simp
  | cons x l ih =>
    obtain ⟨hfx, hf⟩ := List.forall_mem_cons.mp hf
    obtain ⟨hgx, hg⟩ := List.forall_mem_cons.mp hg
    have hfsum : 0 ≤ (l.map f).sum := List.sum_nonneg (List.forall_mem_map.mpr hf)
    have hgsum : 0 ≤ (l.map g).sum := List.sum_nonneg (List.forall_mem_map.mpr hg)
    simp only [List.map_cons, List.sum_cons, List.foldl_cons] at hfl hgl ⊢
    have hstorable : Storable (a - b + (f x - g x)) := by
      simp only [Storable]
      omega
    have hstep : a - b + (f x - g x) = a + f x - (b + g x) := by ring
    rw [add_eq hstorable, hstep, ih (by omega) (by omega) hf hg (by omega) (by omega)]
    ring

/-- The sum of differences. -/
theorem sum_sub {α : Type} {f g : α → ℤ} {l : List α} (hf : ∀ x ∈ l, 0 ≤ f x)
    (hg : ∀ x ∈ l, 0 ≤ g x) (hfl : (l.map f).sum < 10 ^ 20) (hgl : (l.map g).sum < 10 ^ 20) :
    sum (l.map fun x => f x - g x) = (l.map f).sum - (l.map g).sum := by
  have h := foldl_add_sub (a := 0) (b := 0) le_rfl le_rfl hf hg (by omega) (by omega)
  rwa [sub_zero, zero_add, zero_add] at h

/-- The sum of amounts that are not negative. -/
theorem sum_eq_of_lt {α : Type} {f : α → ℤ} {l : List α} (hf : ∀ x ∈ l, 0 ≤ f x)
    (h : (l.map f).sum < 10 ^ 20) : sum (l.map f) = (l.map f).sum := by
  have hsub := sum_sub (g := fun _ => 0) hf (fun _ _ => le_rfl) h (by simp)
  simpa using hsub

end Money

/-- An amount as a request carries it: not negative, at most sixteen digits before the decimal point
and four after it. -/
structure MoneyString where
  amount : ℤ
  nonneg : 0 ≤ amount
  storable : Money.Storable amount
deriving DecidableEq

end AccountingApi
