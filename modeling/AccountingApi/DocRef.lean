import Mathlib.Data.Nat.Digits.Defs
import Mathlib.Data.List.Basic

/-!
# Document references

## Main definitions

* `buildDocRef`: a reference such as `JE/2026/000123`

## Main results

* `buildDocRef_inj`: a reference determines its prefix, year and number
-/

namespace AccountingApi

/-- The text with zeros before it, up to `width` characters. -/
def padStart (width : ℕ) (s : String) : String :=
  String.ofList (List.replicate (width - s.length) '0' ++ s.toList)

/-- Human-readable document reference, e.g. `JE/2026/000123` or `INV/2026/000042`. -/
def buildDocRef (pre : String) (fiscalYear : ℤ) (num : ℕ) : String :=
  pre ++ "/" ++ toString fiscalYear ++ "/" ++ padStart 6 (toString num)

/-! ## References are distinct -/

theorem notMem_toDigits {c : Char} (hc : c.isDigit = false) (n : ℕ) : c ∉ Nat.toDigits 10 n := by
  intro h
  rw [Nat.isDigit_of_mem_toDigits (by decide) le_rfl h] at hc
  cases hc

theorem toDigits_inj {n m : ℕ} (h : Nat.toDigits 10 n = Nat.toDigits 10 m) : n = m := by
  rw [← Nat.ofDigitChars_ten_toDigits (n := n), h, Nat.ofDigitChars_ten_toDigits]

theorem toList_natCast (n : ℕ) : (toString (n : ℤ)).toList = Nat.toDigits 10 n := Nat.toList_repr

theorem toList_negSucc (n : ℕ) :
    (toString (Int.negSucc n)).toList = '-' :: Nat.toDigits 10 (n + 1) := by
  change ("-" ++ Nat.repr (n + 1)).toList = _
  rw [String.toList_append, Nat.toList_repr]
  rfl

theorem slash_notMem_toString (y : ℤ) : '/' ∉ (toString y).toList := by
  cases y with
  | ofNat n =>
    rw [Int.ofNat_eq_natCast, toList_natCast]
    exact notMem_toDigits (by decide) n
  | negSucc n =>
    rw [toList_negSucc]
    exact List.not_mem_cons_of_ne_of_not_mem (by decide) (notMem_toDigits (by decide) _)

theorem toString_inj {y y' : ℤ} (h : (toString y).toList = (toString y').toList) : y = y' := by
  have hminus : ∀ n m : ℕ, Nat.toDigits 10 n ≠ '-' :: Nat.toDigits 10 (m + 1) := fun n m he =>
    notMem_toDigits (c := '-') (by decide) n (he ▸ List.mem_cons_self)
  cases y <;> cases y' <;>
    simp only [Int.ofNat_eq_natCast, toList_natCast, toList_negSucc] at h
  · rw [toDigits_inj h]
  · exact absurd h (hminus _ _)
  · exact absurd h.symm (hminus _ _)
  · rw [Nat.succ.inj (toDigits_inj (List.cons.inj h).2)]

/-- Zeros before the digits of a number do not change it. -/
theorem ofDigitChars_replicate (k n : ℕ) :
    Nat.ofDigitChars 10 (List.replicate k '0' ++ Nat.toDigits 10 n) 0 = n := by
  rw [Nat.ofDigitChars_append, Nat.ofDigitChars_replicate_zero, Nat.mul_zero,
    Nat.ofDigitChars_ten_toDigits]

theorem padStart_inj {width n m : ℕ} (h : padStart width (toString n) = padStart width (toString m)) :
    n = m := by
  have hlist := String.ofList_injective h
  simp only [show ∀ k : ℕ, (toString k).toList = Nat.toDigits 10 k from fun k => Nat.toList_repr]
    at hlist
  rw [← ofDigitChars_replicate (width - (toString n).length) n, hlist, ofDigitChars_replicate]

/-- The part before the first occurrence of a separator is determined. -/
theorem eq_of_append_cons {α : Type} {a : α} {l l' r r' : List α} (hl : a ∉ l) (hl' : a ∉ l')
    (h : l ++ a :: r = l' ++ a :: r') : l = l' ∧ r = r' := by
  induction l generalizing l' with
  | nil =>
    cases l' with
    | nil => exact ⟨rfl, (List.cons.inj h).2⟩
    | cons b l' => exact absurd (List.mem_cons.mpr (.inl (List.cons.inj h).1)) hl'
  | cons b l ih =>
    cases l' with
    | nil => exact absurd (List.mem_cons.mpr (.inl (List.cons.inj h).1.symm)) hl
    | cons b' l' =>
      rw [List.cons_append, List.cons_append] at h
      obtain ⟨rfl, htail⟩ := List.cons.inj h
      obtain ⟨rfl, rfl⟩ := ih (fun hm => hl (List.mem_cons_of_mem b hm))
        (fun hm => hl' (List.mem_cons_of_mem b hm)) htail
      exact ⟨rfl, rfl⟩

/-- **A reference determines its prefix, year and number**, of any number of digits. -/
theorem buildDocRef_inj {pre pre' : String} {y y' : ℤ} {n n' : ℕ} (hpre : '/' ∉ pre.toList)
    (hpre' : '/' ∉ pre'.toList) (h : buildDocRef pre y n = buildDocRef pre' y' n') :
    pre = pre' ∧ y = y' ∧ n = n' := by
  have hlist := congrArg String.toList h
  simp only [buildDocRef, String.toList_append, List.append_assoc] at hlist
  obtain ⟨hp, hlist⟩ := eq_of_append_cons hpre hpre' hlist
  obtain ⟨hy, hlist⟩ :=
    eq_of_append_cons (slash_notMem_toString y) (slash_notMem_toString y') hlist
  exact ⟨String.toList_injective hp, toString_inj hy, padStart_inj (String.toList_injective hlist)⟩

end AccountingApi
