import AccountingApi.Decimals.Rounding
import Mathlib.Data.List.Basic

/-!
# Decimal numbers as texts

A decimal number is written with digits before the point and, after it, with none or some places. Its
amount, counted in units of `10 ^ -k`, is rounded half up to `k` places; every amount is written with
exactly `k` places. Writing and reading an amount gives it back, and reading and writing a text gives its
normal form.

## Main definitions

* `Numeral`: the texts of decimal numbers, as their parts
* `Numeral.text`, `Numeral.read`: a numeral as a text, and back
* `Numeral.amount`: the amount of a numeral
* `Numeral.ofInt`: the numeral of an amount, with `k` places
* `Numeral.normal`: the normal form of a numeral

## Main results

* `Numeral.read_text`, `Numeral.text_of_read`: numerals and their texts correspond
* `Numeral.amount_ofInt`: the amount of the numeral of an amount
* `Numeral.ofInt_amount`: the numeral of the amount of a numeral
-/

namespace Decimals

/-! ## Digits -/

/-- The last `k` digits of a number, with leading zeros. -/
def fixedDigits : ℕ → ℕ → List Char
  | 0, _ => []
  | k + 1, n => fixedDigits k (n / 10) ++ [Nat.digitChar (n % 10)]

/-- The digits without leading zeros; zero is one digit. -/
def stripZeros (digits : List Char) : List Char :=
  match digits.dropWhile (· = '0') with
  | [] => ['0']
  | digits => digits

section Digits

variable {digits : List Char} {k n : ℕ}

@[simp] theorem length_fixedDigits (k n : ℕ) : (fixedDigits k n).length = k := by
  induction k generalizing n with
  | zero => rfl
  | succ k ih => rw [fixedDigits, List.length_append, ih, List.length_singleton]

theorem isDigit_digitChar_mod (n : ℕ) : (Nat.digitChar (n % 10)).isDigit = true := by
  rw [Nat.isDigit_digitChar]
  exact decide_eq_true (Nat.mod_lt n (by decide))

theorem isDigit_of_mem_fixedDigits (h : c ∈ fixedDigits k n) : c.isDigit = true := by
  induction k generalizing n with
  | zero => cases h
  | succ k ih =>
    rcases List.mem_append.mp h with h | h
    · exact ih h
    · rw [List.mem_singleton.mp h]
      exact isDigit_digitChar_mod n

/-- The digits of a number, and one more. -/
theorem ofDigitChars_snoc (digits : List Char) (c : Char) :
    Nat.ofDigitChars 10 (digits ++ [c]) 0 = 10 * Nat.ofDigitChars 10 digits 0 + (c.toNat - 48) := by
  rw [Nat.ofDigitChars_append, Nat.ofDigitChars_cons, Nat.ofDigitChars_nil]
  rfl

/-- The value of the last digits of a number. -/
theorem ofDigitChars_fixedDigits (k n : ℕ) : Nat.ofDigitChars 10 (fixedDigits k n) 0 = n % 10 ^ k := by
  induction k generalizing n with
  | zero => simp [fixedDigits, Nat.mod_one]
  | succ k ih =>
    rw [fixedDigits, ofDigitChars_snoc, ih,
      Nat.toNat_digitChar_sub_48_of_lt_ten (Nat.mod_lt n (by decide)), pow_succ', Nat.mod_mul]
    ring

theorem fixedDigits_add_mul (k a b : ℕ) : fixedDigits k (a * 10 ^ k + b) = fixedDigits k b := by
  induction k generalizing a b with
  | zero => rfl
  | succ k ih =>
    have hdiv : (a * 10 ^ (k + 1) + b) / 10 = a * 10 ^ k + b / 10 := by
      rw [pow_succ, ← mul_assoc, add_comm, Nat.add_mul_div_right _ _ (by decide), add_comm]
    have hmod : (a * 10 ^ (k + 1) + b) % 10 = b % 10 := by
      rw [pow_succ, ← mul_assoc, add_comm, Nat.add_mul_mod_self_right]
    rw [fixedDigits, fixedDigits, hdiv, hmod, ih]

theorem toNat_of_isDigit {c : Char} (h : c.isDigit = true) : 48 ≤ c.toNat ∧ c.toNat ≤ 57 :=
  Char.isDigit_iff_toNat.mp h

theorem digitChar_of_isDigit {c : Char} (h : c.isDigit = true) : Nat.digitChar (c.toNat - 48) = c := by
  obtain ⟨hlo, hhi⟩ := toNat_of_isDigit h
  refine Char.toNat_inj.mp ?_
  rw [Nat.toNat_digitChar_of_lt_ten (by omega)]
  omega

/-- The digits of a value, as many as there are. -/
theorem fixedDigits_ofDigitChars (h : ∀ c ∈ digits, c.isDigit = true) :
    fixedDigits digits.length (Nat.ofDigitChars 10 digits 0) = digits := by
  induction digits using List.reverseRecOn with
  | nil => rfl
  | append_singleton digits c ih =>
    have hc := h c (by simp)
    obtain ⟨hlo, hhi⟩ := toNat_of_isDigit hc
    rw [List.length_append, List.length_singleton, fixedDigits, ofDigitChars_snoc]
    have hdiv : (10 * Nat.ofDigitChars 10 digits 0 + (c.toNat - 48)) / 10 =
        Nat.ofDigitChars 10 digits 0 := by omega
    have hmod : (10 * Nat.ofDigitChars 10 digits 0 + (c.toNat - 48)) % 10 = c.toNat - 48 := by omega
    rw [hdiv, hmod, ih fun c hc => h c (List.mem_append_left _ hc), digitChar_of_isDigit hc]

/-- Digits whose first is not zero are those of their value. -/
theorem toDigits_ofDigitChars {c : Char} (hc : c ≠ '0')
    (h : ∀ d ∈ c :: digits, d.isDigit = true) :
    0 < Nat.ofDigitChars 10 (c :: digits) 0 ∧
      Nat.toDigits 10 (Nat.ofDigitChars 10 (c :: digits) 0) = c :: digits := by
  induction digits using List.reverseRecOn with
  | nil =>
    obtain ⟨hlo, hhi⟩ := toNat_of_isDigit (h c List.mem_cons_self)
    have hne : c.toNat ≠ 48 := fun heq => hc (Char.toNat_inj.mp heq)
    have hvalue : Nat.ofDigitChars 10 [c] 0 = c.toNat - 48 := by
      rw [Nat.ofDigitChars_cons, Nat.ofDigitChars_nil]
      simp
    rw [hvalue]
    refine ⟨by omega, ?_⟩
    rw [Nat.toDigits_of_lt_base (by omega), digitChar_of_isDigit (h c List.mem_cons_self)]
  | append_singleton digits d ih =>
    have hd := h d (by simp)
    obtain ⟨hlo, hhi⟩ := toNat_of_isDigit hd
    obtain ⟨hpos, hdigits⟩ := ih fun x hx => h x (by
      rcases List.mem_cons.mp hx with rfl | hx
      · exact List.mem_cons_self
      · exact List.mem_cons_of_mem _ (List.mem_append_left _ hx))
    rw [← List.cons_append, ofDigitChars_snoc]
    refine ⟨by omega, ?_⟩
    rw [← Nat.toDigits_append_toDigits (by decide) hpos (by omega), hdigits,
      Nat.toDigits_of_lt_base (by omega), digitChar_of_isDigit hd]

theorem stripZeros_ne_nil (digits : List Char) : stripZeros digits ≠ [] := by
  unfold stripZeros
  split
  · exact List.cons_ne_nil _ _
  · assumption

theorem isDigit_of_mem_stripZeros (h : ∀ c ∈ digits, c.isDigit = true) (hc : c ∈ stripZeros digits) :
    c.isDigit = true := by
  unfold stripZeros at hc
  split at hc
  · rw [List.mem_singleton.mp hc]
    rfl
  · exact h c ((List.dropWhile_suffix _).subset hc)

/-- **The digits of a value** are those it is written with, without leading zeros. -/
theorem toDigits_eq_stripZeros (h : ∀ c ∈ digits, c.isDigit = true) :
    Nat.toDigits 10 (Nat.ofDigitChars 10 digits 0) = stripZeros digits := by
  induction digits with
  | nil => simp [stripZeros]
  | cons c digits ih =>
    by_cases hc : c = '0'
    · subst hc
      have hstrip : stripZeros ('0' :: digits) = stripZeros digits := by
        simp [stripZeros]
      rw [hstrip, ← ih fun d hd => h d (List.mem_cons_of_mem _ hd), Nat.ofDigitChars_cons]
      simp
    · rw [(toDigits_ofDigitChars hc h).2]
      simp [stripZeros, hc]

/-- A number with zeros appended has its digits and the zeros. -/
theorem fixedDigits_mul_pow (k j n : ℕ) :
    fixedDigits (k + j) (n * 10 ^ j) = fixedDigits k n ++ List.replicate j '0' := by
  induction j with
  | zero => simp
  | succ j ih =>
    have hshift : n * 10 ^ (j + 1) = n * 10 ^ j * 10 := by rw [pow_succ, mul_assoc]
    rw [← Nat.add_assoc, fixedDigits, hshift, Nat.mul_div_cancel _ (by decide), Nat.mul_mod_left, ih,
      List.append_assoc, List.replicate_succ']
    rfl

end Digits

/-! ## Numerals -/

/-- The text of a decimal number, as its parts: the sign, the digits before the point and those after
it, if any. -/
@[ext] structure Numeral where
  negative : Bool
  whole : List Char
  places : List Char
  whole_ne : whole ≠ []
  digits : ∀ c ∈ whole ++ places, c.isDigit = true

namespace Numeral

/-- The places after their point; a number without places has no point. -/
def pointed (places : List Char) : List Char := if places = [] then [] else '.' :: places

/-- The text of a numeral. -/
def text (n : Numeral) : List Char :=
  (if n.negative then ['-'] else []) ++ (n.whole ++ pointed n.places)

/-- The text before and after the point. -/
def parts (s : List Char) : Option (List Char × List Char) :=
  match s.dropWhile Char.isDigit with
  | [] => some (s.takeWhile Char.isDigit, [])
  | c :: places =>
    if c = '.' ∧ places ≠ [] then some (s.takeWhile Char.isDigit, places) else none

/-- The numeral with these parts, if they are digits. -/
def ofParts (negative : Bool) (whole places : List Char) : Option Numeral :=
  if h : whole ≠ [] ∧ (whole ++ places).all (·.isDigit) = true then
    some ⟨negative, whole, places, h.1, List.all_eq_true.mp h.2⟩
  else none

/-- The numeral of a text, if it is one. -/
def read (s : List Char) : Option Numeral :=
  match s with
  | [] => none
  | c :: rest =>
    if c = '-' then (parts rest).bind fun p => ofParts true p.1 p.2
    else (parts s).bind fun p => ofParts false p.1 p.2

/-- The digits of a numeral as one number. -/
def value (n : Numeral) : ℕ := Nat.ofDigitChars 10 (n.whole ++ n.places) 0

def sign (n : Numeral) : ℤ := if n.negative then -1 else 1

/-- The amount of a numeral in units of `10 ^ -k`, rounded half up to whole units. -/
def amount (k : ℕ) (n : Numeral) : ℤ :=
  roundHalfUp (n.sign * (n.value * 10 ^ k : ℕ)) (10 ^ n.places.length)

/-- The numeral of an amount, with `k` places. -/
def ofInt (k : ℕ) (a : ℤ) : Numeral where
  negative := a < 0
  whole := Nat.toDigits 10 (a.natAbs / 10 ^ k)
  places := fixedDigits k a.natAbs
  whole_ne := Nat.toDigits_ne_nil
  digits c hc := by
    rcases List.mem_append.mp hc with hc | hc
    · exact Nat.isDigit_of_mem_toDigits (by decide) (by decide) hc
    · exact isDigit_of_mem_fixedDigits hc

/-- The normal form of a numeral with at most `k` places: no leading zeros, no negative zero, and
`k` places. -/
def normal (k : ℕ) (n : Numeral) : Numeral where
  negative := n.negative && n.value ≠ 0
  whole := stripZeros n.whole
  places := n.places ++ List.replicate (k - n.places.length) '0'
  whole_ne := stripZeros_ne_nil _
  digits c hc := by
    rcases List.mem_append.mp hc with hc | hc
    · exact isDigit_of_mem_stripZeros (fun c hc => n.digits c (List.mem_append_left _ hc)) hc
    · rcases List.mem_append.mp hc with hc | hc
      · exact n.digits c (List.mem_append_right _ hc)
      · rw [List.eq_of_mem_replicate hc]
        rfl

section Texts

variable {n : Numeral} {s whole places : List Char}

theorem takeWhile_append_pointed (hw : ∀ c ∈ whole, c.isDigit = true) (places : List Char) :
    (whole ++ pointed places).takeWhile Char.isDigit = whole := by
  rw [List.takeWhile_append_of_pos hw]
  unfold pointed
  split <;> simp

theorem dropWhile_append_pointed (hw : ∀ c ∈ whole, c.isDigit = true) (places : List Char) :
    (whole ++ pointed places).dropWhile Char.isDigit = pointed places := by
  rw [List.dropWhile_append_of_pos hw]
  unfold pointed
  split <;> simp

theorem parts_append (hw : ∀ c ∈ whole, c.isDigit = true) (places : List Char) :
    parts (whole ++ pointed places) = some (whole, places) := by
  unfold parts
  rw [takeWhile_append_pointed hw, dropWhile_append_pointed hw]
  by_cases hp : places = []
  · subst hp
    rfl
  · simp [pointed, hp]

theorem append_of_parts (h : parts s = some (whole, places)) : s = whole ++ pointed places := by
  have hs : s = s.takeWhile Char.isDigit ++ s.dropWhile Char.isDigit :=
    (List.takeWhile_append_dropWhile).symm
  unfold parts at h
  split at h
  · rename_i hdrop
    obtain ⟨rfl, rfl⟩ := Prod.mk.inj (Option.some.inj h)
    rw [hdrop] at hs
    exact hs
  · rename_i c rest hdrop
    split at h
    · rename_i hc
      obtain ⟨rfl, rfl⟩ := Prod.mk.inj (Option.some.inj h)
      rw [hdrop, hc.1] at hs
      simpa [pointed, hc.2] using hs
    · cases h

theorem ofParts_self (n : Numeral) : ofParts n.negative n.whole n.places = some n :=
  dif_pos ⟨n.whole_ne, List.all_eq_true.mpr n.digits⟩

theorem parts_of_ofParts {negative : Bool} (h : ofParts negative whole places = some n) :
    n.negative = negative ∧ n.whole = whole ∧ n.places = places := by
  unfold ofParts at h
  split at h
  · obtain rfl := Option.some.inj h
    exact ⟨rfl, rfl, rfl⟩
  · cases h

/-- **A numeral is read back** from its text. -/
theorem read_text (n : Numeral) : read n.text = some n := by
  have hparts : parts (n.whole ++ pointed n.places) = some (n.whole, n.places) :=
    parts_append (fun c hc => n.digits c (List.mem_append_left _ hc)) n.places
  cases hsign : n.negative with
  | true =>
    have htext : n.text = '-' :: (n.whole ++ pointed n.places) := by simp [text, hsign]
    rw [htext, read, if_pos rfl, hparts, Option.bind_some, ← hsign]
    exact n.ofParts_self
  | false =>
    have htext : n.text = n.whole ++ pointed n.places := by simp [text, hsign]
    obtain ⟨c, rest, hwhole⟩ := List.exists_cons_of_ne_nil n.whole_ne
    have hcons : n.text = c :: (rest ++ pointed n.places) := by rw [htext, hwhole, List.cons_append]
    -- the first character is a digit, so it is not the sign
    have hc : c ≠ '-' := by
      rintro rfl
      have hdigit := n.digits '-' (List.mem_append_left _ (hwhole ▸ List.mem_cons_self))
      exact absurd hdigit (by decide)
    rw [hcons, read, if_neg hc, ← hcons, htext, hparts, Option.bind_some, ← hsign]
    exact n.ofParts_self

/-- **A text that is a numeral** is the text of that numeral. -/
theorem text_of_read (h : read s = some n) : n.text = s := by
  cases s with
  | nil => cases h
  | cons c rest =>
    rw [read] at h
    split at h
    · rename_i hc
      obtain ⟨⟨whole, places⟩, hparts, hn⟩ := Option.bind_eq_some_iff.mp h
      obtain ⟨hsign, hwhole, hplaces⟩ := parts_of_ofParts hn
      rw [text, hsign, hwhole, hplaces, ← append_of_parts hparts, hc]
      rfl
    · obtain ⟨⟨whole, places⟩, hparts, hn⟩ := Option.bind_eq_some_iff.mp h
      obtain ⟨hsign, hwhole, hplaces⟩ := parts_of_ofParts hn
      rw [text, hsign, hwhole, hplaces, ← append_of_parts hparts]
      rfl

/-- The pattern of a number without a sign: at most `whole` digits before the point, if they are
bounded, and at most `places` after it. -/
def matchesPattern (whole : Option ℕ) (places : ℕ) (s : List Char) : Bool :=
  let digits := s.takeWhile Char.isDigit
  decide (1 ≤ digits.length) && whole.all (digits.length ≤ ·) &&
    match s.dropWhile Char.isDigit with
    | [] => true
    | c :: rest =>
      decide (c = '.') && rest.all Char.isDigit && decide (1 ≤ rest.length ∧ rest.length ≤ places)

/-- A text that matches the pattern is a numeral without a sign, and conversely. -/
theorem matchesPattern_iff {w : Option ℕ} {k : ℕ} : matchesPattern w k s = true ↔
    ∃ n, read s = some n ∧ n.negative = false ∧ (∀ m, w = some m → n.whole.length ≤ m) ∧
      n.places.length ≤ k := by
  constructor
  · intro h
    unfold matchesPattern at h
    simp only [Bool.and_eq_true, decide_eq_true_iff] at h
    obtain ⟨⟨hlen, hbound⟩, hrest⟩ := h
    have hne : s.takeWhile Char.isDigit ≠ [] := fun hnil => by simp [hnil] at hlen
    have hdigits : ∀ c ∈ s.takeWhile Char.isDigit, c.isDigit = true := fun c hc =>
      List.all_eq_true.mp List.all_takeWhile c hc
    -- the places of the numeral, with what is known of them
    obtain ⟨places, hdrop, hplaces, hle⟩ : ∃ places, s.dropWhile Char.isDigit = pointed places ∧
        (∀ c ∈ places, c.isDigit = true) ∧ places.length ≤ k := by
      cases hd : s.dropWhile Char.isDigit with
      | nil => exact ⟨[], rfl, by simp, Nat.zero_le k⟩
      | cons c rest =>
        simp only [hd, Bool.and_eq_true, decide_eq_true_iff, List.all_eq_true] at hrest
        obtain ⟨⟨rfl, hall⟩, hpos, hle⟩ := hrest
        have hrest : rest ≠ [] := List.ne_nil_of_length_pos hpos
        exact ⟨rest, (if_neg hrest).symm, hall, hle⟩
    let n : Numeral := ⟨false, s.takeWhile Char.isDigit, places, hne, fun c hc =>
      (List.mem_append.mp hc).elim (hdigits c) (hplaces c)⟩
    have htext : n.text = s := by
      show s.takeWhile Char.isDigit ++ pointed places = s
      rw [← hdrop, List.takeWhile_append_dropWhile]
    refine ⟨n, htext ▸ n.read_text, rfl, ?_, hle⟩
    rintro m rfl
    exact of_decide_eq_true hbound
  · rintro ⟨n, hread, hsign, hbound, hle⟩
    have hs : s = n.whole ++ pointed n.places := by
      rw [← text_of_read hread, text, hsign]
      rfl
    have hw : ∀ c ∈ n.whole, c.isDigit = true := fun c hc => n.digits c (List.mem_append_left _ hc)
    have hpos : 1 ≤ n.whole.length := List.length_pos_of_ne_nil n.whole_ne
    unfold matchesPattern
    rw [hs, takeWhile_append_pointed hw, dropWhile_append_pointed hw]
    simp only [Bool.and_eq_true, decide_eq_true_iff]
    refine ⟨⟨hpos, ?_⟩, ?_⟩
    · cases w with
      | none => rfl
      | some m => exact decide_eq_true (hbound m rfl)
    · by_cases hp : n.places = []
      · simp [pointed, hp]
      · have hpos : 1 ≤ n.places.length := List.length_pos_of_ne_nil hp
        rw [pointed, if_neg hp]
        simp only [Bool.and_eq_true, decide_eq_true_iff, List.all_eq_true]
        exact ⟨⟨trivial, fun c hc => n.digits c (List.mem_append_right _ hc)⟩, hpos, hle⟩

end Texts

/-! ## Amounts -/

section Amounts

variable {n : Numeral} {digits : List Char} {k : ℕ}

theorem value_eq (n : Numeral) : n.value =
    Nat.ofDigitChars 10 n.whole 0 * 10 ^ n.places.length + Nat.ofDigitChars 10 n.places 0 := by
  rw [value, Nat.ofDigitChars_append, Nat.ofDigitChars_eq_ofDigitChars_zero, mul_comm]

theorem ofDigitChars_lt (h : ∀ c ∈ digits, c.isDigit = true) :
    Nat.ofDigitChars 10 digits 0 < 10 ^ digits.length := by
  have hvalue := ofDigitChars_fixedDigits digits.length (Nat.ofDigitChars 10 digits 0)
  rw [fixedDigits_ofDigitChars h] at hvalue
  rw [hvalue]
  exact Nat.mod_lt _ (by positivity)

theorem value_ofInt (k : ℕ) (a : ℤ) : (ofInt k a).value = a.natAbs := by
  rw [value_eq]
  show Nat.ofDigitChars 10 (Nat.toDigits 10 (a.natAbs / 10 ^ k)) 0 * 10 ^ (fixedDigits k a.natAbs).length
    + Nat.ofDigitChars 10 (fixedDigits k a.natAbs) 0 = a.natAbs
  rw [Nat.ofDigitChars_ten_toDigits, length_fixedDigits, ofDigitChars_fixedDigits]
  exact Nat.div_add_mod' a.natAbs (10 ^ k)

/-- **The amount of a written amount** is that amount. -/
theorem amount_ofInt (k : ℕ) (a : ℤ) : (ofInt k a).amount k = a := by
  have hsign : (ofInt k a).sign * (a.natAbs : ℤ) = a := by
    unfold sign
    show (if decide (a < 0) = true then -1 else 1) * (a.natAbs : ℤ) = a
    split
    · rename_i h
      have := of_decide_eq_true h
      omega
    · rename_i h
      have : ¬ a < 0 := fun hlt => h (decide_eq_true hlt)
      omega
  have hplaces : (ofInt k a).places.length = k := length_fixedDigits k a.natAbs
  rw [amount, value_ofInt, hplaces, Nat.cast_mul, ← mul_assoc, hsign]
  exact roundHalfUp_mul a (by positivity)

/-- The amount of a numeral without more places. -/
theorem amount_of_le (h : n.places.length ≤ k) :
    n.amount k = n.sign * (n.value * 10 ^ (k - n.places.length) : ℕ) := by
  have hpow : n.value * 10 ^ k = n.value * 10 ^ (k - n.places.length) * 10 ^ n.places.length := by
    rw [mul_assoc, ← pow_add, Nat.sub_add_cancel h]
  rw [amount, hpow, Nat.cast_mul, ← mul_assoc]
  exact roundHalfUp_mul _ (by positivity)

theorem natAbs_sign_mul (n : Numeral) (m : ℕ) : (n.sign * (m : ℤ)).natAbs = m := by
  unfold sign
  split <;> omega

theorem sign_mul_neg_iff (n : Numeral) (m : ℕ) : n.sign * (m : ℤ) < 0 ↔ n.negative = true ∧ m ≠ 0 := by
  unfold sign
  split <;> rename_i h <;> simp only [h, true_and, false_and, iff_false, Bool.false_eq_true] <;> omega

/-- **The written amount of a numeral** is its normal form. -/
theorem ofInt_amount (h : n.places.length ≤ k) : ofInt k (n.amount k) = n.normal k := by
  have hamount := amount_of_le h
  have habs : (n.amount k).natAbs = n.value * 10 ^ (k - n.places.length) := by
    rw [hamount, natAbs_sign_mul]
  have hlt : Nat.ofDigitChars 10 n.places 0 < 10 ^ n.places.length :=
    ofDigitChars_lt fun c hc => n.digits c (List.mem_append_right _ hc)
  have hk : 10 ^ k = 10 ^ (k - n.places.length) * 10 ^ n.places.length := by
    rw [← pow_add, Nat.sub_add_cancel h]
  apply Numeral.ext
  · show decide (n.amount k < 0) = (n.negative && decide (n.value ≠ 0))
    have hpos : 0 < 10 ^ (k - n.places.length) := by positivity
    rw [Bool.eq_iff_iff, Bool.and_eq_true, decide_eq_true_iff, decide_eq_true_iff, hamount,
      sign_mul_neg_iff, Nat.mul_ne_zero_iff, and_iff_left hpos.ne']
  · show Nat.toDigits 10 ((n.amount k).natAbs / 10 ^ k) = stripZeros n.whole
    rw [habs, hk, mul_comm n.value, Nat.mul_div_mul_left _ _ (by positivity), value_eq,
      Nat.mul_comm, Nat.mul_add_div (by positivity), Nat.div_eq_of_lt hlt, Nat.add_zero]
    exact toDigits_eq_stripZeros fun c hc => n.digits c (List.mem_append_left _ hc)
  · show fixedDigits k (n.amount k).natAbs = n.places ++ List.replicate (k - n.places.length) '0'
    have hdigits := fixedDigits_mul_pow n.places.length (k - n.places.length) n.value
    rw [Nat.add_sub_cancel' h] at hdigits
    rw [habs, hdigits, value_eq, fixedDigits_add_mul,
      fixedDigits_ofDigitChars fun c hc => n.digits c (List.mem_append_right _ hc)]

end Amounts

end Numeral

end Decimals
