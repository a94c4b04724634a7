import AccountingApi.Decimals.Text
import AccountingApi.Money

/-!
# Money as text

Amounts leave the API as texts with four decimal places and come in as texts a pattern admits. Every
amount is read back from its text; a text that the pattern admits holds an amount the ledger's columns
can store, and the amount's text is the normal form of it.

## Main definitions

* `isMoneyString`: the texts a request can carry
* `Money.of`, `Money.toPersistence`: the amount of a text, and the text of an amount

## Main results

* `Money.of_toPersistence`: an amount is read back from its text
* `isMoneyString_toPersistence_iff`: the texts of the amounts a request can carry
* `money_text_roundTrip`
-/

namespace AccountingApi

open Decimals

/-- The pattern `^\d{1,16}(\.\d{1,4})?$`. -/
def isMoneyString (value : String) : Bool := Numeral.matchesPattern (some 16) 4 value.toList

namespace Money

/-- The decimal places of an amount. -/
def scale : ℕ := 4

/-- The amount of a text, rounded half up to four places. The texts are those with digits on both sides
of the point, if there is one, and without an exponent. -/
def of (amount : String) : Option ℤ := (Numeral.read amount.toList).map (Numeral.amount scale)

/-- The text of an amount, with four places. -/
def toPersistence (a : ℤ) : String := String.ofList (Numeral.ofInt scale a).text

/-- A text with four places and without leading zeros, for the same amount. -/
def normalize (amount : String) : Option String :=
  (Numeral.read amount.toList).map fun n => String.ofList (Numeral.normal scale n).text

section Texts

variable {a : ℤ} {s : String} {n : Numeral}

/-- **An amount is read back** from its text. -/
theorem of_toPersistence (a : ℤ) : of (toPersistence a) = some a := by
  rw [of, toPersistence, String.toList_ofList, Numeral.read_text, Option.map_some,
    Numeral.amount_ofInt]

/-- Different amounts have different texts. -/
theorem toPersistence_injective : Function.Injective toPersistence := fun a b h => by
  have hof : some a = some b := by rw [← of_toPersistence a, h, of_toPersistence]
  exact Option.some.inj hof

/-- The text of the amount of a text with at most four places. -/
theorem toPersistence_amount (h : n.places.length ≤ scale) :
    toPersistence (n.amount scale) = String.ofList (n.normal scale).text := by
  rw [toPersistence, Numeral.ofInt_amount h]

end Texts

end Money

section Patterns

variable {a : ℤ} {s : String}

theorem isMoneyString_iff : isMoneyString s = true ↔ ∃ n, Numeral.read s.toList = some n ∧
    n.negative = false ∧ n.whole.length ≤ 16 ∧ n.places.length ≤ Money.scale := by
  rw [isMoneyString, Numeral.matchesPattern_iff]
  simp only [Option.some.injEq, forall_eq', Money.scale]

/-- A numeral of the pattern holds an amount of the columns. -/
theorem amount_of_pattern {n : Numeral} (hsign : n.negative = false) (hwhole : n.whole.length ≤ 16)
    (hplaces : n.places.length ≤ Money.scale) :
    0 ≤ n.amount Money.scale ∧ Money.Storable (n.amount Money.scale) := by
  have hunit : n.sign = 1 := if_neg (by rw [hsign]; exact Bool.false_ne_true)
  have hvalue : n.value < 10 ^ (n.whole ++ n.places).length := Numeral.ofDigitChars_lt n.digits
  rw [Numeral.amount_of_le hplaces, hunit, one_mul]
  refine ⟨Int.natCast_nonneg _, ?_⟩
  unfold Money.Storable
  rw [Int.natAbs_natCast]
  calc n.value * 10 ^ (Money.scale - n.places.length)
      < 10 ^ (n.whole ++ n.places).length * 10 ^ (Money.scale - n.places.length) :=
        Nat.mul_lt_mul_of_pos_right hvalue (by positivity)
    _ = 10 ^ ((n.whole ++ n.places).length + (Money.scale - n.places.length)) := (pow_add ..).symm
    _ ≤ 10 ^ 20 := by
      apply Nat.pow_le_pow_right (by decide)
      rw [List.length_append]
      unfold Money.scale at hplaces ⊢
      omega

/-- The pattern admits the text of an amount if and only if the amount is not negative and the columns
can hold it. -/
theorem isMoneyString_toPersistence_iff :
    isMoneyString (Money.toPersistence a) = true ↔ 0 ≤ a ∧ Money.Storable a := by
  rw [isMoneyString_iff, Money.toPersistence, String.toList_ofList, Numeral.read_text]
  constructor
  · rintro ⟨n, hn, hsign, hwhole, hplaces⟩
    obtain rfl := Option.some.inj hn
    have hamount := amount_of_pattern hsign hwhole hplaces
    rwa [Numeral.amount_ofInt] at hamount
  · rintro ⟨hnonneg, hstorable⟩
    refine ⟨_, rfl, decide_eq_false (not_lt.mpr hnonneg), ?_, (length_fixedDigits _ _).le⟩
    -- sixteen of the twenty digits stand before the point
    show (Nat.toDigits 10 (a.natAbs / 10 ^ 4)).length ≤ 16
    rw [Nat.length_toDigits_le_iff (by decide) (by decide)]
    unfold Money.Storable at hstorable
    omega

end Patterns

/-- **Texts and amounts**: every amount is read back from its text; what a request can carry are the
amounts that are not negative and fit the columns; and each text a request carries holds one of them,
whose text is the normal form of the one that came in. -/
theorem money_text_roundTrip :
    (∀ a, Money.of (Money.toPersistence a) = some a) ∧
      (∀ a, isMoneyString (Money.toPersistence a) = true ↔ ∃ m : MoneyString, m.amount = a) ∧
      ∀ s, isMoneyString s = true → ∃ m : MoneyString,
        Money.of s = some m.amount ∧ Money.normalize s = some (Money.toPersistence m.amount) := by
  refine ⟨Money.of_toPersistence, fun a => ?_, fun s hs => ?_⟩
  · rw [isMoneyString_toPersistence_iff]
    constructor
    · rintro ⟨hnonneg, hstorable⟩
      exact ⟨⟨a, hnonneg, hstorable⟩, rfl⟩
    · rintro ⟨m, rfl⟩
      exact ⟨m.nonneg, m.storable⟩
  · obtain ⟨n, hread, hsign, hwhole, hplaces⟩ := isMoneyString_iff.mp hs
    obtain ⟨hnonneg, hstorable⟩ := amount_of_pattern hsign hwhole hplaces
    refine ⟨⟨n.amount Money.scale, hnonneg, hstorable⟩, ?_, ?_⟩
    · rw [Money.of, hread, Option.map_some]
    · rw [Money.normalize, hread, Option.map_some, Money.toPersistence_amount hplaces]

end AccountingApi
