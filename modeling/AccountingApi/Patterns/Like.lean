import Mathlib.Data.List.Infix

/-!
# Patterns

A pattern is a string over an alphabet with three special characters: one that matches any sequence,
one that matches any single character, and one that takes the character after it literally. A pattern
that ends in the last one is malformed.

## Main definitions

* `Wildcards`: the special characters
* `Wildcards.tokens`: a pattern, read
* `Wildcards.like`: the match of a string and a pattern

## Main results

* `matchTokens_map_char_append`: literal characters match a prefix
* `matchTokens_infix_iff`: a literal between two wildcards matches the strings it occurs in
-/

namespace Patterns

/-- The special characters of a pattern. -/
structure Wildcards (α : Type) where
  escape : α
  any : α
  one : α
  escape_ne_any : escape ≠ any
  escape_ne_one : escape ≠ one
  any_ne_one : any ≠ one

/-- What a pattern consists of. -/
inductive Token (α : Type)
  | char (a : α)
  | any
  | one
deriving DecidableEq

variable {α : Type} [DecidableEq α]

namespace Wildcards

variable (w : Wildcards α)

/-- The character is special. -/
def IsSpecial (a : α) : Prop := a = w.escape ∨ a = w.any ∨ a = w.one

instance (a : α) : Decidable (w.IsSpecial a) := inferInstanceAs (Decidable (_ ∨ _))

/-- What a character that is not escaped means. -/
def token (a : α) : Token α := if a = w.any then .any else if a = w.one then .one else .char a

/-- The tokens of a pattern, unless it ends in the escape character. -/
def tokens : List α → Option (List (Token α))
  | [] => some []
  | a :: p =>
    if a = w.escape then
      match p with
      | [] => none
      | b :: p => (tokens p).map (.char b :: ·)
    else (tokens p).map (w.token a :: ·)

end Wildcards

/-- The string matches the tokens. -/
def matchTokens : List (Token α) → List α → Bool
  | [], s => s.isEmpty
  | .char _ :: _, [] => false
  | .char a :: p, b :: s => a = b && matchTokens p s
  | .one :: _, [] => false
  | .one :: p, _ :: s => matchTokens p s
  | .any :: p, s => s.tails.any (matchTokens p)

/-- The string matches the pattern; there is no answer where the pattern is malformed. -/
def Wildcards.like (w : Wildcards α) (s pattern : List α) : Option Bool :=
  (w.tokens pattern).map (matchTokens · s)

/-! ## Reading a pattern -/

namespace Wildcards

variable (w : Wildcards α) {a : α} (p : List α)

@[simp] theorem tokens_nil : w.tokens [] = some [] := rfl

/-- An escaped character is literal. -/
theorem tokens_escape_cons (a : α) :
    w.tokens (w.escape :: a :: p) = (w.tokens p).map (.char a :: ·) := by
  rw [tokens, if_pos rfl]

/-- So is one that is not special. -/
theorem tokens_cons_of_not_special (h : ¬ w.IsSpecial a) :
    w.tokens (a :: p) = (w.tokens p).map (.char a :: ·) := by
  simp only [IsSpecial, not_or] at h
  obtain ⟨hescape, hany, hone⟩ := h
  rw [tokens.eq_def]
  simp only [if_neg hescape, token, if_neg hany, if_neg hone]

theorem tokens_any_cons : w.tokens (w.any :: p) = (w.tokens p).map (.any :: ·) := by
  rw [tokens.eq_def]
  simp only [if_neg w.escape_ne_any.symm, token, if_true]

end Wildcards

/-! ## Matching -/

section Matching

variable {p : List (Token α)} {q s : List α}

theorem matchTokens_any_cons :
    matchTokens (.any :: p) s = true ↔ ∃ t, t <:+ s ∧ matchTokens p t = true := by
  simp only [matchTokens, List.any_eq_true, List.mem_tails]

/-- The wildcard alone matches every string. -/
theorem matchTokens_any : matchTokens [.any] s = true :=
  matchTokens_any_cons.mpr ⟨[], List.nil_suffix, rfl⟩

/-- **Literal characters** match a prefix of the string. -/
theorem matchTokens_map_char_append :
    matchTokens (q.map .char ++ p) s = true ↔ ∃ t, s = q ++ t ∧ matchTokens p t = true := by
  induction q generalizing s with
  | nil => simp
  | cons a q ih =>
    cases s with
    | nil => simp [matchTokens]
    | cons b s =>
      simp only [List.map_cons, List.cons_append, matchTokens, Bool.and_eq_true, decide_eq_true_eq,
        ih, List.cons.injEq]
      constructor
      · rintro ⟨rfl, t, rfl, ht⟩
        exact ⟨t, ⟨rfl, rfl⟩, ht⟩
      · rintro ⟨t, ⟨rfl, rfl⟩, ht⟩
        exact ⟨rfl, t, rfl, ht⟩

/-- **A literal between two wildcards** matches the strings it occurs in. -/
theorem matchTokens_infix_iff :
    matchTokens (.any :: (q.map .char ++ [.any])) s = true ↔ q <:+: s := by
  rw [matchTokens_any_cons, List.infix_iff_prefix_suffix]
  constructor
  · rintro ⟨t, hsuffix, ht⟩
    obtain ⟨u, rfl, -⟩ := matchTokens_map_char_append.mp ht
    exact ⟨q ++ u, List.prefix_append q u, hsuffix⟩
  · rintro ⟨t, ⟨u, rfl⟩, hsuffix⟩
    exact ⟨q ++ u, hsuffix, matchTokens_map_char_append.mpr ⟨u, rfl, matchTokens_any⟩⟩

end Matching

end Patterns
