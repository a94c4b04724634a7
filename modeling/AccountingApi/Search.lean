import AccountingApi.Patterns.Like
import Mathlib.Algebra.Order.Ring.Rat
import Mathlib.Order.WithBot
import Mathlib.Tactic.Common

/-!
# Search

A search term matches a column that contains it or is similar to it. It is escaped before it is put
between two wildcards, so that its own characters are literal.

## Main definitions

* `trim`, `utf16Length`: strings as JavaScript trims and measures them
* `escapeLikePattern`
* `TextFunctions`: what the database compares strings by
* `TextFunctions.matchesTerm`, `TextFunctions.rank`: the rows a term finds, and how well

## Main results

* `like_escapeLikePattern`: an escaped term between wildcards matches what contains it
* `escapeLikePattern_injective`
-/

namespace AccountingApi

open Patterns

/-! ## Escaping -/

section Escape

variable {α : Type} [DecidableEq α]

/-- The term with an escape character before each special one. -/
def escapeLikePattern (w : Wildcards α) (q : List α) : List α :=
  q.flatMap fun a => if w.IsSpecial a then [w.escape, a] else [a]

/-- The special characters of the database. -/
def sqlWildcards : Wildcards Char := ⟨'\\', '%', '_', by decide, by decide, by decide⟩

variable (w : Wildcards α) {a : α} {q : List α}

@[simp] theorem escapeLikePattern_nil : escapeLikePattern w [] = [] := rfl

theorem escapeLikePattern_cons_of_special (h : w.IsSpecial a) :
    escapeLikePattern w (a :: q) = w.escape :: a :: escapeLikePattern w q := by
  rw [escapeLikePattern, List.flatMap_cons, if_pos h]
  rfl

theorem escapeLikePattern_cons_of_not_special (h : ¬ w.IsSpecial a) :
    escapeLikePattern w (a :: q) = a :: escapeLikePattern w q := by
  rw [escapeLikePattern, List.flatMap_cons, if_neg h]
  rfl

/-- All characters of an escaped term are literal. -/
theorem tokens_escapeLikePattern_append (q p : List α) :
    w.tokens (escapeLikePattern w q ++ p) = (w.tokens p).map (q.map .char ++ ·) := by
  induction q with
  | nil => simp
  | cons a q ih =>
    by_cases h : w.IsSpecial a
    · rw [escapeLikePattern_cons_of_special w h, List.cons_append, List.cons_append,
        w.tokens_escape_cons, ih, Option.map_map]
      rfl
    · rw [escapeLikePattern_cons_of_not_special w h, List.cons_append,
        w.tokens_cons_of_not_special _ h, ih, Option.map_map]
      rfl

theorem tokens_escapeLikePattern (q : List α) :
    w.tokens (escapeLikePattern w q) = some (q.map .char) := by
  have h := tokens_escapeLikePattern_append w q []
  rwa [List.append_nil, w.tokens_nil, Option.map_some, List.append_nil] at h

/-- **An escaped term between two wildcards** matches exactly the strings that contain the term. -/
theorem like_escapeLikePattern (q s : List α) :
    w.like s (w.any :: (escapeLikePattern w q ++ [w.any])) = some (decide (q <:+: s)) := by
  rw [Wildcards.like, w.tokens_any_cons, tokens_escapeLikePattern_append, w.tokens_any_cons,
    w.tokens_nil]
  simp only [Option.map_some, Option.some.injEq]
  have hmatch := @matchTokens_infix_iff α _ q s
  exact Bool.eq_iff_iff.mpr (hmatch.trans decide_eq_true_iff.symm)

/-- A term can be read off its escaped form. -/
theorem escapeLikePattern_injective : Function.Injective (escapeLikePattern w) := by
  intro q q' h
  have htokens := congrArg w.tokens h
  rw [tokens_escapeLikePattern, tokens_escapeLikePattern, Option.some.injEq] at htokens
  exact List.map_injective_iff.mpr (fun a b hab => Token.char.inj hab) htokens

/-- **Escaping a term** makes the pattern between wildcards match the strings that contain the term, and
keeps terms apart. -/
theorem escapeLikePattern_spec :
    (∀ q s : List α, w.like s (w.any :: (escapeLikePattern w q ++ [w.any])) = some true ↔ q <:+: s) ∧
      Function.Injective (escapeLikePattern w) := by
  refine ⟨fun q s => ?_, escapeLikePattern_injective w⟩
  rw [like_escapeLikePattern, Option.some.injEq, decide_eq_true_iff]

end Escape

example : escapeLikePattern sqlWildcards "CUST_001".toList = "CUST\\_001".toList := by decide

/-! ## Search terms -/

/-- What `trim` takes off the ends of a string. -/
def isWhiteSpace (c : Char) : Bool :=
  c.toNat ∈ [0x09, 0x0A, 0x0B, 0x0C, 0x0D, 0x20, 0xA0, 0x1680, 0x2028, 0x2029, 0x202F, 0x205F, 0x3000,
      0xFEFF] ||
    (0x2000 ≤ c.toNat && c.toNat ≤ 0x200A)

def trim (s : String) : String :=
  String.ofList (((s.toList.dropWhile isWhiteSpace).reverse.dropWhile isWhiteSpace).reverse)

/-- The length in UTF-16 code units. -/
def utf16Length (s : String) : ℕ :=
  s.toList.foldl (fun n c => if c.toNat < 0x10000 then n + 1 else n + 2) 0

/-- The length of a trimmed term from which on it is searched for. -/
def minQueryLength : ℕ := 2

/-- The similarity above which a column matches a term it does not contain. -/
def similarityThreshold : ℚ := 3 / 10

/-- What the database compares strings by: the case of a character folded, and the similarity of two
strings by the trigrams they share. -/
structure TextFunctions where
  fold : Char → Char
  similarity : String → String → ℚ

namespace TextFunctions

variable (text : TextFunctions)

/-- `ILIKE`, on a pattern that is well formed. -/
def ilike (s pattern : String) : Bool :=
  sqlWildcards.like (s.toList.map text.fold) (pattern.toList.map text.fold) = some true

/-- The term between two wildcards. -/
def likePattern (q : String) : String :=
  String.ofList ('%' :: (escapeLikePattern sqlWildcards q.toList ++ ['%']))

/-- Some column contains the term or is similar to it; one without a value is not. -/
def matchesTerm (q : String) (columns : List (Option String)) : Bool :=
  columns.any fun column => column.any fun s =>
    text.ilike s (likePattern q) || similarityThreshold < text.similarity s q

/-- The greatest similarity of a column that has a value. -/
def rank (q : String) (columns : List (Option String)) : WithBot ℚ :=
  (columns.filterMap id).foldr (fun s best => max ↑(text.similarity s q) best) ⊥

end TextFunctions

end AccountingApi
