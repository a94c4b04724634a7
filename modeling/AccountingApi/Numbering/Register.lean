import Mathlib.Logic.Function.Basic
import Mathlib.Logic.Relation
import Mathlib.Data.Nat.Init

/-!
# Gapless numbering

A register assigns numbers from counters: an index without a number draws the next one of a counter,
which then moves on. The numbers drawn from a counter are exactly `1, …, n`, each by one index.

## Main definitions

* `Register`: who has which number, and where the counters stand
* `Register.draw`, `Draws`: a number is drawn, and any number of them
* `Register.Gapless`: the numbers of a counter are `1, …, n`

## Main results

* `Draws.gapless`: drawing keeps every counter gapless
* `Draws.number_kept`, `Draws.lt_of_new`: a number is kept, and one drawn later is greater
-/

namespace Numbering

open Function Relation

variable {ι σ : Type} [DecidableEq ι] [DecidableEq σ]

/-- The numbers given to indices, each from a counter, and the next number of every counter; a counter
no number was drawn from does not exist. -/
structure Register (ι σ : Type) where
  number : ι → Option (σ × ℕ)
  next : σ → Option ℕ

namespace Register

/-- The number the next draw from a counter gives. -/
def upcoming (r : Register ι σ) (s : σ) : ℕ := (r.next s).getD 1

/-- The index draws the next number of a counter. -/
def draw (r : Register ι σ) (i : ι) (s : σ) : Register ι σ where
  number := update r.number i (some (s, r.upcoming s))
  next := update r.next s (some (r.upcoming s + 1))

theorem draw_eq {r : Register ι σ} {i : ι} {s : σ} {n : ℕ}
    (h : r.upcoming s = n) :
    r.draw i s = ⟨update r.number i (some (s, n)), update r.next s (some (n + 1))⟩ := by
  rw [draw, h]

/-- A draw from another counter changes neither. -/
theorem upcoming_draw_of_ne (r : Register ι σ) (i : ι) {s t : σ} (h : t ≠ s) :
    (r.draw i s).upcoming t = r.upcoming t :=
  congrArg (Option.getD · 1) (update_of_ne h _ _)

theorem number_draw_of_ne (r : Register ι σ) {i j : ι} (s : σ) (h : j ≠ i) :
    (r.draw i s).number j = r.number j :=
  update_of_ne h _ _

/-- The numbers drawn from the counter are `1, …, n`, each by one index. -/
structure Gapless (r : Register ι σ) (s : σ) (n : ℕ) : Prop where
  next : r.next s = if n = 0 then none else some (n + 1)
  drawn : ∀ k, (∃ i, r.number i = some (s, k)) ↔ 1 ≤ k ∧ k ≤ n
  unique : ∀ i j k, r.number i = some (s, k) → r.number j = some (s, k) → i = j

end Register

/-- Any number of indices without a number draw one, in any order. -/
abbrev Draws : Register ι σ → Register ι σ → Prop :=
  ReflTransGen fun r r' => ∃ i s, r.number i = none ∧ r' = r.draw i s

section Gapless

variable {r r' : Register ι σ} {i : ι} {s t : σ} {n : ℕ}

omit [DecidableEq ι] [DecidableEq σ] in
theorem Register.Gapless.upcoming (h : r.Gapless s n) : r.upcoming s = n + 1 := by
  rw [Register.upcoming, h.next]
  split
  · subst_vars
    rfl
  · rfl

theorem Register.draw_number_eq (hi : r.number i = none) {j : ι} {k : ℕ} :
    (r.draw i s).number j = some (t, k) ↔
      r.number j = some (t, k) ∨ j = i ∧ s = t ∧ r.upcoming s = k := by
  by_cases hj : j = i
  · subst hj
    simp [Register.draw, hi]
  · simp [Register.draw, hj]

/-- A counter nothing is drawn from stays gapless. -/
theorem Register.Gapless.draw_of_ne (h : r.Gapless t n) (hi : r.number i = none) (hst : s ≠ t) :
    (r.draw i s).Gapless t n where
  next := (update_of_ne hst.symm _ _).trans h.next
  drawn := fun k => by simp only [draw_number_eq hi, hst, false_and, and_false, or_false, h.drawn]
  unique := fun j j' k hj hj' => by
    simp only [draw_number_eq hi, hst, false_and, and_false, or_false] at hj hj'
    exact h.unique j j' k hj hj'

/-- The counter a number is drawn from is gapless with one number more. -/
theorem Register.Gapless.draw_self (h : r.Gapless s n) (hi : r.number i = none) :
    (r.draw i s).Gapless s (n + 1) where
  next := (update_self ..).trans (by rw [h.upcoming, if_neg n.succ_ne_zero])
  drawn := fun k => by
    simp only [draw_number_eq hi, exists_or, h.drawn, h.upcoming, true_and, exists_and_right,
      exists_eq]
    omega
  unique := fun j j' k hj hj' => by
    rw [draw_number_eq hi, h.upcoming] at hj hj'
    have hle : ∀ x, r.number x = some (s, k) → k ≤ n := fun x hx => ((h.drawn k).mp ⟨x, hx⟩).2
    rcases hj with hj | ⟨rfl, -, hk⟩ <;> rcases hj' with hj' | ⟨rfl, -, hk'⟩
    · exact h.unique j j' k hj hj'
    · have := hle j hj
      omega
    · have := hle j' hj'
      omega
    · rfl

/-- **Drawing keeps every counter gapless.** -/
theorem Draws.gapless (h : Draws r r') (hr : ∀ s, ∃ n, r.Gapless s n) : ∀ s, ∃ n, r'.Gapless s n := by
  induction h with
  | refl => exact hr
  | tail _ hstep ih =>
    obtain ⟨i, s, hi, rfl⟩ := hstep
    intro t
    obtain ⟨n, hn⟩ := ih t
    by_cases hst : s = t
    · subst hst
      exact ⟨n + 1, hn.draw_self hi⟩
    · exact ⟨n, hn.draw_of_ne hi hst⟩

/-- A number that is drawn is kept. -/
theorem Draws.number_kept (h : Draws r r') {x : σ × ℕ} (hi : r.number i = some x) :
    r'.number i = some x := by
  induction h with
  | refl => exact hi
  | tail _ hstep ih =>
    obtain ⟨j, t, hj, rfl⟩ := hstep
    have hne : i ≠ j := by
      rintro rfl
      rw [ih] at hj
      cases hj
    rw [Register.number_draw_of_ne _ t hne, ih]

/-- **A number drawn later is greater** than every one drawn before from the same counter. -/
theorem Draws.lt_of_new (h : Draws r r') (hr : ∀ s, ∃ n, r.Gapless s n) {j : ι} {k k' : ℕ}
    (hi : r.number i = some (s, k)) (hj : r'.number j = some (s, k')) (hnew : r.number j = none) :
    k < k' := by
  obtain ⟨n, hn⟩ := hr s
  obtain ⟨n', hn'⟩ := h.gapless hr s
  obtain ⟨-, hk⟩ := (hn.drawn k).mp ⟨i, hi⟩
  obtain ⟨hpos, -⟩ := (hn'.drawn k').mp ⟨j, hj⟩
  refine Nat.lt_of_le_of_lt hk (Nat.lt_of_not_le fun hle => ?_)
  -- otherwise the number would have been drawn before, and by another index
  obtain ⟨i', hi'⟩ := (hn.drawn k').mpr ⟨hpos, hle⟩
  obtain rfl : i' = j := hn'.unique i' j k' (h.number_kept hi') hj
  rw [hnew] at hi'
  cases hi'

end Gapless

end Numbering
