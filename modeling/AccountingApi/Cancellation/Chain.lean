import Mathlib.Algebra.BigOperators.Group.Finset.Basic
import Mathlib.Algebra.Group.Nat.Even

/-!
# Chains of cancellations

An item may be cancelled by another one, which has the opposite value and may be cancelled in turn.
An item stands when the chain of cancellations that starts at it has even length. Summing all items
is then the same as summing those that cancel nothing and stand.

## Main definitions

* `Length next i n`: the chain of cancellations that starts at `i` has length `n`
* `Stands next i`: that length is even

## Main results

* `stands_iff_not`: an item stands if and only if what cancels it does not
* `sum_eq_sum_standing`: the sum over the items that cancel nothing and stand
-/

namespace Cancellation

section Chain

variable {ι : Type} {next : ι → Option ι} {i j : ι} {m n : ℕ}

/-- The chain of cancellations that starts at an item has the given length. -/
inductive Length (next : ι → Option ι) : ι → ℕ → Prop
  | last {i : ι} : next i = none → Length next i 0
  | cons {i j : ι} {n : ℕ} : next i = some j → Length next j n → Length next i (n + 1)

/-- The item stands: it is cancelled an even number of times. -/
def Stands (next : ι → Option ι) (i : ι) : Prop := ∃ n, Length next i n ∧ Even n

theorem Length.unique (h : Length next i m) (h' : Length next i n) : m = n := by
  induction h generalizing n with
  | last hnone =>
    cases h' with
    | last => rfl
    | cons hsome => rw [hnone] at hsome; cases hsome
  | cons hsome _ ih =>
    cases h' with
    | last hnone => rw [hnone] at hsome; cases hsome
    | cons hsome' h' =>
      obtain rfl := Option.some.inj (hsome.symm.trans hsome')
      rw [ih h']

theorem Length.stands_iff (h : Length next i n) : Stands next i ↔ Even n :=
  ⟨fun ⟨_, hm, heven⟩ => h.unique hm ▸ heven, fun heven => ⟨n, h, heven⟩⟩

/-- What is not cancelled stands. -/
theorem stands_of_none (h : next i = none) : Stands next i := ⟨0, .last h, Even.zero⟩

/-- **An item stands if and only if what cancels it does not.** -/
theorem stands_iff_not (h : next i = some j) (hj : Length next j n) :
    Stands next i ↔ ¬ Stands next j := by
  rw [(Length.cons h hj).stands_iff, hj.stands_iff, Nat.even_add_one]

end Chain

/-! ## Sums -/

section Sum

open scoped Classical

variable {ι M : Type} [AddCommGroup M] {next : ι → Option ι} {s : Finset ι} {value : ι → M}

/-- The value of an item that stands. -/
noncomputable def standing (next : ι → Option ι) (value : ι → M) (i : ι) : M :=
  if Stands next i then value i else 0

/-- What an item that is cancelled lacks is what the cancellation has too much. -/
theorem value_sub_standing {i j : ι} {n : ℕ} (h : next i = some j) (hj : Length next j n)
    (hvalue : value j = -value i) : value i - standing next value i = -standing next value j := by
  unfold standing
  by_cases hstands : Stands next j
  · rw [if_neg fun hi => (stands_iff_not h hj).mp hi hstands, if_pos hstands, hvalue, sub_zero,
      neg_neg]
  · rw [if_pos ((stands_iff_not h hj).mpr hstands), if_neg hstands, sub_self, neg_zero]

/-- The items cancelled in turn, each counted by what cancels it. -/
theorem sum_cancelled (g : ι → M) (hnext : ∀ i ∈ s, ∀ j ∈ next i, j ∈ s)
    (hinj : ∀ i ∈ s, ∀ i' ∈ s, ∀ j ∈ next i, j ∈ next i' → i = i') :
    ∑ i ∈ s, (next i).elim 0 g = ∑ j ∈ s with ∃ i ∈ s, next i = some j, g j := by
  have hsome : ∑ i ∈ s, (next i).elim 0 g = ∑ i ∈ s with next i ≠ none, (next i).elim 0 g := by
    rw [Finset.sum_filter_of_ne]
    intro i _ hne hnone
    rw [hnone] at hne
    exact hne rfl
  rw [hsome]
  refine Finset.sum_bij (fun i hi => (next i).get (Option.ne_none_iff_isSome.mp
    (Finset.mem_filter.mp hi).2)) ?_ ?_ ?_ ?_
  · intro i hi
    obtain ⟨hi, hne⟩ := Finset.mem_filter.mp hi
    have hget := Option.get_mem (Option.ne_none_iff_isSome.mp hne)
    exact Finset.mem_filter.mpr ⟨hnext i hi _ hget, i, hi, hget⟩
  · intro i hi i' hi' heq
    obtain ⟨hi, hne⟩ := Finset.mem_filter.mp hi
    obtain ⟨hi', hne'⟩ := Finset.mem_filter.mp hi'
    refine hinj i hi i' hi' _ (Option.get_mem (Option.ne_none_iff_isSome.mp hne)) ?_
    rw [heq]
    exact Option.get_mem _
  · intro j hj
    obtain ⟨-, i, hi, hij⟩ := Finset.mem_filter.mp hj
    refine ⟨i, Finset.mem_filter.mpr ⟨hi, by rw [hij]; exact nofun⟩, ?_⟩
    simp [hij]
  · intro i hi
    obtain ⟨j, hj⟩ := Option.ne_none_iff_exists'.mp (Finset.mem_filter.mp hi).2
    simp [hj]

/-- **The sum over the items that cancel nothing and stand** is the sum over all items. -/
theorem sum_eq_sum_standing (hends : ∀ i ∈ s, ∃ n, Length next i n)
    (hnext : ∀ i ∈ s, ∀ j ∈ next i, j ∈ s)
    (hinj : ∀ i ∈ s, ∀ i' ∈ s, ∀ j ∈ next i, j ∈ next i' → i = i')
    (hvalue : ∀ i ∈ s, ∀ j ∈ next i, value j = -value i) :
    ∑ i ∈ s, value i =
      ∑ i ∈ s, if (∀ j ∈ s, next j ≠ some i) ∧ Stands next i then value i else 0 := by
  have hrest : ∑ i ∈ s, (value i - standing next value i) =
      -∑ j ∈ s with ∃ i ∈ s, next i = some j, standing next value j := by
    rw [← sum_cancelled _ hnext hinj, ← Finset.sum_neg_distrib]
    refine Finset.sum_congr rfl fun i hi => ?_
    cases hi' : next i with
    | none => rw [standing, if_pos (stands_of_none hi'), sub_self, Option.elim_none, neg_zero]
    | some j =>
      obtain ⟨n, hn⟩ := hends j (hnext i hi j hi')
      exact value_sub_standing hi' hn (hvalue i hi j hi')
  -- those that stand, less those of them that cancel something
  have hsplit := Finset.sum_filter_add_sum_filter_not s (fun j => ∃ i ∈ s, next i = some j)
    (standing next value)
  rw [Finset.sum_sub_distrib] at hrest
  calc ∑ i ∈ s, value i
      = ∑ i ∈ s, standing next value i -
          ∑ j ∈ s with ∃ i ∈ s, next i = some j, standing next value j := by
        rw [sub_eq_add_neg, ← hrest, add_sub_cancel]
    _ = ∑ j ∈ s with ¬ ∃ i ∈ s, next i = some j, standing next value j := by
        rw [← hsplit, add_sub_cancel_left]
    _ = ∑ i ∈ s, if (∀ j ∈ s, next j ≠ some i) ∧ Stands next i then value i else 0 := by
        rw [Finset.sum_filter]
        refine Finset.sum_congr rfl fun i _ => ?_
        simp only [standing, not_exists, not_and, ne_eq, ite_and]

end Sum

end Cancellation
