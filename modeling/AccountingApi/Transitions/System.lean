import Mathlib.Data.List.Basic

/-!
# Transition systems

A system takes an event where it is possible and is then in another state. What an observer sees of
the states may depend on some of the events only: then it sees the same in every run with these events,
whatever the others are.

## Main definitions

* `run`, `runWhile`: a list of events, and one whose events a guard allows
* `Reachable`: the states of the runs whose events a guard allows
* `Unwinds`: what is seen of a state depends on the visible events

## Main results

* `Reachable.invariant`: invariants by induction over the events
* `Unwinds.run_filter`: the invisible events can be left out
* `Unwinds.view_eq`: runs with the same visible events show the same
-/

namespace Transitions

variable {S E O : Type}

/-- A list of events, where all of them are possible. -/
def run (step : S → E → Option S) (s : S) : List E → Option S
  | [] => some s
  | e :: es => (step s e).bind fun s' => run step s' es

/-- A list of events, where all of them are possible and allowed. -/
def runWhile (step : S → E → Option S) (guard : S → E → Prop) [∀ s e, Decidable (guard s e)] (s : S) :
    List E → Option S
  | [] => some s
  | e :: es => if guard s e then (step s e).bind fun s' => runWhile step guard s' es else none

/-- The states of the runs from `s₀` whose events the guard allows. -/
inductive Reachable (step : S → E → Option S) (guard : S → E → Prop) (s₀ : S) : S → Prop
  | start : Reachable step guard s₀ s₀
  | next {s s' : S} (e : E) : Reachable step guard s₀ s → guard s e → step s e = some s' →
      Reachable step guard s₀ s'

namespace Reachable

variable {step : S → E → Option S} {guard guard' : S → E → Prop} {s₀ s s' : S}

/-- **Invariants by induction over the events.** -/
theorem invariant {I : S → Prop} (h : Reachable step guard s₀ s) (h₀ : I s₀)
    (hstep : ∀ s e s', I s → guard s e → step s e = some s' → I s') : I s := by
  induction h with
  | start => exact h₀
  | next e _ hguard hnext ih => exact hstep _ e _ ih hguard hnext

/-- A guard that allows more. -/
theorem mono (h : Reachable step guard s₀ s) (hguard : ∀ s e, guard s e → guard' s e) :
    Reachable step guard' s₀ s := by
  induction h with
  | start => exact .start
  | next e _ he hnext ih => exact ih.next e (hguard _ e he) hnext

theorem runWhile [∀ s e, Decidable (guard s e)] {es : List E} (h : Reachable step guard s₀ s)
    (hrun : Transitions.runWhile step guard s es = some s') : Reachable step guard s₀ s' := by
  induction es generalizing s with
  | nil =>
    cases hrun
    exact h
  | cons e es ih =>
    rw [Transitions.runWhile] at hrun
    split at hrun
    · rename_i hguard
      obtain ⟨s₁, hnext, hrun⟩ := Option.bind_eq_some_iff.mp hrun
      exact ih (h.next e hguard hnext) hrun
    · cases hrun

end Reachable

/-! ## What an observer sees -/

/-- What is seen of a state depends on what was seen before and on the visible events. -/
structure Unwinds (step : S → E → Option S) (visible : E → Prop) (view : S → O) : Prop where
  hidden : ∀ s e s', ¬ visible e → step s e = some s' → view s' = view s
  shown : ∀ s t e s', visible e → view s = view t → step s e = some s' →
    ∃ t', step t e = some t' ∧ view s' = view t'

namespace Unwinds

variable {step : S → E → Option S} {visible : E → Prop} [DecidablePred visible] {view : S → O}
  {s s' t t' : S} {es es' : List E}

/-- **The invisible events can be left out**: the rest is possible and shows the same. -/
theorem run_filter (h : Unwinds step visible view) (hst : view s = view t)
    (hrun : run step s es = some s') :
    ∃ t', run step t (es.filter fun e => visible e) = some t' ∧ view s' = view t' := by
  induction es generalizing s t with
  | nil =>
    cases hrun
    exact ⟨t, rfl, hst⟩
  | cons e es ih =>
    obtain ⟨s₁, hnext, hrun⟩ := Option.bind_eq_some_iff.mp hrun
    by_cases he : visible e
    · obtain ⟨t₁, hnext', hst₁⟩ := h.shown s t e s₁ he hst hnext
      obtain ⟨t', hrun', hst'⟩ := ih hst₁ hrun
      refine ⟨t', ?_, hst'⟩
      rw [List.filter_cons_of_pos (by simpa using he), run, hnext', Option.bind_some, hrun']
    · rw [List.filter_cons_of_neg (by simpa using he)]
      exact ih ((h.hidden s e s₁ he hnext).trans hst) hrun

/-- **Runs with the same visible events** show the same. -/
theorem view_eq (h : Unwinds step visible view) (hst : view s = view t)
    (hrun : run step s es = some s') (hrun' : run step t es' = some t')
    (hes : es.filter (fun e => visible e) = es'.filter fun e => visible e) :
    view s' = view t' := by
  obtain ⟨u, hu, hsu⟩ := h.run_filter hst hrun
  obtain ⟨u', hu', htu⟩ := h.run_filter rfl hrun'
  rw [hes, hu'] at hu
  cases hu
  exact hsu.trans htu.symm

end Unwinds

end Transitions
