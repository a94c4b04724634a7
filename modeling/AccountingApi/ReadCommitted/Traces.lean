import AccountingApi.ReadCommitted.Soundness

/-!
# What a request committed and answered

A request runs along one path through its program. If it has answered, the program can end with this
answer after exactly the transactions the request has committed.

## Main definitions

* `Prog.Ends`: a program can end with a value, having committed the given transactions
* `Server.writesOf`: the transactions a request has committed, the first one first

## Main results

* `Reachable.ends`: the answer of a request and its transactions come from one path
-/

namespace ReadCommitted

variable {K A : Type} [DecidableEq K] [DecidableEq A] {Row : K → Type} {Q E V R : Type}

/-- The program, with `ws` written and not yet committed, can end with `v` and `ws'` not committed after
the transactions `cs`, whatever its statements see. -/
def Prog.Ends {α : Type} : Prog Row A Q E α → List (Write Row) → List (List (Write Row)) → α →
    List (Write Row) → Prop
  | .ret a, ws, cs, v, ws' => a = v ∧ cs = [] ∧ ws' = ws
  | .throw _, _, _, _, _ => False
  | .select _ next, ws, cs, v, ws' => ∃ s, (next s).Ends ws cs v ws'
  | .acquire _ _ next, ws, cs, v, ws' => ∃ s, (next s).Ends ws cs v ws'
  | .put k a next, ws, cs, v, ws' => next.Ends (ws ++ [⟨k, a⟩]) cs v ws'
  | .commit next, ws, cs, v, ws' => ∃ cs', cs = ws :: cs' ∧ next.Ends [] cs' v ws'

/-- The transactions the request `i` has committed, the first one first. -/
def Server.writesOf (s : Server Row A Q E V R) (i : Nat) : List (List (Write Row)) :=
  ((s.history.filter fun c => c.pid = i).map (·.writes)).reverse

/-- The request came this far along a path through its program, committing `cs`. -/
def Proc.Along (code : R → Prog Row A Q E V) (p : Proc Row A Q E V R)
    (cs : List (List (Write Row))) : Prop :=
  match p.phase with
  | .running q => ∀ cs' v ws, q.Ends p.loc.buf cs' v ws → (code p.req).Ends [] (cs ++ cs') v ws
  | .done v => ∃ ws, (code p.req).Ends [] cs v ws
  | .failed _ => True
  | .aborted => True

/-- Every request came this far along a path through its program, and every commit is one of theirs. -/
structure Server.Traced (code : R → Prog Row A Q E V) (s : Server Row A Q E V R) : Prop where
  along : ∀ (i : Nat) (p : Proc Row A Q E V R), s.procs[i]? = some p → p.Along code (s.writesOf i)
  origin : ∀ c ∈ s.history, ∃ p, s.procs[c.pid]? = some p ∧ p.req = c.req

section Step

variable {code : R → Prog Row A Q E V} {s : Server Row A Q E V R} {i : Nat}
  {p p' : Proc Row A Q E V R}

omit [DecidableEq A] in
theorem Server.writesOf_update_some {c : Commit Row A Q R} (hc : c.pid = i) (j : Nat)
    (p' : Proc Row A Q E V R) :
    (s.update i p' (some c)).writesOf j =
      if i = j then s.writesOf j ++ [c.writes] else s.writesOf j := by
  subst hc
  by_cases hij : c.pid = j
  · simp [Server.writesOf, Server.update, hij]
  · simp [Server.writesOf, Server.update, hij]

/-- **One statement** leads further along the path. -/
theorem Proc.Along.step {cs : List (List (Write Row))} (h : p.Along code cs)
    {others : List (List (Held K A))} {db : Store Row} {c : Option (Commit Row A Q R)}
    (hstep : p.step i others db = some (p', c)) :
    p'.req = p.req ∧ (∀ c' ∈ c, c'.pid = i ∧ c'.req = p.req) ∧
      p'.Along code (cs ++ (c.map (·.writes)).toList) := by
  obtain ⟨r, phase, ℓ⟩ := p
  cases phase with
  | running q =>
    cases q with
    | ret v =>
      cases hstep
      exact ⟨rfl, nofun, ℓ.buf, h [] v ℓ.buf ⟨rfl, rfl, rfl⟩⟩
    | throw e =>
      cases hstep
      exact ⟨rfl, nofun, trivial⟩
    | select q next =>
      cases hstep
      refine ⟨rfl, nofun, fun cs' v ws hv => ?_⟩
      rw [Option.map_none, Option.toList_none, List.append_nil]
      exact h cs' v ws ⟨_, hv⟩
    | acquire l m next =>
      simp only [Proc.step] at hstep
      split at hstep
      · cases hstep
        refine ⟨rfl, nofun, fun cs' v ws hv => ?_⟩
        rw [Option.map_none, Option.toList_none, List.append_nil]
        exact h cs' v ws ⟨_, hv⟩
      · cases hstep
    | put k a next =>
      simp only [Proc.step] at hstep
      split at hstep
      · cases hstep
        refine ⟨rfl, nofun, fun cs' v ws hv => ?_⟩
        rw [Option.map_none, Option.toList_none, List.append_nil]
        exact h cs' v ws hv
      · cases hstep
    | commit next =>
      cases hstep
      refine ⟨rfl, ?_, fun cs' v ws hv => ?_⟩
      · rintro _ ⟨⟩
        exact ⟨rfl, rfl⟩
      · rw [Option.map_some, Option.toList_some, List.append_assoc]
        exact h (ℓ.buf :: cs') v ws ⟨cs', rfl, hv⟩
  | done v => cases hstep
  | failed e => cases hstep
  | aborted => cases hstep

omit [DecidableEq A] in
theorem Server.Traced.update (h : s.Traced code) (hi : s.procs[i]? = some p)
    {c : Option (Commit Row A Q R)} (hreq : p'.req = p.req)
    (hc : ∀ c' ∈ c, c'.pid = i ∧ c'.req = p.req)
    (hp' : p'.Along code (s.writesOf i ++ (c.map (·.writes)).toList)) :
    (s.update i p' c).Traced code := by
  have hprocs : (s.update i p' c).procs = s.procs.set i p' := by cases c <;> rfl
  have hwrites : ∀ j, (s.update i p' c).writesOf j =
      if i = j then s.writesOf j ++ (c.map (·.writes)).toList else s.writesOf j := by
    intro j
    cases c with
    | none => simp [Server.writesOf, Server.update]
    | some c => exact Server.writesOf_update_some (hc c rfl).1 j p'
  have hrest : ∀ c ∈ s.history, ∃ p₂, (s.procs.set i p')[c.pid]? = some p₂ ∧ p₂.req = c.req := by
    intro c hmem
    obtain ⟨p₂, hp₂, hreq₂⟩ := h.origin c hmem
    by_cases hij : i = c.pid
    · subst hij
      obtain rfl : p = p₂ := Option.some.inj (hi ▸ hp₂)
      exact ⟨p', List.getElem?_set_self (List.getElem?_eq_some_iff.mp hi).1, hreq.trans hreq₂⟩
    · exact ⟨p₂, by rw [List.getElem?_set_ne hij, hp₂], hreq₂⟩
  refine ⟨fun j p₂ hj => ?_, fun c' hmem => ?_⟩
  · rw [hprocs] at hj
    rw [hwrites]
    by_cases hij : i = j
    · subst hij
      rw [List.getElem?_set_self (List.getElem?_eq_some_iff.mp hi).1] at hj
      cases hj
      rwa [if_pos rfl]
    · rw [List.getElem?_set_ne hij] at hj
      rw [if_neg hij]
      exact h.along j p₂ hj
  · rw [hprocs]
    cases c with
    | none => exact hrest c' hmem
    | some c =>
      rcases List.mem_cons.mp hmem with rfl | hmem
      · obtain ⟨hpid, hreq'⟩ := hc c' rfl
        rw [hpid]
        exact ⟨p', List.getElem?_set_self (List.getElem?_eq_some_iff.mp hi).1, hreq.trans hreq'.symm⟩
      · exact hrest c' hmem

end Step

variable {code : R → Prog Row A Q E V} {policy : Policy Row A Q E V R} {db₀ : Store Row}
  {s : Server Row A Q E V R}

/-- Every request of a reachable server is on a path through its program. -/
theorem Reachable.traced (h : Reachable code policy db₀ s) : s.Traced code := by
  induction h with
  | start => exact ⟨fun _ _ hp => by simp [Server.start] at hp, fun _ hc => absurd hc List.not_mem_nil⟩
  | @next s s' e _ _ hnext ih =>
    cases e with
    | spawn r =>
      cases hnext
      refine ⟨fun i p hp => ?_, fun c hc => ?_⟩
      · rw [List.getElem?_append] at hp
        split at hp
        · exact ih.along i p hp
        · rename_i hi
          obtain rfl := List.mem_singleton.mp (List.mem_of_getElem? hp)
          -- nobody has committed under the number of the new request
          have hnone : s.history.filter (fun c => c.pid = i) = [] := by
            refine List.filter_eq_nil_iff.mpr fun c hc hpid => ?_
            obtain ⟨p', hp', -⟩ := ih.origin c hc
            obtain rfl := of_decide_eq_true hpid
            exact hi (List.getElem?_eq_some_iff.mp hp').1
          intro cs' v ws hv
          have hwrites : Server.writesOf ({ s with procs := s.procs ++ [⟨r, .running (code r), {}⟩] } :
              Server Row A Q E V R) i = [] := by
            simp only [Server.writesOf, hnone, List.map_nil, List.reverse_nil]
          rw [hwrites]
          exact hv
      · obtain ⟨p, hp, hreq⟩ := ih.origin c hc
        exact ⟨p, by rw [List.getElem?_append_left (List.getElem?_eq_some_iff.mp hp).1, hp], hreq⟩
    | step i =>
      simp only [Server.next, Option.bind_eq_bind, Option.bind_eq_some_iff] at hnext
      obtain ⟨p, hi, ⟨p', c⟩, hstep, hs'⟩ := hnext
      cases hs'
      obtain ⟨hreq, hc, hp'⟩ := (ih.along i p hi).step hstep
      exact ih.update hi hreq hc hp'
    | abort i =>
      simp only [Server.next, Option.bind_eq_bind, Option.bind_eq_some_iff] at hnext
      obtain ⟨p, hi, p', habort, hs'⟩ := hnext
      cases hs'
      obtain ⟨r, phase, ℓ⟩ := p
      cases phase with
      | running q =>
        cases habort
        exact ih.update hi rfl (fun _ hc => by cases hc) trivial
      | done v => cases habort
      | failed e => cases habort
      | aborted => cases habort

/-- **The answer of a request and the transactions it has committed** come from one path through its
program. -/
theorem Reachable.ends (h : Reachable code policy db₀ s) {i : Nat} {p : Proc Row A Q E V R} {v : V}
    (hi : s.procs[i]? = some p) (hv : p.phase = .done v) :
    ∃ ws, (code p.req).Ends [] (s.writesOf i) v ws := by
  have halong := h.traced.along i p hi
  rwa [Proc.Along, hv] at halong

/-! ## Paths through composed programs -/

namespace Prog

variable {α β : Type} {ws ws' : List (Write Row)} {cs : List (List (Write Row))}

omit [DecidableEq K] [DecidableEq A] in
theorem ends_bind {p : Prog Row A Q E α} {f : α → Prog Row A Q E β} {b : β} :
    (p.bind f).Ends ws cs b ws' ↔
      ∃ a ws₁ cs₁ cs₂, cs = cs₁ ++ cs₂ ∧ p.Ends ws cs₁ a ws₁ ∧ (f a).Ends ws₁ cs₂ b ws' := by
  induction p generalizing ws cs with
  | ret a =>
    constructor
    · exact fun h => ⟨a, ws, [], cs, rfl, ⟨rfl, rfl, rfl⟩, h⟩
    · rintro ⟨_, _, _, cs₂, rfl, ⟨rfl, rfl, rfl⟩, h⟩
      exact h
  | throw e =>
    constructor
    · exact False.elim
    · rintro ⟨_, _, _, _, -, h, -⟩
      exact h
  | select q next ih =>
    constructor
    · rintro ⟨s, h⟩
      obtain ⟨a, ws₁, cs₁, cs₂, hcs, hp, hf⟩ := (ih s).mp h
      exact ⟨a, ws₁, cs₁, cs₂, hcs, ⟨s, hp⟩, hf⟩
    · rintro ⟨a, ws₁, cs₁, cs₂, hcs, ⟨s, hp⟩, hf⟩
      exact ⟨s, (ih s).mpr ⟨a, ws₁, cs₁, cs₂, hcs, hp, hf⟩⟩
  | acquire l m next ih =>
    constructor
    · rintro ⟨s, h⟩
      obtain ⟨a, ws₁, cs₁, cs₂, hcs, hp, hf⟩ := (ih s).mp h
      exact ⟨a, ws₁, cs₁, cs₂, hcs, ⟨s, hp⟩, hf⟩
    · rintro ⟨a, ws₁, cs₁, cs₂, hcs, ⟨s, hp⟩, hf⟩
      exact ⟨s, (ih s).mpr ⟨a, ws₁, cs₁, cs₂, hcs, hp, hf⟩⟩
  | put k v next ih => exact ih
  | commit next ih =>
    constructor
    · rintro ⟨cs', rfl, h⟩
      obtain ⟨a, ws₁, cs₁, cs₂, rfl, hp, hf⟩ := ih.mp h
      exact ⟨a, ws₁, ws :: cs₁, cs₂, rfl, ⟨cs₁, rfl, hp⟩, hf⟩
    · rintro ⟨a, ws₁, _, cs₂, rfl, ⟨cs₁, rfl, hp⟩, hf⟩
      exact ⟨cs₁ ++ cs₂, rfl, ih.mpr ⟨a, ws₁, cs₁, cs₂, rfl, hp, hf⟩⟩

omit [DecidableEq K] [DecidableEq A] in
/-- A condition that holds commits and writes nothing. -/
theorem ends_ensure {c : Prop} [Decidable c] {e : E} {u : Unit}
    (h : (ensure c e : Prog Row A Q E Unit).Ends ws cs u ws') : cs = [] ∧ ws' = ws := by
  rw [ensure] at h
  split at h
  · exact h.2
  · exact h.elim

omit [DecidableEq K] [DecidableEq A] in
theorem ends_orThrow {o : Option α} {e : E} {a : α}
    (h : (orThrow o e : Prog Row A Q E α).Ends ws cs a ws') : cs = [] ∧ ws' = ws := by
  cases o with
  | none => exact h.elim
  | some _ => exact h.2

omit [DecidableEq K] [DecidableEq A] in
/-- A transaction commits what its program has written. -/
theorem ends_transaction {p : Prog Row A Q E α} {a : α} :
    p.transaction.Ends ws cs a ws' ↔ ∃ cs₁ ws₁, cs = cs₁ ++ [ws₁] ∧ ws' = [] ∧ p.Ends ws cs₁ a ws₁ := by
  rw [transaction, ends_bind]
  constructor
  · rintro ⟨_, ws₁, cs₁, _, rfl, hp, _, rfl, rfl, rfl, rfl⟩
    exact ⟨cs₁, ws₁, rfl, rfl, hp⟩
  · rintro ⟨cs₁, ws₁, rfl, rfl, hp⟩
    exact ⟨a, ws₁, cs₁, [ws₁], rfl, hp, [], rfl, rfl, rfl, rfl⟩

end Prog

end ReadCommitted
