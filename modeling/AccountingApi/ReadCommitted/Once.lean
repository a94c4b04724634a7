import AccountingApi.ReadCommitted.Deadlock
import AccountingApi.ReadCommitted.Serial

/-!
# Requests that commit once

Where no program commits more than one transaction, every request has one commit at most, in any
interleaving.

## Main definitions

* `Server.Once`: every request of the server has one commit at most

## Main results

* `Server.next_running`: an event is about a new request or about one that runs
* `Reachable.once`: every server reached is so
-/

namespace ReadCommitted

variable {K A : Type} {Row : K → Type} {Q E V R : Type} [DecidableEq K] [DecidableEq A]
  {code : R → Prog Row A Q E V} {policy : Policy Row A Q E V R} {db₀ : Store Row}
  {s s' : Server Row A Q E V R} {p p' : Proc Row A Q E V R} {pid : ℕ}
  {others : List (List (Held K A))} {db : Store Row} {c : Option (Commit Row A Q R)}

/-- The request may still commit, if it has not yet, and then no more. -/
def Proc.Once (p : Proc Row A Q E V R) : Prop :=
  ∀ q, p.phase = .running q → q.CommitsAtMost (if p.loc.published then 0 else 1)

/-- What a statement does: the request has run, stays what it is and keeps its number of commits, but
for the commit of the statement. -/
structure Proc.Advances (pid : ℕ) (p p' : Proc Row A Q E V R) (c : Option (Commit Row A Q R)) :
    Prop where
  running : p.phase.isRunning = true
  req : p'.req = p.req
  once : p.Once → p'.Once
  published : p'.loc.published = (p.loc.published || c.isSome)
  commit : ∀ c' ∈ c, c'.pid = pid ∧ c'.req = p.req ∧ (p.Once → p.loc.published = false)

/-- **One statement.** -/
theorem Proc.advances_of_step (h : p.step pid others db = some (p', c)) :
    p.Advances pid p' c := by
  obtain ⟨r, phase, ℓ⟩ := p
  cases phase with
  | running q =>
    cases q with
    | ret v =>
      cases h
      exact ⟨rfl, rfl, fun _ => nofun, (Bool.or_false _).symm, nofun⟩
    | throw e =>
      cases h
      exact ⟨rfl, rfl, fun _ => nofun, (Bool.or_false _).symm, nofun⟩
    | select q next =>
      cases h
      refine ⟨rfl, rfl, fun honce => ?_, (Bool.or_false _).symm, nofun⟩
      rintro _ ⟨⟩
      exact honce _ rfl _
    | acquire l m next =>
      simp only [Proc.step] at h
      split at h
      · cases h
        refine ⟨rfl, rfl, fun honce => ?_, (Bool.or_false _).symm, nofun⟩
        rintro _ ⟨⟩
        exact honce _ rfl _
      · cases h
    | put k v next =>
      simp only [Proc.step] at h
      split at h
      · cases h
        refine ⟨rfl, rfl, fun honce => ?_, (Bool.or_false _).symm, nofun⟩
        rintro _ ⟨⟩
        exact honce (.put k v next) rfl
      · cases h
    | commit next =>
      cases h
      -- a request that has committed before has no commit left
      have hfirst : Proc.Once (⟨r, .running (.commit next), ℓ⟩ : Proc Row A Q E V R) →
          ℓ.published = false ∧ next.CommitsAtMost 0 := by
        intro honce
        have hcommits := honce _ rfl
        cases hpub : ℓ.published with
        | true =>
          simp only [hpub, if_true] at hcommits
          exact hcommits.elim
        | false =>
          simp only [hpub] at hcommits
          exact ⟨rfl, hcommits⟩
      refine ⟨rfl, rfl, fun honce => ?_, (Bool.or_true _).symm, ?_⟩
      · rintro _ ⟨⟩
        exact (hfirst honce).2
      · rintro _ ⟨⟩
        exact ⟨rfl, rfl, fun honce => (hfirst honce).1⟩
  | done v => cases h
  | failed e => cases h
  | aborted => cases h

omit [DecidableEq K] [DecidableEq A] in
theorem Proc.advances_of_abort (h : p.abort = some p') : p.Advances pid p' none := by
  obtain ⟨r, phase, ℓ⟩ := p
  cases phase with
  | running q =>
    cases h
    exact ⟨rfl, rfl, fun _ => nofun, (Bool.or_false _).symm, nofun⟩
  | done v => cases h
  | failed e => cases h
  | aborted => cases h

/-- **What an event does**: a request comes in, or one that runs goes on. -/
theorem Server.next_running {e : Event R} (h : s.next code e = some s') :
    (∃ r, e = .spawn r ∧ s' = { s with procs := s.procs ++ [⟨r, .running (code r), {}⟩] }) ∨
      ∃ pid p p' c, s.procs[pid]? = some p ∧ p.Advances pid p' c ∧ s' = s.update pid p' c := by
  cases e with
  | spawn r =>
    cases h
    exact .inl ⟨r, rfl, rfl⟩
  | step pid =>
    obtain ⟨p, hp, h⟩ := Option.bind_eq_some_iff.mp h
    obtain ⟨⟨p', c⟩, hstep, h⟩ := Option.bind_eq_some_iff.mp h
    cases h
    exact .inr ⟨pid, p, p', c, hp, Proc.advances_of_step hstep, rfl⟩
  | abort pid =>
    obtain ⟨p, hp, h⟩ := Option.bind_eq_some_iff.mp h
    obtain ⟨p', habort, h⟩ := Option.bind_eq_some_iff.mp h
    cases h
    exact .inr ⟨pid, p, p', none, hp, Proc.advances_of_abort habort, rfl⟩

omit [DecidableEq A] in
theorem Server.history_update (s : Server Row A Q E V R) :
    (s.update pid p' c).history = c.toList ++ s.history := by cases c <;> rfl

/-- No request has two commits, and every commit is one of a request that has committed. -/
structure Server.Once (s : Server Row A Q E V R) : Prop where
  procs : ∀ p ∈ s.procs, p.Once
  origin : ∀ c ∈ s.history, ∃ p, s.procs[c.pid]? = some p ∧ p.req = c.req ∧ p.loc.published = true
  apart : s.history.Pairwise fun c c' => c.pid ≠ c'.pid

omit [DecidableEq A] in
/-- The request that runs becomes `p'`, with its commit if there was one. -/
theorem Server.Once.update (h : s.Once) (hp : s.procs[pid]? = some p) (ha : p.Advances pid p' c) :
    (s.update pid p' c).Once := by
  have hlt := (List.getElem?_eq_some_iff.mp hp).1
  have honce := h.procs p (List.mem_of_getElem? hp)
  have hself : (s.procs.set pid p')[pid]? = some p' := List.getElem?_set_self hlt
  refine ⟨?_, ?_, ?_⟩
  · rw [Server.procs_update]
    intro q hq
    rcases List.mem_or_eq_of_mem_set hq with hq | rfl
    · exact h.procs q hq
    · exact ha.once honce
  · rw [Server.procs_update, Server.history_update]
    intro c' hc'
    rcases List.mem_append.mp hc' with hc' | hc'
    · obtain ⟨hpid, hreq, -⟩ := ha.commit c' (Option.mem_toList.mp hc')
      refine ⟨p', by rw [hpid, hself], ha.req.trans hreq.symm, ?_⟩
      rw [ha.published, Option.isSome_of_mem (Option.mem_toList.mp hc'), Bool.or_true]
    · obtain ⟨q, hq, hreq, hpub⟩ := h.origin c' hc'
      by_cases hpid : pid = c'.pid
      · subst hpid
        obtain rfl : p = q := Option.some.inj (hp.symm.trans hq)
        exact ⟨p', hself, ha.req.trans hreq, by rw [ha.published, hpub, Bool.true_or]⟩
      · exact ⟨q, by rw [List.getElem?_set_ne hpid, hq], hreq, hpub⟩
  · rw [Server.history_update]
    refine List.pairwise_append.mpr ⟨?_, h.apart, ?_⟩
    · cases c with
      | none => exact .nil
      | some c => exact List.pairwise_singleton _ _
    · intro c' hc' c₂ hc₂ heq
      obtain ⟨hpid, -, hpub⟩ := ha.commit c' (Option.mem_toList.mp hc')
      -- the request of the earlier commit would have committed already
      obtain ⟨q, hq, -, hq'⟩ := h.origin c₂ hc₂
      rw [← heq, hpid, hp] at hq
      cases hq
      rw [hpub honce] at hq'
      cases hq'

/-- **Every request has one commit at most**, in every run of programs that commit once at most. -/
theorem Reachable.once (h : Reachable code policy db₀ s) (hcode : ∀ r, (code r).CommitsAtMost 1) :
    s.Once := by
  induction h with
  | start => exact ⟨nofun, nofun, .nil⟩
  | @next s s' e _ _ hnext ih =>
    rcases Server.next_running hnext with ⟨r, rfl, rfl⟩ | ⟨pid, p, p', c, hp, ha, rfl⟩
    · refine ⟨fun q hq => ?_, fun c hc => ?_, ih.apart⟩
      · rcases List.mem_append.mp hq with hq | hq
        · exact ih.procs q hq
        · obtain rfl := List.mem_singleton.mp hq
          rintro _ ⟨⟩
          exact hcode r
      · obtain ⟨q, hq, hreq⟩ := ih.origin c hc
        exact ⟨q, by rw [List.getElem?_append_left (List.getElem?_eq_some_iff.mp hq).1, hq], hreq⟩
    · exact ih.update hp ha

end ReadCommitted
