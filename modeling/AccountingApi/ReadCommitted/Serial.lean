import AccountingApi.ReadCommitted.System

/-!
# Requests one at a time

Where each request comes in when the ones before it have ended, a request that commits at most one
transaction has read nothing but the store its commit finds.

## Main definitions

* `Prog.CommitsAtMost`: how many transactions a program commits
* `Server.Serial`: what holds of a server that admits requests one at a time

## Main results

* `Prog.CommitsAtMost.bind`: the commits of a sequence
* `Reachable.serial`: every server reached is serial
-/

namespace ReadCommitted

variable {K A : Type} {Row : K → Type} {Q E V R : Type}

/-! ## How often a program commits -/

namespace Prog

variable {α β : Type} {m n : ℕ}

/-- The program commits at most `n` transactions. -/
def CommitsAtMost : ℕ → Prog Row A Q E α → Prop
  | _, .ret _ => True
  | _, .throw _ => True
  | n, .select _ next => ∀ db, (next db).CommitsAtMost n
  | n, .acquire _ _ next => ∀ db, (next db).CommitsAtMost n
  | n, .put _ _ next => next.CommitsAtMost n
  | 0, .commit _ => False
  | n + 1, .commit next => next.CommitsAtMost n

theorem CommitsAtMost.mono {p : Prog Row A Q E α} (h : p.CommitsAtMost m) (hmn : m ≤ n) :
    p.CommitsAtMost n := by
  induction p generalizing m n with
  | ret a => trivial
  | throw e => trivial
  | select q next ih => exact fun db => ih db (h db) hmn
  | acquire l mode next ih => exact fun db => ih db (h db) hmn
  | put k v next ih => exact ih h hmn
  | commit next ih =>
    cases m with
    | zero => exact h.elim
    | succ m =>
      cases n with
      | zero => exact absurd hmn (Nat.not_succ_le_zero m)
      | succ n => exact ih h (Nat.le_of_succ_le_succ hmn)

/-- **The commits of a sequence.** -/
theorem CommitsAtMost.bind {p : Prog Row A Q E α} {f : α → Prog Row A Q E β}
    (h : p.CommitsAtMost m) (hf : ∀ a, (f a).CommitsAtMost n) :
    (p.bind f).CommitsAtMost (m + n) := by
  induction p generalizing m with
  | ret a => exact (hf a).mono (Nat.le_add_left n m)
  | throw e => trivial
  | select q next ih => exact fun db => ih db (h db)
  | acquire l mode next ih => exact fun db => ih db (h db)
  | put k v next ih => exact ih h
  | commit next ih =>
    cases m with
    | zero => exact h.elim
    | succ m =>
      rw [Nat.succ_add]
      exact ih h

/-- A program without commits does not count. -/
theorem CommitsAtMost.bind_left {p : Prog Row A Q E α} {f : α → Prog Row A Q E β}
    (h : p.CommitsAtMost 0) (hf : ∀ a, (f a).CommitsAtMost n) : (p.bind f).CommitsAtMost n := by
  have hbind := h.bind hf
  rwa [Nat.zero_add] at hbind

theorem CommitsAtMost.bind_right {p : Prog Row A Q E α} {f : α → Prog Row A Q E β}
    (h : p.CommitsAtMost n) (hf : ∀ a, (f a).CommitsAtMost 0) : (p.bind f).CommitsAtMost n :=
  h.bind hf

theorem CommitsAtMost.mapThrow {p : Prog Row A Q E α} {g : E → E} (h : p.CommitsAtMost n) :
    (p.mapThrow g).CommitsAtMost n := by
  induction p generalizing n with
  | ret a => trivial
  | throw e => trivial
  | select q next ih => exact fun db => ih db (h db)
  | acquire l mode next ih => exact fun db => ih db (h db)
  | put k v next ih => exact ih h
  | commit next ih =>
    cases n with
    | zero => exact h.elim
    | succ n => exact ih h

theorem commitsAtMost_ensure (c : Prop) [Decidable c] (e : E) :
    (ensure c e : Prog Row A Q E _).CommitsAtMost n := by
  unfold ensure
  split <;> trivial

theorem commitsAtMost_when {c : Prop} [Decidable c] {p : Prog Row A Q E Unit}
    (h : p.CommitsAtMost n) : (Prog.when c p).CommitsAtMost n := by
  unfold Prog.when
  split
  · exact h
  · trivial

theorem commitsAtMost_orThrow (o : Option α) (e : E) :
    (orThrow o e : Prog Row A Q E α).CommitsAtMost n := by
  cases o <;> trivial

theorem commitsAtMost_ofExcept (x : Except E α) :
    (ofExcept x : Prog Row A Q E α).CommitsAtMost n := by
  cases x <;> trivial

theorem commitsAtMost_forEach {l : List α} {f : α → Prog Row A Q E Unit}
    (h : ∀ a ∈ l, (f a).CommitsAtMost 0) : (forEach l f).CommitsAtMost 0 := by
  induction l with
  | nil => trivial
  | cons a l ih =>
    exact (h a List.mem_cons_self).bind_left fun _ =>
      ih fun b hb => h b (List.mem_cons_of_mem a hb)

end Prog

/-! ## One request at a time -/

section Serial

variable [DecidableEq K] [DecidableEq A]

/-- What holds of a request while no other one runs: what it has read until its first commit is the
present store, and it commits once at most. -/
structure Proc.Serial (s : Server Row A Q E V R) (i : Nat) (p : Proc Row A Q E V R) : Prop where
  current : p.phase.isRunning = true → p.loc.published = false → ∀ q ∈ p.loc.seen, q.2 = s.db
  once : ∀ q, p.phase = .running q → q.CommitsAtMost (if p.loc.published then 0 else 1)
  silent : p.loc.published = false → ∀ c ∈ s.history, c.pid ≠ i

/-- At most one request runs, every commit has read the store it finds, and no request has two
commits. -/
structure Server.Serial (s : Server Row A Q E V R) : Prop where
  procs : ∀ (i : Nat) (p : Proc Row A Q E V R), s.procs[i]? = some p → p.Serial s i
  single : ∀ (i j : Nat) (p p' : Proc Row A Q E V R), s.procs[i]? = some p →
    s.procs[j]? = some p' → p.phase.isRunning = true → p'.phase.isRunning = true → i = j
  found : ∀ c ∈ s.history, ∀ q ∈ c.seen, q.2 = c.before
  apart : s.history.Pairwise fun c c' => c.pid ≠ c'.pid
  origin : ∀ c ∈ s.history, ∃ p, s.procs[c.pid]? = some p ∧ p.req = c.req

namespace Server.Serial

variable {s : Server Row A Q E V R} {db₀ : Store Row}

omit [DecidableEq K] [DecidableEq A] in
theorem start : (Server.start db₀ : Server Row A Q E V R).Serial where
  procs := nofun
  single := nofun
  found := nofun
  apart := .nil
  origin := nofun

omit [DecidableEq K] [DecidableEq A] in
/-- A request comes in while no other one runs. -/
theorem spawn (h : s.Serial) (hidle : s.Idle) {r : R} {p : Prog Row A Q E V}
    (hp : p.CommitsAtMost 1) :
    Server.Serial { s with procs := s.procs ++ [⟨r, .running p, {}⟩] } where
  procs := by
    intro i p' hp'
    rw [List.getElem?_append] at hp'
    split at hp'
    · obtain ⟨h₁, h₂, h₃⟩ := h.procs i p' hp'
      exact ⟨h₁, h₂, h₃⟩
    · rename_i hi
      obtain rfl := List.mem_singleton.mp (List.mem_of_getElem? hp')
      refine ⟨fun _ _ => nofun, ?_, ?_⟩
      · rintro _ ⟨⟩
        exact hp
      · rintro - c hc rfl
        obtain ⟨p', hp', -⟩ := h.origin c hc
        exact hi (List.getElem?_eq_some_iff.mp hp').1
  single := by
    intro i j p₁ p₂ h₁ h₂ hrun₁ hrun₂
    -- whatever runs is the new request
    have hlast : ∀ (i : Nat) (p' : Proc Row A Q E V R),
        (s.procs ++ [⟨r, .running p, {}⟩])[i]? = some p' → p'.phase.isRunning = true →
        i = s.procs.length := by
      intro i p' hi hrun
      rcases Nat.lt_trichotomy i s.procs.length with hlt | heq | hgt
      · rw [List.getElem?_append_left hlt] at hi
        rw [hidle p' (List.mem_of_getElem? hi)] at hrun
        cases hrun
      · exact heq
      · have hlt := (List.getElem?_eq_some_iff.mp hi).1
        rw [List.length_append, List.length_singleton] at hlt
        omega
    rw [hlast i p₁ h₁ hrun₁, hlast j p₂ h₂ hrun₂]
  found := h.found
  apart := h.apart
  origin := by
    intro c hc
    obtain ⟨p', hp', he⟩ := h.origin c hc
    exact ⟨p', by rw [List.getElem?_append_left (List.getElem?_eq_some_iff.mp hp').1, hp'], he⟩

omit [DecidableEq A] in
/-- The request that runs becomes `p'`, with its commit if there was one. -/
theorem update (h : s.Serial) {i : Nat} {p p' : Proc Row A Q E V R} (hi : s.procs[i]? = some p)
    (hrun : p.phase.isRunning = true) (hreq : p'.req = p.req) {c : Option (Commit Row A Q R)}
    (hp' : p'.Serial (s.update i p' c) i)
    (hc : ∀ c' ∈ c, c'.pid = i ∧ c'.req = p.req ∧ p.loc.published = false ∧
      ∀ q ∈ c'.seen, q.2 = c'.before) : (s.update i p' c).Serial := by
  have hprocs : (s.update i p' c).procs = s.procs.set i p' := by cases c <;> rfl
  have hhistory : (s.update i p' c).history = c.toList ++ s.history := by cases c <;> rfl
  have hlt := (List.getElem?_eq_some_iff.mp hi).1
  refine ⟨?_, ?_, ?_, ?_, ?_⟩
  · intro j p₂ hj
    rw [hprocs] at hj
    by_cases hij : i = j
    · subst hij
      rw [List.getElem?_set_self hlt] at hj
      cases hj
      exact hp'
    · rw [List.getElem?_set_ne hij] at hj
      obtain ⟨-, honce, hsilent⟩ := h.procs j p₂ hj
      refine ⟨fun hrun₂ => absurd (h.single i j p p₂ hi hj hrun hrun₂) hij, honce, ?_⟩
      intro hpub c' hc'
      rw [hhistory] at hc'
      rcases List.mem_append.mp hc' with hc' | hc'
      · rw [(hc c' (Option.mem_toList.mp hc')).1]
        exact hij
      · exact hsilent hpub c' hc'
  · intro j k p₁ p₂ h₁ h₂ hrun₁ hrun₂
    -- a request that runs afterwards is the one that has run before
    have hsame : ∀ (j : Nat) (p₂ : Proc Row A Q E V R), (s.procs.set i p')[j]? = some p₂ →
        p₂.phase.isRunning = true → i = j := by
      intro j p₂ hj hrun₂
      by_contra hij
      rw [List.getElem?_set_ne hij] at hj
      exact hij (h.single i j p p₂ hi hj hrun hrun₂)
    rw [hprocs] at h₁ h₂
    rw [← hsame j p₁ h₁ hrun₁, ← hsame k p₂ h₂ hrun₂]
  · intro c' hc'
    rw [hhistory] at hc'
    rcases List.mem_append.mp hc' with hc' | hc'
    · exact (hc c' (Option.mem_toList.mp hc')).2.2.2
    · exact h.found c' hc'
  · rw [hhistory]
    refine List.pairwise_append.mpr ⟨?_, h.apart, ?_⟩
    · cases c with
      | none => exact .nil
      | some c => exact List.pairwise_singleton _ _
    · intro c' hc' c₂ hc₂
      obtain ⟨hpid, -, hpub, -⟩ := hc c' (Option.mem_toList.mp hc')
      rw [hpid]
      exact ((h.procs i p hi).silent hpub c₂ hc₂).symm
  · intro c' hc'
    rw [hhistory] at hc'
    have hself : (s.update i p' c).procs[i]? = some p' := by
      rw [hprocs, List.getElem?_set_self hlt]
    rcases List.mem_append.mp hc' with hc' | hc'
    · obtain ⟨hpid, hreq', -⟩ := hc c' (Option.mem_toList.mp hc')
      exact ⟨p', hpid ▸ hself, hreq.trans hreq'.symm⟩
    · obtain ⟨p₂, hp₂, he⟩ := h.origin c' hc'
      by_cases hci : i = c'.pid
      · subst hci
        obtain rfl : p = p₂ := Option.some.inj (hi ▸ hp₂)
        exact ⟨p', hself, hreq.trans he⟩
      · exact ⟨p₂, by rw [hprocs, List.getElem?_set_ne hci, hp₂], he⟩

omit [DecidableEq A] in
/-- The request that runs becomes `p'` without a commit. -/
theorem keep (h : s.Serial) {i : Nat} {p p' : Proc Row A Q E V R} (hi : s.procs[i]? = some p)
    (hrun : p.phase.isRunning = true) (hreq : p'.req = p.req) (hp' : p'.Serial s i) :
    (s.update i p' none).Serial :=
  h.update hi hrun hreq ⟨hp'.current, hp'.once, hp'.silent⟩ nofun

/-- **Every statement keeps the server serial.** -/
theorem step (h : s.Serial) {i : Nat} {p p' : Proc Row A Q E V R} (hi : s.procs[i]? = some p)
    {c : Option (Commit Row A Q R)} (hstep : p.step i (s.others i) s.db = some (p', c)) :
    (s.update i p' c).Serial := by
  obtain ⟨r, phase, ℓ⟩ := p
  obtain ⟨hcurrent, honce, hsilent⟩ := h.procs i _ hi
  cases phase with
  | running q =>
    have hseen := hcurrent rfl
    have hcommits := honce q rfl
    cases q with
    | ret v =>
      cases hstep
      refine h.keep hi rfl rfl ?_
      exact ⟨nofun, nofun, hsilent⟩
    | throw e =>
      cases hstep
      refine h.keep hi rfl rfl ?_
      exact ⟨nofun, nofun, hsilent⟩
    | select q next =>
      cases hstep
      refine h.keep hi rfl rfl ⟨fun _ hpub => ?_, ?_, hsilent⟩
      · exact List.forall_mem_cons.mpr ⟨rfl, hseen hpub⟩
      · rintro _ ⟨⟩
        exact hcommits _
    | acquire l m next =>
      simp only [Proc.step] at hstep
      split at hstep
      · cases hstep
        refine h.keep hi rfl rfl ⟨fun _ hpub => hseen hpub, ?_, hsilent⟩
        rintro _ ⟨⟩
        exact hcommits _
      · cases hstep
    | put k v next =>
      simp only [Proc.step] at hstep
      split at hstep
      · cases hstep
        refine h.keep hi rfl rfl ⟨fun _ hpub => hseen hpub, ?_, hsilent⟩
        rintro _ ⟨⟩
        exact hcommits
      · cases hstep
    | commit next =>
      cases hstep
      -- the request has not committed before, since it may do so once
      cases hpub : ℓ.published with
      | true =>
        simp only [hpub, if_true] at hcommits
        exact hcommits.elim
      | false =>
        refine h.update (c := some _) hi rfl ?_ ?_ ?_
        · rfl
        · refine ⟨fun _ => nofun, ?_, nofun⟩
          rintro _ ⟨⟩
          simp only [hpub] at hcommits
          exact hcommits
        · rintro _ ⟨⟩
          exact ⟨rfl, rfl, hpub, hseen hpub⟩
  | done v => cases hstep
  | failed e => cases hstep
  | aborted => cases hstep

omit [DecidableEq A] in
theorem abort (h : s.Serial) {i : Nat} {p p' : Proc Row A Q E V R} (hi : s.procs[i]? = some p)
    (habort : p.abort = some p') : (s.update i p' none).Serial := by
  obtain ⟨r, phase, ℓ⟩ := p
  obtain ⟨-, -, hsilent⟩ := h.procs i _ hi
  cases phase with
  | running q =>
    cases habort
    refine h.keep hi rfl rfl ?_
    exact ⟨nofun, nofun, hsilent⟩
  | done v => cases habort
  | failed e => cases habort
  | aborted => cases habort

end Server.Serial

/-- **Every server reached with requests one at a time is serial**, when every request commits once at
most. -/
theorem Reachable.serial {code : R → Prog Row A Q E V} {ops : R → Prop} {db₀ : Store Row}
    {s : Server Row A Q E V R} (h : Reachable code (oneAtATime ops) db₀ s)
    (hcode : ∀ r, ops r → (code r).CommitsAtMost 1) : s.Serial := by
  induction h with
  | start => exact .start
  | @next s s' e _ hpolicy hnext ih =>
    cases e with
    | spawn r =>
      cases hnext
      exact ih.spawn hpolicy.2 (hcode r hpolicy.1)
    | step i =>
      simp only [Server.next, Option.bind_eq_bind, Option.bind_eq_some_iff] at hnext
      obtain ⟨p, hi, ⟨p', c⟩, hstep, hs'⟩ := hnext
      cases hs'
      exact ih.step hi hstep
    | abort i =>
      simp only [Server.next, Option.bind_eq_bind, Option.bind_eq_some_iff] at hnext
      obtain ⟨p, hi, p', habort, hs'⟩ := hnext
      cases hs'
      exact ih.abort hi habort

theorem Proc.step_req {i : Nat} {p p' : Proc Row A Q E V R} {others : List (List (Held K A))}
    {db : Store Row} {c : Option (Commit Row A Q R)} (h : p.step i others db = some (p', c)) :
    p'.req = p.req := by
  unfold Proc.step at h
  repeat' split at h
  all_goals cases h <;> rfl

omit [DecidableEq K] [DecidableEq A] in
theorem Proc.abort_req {p p' : Proc Row A Q E V R} (h : p.abort = some p') : p'.req = p.req := by
  unfold Proc.abort at h
  split at h <;> cases h
  rfl

/-- The requests of a run are those it admits. -/
theorem Reachable.admitted {code : R → Prog Row A Q E V} {ops : R → Prop} {db₀ : Store Row}
    {s : Server Row A Q E V R} (h : Reachable code (oneAtATime ops) db₀ s) :
    ∀ p ∈ s.procs, ops p.req := by
  -- a request keeps what it asks for
  have hset : ∀ {s : Server Row A Q E V R} {i : Nat} {p p' : Proc Row A Q E V R},
      (∀ p ∈ s.procs, ops p.req) → s.procs[i]? = some p → p'.req = p.req →
      ∀ p₂ ∈ s.procs.set i p', ops p₂.req := by
    intro s i p p' hall hi hreq p₂ hp₂
    rcases List.mem_or_eq_of_mem_set hp₂ with hp₂ | rfl
    · exact hall p₂ hp₂
    · rw [hreq]
      exact hall p (List.mem_of_getElem? hi)
  induction h with
  | start => exact nofun
  | @next s s' e _ hpolicy hnext ih =>
    cases e with
    | spawn r =>
      cases hnext
      intro p hp
      rcases List.mem_append.mp hp with hp | hp
      · exact ih p hp
      · rw [List.mem_singleton.mp hp]
        exact hpolicy.1
    | step i =>
      simp only [Server.next, Option.bind_eq_bind, Option.bind_eq_some_iff] at hnext
      obtain ⟨p, hi, ⟨p', c⟩, hstep, hs'⟩ := hnext
      cases hs'
      cases c with
      | none => exact hset ih hi (Proc.step_req hstep)
      | some c => exact hset ih hi (Proc.step_req hstep)
    | abort i =>
      simp only [Server.next, Option.bind_eq_bind, Option.bind_eq_some_iff] at hnext
      obtain ⟨p, hi, p', habort, hs'⟩ := hnext
      cases hs'
      exact hset ih hi (Proc.abort_req habort)

end Serial

end ReadCommitted
