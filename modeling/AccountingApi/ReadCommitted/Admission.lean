import AccountingApi.ReadCommitted.Observations
import AccountingApi.ReadCommitted.Serial

/-!
# The admission of requests

Requests often come in through a gate that reads the committed store, and carry more than their programs
run on: who has made them. What the gate has found may have changed when the request reads or commits; it
held of a store that was committed before.

## Main definitions

* `Server.map`: a server whose requests are told less about
* `gated`: the policy of a gate in front of the server
* `Server.Admitted`: the requests and commits of a server have passed the gate
* `Joint`: two servers over tables of their own, the first of which admits the requests of both

## Main results

* `Reachable.map`: what carries more runs as what it carries
* `Reachable.gated`: every commit of a run was admitted on a store that was committed before it
* `Joint.admitted`: so was every request of the second server, on a store of the first
-/

namespace ReadCommitted

variable {K A : Type} {Row : K → Type} {Q E V R R' : Type}

/-! ## Requests that carry more -/

section Map

variable (f : R' → R)

def Commit.map (c : Commit Row A Q R') : Commit Row A Q R :=
  ⟨c.pid, f c.req, c.first, c.locks, c.others, c.seen, c.before, c.writes⟩

def Proc.map (p : Proc Row A Q E V R') : Proc Row A Q E V R := ⟨f p.req, p.phase, p.loc⟩

def Event.map : Event R' → Event R
  | .spawn r => .spawn (f r)
  | .step pid => .step pid
  | .abort pid => .abort pid

/-- The server with less told about its requests. -/
def Server.map (s : Server Row A Q E V R') : Server Row A Q E V R :=
  ⟨s.db, s.procs.map (Proc.map f), s.history.map (Commit.map f)⟩

variable [DecidableEq K]

/-- The stores of a history do not depend on what is told about its requests. -/
theorem past_map {db₀ db : Store Row} {h : List (Commit Row A Q R')} :
    Past db₀ (h.map (Commit.map f)) db ↔ Past db₀ h db := by
  refine or_congr_right ⟨?_, ?_⟩
  · rintro ⟨c', hc', rfl⟩
    obtain ⟨c, hc, rfl⟩ := List.mem_map.mp hc'
    exact ⟨c, hc, rfl⟩
  · rintro ⟨c, hc, rfl⟩
    exact ⟨c.map f, List.mem_map_of_mem hc, rfl⟩

omit [DecidableEq K] in
theorem Server.map_others (s : Server Row A Q E V R') (pid : ℕ) :
    (s.map f).others pid = s.others pid := by
  rw [Server.others, Server.others, Server.map, ← List.eraseIdx_map, ← List.eraseIdx_map, List.map_map]
  rfl

theorem Server.map_update (s : Server Row A Q E V R') (pid : ℕ) (p : Proc Row A Q E V R')
    (c : Option (Commit Row A Q R')) :
    (s.update pid p c).map f = (s.map f).update pid (p.map f) (c.map (Commit.map f)) := by
  cases c with
  | none => simp only [Server.update, Server.map, List.map_set, Option.map_none]
  | some c =>
    simp only [Server.update, Server.map, List.map_set, List.map_cons, Option.map_some]
    rfl

variable [DecidableEq A]

/-- A statement does not depend on what is told about the request. -/
theorem Proc.map_step (pid : ℕ) (p : Proc Row A Q E V R') (others : List (List (Held K A)))
    (db : Store Row) : (p.map f).step pid others db =
      (p.step pid others db).map fun x => (x.1.map f, x.2.map (Commit.map f)) := by
  obtain ⟨r, phase, ℓ⟩ := p
  cases phase with
  | running q =>
    cases q with
    | acquire l m next =>
      simp only [Proc.map, Proc.step]
      split <;> rfl
    | put k v next =>
      simp only [Proc.map, Proc.step]
      split <;> rfl
    | _ => rfl
  | _ => rfl

omit [DecidableEq K] [DecidableEq A] in
theorem Proc.map_abort (p : Proc Row A Q E V R') : (p.map f).abort = p.abort.map (Proc.map f) := by
  obtain ⟨r, phase, ℓ⟩ := p
  cases phase <;> rfl

/-- **One event**, with less told about the requests. -/
theorem Server.map_next (code : R → Prog Row A Q E V) {s s' : Server Row A Q E V R'} {e : Event R'}
    (h : s.next (fun r => code (f r)) e = some s') :
    (s.map f).next code (e.map f) = some (s'.map f) := by
  cases e with
  | spawn r =>
    cases h
    simp only [Event.map, Server.next, Server.map, List.map_append, List.map_singleton]
    rfl
  | step pid =>
    obtain ⟨p, hp, h⟩ := Option.bind_eq_some_iff.mp h
    obtain ⟨⟨p', c⟩, hstep, h⟩ := Option.bind_eq_some_iff.mp h
    cases h
    have hget : (s.map f).procs[pid]? = some (p.map f) := by
      rw [Server.map, List.getElem?_map, hp, Option.map_some]
    have hstep' : (p.map f).step pid ((s.map f).others pid) (s.map f).db =
        some (p'.map f, c.map (Commit.map f)) := by
      rw [Server.map_others, Proc.map_step]
      change Option.map _ (p.step pid (s.others pid) s.db) = _
      rw [hstep, Option.map_some]
    change ((s.map f).procs[pid]?.bind fun p => (p.step pid _ _).bind fun x => _) = _
    rw [hget, Option.bind_some, hstep', Option.bind_some, Server.map_update]
    rfl
  | abort pid =>
    obtain ⟨p, hp, h⟩ := Option.bind_eq_some_iff.mp h
    obtain ⟨p', habort, h⟩ := Option.bind_eq_some_iff.mp h
    cases h
    have hget : (s.map f).procs[pid]? = some (p.map f) := by
      rw [Server.map, List.getElem?_map, hp, Option.map_some]
    change ((s.map f).procs[pid]?.bind fun p => p.abort.bind fun p' => _) = _
    rw [hget, Option.bind_some, Proc.map_abort, habort, Option.map_some, Option.bind_some,
      Server.map_update]
    rfl

/-- **What carries more runs as what it carries.** -/
theorem Reachable.map {code : R → Prog Row A Q E V} {policy : Policy Row A Q E V R'}
    {db₀ : Store Row} {s : Server Row A Q E V R'}
    (h : Reachable (fun r => code (f r)) policy db₀ s) :
    Reachable code (anytime fun _ => True) db₀ (s.map f) := by
  induction h with
  | start => exact .start
  | next e _ _ hnext ih =>
    refine ih.next (e.map f) ?_ (Server.map_next f code hnext)
    cases e <;> trivial

end Map

/-! ## What an event does -/

section Events

variable [DecidableEq K] [DecidableEq A] {code : R → Prog Row A Q E V}
  {s s' : Server Row A Q E V R}

/-- The commit of a statement is one of its request, on the store it ran on. -/
theorem Proc.step_commit {pid : ℕ} {p p' : Proc Row A Q E V R} {others : List (List (Held K A))}
    {db : Store Row} {c : Commit Row A Q R} (h : p.step pid others db = some (p', some c)) :
    c.req = p.req ∧ c.before = db := by
  unfold Proc.step at h
  repeat' split at h
  all_goals cases h
  exact ⟨rfl, rfl⟩

/-- **What an event does**: a request comes in, or one goes on, with at most one commit. -/
theorem Server.next_cases {e : Event R} (h : s.next code e = some s') :
    (∃ r, e = .spawn r ∧ s' = { s with procs := s.procs ++ [⟨r, .running (code r), {}⟩] }) ∨
      ∃ pid p p' c, s.procs[pid]? = some p ∧ p'.req = p.req ∧ s' = s.update pid p' c ∧
        ∀ c' ∈ c, c'.req = p.req ∧ c'.before = s.db := by
  cases e with
  | spawn r =>
    cases h
    exact .inl ⟨r, rfl, rfl⟩
  | step pid =>
    obtain ⟨p, hp, h⟩ := Option.bind_eq_some_iff.mp h
    obtain ⟨⟨p', c⟩, hstep, h⟩ := Option.bind_eq_some_iff.mp h
    cases h
    refine .inr ⟨pid, p, p', c, hp, Proc.step_req hstep, rfl, fun c' hc' => ?_⟩
    rw [Option.mem_def.mp hc'] at hstep
    exact Proc.step_commit hstep
  | abort pid =>
    obtain ⟨p, hp, h⟩ := Option.bind_eq_some_iff.mp h
    obtain ⟨p', habort, h⟩ := Option.bind_eq_some_iff.mp h
    cases h
    exact .inr ⟨pid, p, p', none, hp, Proc.abort_req habort, rfl, nofun⟩

/-- The requests of a server and of its commits. -/
def Server.Requests (s : Server Row A Q E V R) (G : R → Prop) : Prop :=
  (∀ p ∈ s.procs, G p.req) ∧ ∀ c ∈ s.history, G c.req

omit [DecidableEq K] [DecidableEq A] in
theorem Server.Requests.mono {G G' : R → Prop} (h : s.Requests G) (hG : ∀ r, G r → G' r) :
    s.Requests G' :=
  ⟨fun p hp => hG _ (h.1 p hp), fun c hc => hG _ (h.2 c hc)⟩

omit [DecidableEq A] in
theorem Server.Requests.update {G : R → Prop} (h : s.Requests G) {pid : ℕ}
    {p p' : Proc Row A Q E V R} {c : Option (Commit Row A Q R)} (hp : s.procs[pid]? = some p)
    (hreq : p'.req = p.req) (hc : ∀ c' ∈ c, c'.req = p.req) : (s.update pid p' c).Requests G := by
  have hG : G p.req := h.1 p (List.mem_of_getElem? hp)
  have hset : ∀ q ∈ s.procs.set pid p', G q.req := by
    intro q hq
    rcases List.mem_or_eq_of_mem_set hq with hq | rfl
    · exact h.1 q hq
    · rwa [hreq]
  cases c with
  | none => exact ⟨hset, h.2⟩
  | some c' =>
    refine ⟨hset, List.forall_mem_cons.mpr ⟨?_, h.2⟩⟩
    rwa [hc c' rfl]

/-- An event whose request meets the condition keeps it. -/
theorem Server.Requests.next {G : R → Prop} (h : s.Requests G) {e : Event R}
    (he : ∀ r, e = .spawn r → G r) (hnext : s.next code e = some s') : s'.Requests G := by
  rcases Server.next_cases hnext with ⟨r, rfl, rfl⟩ | ⟨pid, p, p', c, hp, hreq, rfl, hc⟩
  · refine ⟨fun p hp => ?_, h.2⟩
    rcases List.mem_append.mp hp with hp | hp
    · exact h.1 p hp
    · obtain rfl := List.mem_singleton.mp hp
      exact he r rfl
  · exact h.update hp hreq fun c' hc' => (hc c' hc').1

end Events

/-! ## Gates -/

section Gate

variable [DecidableEq K] [DecidableEq A] {code : R → Prog Row A Q E V}
  {gate : Store Row → R → Prop} {db₀ : Store Row} {s : Server Row A Q E V R}

/-- Requests come in as the gate lets them on the committed store; whatever runs goes on at any
moment. -/
def gated (gate : Store Row → R → Prop) : Policy Row A Q E V R
  | s, .spawn r => gate s.db r
  | _, _ => True

/-- A list of events, where all of them are possible and the gate lets the requests in. -/
def Server.pass (code : R → Prog Row A Q E V) (gate : Store Row → R → Prop)
    [∀ db r, Decidable (gate db r)] (s : Server Row A Q E V R) :
    List (Event R) → Option (Server Row A Q E V R)
  | [] => some s
  | .spawn r :: es =>
    if gate s.db r then (s.next code (.spawn r)).bind fun s' => s'.pass code gate es else none
  | e :: es => (s.next code e).bind fun s' => s'.pass code gate es

/-- What the events of such a list keep holds after it. -/
theorem Server.pass_induction [∀ db r, Decidable (gate db r)] {P : Server Row A Q E V R → Prop}
    (hP : ∀ s s' e, P s → (∀ r, e = .spawn r → gate s.db r) → s.next code e = some s' → P s')
    {es : List (Event R)} {s s' : Server Row A Q E V R} (hs : P s)
    (h : s.pass code gate es = some s') : P s' := by
  induction es generalizing s with
  | nil =>
    cases h
    exact hs
  | cons e es ih =>
    cases e with
    | spawn r =>
      rw [Server.pass] at h
      split at h
      · rename_i hgate
        obtain ⟨s₁, hnext, h⟩ := Option.bind_eq_some_iff.mp h
        refine ih (hP s s₁ _ hs ?_ hnext) h
        rintro _ ⟨⟩
        exact hgate
      · cases h
    | step pid =>
      obtain ⟨s₁, hnext, h⟩ := Option.bind_eq_some_iff.mp h
      exact ih (hP s s₁ (.step pid) hs nofun hnext) h
    | abort pid =>
      obtain ⟨s₁, hnext, h⟩ := Option.bind_eq_some_iff.mp h
      exact ih (hP s s₁ (.abort pid) hs nofun hnext) h

theorem Reachable.pass [∀ db r, Decidable (gate db r)] {es : List (Event R)}
    {s' : Server Row A Q E V R} (h : Reachable code (gated gate) db₀ s)
    (hpass : s.pass code gate es = some s') : Reachable code (gated gate) db₀ s' := by
  refine Server.pass_induction (fun s s' e hs hgate hnext => ?_) h hpass
  refine hs.next e ?_ hnext
  cases e with
  | spawn r => exact hgate r rfl
  | step pid => trivial
  | abort pid => trivial

/-- The gate has let the request in, on a store of the history. -/
def LetIn (gate : Store Row → R → Prop) (db₀ : Store Row) (h : List (Commit Row A Q R)) (r : R) :
    Prop :=
  ∃ db, Past db₀ h db ∧ gate db r

omit [DecidableEq A] in
theorem LetIn.mono {h : List (Commit Row A Q R)} {r : R} (hr : LetIn gate db₀ h r)
    (h₂ : List (Commit Row A Q R)) : LetIn gate db₀ (h₂ ++ h) r := by
  obtain ⟨db, hdb, hgate⟩ := hr
  exact ⟨db, hdb.append h₂, hgate⟩

/-- What has come in has passed the gate, each commit's request before the commit. -/
structure Server.Admitted (gate : Store Row → R → Prop) (db₀ : Store Row)
    (s : Server Row A Q E V R) : Prop where
  present : Past db₀ s.history s.db
  procs : ∀ p ∈ s.procs, LetIn gate db₀ s.history p.req
  commits : ∀ h₂ c h₁, s.history = h₂ ++ c :: h₁ → LetIn gate db₀ h₁ c.req

/-- **Behind a gate**: every commit's request was let in on a store committed before it. -/
theorem Reachable.gated (h : Reachable code (gated gate) db₀ s) : s.Admitted gate db₀ := by
  induction h with
  | start => exact ⟨.inl rfl, nofun, fun h₂ c h₁ h => by simp [Server.start] at h⟩
  | @next s s' e _ hpolicy hnext ih =>
    rcases Server.next_cases hnext with ⟨r, rfl, rfl⟩ | ⟨pid, p, p', c, hp, hreq, rfl, hc⟩
    · refine ⟨ih.present, fun p hp => ?_, ih.commits⟩
      rcases List.mem_append.mp hp with hp | hp
      · exact ih.procs p hp
      · obtain rfl := List.mem_singleton.mp hp
        exact ⟨s.db, ih.present, hpolicy⟩
    · have hletIn := ih.procs p (List.mem_of_getElem? hp)
      -- a request keeps what it was let in with
      have hset : ∀ q ∈ s.procs.set pid p', LetIn gate db₀ s.history q.req := by
        intro q hq
        rcases List.mem_or_eq_of_mem_set hq with hq | rfl
        · exact ih.procs q hq
        · rwa [hreq]
      cases c with
      | none => exact ⟨ih.present, hset, ih.commits⟩
      | some c =>
        refine ⟨.inr ⟨c, List.mem_cons_self, rfl⟩, fun q hq => (hset q hq).mono [c], ?_⟩
        intro h₂ c' h₁ hsplit
        cases h₂ with
        | nil =>
          obtain ⟨rfl, rfl⟩ := List.cons.inj hsplit
          rw [(hc c rfl).1]
          exact hletIn
        | cons c₂ h₂ => exact ih.commits h₂ c' h₁ (List.cons.inj hsplit).2

end Gate

/-! ## Two servers -/

section Joint

variable {K₂ A₂ : Type} [DecidableEq K] [DecidableEq A] [DecidableEq K₂] [DecidableEq A₂]
  {Row₂ : K₂ → Type} {Q₂ E₂ V₂ R₂ : Type} {code : R → Prog Row A Q E V}
  {code₂ : R₂ → Prog Row₂ A₂ Q₂ E₂ V₂} {gate : Store Row → R → Prop}
  {gate₂ : Store Row → R₂ → Prop} {db₀ : Store Row} {db₂ : Store Row₂}
  {s : Server Row A Q E V R} {t : Server Row₂ A₂ Q₂ E₂ V₂ R₂}

/-- Two servers over tables of their own: their requests run in any interleaving, and those of either
come in as its gate lets them on the store of the first. -/
inductive Joint (code : R → Prog Row A Q E V) (code₂ : R₂ → Prog Row₂ A₂ Q₂ E₂ V₂)
    (gate : Store Row → R → Prop) (gate₂ : Store Row → R₂ → Prop) (db₀ : Store Row)
    (db₂ : Store Row₂) : Server Row A Q E V R → Server Row₂ A₂ Q₂ E₂ V₂ R₂ → Prop
  | start : Joint code code₂ gate gate₂ db₀ db₂ (.start db₀) (.start db₂)
  | first {s s' : Server Row A Q E V R} {t : Server Row₂ A₂ Q₂ E₂ V₂ R₂} (e : Event R) :
      Joint code code₂ gate gate₂ db₀ db₂ s t → gated gate s e → s.next code e = some s' →
      Joint code code₂ gate gate₂ db₀ db₂ s' t
  | second {s : Server Row A Q E V R} {t t' : Server Row₂ A₂ Q₂ E₂ V₂ R₂} (e : Event R₂) :
      Joint code code₂ gate gate₂ db₀ db₂ s t → (∀ r, e = .spawn r → gate₂ s.db r) →
      t.next code₂ e = some t' → Joint code code₂ gate gate₂ db₀ db₂ s t'

/-- The run of the first server. -/
theorem Joint.reachable (h : Joint code code₂ gate gate₂ db₀ db₂ s t) :
    Reachable code (gated gate) db₀ s := by
  induction h with
  | start => exact .start
  | first e _ hgate hnext ih => exact ih.next e hgate hnext
  | second _ _ _ _ ih => exact ih

/-- The run of the second server. -/
theorem Joint.reachable₂ (h : Joint code code₂ gate gate₂ db₀ db₂ s t) :
    Reachable code₂ (anytime fun _ => True) db₂ t := by
  induction h with
  | start => exact .start
  | first _ _ _ _ ih => exact ih
  | second e _ _ hnext ih =>
    refine ih.next e ?_ hnext
    cases e <;> trivial

/-- **Behind the gate of another server**: every request, and so that of every commit, was let in on a
store the first server has committed. -/
theorem Joint.admitted (h : Joint code code₂ gate gate₂ db₀ db₂ s t) :
    t.Requests fun r => ∃ db, Past db₀ s.history db ∧ gate₂ db r := by
  induction h with
  | start => exact ⟨nofun, nofun⟩
  | @first s s' t e _ _ hnext ih =>
    refine ih.mono fun r ⟨db, hdb, hgate⟩ => ⟨db, ?_, hgate⟩
    rcases Server.next_cases hnext with ⟨r, rfl, rfl⟩ | ⟨pid, p, p', c, -, -, rfl, -⟩
    · exact hdb
    · cases c with
      | none => exact hdb
      | some c => exact hdb.mono c
  | @second s t t' e hjoint hgate hnext ih =>
    exact ih.next (fun r hr => ⟨s.db, hjoint.reachable.gated.present, hgate r hr⟩) hnext

theorem Joint.pass [∀ db r, Decidable (gate db r)] {es : List (Event R)}
    {s' : Server Row A Q E V R} (h : Joint code code₂ gate gate₂ db₀ db₂ s t)
    (hpass : s.pass code gate es = some s') : Joint code code₂ gate gate₂ db₀ db₂ s' t := by
  refine Server.pass_induction (P := fun s => Joint code code₂ gate gate₂ db₀ db₂ s t)
    (fun s s' e hs hgate hnext => ?_) h hpass
  refine hs.first e ?_ hnext
  cases e with
  | spawn r => exact hgate r rfl
  | step pid => trivial
  | abort pid => trivial

theorem Joint.pass₂ [∀ r, Decidable (gate₂ s.db r)] {es : List (Event R₂)}
    {t' : Server Row₂ A₂ Q₂ E₂ V₂ R₂} (h : Joint code code₂ gate gate₂ db₀ db₂ s t)
    (hpass : t.pass code₂ (fun _ r => gate₂ s.db r) es = some t') :
    Joint code code₂ gate gate₂ db₀ db₂ s t' :=
  Server.pass_induction (P := fun t => Joint code code₂ gate gate₂ db₀ db₂ s t)
    (fun _ _ e ht hgate hnext => ht.second e hgate hnext) h hpass

end Joint

end ReadCommitted
