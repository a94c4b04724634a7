import AccountingApi.Idempotency.Executions
import AccountingApi.ReadCommitted.Once

/-!
# Handlers behind idempotency keys

The interceptor starts a handler once it has reserved the key, and learns from it only its value or its
error. A handler is not stopped with its request: after a timeout it goes on, and may still commit. Its
reservation then stays behind and keeps retries away.

## Main definitions

* `Handling`: a request to the server, and the request with a key it is handled for
* `Together`: the runs of the interceptor and of the server behind it
* `CommitsUnder`: a commit of a handler under the key

## Main results

* `Joined.intercepts`, `Joined.handles`: what one event keeps
* `Together.commits_once`: there is one commit at most under a key
-/

namespace AccountingApi.Idempotency

open IdempotencyService
open ReadCommitted (Prog Store)

/-! ## The interceptor and the server -/

/-- A request to the server; `origin` is the request with a key it is handled for, if it is for one. -/
structure Handling (R : Type) where
  origin : Option RequestId
  request : R

variable {K A : Type} {Row : K → Type} {Q V R Body Json : Type}

/-- The server that runs the handlers. -/
abbrev Handlers (Row : K → Type) (A Q V R : Type) :=
  ReadCommitted.Server Row A Q Failure V (Handling R)

/-- The requests to the server that come in: a handler is started once, when its request has the
reservation. -/
def Starts (i : Server V Json) (t : Handlers Row A Q V R) : ReadCommitted.Event (Handling R) → Prop
  | .spawn r => ∀ id ∈ r.origin,
      (∃ p ∈ i.procs id, p.phase = .executing false) ∧ ∀ p ∈ t.procs, p.req.origin ≠ some id
  | _ => True

/-- What the interceptor learns of a handler: its value or its error, when it has ended. A handler that was
not started has failed before. -/
def Learns (t : Handlers Row A Q V R) : Event Body V → Prop
  | .act _ .commit => False
  | .act id (.resolve v) => ∃ p ∈ t.procs, p.req.origin = some id ∧ p.phase = .done v
  | .act id (.reject e) => ∀ p ∈ t.procs, p.req.origin = some id → p.phase = .failed e ∨ p.phase = .aborted
  | _ => True

/-- The request whose handler has committed in the last event, if one has. -/
def committedFor (t t' : Handlers Row A Q V R) : Option RequestId :=
  if t.history.length < t'.history.length then t'.history.head?.bind (·.req.origin) else none

/-- A commit is noted as an effect of its request, if this waits for its handler; a request that was
stopped does not. -/
def Server.note (cfg : Config Body V Json) (i : Server V Json) : Option RequestId → Server V Json
  | none => i
  | some id => (step cfg i (.act id .commit)).getD i

/-- The handler of the request has committed. -/
def HasCommitted (t : Handlers Row A Q V R) (id : RequestId) : Prop :=
  ∃ c ∈ t.history, c.req.origin = some id

/-- The request has the key. -/
def Server.Under (i : Server V Json) (k : ReservationKey) (id : RequestId) : Prop :=
  ∃ p ∈ i.procs id, slotOf id p.req = k

/-- No request with the key releases its reservation once its handler has committed. -/
def KeepsHandled (k : ReservationKey) (i : Server V Json) (t : Handlers Row A Q V R)
    (e : Event Body V) : Prop :=
  ∀ id ∈ e.releases, i.Under k id → ¬ HasCommitted t id

variable [DecidableEq K] [DecidableEq A]

/-- The interceptor and the server behind it, in any interleaving in which the retries with the key come in
time and no request with the key releases its reservation once its handler has committed. -/
inductive Together (cfg : Config Body V Json) (code : R → Prog Row A Q Failure V) (k : ReservationKey)
    (now : Timestamp) (db₀ : Store Row) : Server V Json → Handlers Row A Q V R → Prop
  | start : Together cfg code k now db₀ (.start now) (.start db₀)
  | intercepts {i i' : Server V Json} {t : Handlers Row A Q V R} (e : Event Body V) :
      Together cfg code k now db₀ i t → Learns t e → InTime cfg k i e → KeepsHandled k i t e →
      step cfg i e = some i' → Together cfg code k now db₀ i' t
  | handles {i : Server V Json} {t t' : Handlers Row A Q V R} (e : ReadCommitted.Event (Handling R)) :
      Together cfg code k now db₀ i t → Starts i t e →
      t.next (fun r => code r.request) e = some t' →
      Together cfg code k now db₀ (i.note cfg (committedFor t t')) t'

/-- A commit of a handler of a request with the key. -/
def CommitsUnder (i : Server V Json) (k : ReservationKey)
    (c : ReadCommitted.Commit Row A Q (Handling R)) : Prop :=
  ∃ id ∈ c.req.origin, i.Under k id

/-! ## Reservations that stay -/

section Reserved

variable {cfg : Config Body V Json} {i i' : Server V Json} {k : ReservationKey} {id : RequestId}
  {e : Event Body V} {q : Proc V Json}

/-- The reservation under the key is that of the request. -/
structure Server.Reserved (i : Server V Json) (k : ReservationKey) (id : RequestId) : Prop where
  stands : i.table k ≠ none
  own : lastInserter k i.log = some id

theorem Server.Reserved.stands_update (h : i.Reserved k id) {k' : ReservationKey} (hk : k ≠ k')
    (record : Option (IdempotencyKey Json)) : Function.update i.table k' record k ≠ none := by
  rw [Function.update_of_ne hk]
  exact h.stands

/-- A reservation stays that of its request, unless this one releases it. -/
theorem Server.Reserved.step (h : i.Reserved k id) (howned : i.OwnedAt k) (hs : Happens cfg i e i')
    (htime : InTime cfg k i e) (hkeeps : ∀ p ∈ i.procs id, ∀ x, p.phase = .releasing x →
      e.releases ≠ some id) : i'.Reserved k id := by
  cases hs with
  | tick d => exact ⟨h.stands, h.own⟩
  | arrives j req r new => exact ⟨h.stands, h.own⟩
  | purge =>
    obtain ⟨record, hrecord⟩ := Option.ne_none_iff_exists'.mp h.stands
    have hkept : (i.table k).filter (fun record => ¬ Expired cfg i.now record) = some record :=
      Option.filter_eq_some_iff.mpr ⟨hrecord, decide_eq_true (htime.2 rfl record hrecord)⟩
    refine ⟨?_, h.own⟩
    show (i.table k).filter _ ≠ none
    rw [hkept]
    exact nofun
  | acts j a p phase t deed current does =>
    cases does with
    | waits a phase before after => exact ⟨h.stands, h.own⟩
    | goesOn a phase before after returned => exact ⟨h.stands, h.own⟩
    | replays record response status found same answer hstatus => exact ⟨h.stands, h.own⟩
    | ends a phase ended answer => exact ⟨h.stands, h.own⟩
    | inserts free waiting =>
      have hk : k ≠ slotOf j p.req := by
        rintro rfl
        exact h.stands free
      exact ⟨h.stands_update hk _, (if_neg hk.symm).trans h.own⟩
    | reclaims record waiting found stale =>
      have hk : k ≠ slotOf j p.req := by
        rintro rfl
        exact htime.1 j rfl p current rfl record found stale
      exact ⟨h.stands_update hk _, h.own⟩
    | executes running =>
      refine ⟨h.stands, Eq.trans (lastInserter_cons ?_) h.own⟩
      exact nofun
    | completes data record running found =>
      refine ⟨?_, Eq.trans (lastInserter_cons ?_) h.own⟩
      · by_cases hk : k = slotOf j p.req
        · subst hk
          exact (Function.update_self _ _ _).trans_ne (Option.some_ne_none _)
        · exact h.stands_update hk _
      · exact nofun
    | releases x running found =>
      have hk : k ≠ slotOf j p.req := by
        rintro rfl
        -- the request that releases the reservation is the one that has made it
        obtain ⟨-, -, -, hlast⟩ := howned j p current rfl (by rw [running]; rfl)
        obtain rfl := Option.some.inj (hlast.symm.trans h.own)
        exact hkeeps p current x running rfl
      refine ⟨h.stands_update hk _, Eq.trans (lastInserter_cons ?_) h.own⟩
      exact nofun

/-- A request stays what it is. -/
theorem Happens.exists_procs (hs : Happens cfg i e i') (hq : i.procs id = some q) :
    ∃ q', i'.procs id = some q' ∧ q'.req = q.req := by
  cases hs with
  | tick d => exact ⟨q, hq, rfl⟩
  | purge => exact ⟨q, hq, rfl⟩
  | arrives j req r new =>
    have hj : id ≠ j := by
      rintro rfl
      rw [new] at hq
      cases hq
    exact ⟨q, (Function.update_of_ne hj _ _).trans hq, rfl⟩
  | acts j a p phase t deed current does => exact Server.exists_procs_acted current hq

/-- The handler of the request may be under way: the request waits for it, or has been stopped. -/
def Phase.Handled (phase : Phase V Json) : Prop := (∃ b, phase = .executing b) ∨ phase = .stopped

/-- The request hears nothing of its handler while this is under way. -/
theorem Server.handled_step (hstep : step cfg i e = some i') (hq : i.procs id = some q)
    (hhandled : q.phase.Handled) (hresolve : ∀ v, e ≠ .act id (.resolve v))
    (hreject : ∀ x, e ≠ .act id (.reject x)) :
    ∃ q', i'.procs id = some q' ∧ q'.phase.Handled := by
  cases e with
  | tick d =>
    cases hstep
    exact ⟨q, hq, hhandled⟩
  | purge =>
    cases hstep
    exact ⟨q, hq, hhandled⟩
  | arrive j req =>
    cases happens_of_step hstep with
    | arrives _ _ r new =>
      have hj : id ≠ j := by
        rintro rfl
        rw [new] at hq
        cases hq
      exact ⟨q, (Function.update_of_ne hj _ _).trans hq, hhandled⟩
  | act j a =>
    simp only [step, Option.bind_eq_bind, Option.bind_eq_some_iff] at hstep
    obtain ⟨p, hp, ⟨phase, t, deed⟩, hdoes, hi'⟩ := hstep
    cases hi'
    by_cases hj : id = j
    · subst hj
      obtain rfl : p = q := Option.some.inj (hp.symm.trans hq)
      refine ⟨_, Function.update_self _ _ _, ?_⟩
      obtain ⟨r, before⟩ := p
      rcases hhandled with ⟨b, rfl⟩ | rfl
      · -- it waits: there is its commit, or it is stopped
        cases a with
        | commit =>
          cases b with
          | false =>
            cases hdoes
            exact .inl ⟨true, rfl⟩
          | true => cases hdoes
        | resolve v => exact absurd rfl (hresolve v)
        | reject x => exact absurd rfl (hreject x)
        | stop =>
          cases hdoes
          exact .inr rfl
        | _ => cases hdoes
      · -- it was stopped and does nothing more
        cases a <;> cases hdoes
    · exact ⟨q, (Function.update_of_ne hj _ _).trans hq, hhandled⟩

end Reserved

/-! ## Handlers and reservations -/

/-- The handler of the request runs, or has committed. -/
def InHand (t : Handlers Row A Q V R) (id : RequestId) : Prop :=
  (∃ p ∈ t.procs, p.phase.isRunning = true ∧ p.req.origin = some id) ∨ HasCommitted t id

/-- How the interceptor and the server agree about the key. -/
structure Joined (k : ReservationKey) (i : Server V Json) (t : Handlers Row A Q V R) : Prop where
  owned : i.OwnedAt k
  started : ∀ p ∈ t.procs, ∀ id ∈ p.req.origin, ∃ q, i.procs id = some q ∧
    (p.phase.isRunning = true → q.phase.Handled)
  single : ∀ (j j' : ℕ) p p', t.procs[j]? = some p → t.procs[j']? = some p' →
    ∀ id, p.req.origin = some id → p'.req.origin = some id → j = j'
  known : ∀ c ∈ t.history, ∀ id ∈ c.req.origin, ∃ q, i.procs id = some q
  reserved : ∀ id, InHand t id → i.Under k id → i.Reserved k id

section Joined

variable {cfg : Config Body V Json} {code : R → Prog Row A Q Failure V} {now : Timestamp}
  {db₀ : Store Row} {k : ReservationKey} {i i' : Server V Json} {t t' : Handlers Row A Q V R}
  {id : RequestId}

omit [DecidableEq K] [DecidableEq A] in
theorem Joined.start (now : Timestamp) (db₀ : Store Row) (k : ReservationKey) :
    Joined k (.start now : Server V Json) (.start db₀ : Handlers Row A Q V R) where
  owned := .start now k
  started := fun _ hp => absurd hp List.not_mem_nil
  single := fun _ _ _ _ hj => by
    rw [ReadCommitted.Server.start, List.getElem?_nil] at hj
    cases hj
  known := fun _ hc => absurd hc List.not_mem_nil
  reserved := by
    rintro id (⟨p, hp, -⟩ | ⟨c, hc, -⟩)
    · exact absurd hp List.not_mem_nil
    · exact absurd hc List.not_mem_nil

omit [DecidableEq K] [DecidableEq A] in
/-- A request whose handler runs hears neither a value nor an error of it. -/
theorem Joined.not_ended (h : Joined k i t) {p : ReadCommitted.Proc Row A Q Failure V (Handling R)}
    (hp : p ∈ t.procs) (hrun : p.phase.isRunning = true) (hid : p.req.origin = some id)
    {e : Event Body V} (hlearns : Learns t e) :
    (∀ v, e ≠ .act id (.resolve v)) ∧ ∀ x, e ≠ .act id (.reject x) := by
  refine ⟨?_, ?_⟩
  · rintro v rfl
    obtain ⟨p', hp', hid', hdone⟩ := hlearns
    obtain ⟨j, hj⟩ := List.mem_iff_getElem?.mp hp
    obtain ⟨j', hj'⟩ := List.mem_iff_getElem?.mp hp'
    -- there is one handler for the request
    obtain rfl := h.single j j' p p' hj hj' id hid hid'
    obtain rfl : p = p' := Option.some.inj (hj.symm.trans hj')
    rw [hdone] at hrun
    cases hrun
  · rintro x rfl
    rcases hlearns p hp hid with hphase | hphase
    · rw [hphase] at hrun
      cases hrun
    · rw [hphase] at hrun
      cases hrun

omit [DecidableEq K] [DecidableEq A] in
/-- **One event of the interceptor**, in which no request hears of a handler that still runs. -/
theorem Joined.intercepts (h : Joined k i t) {e : Event Body V}
    (hquiet : ∀ p ∈ t.procs, p.phase.isRunning = true → ∀ id, p.req.origin = some id →
      (∀ v, e ≠ .act id (.resolve v)) ∧ ∀ x, e ≠ .act id (.reject x))
    (htime : InTime cfg k i e) (hkeeps : KeepsHandled k i t e) (hstep : step cfg i e = some i') :
    Joined k i' t := by
  have hs := happens_of_step hstep
  have hhandled : ∀ p ∈ t.procs, p.phase.isRunning = true → ∀ id, p.req.origin = some id →
      ∃ q, i.procs id = some q ∧ q.phase.Handled := by
    intro p hp hrun id hid
    obtain ⟨q, hq, hphase⟩ := h.started p hp id hid
    exact ⟨q, hq, hphase hrun⟩
  refine ⟨?_, ?_, h.single, ?_, ?_⟩
  · refine h.owned.step ?_ hs
    rintro j hj p hp hk ⟨record, hrecord, hstale⟩
    exact absurd hstale (htime.1 j hj p hp hk record hrecord)
  · intro p hp id hid
    obtain ⟨q, hq, hphase⟩ := h.started p hp id hid
    cases hrun : p.phase.isRunning with
    | false =>
      obtain ⟨q', hq', -⟩ := hs.exists_procs hq
      exact ⟨q', hq', nofun⟩
    | true =>
      obtain ⟨hresolve, hreject⟩ := hquiet p hp hrun id hid
      obtain ⟨q', hq', hphase'⟩ := Server.handled_step hstep hq (hphase hrun) hresolve hreject
      exact ⟨q', hq', fun _ => hphase'⟩
  · intro c hc id hid
    obtain ⟨q, hq⟩ := h.known c hc id hid
    obtain ⟨q', hq', -⟩ := hs.exists_procs hq
    exact ⟨q', hq'⟩
  · intro id hhand hunder
    obtain ⟨q, hq⟩ : ∃ q, i.procs id = some q := by
      rcases hhand with ⟨p, hp, hrun, hid⟩ | ⟨c, hc, hid⟩
      · obtain ⟨q, hq, -⟩ := hhandled p hp hrun id hid
        exact ⟨q, hq⟩
      · exact h.known c hc id hid
    have hunder' : i.Under k id := by
      obtain ⟨q', hq', hslot⟩ := hunder
      obtain ⟨q₂, hq₂, hreq⟩ := hs.exists_procs hq
      obtain rfl : q' = q₂ := Option.some.inj (hq'.symm.trans hq₂)
      exact ⟨q, hq, hreq ▸ hslot⟩
    refine (h.reserved id hhand hunder').step h.owned hs htime ?_
    intro p hp x hx hreleases
    rcases hhand with ⟨p', hp', hrun, hid⟩ | hcommitted
    · -- the request still waits for its handler, or was stopped
      obtain ⟨q', hq', hphase⟩ := hhandled p' hp' hrun id hid
      obtain rfl : p = q' := Option.some.inj (hp.symm.trans hq')
      rw [hx] at hphase
      rcases hphase with ⟨b, hb⟩ | hb
      · cases hb
      · cases hb
    · exact hkeeps id hreleases hunder' hcommitted

/-- A commit is noted or not. -/
theorem Server.note_cases (cfg : Config Body V Json) (i : Server V Json) (o : Option RequestId) :
    i.note cfg o = i ∨ ∃ id, step cfg i (.act id .commit) = some (i.note cfg o) := by
  cases o with
  | none => exact .inl rfl
  | some id =>
    rw [Server.note]
    cases hstep : step cfg i (.act id .commit) with
    | none => exact .inl rfl
    | some i' => exact .inr ⟨id, hstep⟩

omit [DecidableEq K] [DecidableEq A] in
theorem Joined.note (h : Joined k i t) (cfg : Config Body V Json) (o : Option RequestId) :
    Joined k (i.note cfg o) t := by
  rcases Server.note_cases cfg i o with hsame | ⟨id, hstep⟩
  · rw [hsame]
    exact h
  · refine h.intercepts (fun p hp hrun id hid => ⟨fun _ heq => ?_, fun _ heq => ?_⟩) ⟨?_, ?_⟩ ?_ hstep
    · cases heq
    · cases heq
    · exact fun _ hj => absurd hj (Option.not_mem_none _)
    · exact nofun
    · exact fun _ hj => absurd hj (Option.not_mem_none _)

omit [DecidableEq K] [DecidableEq A] in
/-- A handler is started. -/
theorem Joined.spawn (h : Joined k i t) {r : Handling R} (hstarts : Starts i t (.spawn r))
    (p : Prog Row A Q Failure V) :
    Joined k i { t with procs := t.procs ++ [⟨r, .running p, {}⟩] } := by
  refine ⟨h.owned, ?_, ?_, h.known, ?_⟩
  · intro p' hp' id hid
    rcases List.mem_append.mp hp' with hp' | hp'
    · exact h.started p' hp' id hid
    · obtain rfl := List.mem_singleton.mp hp'
      obtain ⟨⟨q, hq, hphase⟩, -⟩ := hstarts id hid
      exact ⟨q, hq, fun _ => .inl ⟨false, hphase⟩⟩
  · intro j j' p₁ p₂ h₁ h₂ id hid₁ hid₂
    -- the handlers that were there are not for the request of the new one
    have hold : ∀ (j : ℕ) p', (t.procs ++ [⟨r, .running p, {}⟩])[j]? = some p' →
        t.procs[j]? = some p' ∨ (j = t.procs.length ∧ p'.req = r) := by
      intro j p' hj
      rcases Nat.lt_or_ge j t.procs.length with hlt | hge
      · rw [List.getElem?_append_left hlt] at hj
        exact .inl hj
      · rw [List.getElem?_append_right hge] at hj
        obtain rfl := List.mem_singleton.mp (List.mem_of_getElem? hj)
        have hlt := (List.getElem?_eq_some_iff.mp hj).1
        rw [List.length_singleton] at hlt
        exact .inr ⟨by omega, rfl⟩
    rcases hold j p₁ h₁ with h₁ | ⟨hj, hr₁⟩
    · rcases hold j' p₂ h₂ with h₂ | ⟨-, hr₂⟩
      · exact h.single j j' p₁ p₂ h₁ h₂ id hid₁ hid₂
      · rw [hr₂] at hid₂
        exact absurd hid₁ ((hstarts id hid₂).2 p₁ (List.mem_of_getElem? h₁))
    · rcases hold j' p₂ h₂ with h₂ | ⟨hj', -⟩
      · rw [hr₁] at hid₁
        exact absurd hid₂ ((hstarts id hid₁).2 p₂ (List.mem_of_getElem? h₂))
      · rw [hj, hj']
  · rintro id (⟨p', hp', hrun, hid⟩ | hcommitted) hunder
    · rcases List.mem_append.mp hp' with hp' | hp'
      · exact h.reserved id (.inl ⟨p', hp', hrun, hid⟩) hunder
      · obtain rfl := List.mem_singleton.mp hp'
        -- its request has just made the reservation
        obtain ⟨⟨q, hq, hphase⟩, -⟩ := hstarts id hid
        obtain ⟨q', hq', hslot⟩ := hunder
        obtain rfl : q = q' := Option.some.inj (hq.symm.trans hq')
        obtain ⟨record, hrecord, -, hlast⟩ := h.owned id q hq hslot (by rw [hphase]; rfl)
        exact ⟨by rw [hrecord]; exact Option.some_ne_none _, hlast⟩
    · exact h.reserved id (.inr hcommitted) hunder

omit [DecidableEq A] in
/-- A handler goes on. -/
theorem Joined.update (h : Joined k i t) {pid : ℕ}
    {p p' : ReadCommitted.Proc Row A Q Failure V (Handling R)}
    {c : Option (ReadCommitted.Commit Row A Q (Handling R))} (hp : t.procs[pid]? = some p)
    (ha : p.Advances pid p' c) : Joined k i (t.update pid p' c) := by
  have hmem : p ∈ t.procs := List.mem_of_getElem? hp
  have hcommit : ∀ c' ∈ c.toList ++ t.history, c' ∈ t.history ∨ c'.req = p.req := by
    intro c' hc'
    rcases List.mem_append.mp hc' with hc' | hc'
    · exact .inr (ha.commit c' (Option.mem_toList.mp hc')).2.1
    · exact .inl hc'
  have hold : ∀ (j : ℕ) x, (t.procs.set pid p')[j]? = some x →
      ∃ y, t.procs[j]? = some y ∧ y.req = x.req := by
    intro j x hj
    by_cases hpid : pid = j
    · subst hpid
      rw [List.getElem?_set_self (List.getElem?_eq_some_iff.mp hp).1] at hj
      cases hj
      exact ⟨p, hp, ha.req.symm⟩
    · rw [List.getElem?_set_ne hpid] at hj
      exact ⟨x, hj, rfl⟩
  refine ⟨h.owned, ?_, ?_, ?_, ?_⟩
  · rw [ReadCommitted.Server.procs_update]
    intro x hx id hid
    rcases List.mem_or_eq_of_mem_set hx with hx | rfl
    · exact h.started x hx id hid
    · rw [ha.req] at hid
      obtain ⟨q, hq, hphase⟩ := h.started p hmem id hid
      exact ⟨q, hq, fun _ => hphase ha.running⟩
  · rw [ReadCommitted.Server.procs_update]
    intro j j' x x' hx hx' id hid hid'
    obtain ⟨y, hy, hreq⟩ := hold j x hx
    obtain ⟨y', hy', hreq'⟩ := hold j' x' hx'
    exact h.single j j' y y' hy hy' id (hreq ▸ hid) (hreq' ▸ hid')
  · rw [ReadCommitted.Server.history_update]
    intro c' hc' id hid
    rcases hcommit c' hc' with hc' | hreq
    · exact h.known c' hc' id hid
    · rw [hreq] at hid
      obtain ⟨q, hq, -⟩ := h.started p hmem id hid
      exact ⟨q, hq⟩
  · intro id hhand
    -- the handler that goes on or commits has run
    refine h.reserved id ?_
    rcases hhand with ⟨x, hx, hrun, hid⟩ | ⟨c', hc', hid⟩
    · rw [ReadCommitted.Server.procs_update] at hx
      rcases List.mem_or_eq_of_mem_set hx with hx | rfl
      · exact .inl ⟨x, hx, hrun, hid⟩
      · exact .inl ⟨p, hmem, ha.running, ha.req ▸ hid⟩
    · rw [ReadCommitted.Server.history_update] at hc'
      rcases hcommit c' hc' with hc' | hreq
      · exact .inr ⟨c', hc', hid⟩
      · exact .inl ⟨p, hmem, ha.running, hreq ▸ hid⟩

/-- **One event of the server behind the interceptor.** -/
theorem Joined.handles (h : Joined k i t) {e : ReadCommitted.Event (Handling R)}
    (hstarts : Starts i t e) (hnext : t.next (fun r => code r.request) e = some t') :
    Joined k (i.note cfg (committedFor t t')) t' := by
  refine Joined.note ?_ cfg _
  rcases ReadCommitted.Server.next_running hnext with ⟨r, rfl, rfl⟩ | ⟨pid, p, p', c, hp, ha, rfl⟩
  · exact h.spawn hstarts _
  · exact h.update hp ha

/-- The interceptor and the server agree in every run. -/
theorem Together.joined (h : Together cfg code k now db₀ i t) : Joined k i t := by
  induction h with
  | start => exact .start now db₀ k
  | intercepts e _ hlearns htime hkeeps hstep ih =>
    exact ih.intercepts (fun p hp hrun id hid => ih.not_ended hp hrun hid hlearns) htime hkeeps hstep
  | handles e _ hstarts hnext ih => exact ih.handles hstarts hnext

/-- The run of the server behind the interceptor. -/
theorem Together.reachable (h : Together cfg code k now db₀ i t) :
    ReadCommitted.Reachable (fun r : Handling R => code r.request) (ReadCommitted.anytime fun _ => True)
      db₀ t := by
  induction h with
  | start => exact .start
  | intercepts _ _ _ _ _ _ ih => exact ih
  | handles e _ _ hnext ih =>
    refine ih.next e ?_ hnext
    cases e <;> trivial

/-- **There is one commit at most under a key**, however often its requests are retried, stopped and handled
at once: no two commits are of handlers of requests with the key. -/
theorem Together.commits_once (hcode : ∀ r, (code r).CommitsAtMost 1)
    (h : Together cfg code k now db₀ i t) :
    t.history.Pairwise fun c c' => ¬ (CommitsUnder i k c ∧ CommitsUnder i k c') := by
  have honce := h.reachable.once fun r => hcode r.request
  refine honce.apart.imp_of_mem fun {c c'} hc hc' hpid => ?_
  rintro ⟨⟨id, hid, hunder⟩, id', hid', hunder'⟩
  -- both requests have made the reservation that stands
  have hlast := (h.joined.reserved id (.inr ⟨c, hc, hid⟩) hunder).own
  have hlast' := (h.joined.reserved id' (.inr ⟨c', hc', hid'⟩) hunder').own
  obtain rfl : id = id' := Option.some.inj (hlast.symm.trans hlast')
  obtain ⟨p, hp, hreq, -⟩ := honce.origin c hc
  obtain ⟨p', hp', hreq', -⟩ := honce.origin c' hc'
  exact hpid (h.joined.single _ _ p p' hp hp' id (hreq ▸ hid) (hreq' ▸ hid'))

end Joined

/-! ## Runs on given events -/

section Runs

variable {cfg : Config Body V Json} {code : R → Prog Row A Q Failure V} {now : Timestamp}
  {db₀ : Store Row} {k : ReservationKey} {i i' : Server V Json} {t t' : Handlers Row A Q V R}

/-- An event in which nothing is learnt of a handler. -/
def Event.isSilent : Event Body V → Bool
  | .act _ .commit => false
  | .act _ (.resolve _) => false
  | .act _ (.reject _) => false
  | _ => true

omit [DecidableEq K] [DecidableEq A] in
theorem Event.learns_of_isSilent {e : Event Body V} (h : e.isSilent = true) : Learns t e := by
  cases e with
  | act id a =>
    cases a with
    | commit => cases h
    | resolve v => cases h
    | reject x => cases h
    | _ => trivial
  | _ => trivial

/-- An event of the interceptor in which nothing is learnt, and which the run allows. -/
def Allowed (cfg : Config Body V Json) (k : ReservationKey) (t : Handlers Row A Q V R)
    (i : Server V Json) (e : Event Body V) : Prop :=
  e.isSilent = true ∧ InTime cfg k i e ∧ KeepsHandled k i t e

instance (k : ReservationKey) (i : Server V Json) (id : RequestId) : Decidable (i.Under k id) :=
  inferInstanceAs (Decidable (∃ p ∈ i.procs id, slotOf id p.req = k))

instance (t : Handlers Row A Q V R) (id : RequestId) : Decidable (HasCommitted t id) :=
  inferInstanceAs (Decidable (∃ c ∈ t.history, c.req.origin = some id))

instance (k : ReservationKey) (t : Handlers Row A Q V R) (i : Server V Json) (e : Event Body V) :
    Decidable (Allowed cfg k t i e) :=
  inferInstanceAs (Decidable (e.isSilent = true ∧ InTime cfg k i e ∧
    ∀ id ∈ e.releases, i.Under k id → ¬ HasCommitted t id))

theorem Together.runWhile {es : List (Event Body V)} (h : Together cfg code k now db₀ i t)
    (hrun : Transitions.runWhile (step cfg) (Allowed cfg k t) i es = some i') :
    Together cfg code k now db₀ i' t := by
  induction es generalizing i with
  | nil =>
    cases hrun
    exact h
  | cons e es ih =>
    rw [Transitions.runWhile] at hrun
    split at hrun
    · rename_i hallowed
      obtain ⟨hsilent, htime, hkeeps⟩ := hallowed
      obtain ⟨i₁, hstep, hrun⟩ := Option.bind_eq_some_iff.mp hrun
      exact ih (h.intercepts e (Event.learns_of_isSilent hsilent) htime hkeeps hstep) hrun
    · cases hrun

/-- The next `n` statements of a request to the server. -/
def advance (cfg : Config Body V Json) (code : R → Prog Row A Q Failure V) (pid : ℕ) :
    ℕ → Server V Json × Handlers Row A Q V R → Option (Server V Json × Handlers Row A Q V R)
  | 0, x => some x
  | n + 1, x => (x.2.next (fun r => code r.request) (.step pid)).bind fun t' =>
      advance cfg code pid n (x.1.note cfg (committedFor x.2 t'), t')

theorem Together.advance {pid n : ℕ} (h : Together cfg code k now db₀ i t)
    (hadvance : Idempotency.advance cfg code pid n (i, t) = some (i', t')) :
    Together cfg code k now db₀ i' t' := by
  induction n generalizing i t with
  | zero =>
    cases hadvance
    exact h
  | succ n ih =>
    obtain ⟨t₁, hnext, hadvance⟩ := Option.bind_eq_some_iff.mp hadvance
    exact ih (h.handles (.step pid) trivial hnext) hadvance

end Runs

end AccountingApi.Idempotency
