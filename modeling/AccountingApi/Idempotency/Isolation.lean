import AccountingApi.Idempotency.Executions

/-!
# What the keys keep apart

As long as no handler outlives the time a request may be in flight, a replayed response is that of an
execution of the same request, and only the request that has made the reservation runs under it. What
happens to the requests of a user does not depend on those of others, whatever keys they choose.

## Main definitions

* `Timely`: no handler outlives the in-flight time
* `Server.Guarded`: replays and exclusion
* `View`: what a user can tell of the server

## Main results

* `guarded_of_reachable`: replays and exclusion in every reachable state
* `unwinds_view`: a user's requests depend on each other only
* `keys_keep_apart`: both
-/

namespace AccountingApi.Idempotency

open IdempotencyService Transitions

variable {Body Data Json : Type} {cfg : Config Body Data Json}

/-! ## Replays and exclusion -/

/-- When a reservation was inserted. -/
def Deed.insertedAt : Deed Data → Option Timestamp
  | .inserted createdAt => some createdAt
  | _ => none

/-- No request still runs when the time it may be in flight is over. -/
def Timely (cfg : Config Body Data Json) (s : Server Data Json) (_ : Event Body Data) : Prop :=
  ∀ x ∈ s.log, ∀ createdAt ∈ x.deed.insertedAt, s.Runs x.id → s.now ≤ createdAt + cfg.inflightTtlMs

instance (s : Server Data Json) (e : Event Body Data) : Decidable (Timely cfg s e) :=
  inferInstanceAs (Decidable (∀ x ∈ s.log, ∀ createdAt ∈ x.deed.insertedAt,
    s.Runs x.id → s.now ≤ createdAt + cfg.inflightTtlMs))

/-- The response is that of a request of the server that has completed the reservation. -/
def Server.Answers (cfg : Config Body Data Json) (s : Server Data Json) (k : ReservationKey)
    (record : IdempotencyKey Json) (response : Json) (httpStatus : ℕ) : Prop :=
  ∃ j q data, s.procs j = some q ∧ slotOf j q.req = k ∧ q.req.Matches record ∧
    ⟨j, q.req.key, .completed data⟩ ∈ s.log ∧ cfg.snapshot data = some response ∧
    q.req.httpStatus = httpStatus

/-- Every response in the table was written by a request that completed. -/
def Server.Answered (cfg : Config Body Data Json) (s : Server Data Json) : Prop :=
  ∀ k record response httpStatus, s.table k = some record → record.response = some response →
    record.httpStatus = some httpStatus → s.Answers cfg k record response httpStatus

/-- A stale reservation is not that of a running request. -/
theorem Timely.sparesOwner {s : Server Data Json} {e : Event Body Data} (h : Timely cfg s e)
    (hcoherent : s.Coherent) (k : ReservationKey) : SparesOwner cfg s k := by
  rintro ⟨record, hrecord, -, -, hstale⟩ owner hlast hruns
  obtain ⟨id, p, hlast', hp, -, -, hmem⟩ := hcoherent.rows k record hrecord
  obtain rfl : owner = id := Option.some.inj (hlast.symm.trans hlast')
  exact absurd (h _ hmem record.createdAt rfl hruns) (Nat.not_le.mpr hstale)

section Acted

variable {s : Server Data Json} {id : RequestId} {p : Proc Data Json} {a : Action Data}
  {phase : Phase Data Json} {t : Table Json} {deed : Option (Deed Data)} {k : ReservationKey}
  {record : IdempotencyKey Json} {response : Json} {httpStatus : ℕ}

theorem Server.Answers.acted (h : s.Answers cfg k record response httpStatus)
    (hp : s.procs id = some p) :
    (s.acted id p.req phase t deed).Answers cfg k record response httpStatus := by
  obtain ⟨j, q, data, hq, hslot, hsame, hmem, hdata, hstatus⟩ := h
  obtain ⟨q', hq', hreq⟩ := Server.exists_procs_acted hp hq
  exact ⟨j, q', data, hq', hreq ▸ hslot, hreq ▸ hsame,
    hreq ▸ Server.mem_log_acted.mpr (.inr hmem), hdata, hreq ▸ hstatus⟩

/-- The responses in the table, after an action of a request. -/
theorem Server.Answered.acted (h : s.Answered cfg) (hcoherent : s.Coherent)
    (howned : ∀ k, s.OwnedAt k) (hp : s.procs id = some p)
    (hd : Does cfg id p s.now s.table a phase t deed) :
    (s.acted id p.req phase t deed).Answered cfg := by
  intro k record response httpStatus hrecord hresponse hstatus
  have hold : s.table k = some record →
      (s.acted id p.req phase t deed).Answers cfg k record response httpStatus := fun hrecord =>
    (h k record response httpStatus hrecord hresponse hstatus).acted hp
  change t k = some record at hrecord
  cases hd with
  | inserts free waiting =>
    by_cases hk : k = slotOf id p.req
    · subst hk
      rw [Function.update_self] at hrecord
      cases hrecord
      cases hresponse
    · exact hold (by rwa [Function.update_of_ne hk] at hrecord)
  | reclaims record' waiting found stale =>
    by_cases hk : k = slotOf id p.req
    · subst hk
      rw [Function.update_self] at hrecord
      cases hrecord
    · exact hold (by rwa [Function.update_of_ne hk] at hrecord)
  | releases e running found =>
    by_cases hk : k = slotOf id p.req
    · subst hk
      rw [Function.update_self] at hrecord
      cases hrecord
    · exact hold (by rwa [Function.update_of_ne hk] at hrecord)
  | completes data record' running found =>
    by_cases hk : k = slotOf id p.req
    · subst hk
      rw [Function.update_self] at hrecord
      cases hrecord
      -- the reservation was made by the request that completes
      obtain ⟨-, -, -, hlast⟩ := howned _ id p hp rfl (by rw [running]; rfl)
      obtain ⟨j, q, hlast', hq, -, hsame, -⟩ := hcoherent.rows _ record' found
      obtain rfl : id = j := Option.some.inj (hlast.symm.trans hlast')
      obtain rfl : p = q := Option.some.inj (hp.symm.trans hq)
      refine ⟨id, _, data, Server.procs_acted_self p.req, rfl,
        ⟨hsame.method, hsame.path, hsame.requestHash⟩, ?_, hresponse, Option.some.inj hstatus⟩
      exact Server.mem_log_acted.mpr (.inl ⟨_, rfl, rfl⟩)
    · exact hold (by rwa [Function.update_of_ne hk] at hrecord)
  | waits a phase before after => exact hold hrecord
  | executes running => exact hold hrecord
  | goesOn a phase before after returned => exact hold hrecord
  | replays record' response' status found same answer hstatus' => exact hold hrecord
  | ends a phase ended answer => exact hold hrecord

end Acted

/-- The answer is that of a request of the server that has completed, for the same request. -/
def Server.Executed (cfg : Config Body Data Json) (s : Server Data Json) (id : RequestId) (r : Request)
    (response : Json) (httpStatus : ℕ) : Prop :=
  ∃ j q data, s.procs j = some q ∧ j.userId = id.userId ∧ q.req.key = r.key ∧
    q.req.method = r.method ∧ q.req.path = r.path ∧ q.req.requestHash = r.requestHash ∧
    ⟨j, q.req.key, .completed data⟩ ∈ s.log ∧ cfg.snapshot data = some response ∧
    q.req.httpStatus = httpStatus

/-- Replays and exclusion. -/
structure Server.Guarded (cfg : Config Body Data Json) (s : Server Data Json) : Prop where
  /-- A replayed response is that of a completed execution of the same request. -/
  replays : ∀ id p response httpStatus, s.procs id = some p →
    p.phase = .replayed response httpStatus → s.Executed cfg id p.req response httpStatus
  /-- A request runs under a reservation for its own endpoint and body only. -/
  excludes : ∀ id p record, s.procs id = some p → p.phase.isRunning = true →
    s.table (slotOf id p.req) = some record → p.req.Matches record
  /-- No two requests run under one key. -/
  alone : ∀ id j p q, s.procs id = some p → s.procs j = some q → p.phase.isRunning = true →
    q.phase.isRunning = true → slotOf id p.req = slotOf j q.req → id = j

section Replays

variable {s : Server Data Json} {id j : RequestId} {p q : Proc Data Json} {a : Action Data}
  {phase : Phase Data Json} {t : Table Json} {deed : Option (Deed Data)} {response : Json}
  {httpStatus : ℕ}

theorem Server.Executed.acted {r : Request} (h : s.Executed cfg j r response httpStatus)
    (hp : s.procs id = some p) :
    (s.acted id p.req phase t deed).Executed cfg j r response httpStatus := by
  obtain ⟨i, q, data, hq, huser, hkey, hmethod, hpath, hhash, hmem, hdata, hstatus⟩ := h
  obtain ⟨q', hq', hreq⟩ := Server.exists_procs_acted hp hq
  exact ⟨i, q', data, hq', huser, hreq ▸ hkey, hreq ▸ hmethod, hreq ▸ hpath, hreq ▸ hhash,
    hreq ▸ Server.mem_log_acted.mpr (.inr hmem), hdata, hreq ▸ hstatus⟩

/-- The replays after an action of a request. -/
theorem replays_acted (hanswered : s.Answered cfg)
    (h : ∀ id p response httpStatus, s.procs id = some p →
      p.phase = .replayed response httpStatus → s.Executed cfg id p.req response httpStatus)
    (hp : s.procs id = some p) (hd : Does cfg id p s.now s.table a phase t deed)
    (hq : (s.acted id p.req phase t deed).procs j = some q)
    (hphase : q.phase = .replayed response httpStatus) :
    (s.acted id p.req phase t deed).Executed cfg j q.req response httpStatus := by
  by_cases hj : j = id
  · subst hj
    rw [Server.procs_acted_self] at hq
    cases hq
    obtain rfl : phase = .replayed response httpStatus := hphase
    refine Server.Executed.acted ?_ hp
    cases hd with
    | replays record response status found same answer hstatus =>
      obtain ⟨i, q, data, hq, hslot, hsame, hmem, hdata, hanswer⟩ :=
        hanswered _ record _ _ found answer hstatus
      exact ⟨i, q, data, hq, congrArg ReservationKey.userId hslot,
        congrArg ReservationKey.key hslot, hsame.method.symm.trans same.method,
        hsame.path.symm.trans same.path, hsame.requestHash.symm.trans same.requestHash, hmem, hdata,
        hanswer⟩
    | waits a phase before after => cases after
    | goesOn a phase before after returned => cases after
    | ends a phase ended answer => exact absurd rfl (answer response httpStatus)
  · rw [Server.procs_acted_of_ne hj] at hq
    exact (h j q response httpStatus hq hphase).acted hp

end Replays

/-- **Replays and exclusion in every reachable state**, as long as no handler outlives the in-flight
time. -/
theorem guarded_of_reachable {now : Timestamp} {s : Server Data Json}
    (h : Reachable (step cfg) (Timely cfg) (.start now) s) : s.Guarded cfg := by
  have hinv : s.Coherent ∧ (∀ k, s.OwnedAt k) ∧ s.Answered cfg ∧
      ∀ id p response httpStatus, s.procs id = some p →
        p.phase = .replayed response httpStatus → s.Executed cfg id p.req response httpStatus := by
    refine h.invariant (I := fun s => s.Coherent ∧ (∀ k, s.OwnedAt k) ∧ s.Answered cfg ∧
      ∀ id p response httpStatus, s.procs id = some p →
        p.phase = .replayed response httpStatus → s.Executed cfg id p.req response httpStatus) ?_ ?_
    · exact ⟨.start now, fun k => .start now k, nofun, nofun⟩
    · rintro s e s' ⟨hcoherent, howned, hanswered, hreplays⟩ htimely hstep
      have hs := happens_of_step hstep
      refine ⟨hcoherent.step hs, fun k => (howned k).step ?_ hs, ?_⟩
      · exact fun _ _ _ _ _ => htimely.sparesOwner hcoherent k
      cases hs with
      | tick d => exact ⟨hanswered, hreplays⟩
      | arrives id req r new =>
        have hold : ∀ {j q}, s.procs j = some q →
            Function.update s.procs id (some ⟨r, .reserving true⟩) j = some q := by
          intro j q hq
          have hj : j ≠ id := by
            rintro rfl
            rw [new] at hq
            cases hq
          rwa [Function.update_of_ne hj]
        refine ⟨fun k record response httpStatus hrecord hresponse hstatus => ?_, ?_⟩
        · obtain ⟨j, q, data, hq, hrest⟩ :=
            hanswered k record response httpStatus hrecord hresponse hstatus
          exact ⟨j, q, data, hold hq, hrest⟩
        · intro j q response httpStatus hq hphase
          change Function.update s.procs id _ j = some q at hq
          by_cases hj : j = id
          · subst hj
            rw [Function.update_self] at hq
            cases hq
            cases hphase
          · rw [Function.update_of_ne hj] at hq
            obtain ⟨i, q', data, hq', hrest⟩ := hreplays j q response httpStatus hq hphase
            exact ⟨i, q', data, hold hq', hrest⟩
      | acts id a p phase t deed current does =>
        exact ⟨hanswered.acted hcoherent howned current does,
          fun _ _ _ _ => replays_acted hanswered hreplays current does⟩
      | purge =>
        refine ⟨fun k record response httpStatus hrecord => ?_, hreplays⟩
        exact hanswered k record response httpStatus (Option.filter_eq_some_iff.mp hrecord).1
  obtain ⟨hcoherent, howned, -, hreplays⟩ := hinv
  refine ⟨hreplays, fun id p record hp hrunning hrecord => ?_, fun id j p q hp hq hrun hrun' hk => ?_⟩
  · obtain ⟨-, -, -, hlast⟩ := howned _ id p hp rfl hrunning
    obtain ⟨j, q, hlast', hq, -, hsame, -⟩ := hcoherent.rows _ record hrecord
    obtain rfl : id = j := Option.some.inj (hlast.symm.trans hlast')
    obtain rfl : p = q := Option.some.inj (hp.symm.trans hq)
    exact hsame
  · obtain ⟨-, -, -, hlast⟩ := howned _ id p hp rfl hrun
    obtain ⟨-, -, -, hlast'⟩ := howned _ j q hq hk.symm hrun'
    exact Option.some.inj (hlast.symm.trans hlast')

/-! ## Isolation -/

/-- The user whose request an event is about. -/
def Event.user : Event Body Data → Option Uuid
  | .arrive id _ | .act id _ => some id.userId
  | .tick _ | .purge => none

/-- The event is about no request of another user. -/
def Visible (u : Uuid) (e : Event Body Data) : Prop := ∀ v ∈ e.user, v = u

instance (u : Uuid) (e : Event Body Data) : Decidable (Visible u e) :=
  inferInstanceAs (Decidable (∀ v ∈ e.user, v = u))

/-- What a user can tell of the server: the clock, the own reservations, the own requests with how far
they have come and what they were answered, and what they have done. -/
@[ext] structure View (Data Json : Type) where
  now : Timestamp
  table : String → Option (IdempotencyKey Json)
  procs : ℕ → Option (Proc Data Json)
  log : List (Entry Data)

def Server.view (u : Uuid) (s : Server Data Json) : View Data Json where
  now := s.now
  table := fun key => s.table ⟨u, key⟩
  procs := fun n => s.procs ⟨u, n⟩
  log := s.log.filter fun x => x.id.userId = u

/-- The tables have the same reservations of the user. -/
def SameFor (u : Uuid) (t t' : Table Json) : Prop := ∀ key, t ⟨u, key⟩ = t' ⟨u, key⟩

theorem SameFor.update {u : Uuid} {t t' : Table Json} (h : SameFor u t t') (k : ReservationKey)
    (record : Option (IdempotencyKey Json)) :
    SameFor u (Function.update t k record) (Function.update t' k record) := by
  intro key
  by_cases hk : (⟨u, key⟩ : ReservationKey) = k
  · rw [hk, Function.update_self, Function.update_self]
  · rw [Function.update_of_ne hk, Function.update_of_ne hk, h key]

section Step

variable {id : RequestId} {p : Proc Data Json} {now : Timestamp} {t t₁ t' : Table Json}
  {a : Action Data} {phase : Phase Data Json} {deed : Option (Deed Data)}

/-- **An action** depends on the reservations of its user only. -/
theorem Proc.step_congr (ht : SameFor id.userId t t₁)
    (h : p.step cfg id now t a = some (phase, t', deed)) :
    ∃ t₁', p.step cfg id now t₁ a = some (phase, t₁', deed) ∧ SameFor id.userId t' t₁' := by
  obtain ⟨r, before⟩ := p
  have hslot : t (slotOf id r) = t₁ (slotOf id r) := ht r.key
  cases a with
  | create =>
    cases before with
    | reserving allowReclaim =>
      simp only [Proc.step, create, ← hslot] at h ⊢
      by_cases hfree : t (slotOf id r) = none
      · rw [if_pos hfree] at h
        cases h
        rw [if_pos hfree]
        exact ⟨_, rfl, ht.update _ _⟩
      · rw [if_neg hfree] at h
        cases h
        rw [if_neg hfree]
        exact ⟨_, rfl, ht⟩
    | _ => cases h
  | find =>
    cases before with
    | resolving allowReclaim =>
      simp only [Proc.step, ← hslot] at h ⊢
      cases hresolve : resolveExisting cfg r allowReclaim now (t (slotOf id r)) with
      | fail e =>
        rw [hresolve] at h
        cases h
        exact ⟨_, rfl, ht⟩
      | reclaim =>
        rw [hresolve] at h
        cases h
        exact ⟨_, rfl, ht⟩
      | replay response httpStatus =>
        rw [hresolve] at h
        cases h
        exact ⟨_, rfl, ht⟩
    | _ => cases h
  | reclaim =>
    cases before with
    | reclaiming =>
      simp only [Proc.step, IdempotencyService.reclaim, ← hslot] at h ⊢
      by_cases hfound : ∃ record ∈ t (slotOf id r), Reclaimable cfg now record
      · rw [if_pos hfound] at h
        cases h
        rw [if_pos hfound]
        exact ⟨_, rfl, ht.update _ _⟩
      · rw [if_neg hfound] at h
        cases h
        rw [if_neg hfound]
        exact ⟨_, rfl, ht⟩
    | _ => cases h
  | complete =>
    cases before with
    | completing data =>
      simp only [Proc.step, IdempotencyService.complete, ← hslot] at h ⊢
      cases hfound : t (slotOf id r) with
      | none =>
        rw [hfound] at h
        cases h
        exact ⟨_, rfl, ht⟩
      | some record =>
        rw [hfound] at h
        cases h
        exact ⟨_, rfl, ht.update _ _⟩
    | _ => cases h
  | release =>
    cases before with
    | releasing e =>
      simp only [Proc.step, IdempotencyService.release, ← hslot] at h ⊢
      cases h
      exact ⟨_, rfl, ht.update _ _⟩
    | _ => cases h
  | commit =>
    cases before with
    | executing committed =>
      cases committed with
      | false =>
        cases h
        exact ⟨_, rfl, ht⟩
      | true => cases h
    | _ => cases h
  | resolve data =>
    cases before with
    | executing committed =>
      cases h
      exact ⟨_, rfl, ht⟩
    | _ => cases h
  | reject e =>
    cases before with
    | executing committed =>
      cases h
      exact ⟨_, rfl, ht⟩
    | _ => cases h
  | completeFails e =>
    cases before with
    | completing data =>
      cases h
      exact ⟨_, rfl, ht⟩
    | _ => cases h
  | releaseFails =>
    cases before with
    | releasing e =>
      cases h
      exact ⟨_, rfl, ht⟩
    | _ => cases h
  | stop =>
    simp only [Proc.step] at h ⊢
    split at h
    · cases h
    · rename_i hended
      cases h
      rw [if_neg hended]
      exact ⟨_, rfl, ht⟩

/-- **An action** leaves the reservations of other users alone. -/
theorem Does.sameFor {u : Uuid} (hd : Does cfg id p now t a phase t' deed) (hu : id.userId ≠ u) :
    SameFor u t' t := by
  have hk : ∀ key, (⟨u, key⟩ : ReservationKey) ≠ slotOf id p.req := fun key h =>
    hu (congrArg ReservationKey.userId h).symm
  intro key
  cases hd with
  | inserts free waiting => exact Function.update_of_ne (hk key) _ _
  | reclaims record waiting found stale => exact Function.update_of_ne (hk key) _ _
  | completes data record running found => exact Function.update_of_ne (hk key) _ _
  | releases e running found => exact Function.update_of_ne (hk key) _ _
  | waits a phase before after => rfl
  | executes running => rfl
  | goesOn a phase before after returned => rfl
  | replays record response status found same answer hstatus => rfl
  | ends a phase ended answer => rfl

end Step

theorem procs_update_of_ne {u : Uuid} {id : RequestId} {f : RequestId → Option (Proc Data Json)}
    {p : Option (Proc Data Json)} (hu : id.userId ≠ u) (n : ℕ) :
    Function.update f id p ⟨u, n⟩ = f ⟨u, n⟩ :=
  Function.update_of_ne (fun h => hu (congrArg RequestId.userId h).symm) _ _

theorem procs_update_congr {u : Uuid} {f g : RequestId → Option (Proc Data Json)}
    (h : ∀ n, f ⟨u, n⟩ = g ⟨u, n⟩) (id : RequestId) (p : Option (Proc Data Json)) (n : ℕ) :
    Function.update f id p ⟨u, n⟩ = Function.update g id p ⟨u, n⟩ := by
  by_cases hn : (⟨u, n⟩ : RequestId) = id
  · rw [hn, Function.update_self, Function.update_self]
  · rw [Function.update_of_ne hn, Function.update_of_ne hn, h n]

/-- **A user's requests depend on each other only**, on the clock and on the purges. -/
theorem unwinds_view (cfg : Config Body Data Json) (u : Uuid) :
    Unwinds (step cfg) (Visible u) (Server.view u) where
  hidden := by
    intro s e s' he hstep
    cases happens_of_step hstep with
    | tick d => exact absurd nofun he
    | purge => exact absurd nofun he
    | arrives id req r new =>
      have hu : id.userId ≠ u := fun hu => he fun v hv => Option.some.inj hv ▸ hu
      exact View.ext rfl rfl (funext fun n => procs_update_of_ne hu n) rfl
    | acts id a p phase t deed current does =>
      have hu : id.userId ≠ u := fun hu => he fun v hv => Option.some.inj hv ▸ hu
      refine View.ext rfl (funext fun key => does.sameFor hu key)
        (funext fun n => procs_update_of_ne hu n) ?_
      cases deed with
      | none => rfl
      | some d =>
        change List.filter (fun x : Entry Data => decide (x.id.userId = u)) (⟨id, p.req.key, d⟩ :: s.log)
          = List.filter (fun x : Entry Data => decide (x.id.userId = u)) s.log
        exact List.filter_cons_of_neg (by simpa using hu)
  shown := by
    intro s t e s' he hst hstep
    obtain ⟨hnow, htable, hprocs, hlog⟩ := View.mk.inj hst
    have htable' : SameFor u s.table t.table := fun key => congrFun htable key
    have hprocs' : ∀ n, s.procs ⟨u, n⟩ = t.procs ⟨u, n⟩ := fun n => congrFun hprocs n
    cases e with
    | tick d =>
      cases hstep
      exact ⟨_, rfl, View.ext (congrArg (· + d) hnow) htable hprocs hlog⟩
    | purge =>
      cases hstep
      refine ⟨_, rfl, View.ext hnow (funext fun key => ?_) hprocs hlog⟩
      change (s.table _).filter _ = (t.table _).filter _
      rw [htable' key, hnow]
    | arrive id req =>
      obtain rfl : id.userId = u := he id.userId rfl
      have hid : s.procs id = t.procs id := hprocs' id.n
      simp only [step, hid] at hstep ⊢
      split at hstep
      · rename_i hnew
        obtain ⟨p, hp, rfl⟩ := Option.map_eq_some_iff.mp hstep
        rw [if_pos hnew, hp]
        exact ⟨_, rfl, View.ext hnow htable (funext fun n => procs_update_congr hprocs' id _ n) hlog⟩
      · cases hstep
    | act id a =>
      obtain rfl : id.userId = u := he id.userId rfl
      have hid : s.procs id = t.procs id := hprocs' id.n
      simp only [step, Option.bind_eq_bind, Option.bind_eq_some_iff] at hstep
      obtain ⟨p, hp, ⟨phase, t', deed⟩, hact, hs'⟩ := hstep
      cases hs'
      obtain ⟨t₁', hact', hsame⟩ := Proc.step_congr htable' hact
      have hstep' : step cfg t (.act id a) = some (t.acted id p.req phase t₁' deed) := by
        simp only [step, ← hid, hp, ← hnow, hact', Option.bind_eq_bind, Option.bind_some]
        rw [Server.acted, ← hnow]
        rfl
      refine ⟨_, hstep', View.ext hnow (funext hsame)
        (funext fun n => procs_update_congr hprocs' id _ n) ?_⟩
      cases deed with
      | none => exact hlog
      | some d =>
        change List.filter (fun x : Entry Data => decide (x.id.userId = id.userId))
            (⟨id, p.req.key, d⟩ :: s.log) =
          List.filter (fun x : Entry Data => decide (x.id.userId = id.userId))
            (⟨id, p.req.key, d⟩ :: t.log)
        rw [List.filter_cons_of_pos (by simp), List.filter_cons_of_pos (by simp)]
        exact congrArg _ hlog

/-- **The keys keep requests apart.** In every run in which no handler outlives the in-flight time, replays
are of completed executions of the same request, and a request runs only under a reservation of its own.
In every run at all, the requests of other users can be left out or changed without a change for the
user. -/
theorem keys_keep_apart (cfg : Config Body Data Json) (now : Timestamp) :
    (∀ s, Reachable (step cfg) (Timely cfg) (.start now) s → s.Guarded cfg) ∧
      (∀ u es s, run (step cfg) (.start now) es = some s →
        ∃ s', run (step cfg) (.start now) (es.filter fun e => Visible u e) = some s' ∧
          s.view u = s'.view u) ∧
      ∀ u es es' s s', run (step cfg) (.start now) es = some s →
        run (step cfg) (.start now) es' = some s' →
        es.filter (fun e => Visible u e) = es'.filter (fun e => Visible u e) →
        s.view u = s'.view u :=
  ⟨fun _ h => guarded_of_reachable h,
    fun u _ _ hrun => (unwinds_view cfg u).run_filter rfl hrun,
    fun u _ _ _ _ hrun hrun' hes => (unwinds_view cfg u).view_eq rfl hrun hrun' hes⟩

namespace Sample

/-- A request of another user with the same key, which fails between the requests of the first one. -/
def crowded : List (Event String ℕ) := [
  .arrive ⟨2, 0⟩ { request with user := some 2 }, .act ⟨2, 0⟩ .create,
  .arrive ⟨1, 0⟩ request, .act ⟨1, 0⟩ .create, .arrive ⟨1, 1⟩ request, .act ⟨1, 1⟩ .create,
  .act ⟨2, 0⟩ (.reject (.internal "out of memory")), .act ⟨2, 0⟩ .release,
  .act ⟨1, 0⟩ .commit, .act ⟨1, 0⟩ (.resolve 7), .act ⟨1, 0⟩ .complete, .act ⟨1, 1⟩ .find]

end Sample

theorem keys_keep_apart_retried :
    (Sample.server (Timely Sample.config) Sample.retried).Guarded Sample.config ∧
      ∃ s s', run (step Sample.config) (.start 0) Sample.crowded = some s ∧
        run (step Sample.config) (.start 0) Sample.retried = some s' ∧ s.view 1 = s'.view 1 := by
  obtain ⟨hguarded, -, hsame⟩ := keys_keep_apart Sample.config 0
  have hcrowded : (run (step Sample.config) (.start 0) Sample.crowded).isSome = true := by
    decide +kernel
  have hretried : (run (step Sample.config) (.start 0) Sample.retried).isSome = true := by
    decide +kernel
  obtain ⟨s, hs⟩ := Option.isSome_iff_exists.mp hcrowded
  obtain ⟨s', hs'⟩ := Option.isSome_iff_exists.mp hretried
  exact ⟨hguarded _ (Sample.reachable _ (by decide +kernel)), s, s', hs, hs',
    hsame 1 _ _ s s' hs hs' rfl⟩

end AccountingApi.Idempotency
