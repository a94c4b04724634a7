import AccountingApi.Idempotency.Server

/-!
# Who has made a reservation

A reservation names its user and its key, not the request that has inserted it: that is the last one that
has inserted under the key. As long as no reservation is reclaimed from a request that still runs, every
running request finds its own.

## Main definitions

* `Does`: what one action of a request does
* `lastInserter`: the request that has made the reservation under a key
* `Server.Coherent`: how the table, the requests and their deeds agree
* `Server.OwnedAt`: every running request with a key has the reservation under it

## Main results

* `Proc.does_of_step`: the actions are as specified
* `Server.Coherent.step`, `Server.OwnedAt.step`: what one event keeps
-/

namespace AccountingApi.Idempotency

open IdempotencyService

variable {Body Data Json : Type} {cfg : Config Body Data Json}

/-! ## Actions -/

/-- The request is before its handler. -/
def Phase.isWaiting : Phase Data Json → Bool
  | .reserving _ | .resolving _ | .reclaiming => true
  | _ => false

/-- The reservation is that of the request. -/
structure Request.Matches (r : Request) (record : IdempotencyKey Json) : Prop where
  method : record.method = r.method
  path : record.path = r.path
  requestHash : record.requestHash = r.requestHash

/-- The reservation of a request, as it is inserted. -/
def Request.reservation (r : Request) (now : Timestamp) : IdempotencyKey Json :=
  ⟨r.method, r.path, r.requestHash, none, none, now, none⟩

/-- The reservation with the response of a request. -/
def Request.completed (r : Request) (cfg : Config Body Data Json) (data : Data) (now : Timestamp)
    (record : IdempotencyKey Json) : IdempotencyKey Json :=
  { record with
    response := cfg.snapshot data, httpStatus := some r.httpStatus, completedAt := some now }

/-- What one action of a request does: the phase it leads to, the reservations and the deed. -/
inductive Does (cfg : Config Body Data Json) (id : RequestId) (p : Proc Data Json) (now : Timestamp)
    (t : Table Json) : Action Data → Phase Data Json → Table Json → Option (Deed Data) → Prop
  | inserts (free : t (slotOf id p.req) = none) (waiting : p.phase.isWaiting = true) :
      Does cfg id p now t .create (.executing false)
        (Function.update t (slotOf id p.req) (some (p.req.reservation now))) (some (.inserted now))
  | waits (a : Action Data) (phase : Phase Data Json) (before : p.phase.isWaiting = true)
      (after : phase.isWaiting = true) : Does cfg id p now t a phase t none
  | reclaims (record : IdempotencyKey Json) (waiting : p.phase.isWaiting = true)
      (found : t (slotOf id p.req) = some record) (stale : Reclaimable cfg now record) :
      Does cfg id p now t .reclaim (.reserving false) (Function.update t (slotOf id p.req) none) none
  | executes (running : p.phase = .executing false) :
      Does cfg id p now t .commit (.executing true) t (some .executed)
  | goesOn (a : Action Data) (phase : Phase Data Json) (before : p.phase.isRunning = true)
      (after : phase.isRunning = true) (returned : ∀ b, phase ≠ .executing b) :
      Does cfg id p now t a phase t none
  | completes (data : Data) (record : IdempotencyKey Json) (running : p.phase = .completing data)
      (found : t (slotOf id p.req) = some record) :
      Does cfg id p now t .complete (.done data)
        (Function.update t (slotOf id p.req) (some (p.req.completed cfg data now record)))
        (some (.completed data))
  | releases (e : Failure) (running : p.phase = .releasing e)
      (found : (t (slotOf id p.req)).isSome = true) :
      Does cfg id p now t .release (.failed e) (Function.update t (slotOf id p.req) none)
        (some .released)
  | replays (record : IdempotencyKey Json) (response : Json) (httpStatus : ℕ)
      (found : t (slotOf id p.req) = some record) (same : p.req.Matches record)
      (answer : record.response = some response) (status : record.httpStatus = some httpStatus) :
      Does cfg id p now t .find (.replayed response httpStatus) t none
  | ends (a : Action Data) (phase : Phase Data Json) (ended : phase.hasEnded = true)
      (answer : ∀ response httpStatus, phase ≠ .replayed response httpStatus) :
      Does cfg id p now t a phase t none

/-- A replay is of a completed reservation of the same request. -/
theorem eq_replay_of_resolveExisting {r : Request} {allowReclaim : Bool} {now : Timestamp}
    {record : Option (IdempotencyKey Json)} {response : Json} {httpStatus : ℕ}
    (h : resolveExisting cfg r allowReclaim now record = .replay response httpStatus) :
    ∃ record', record = some record' ∧ r.Matches record' ∧ record'.response = some response ∧
      record'.httpStatus = some httpStatus := by
  cases record with
  | none => cases h
  | some record =>
    rw [resolveExisting] at h
    split at h
    · cases h
    rename_i hendpoint
    obtain ⟨hmethod, hpath⟩ := not_or.mp hendpoint
    split at h
    · cases h
    rename_i hhash
    refine ⟨record, rfl, ⟨not_not.mp hmethod, not_not.mp hpath, not_not.mp hhash⟩, ?_⟩
    split at h
    · rename_i hresponse hstatus
      cases h
      exact ⟨hresponse, hstatus⟩
    · split at h
      · cases h
      · cases h

/-- **The actions of a request** are as specified. -/
theorem Proc.does_of_step {id : RequestId} {p : Proc Data Json} {now : Timestamp} {t t' : Table Json}
    {a : Action Data} {phase : Phase Data Json} {deed : Option (Deed Data)}
    (h : p.step cfg id now t a = some (phase, t', deed)) : Does cfg id p now t a phase t' deed := by
  obtain ⟨r, before⟩ := p
  cases a with
  | create =>
    cases before with
    | reserving allowReclaim =>
      simp only [Proc.step, create] at h
      by_cases hfree : t (slotOf id r) = none
      · rw [if_pos hfree] at h
        cases h
        exact .inserts hfree rfl
      · rw [if_neg hfree] at h
        cases h
        exact .waits _ _ rfl rfl
    | _ => cases h
  | find =>
    cases before with
    | resolving allowReclaim =>
      simp only [Proc.step] at h
      split at h
      · cases h
        exact .ends _ _ rfl nofun
      · cases h
        exact .waits _ _ rfl rfl
      · rename_i hreplay
        cases h
        obtain ⟨record, hrecord, hsame, hanswer, hstatus⟩ := eq_replay_of_resolveExisting hreplay
        exact .replays record _ _ hrecord hsame hanswer hstatus
    | _ => cases h
  | reclaim =>
    cases before with
    | reclaiming =>
      simp only [Proc.step, IdempotencyService.reclaim] at h
      split at h
      · rename_i hreclaim
        split at hreclaim
        · rename_i hfound
          cases h
          cases hreclaim
          obtain ⟨record, hrecord, hstale⟩ := hfound
          exact .reclaims record rfl hrecord hstale
        · cases hreclaim
      · cases h
        exact .ends _ _ rfl nofun
    | _ => cases h
  | commit =>
    cases before with
    | executing committed =>
      cases committed with
      | false =>
        cases h
        exact .executes rfl
      | true => cases h
    | _ => cases h
  | resolve data =>
    cases before with
    | executing committed =>
      cases h
      exact .goesOn _ _ rfl rfl nofun
    | _ => cases h
  | reject e =>
    cases before with
    | executing committed =>
      cases h
      exact .goesOn _ _ rfl rfl nofun
    | _ => cases h
  | complete =>
    cases before with
    | completing data =>
      simp only [Proc.step, IdempotencyService.complete] at h
      cases hfound : t (slotOf id r) with
      | none =>
        rw [hfound] at h
        cases h
        exact .goesOn _ _ rfl rfl nofun
      | some record =>
        rw [hfound] at h
        cases h
        exact .completes data record rfl hfound
    | _ => cases h
  | completeFails e =>
    cases before with
    | completing data =>
      cases h
      exact .goesOn _ _ rfl rfl nofun
    | _ => cases h
  | release =>
    cases before with
    | releasing e =>
      simp only [Proc.step, IdempotencyService.release] at h
      by_cases hfound : (t (slotOf id r)).isSome = true
      · rw [if_pos hfound] at h
        cases h
        exact .releases e rfl hfound
      · -- there is nothing to delete
        rw [if_neg hfound] at h
        cases h
        have hnone : t (slotOf id r) = none := by simpa using hfound
        have hsame := Function.update_eq_self (slotOf id r) t
        rw [hnone] at hsame
        rw [hsame]
        exact .ends _ _ rfl nofun
    | _ => cases h
  | releaseFails =>
    cases before with
    | releasing e =>
      cases h
      exact .ends _ _ rfl nofun
    | _ => cases h
  | stop =>
    simp only [Proc.step] at h
    split at h
    · cases h
    · cases h
      exact .ends _ _ rfl nofun

/-! ## The request that has made a reservation -/

/-- The request that was the last one to insert under the key. -/
def lastInserter (k : ReservationKey) : List (Entry Data) → Option RequestId
  | [] => none
  | x :: l =>
    match x.deed with
    | .inserted _ => if x.slot = k then some x.id else lastInserter k l
    | _ => lastInserter k l

theorem lastInserter_cons {k : ReservationKey} {x : Entry Data} {l : List (Entry Data)}
    (h : ∀ t, x.deed ≠ .inserted t) : lastInserter k (x :: l) = lastInserter k l := by
  rw [lastInserter]
  split
  · rename_i t ht
    exact absurd ht (h t)
  · rfl

/-- A running request of the server. -/
def Server.Runs (s : Server Data Json) (id : RequestId) : Prop :=
  ∃ p ∈ s.procs id, p.phase.isRunning = true

instance (s : Server Data Json) (id : RequestId) : Decidable (s.Runs id) :=
  inferInstanceAs (Decidable (∃ p ∈ s.procs id, p.phase.isRunning = true))

/-! ## Events -/

/-- The server after an action of a request. -/
def Server.acted (s : Server Data Json) (id : RequestId) (r : Request) (phase : Phase Data Json)
    (t : Table Json) (deed : Option (Deed Data)) : Server Data Json where
  now := s.now
  table := t
  procs := Function.update s.procs id (some ⟨r, phase⟩)
  log := (deed.map fun deed => ⟨id, r.key, deed⟩).toList ++ s.log

/-- What an event does. -/
inductive Happens (cfg : Config Body Data Json) (s : Server Data Json) :
    Event Body Data → Server Data Json → Prop
  | tick (d : ℕ) : Happens cfg s (.tick d) { s with now := s.now + d }
  | arrives (id : RequestId) (req : IdempotentRequest Body) (r : Request)
      (new : s.procs id = none) : Happens cfg s (.arrive id req)
        { s with procs := Function.update s.procs id (some ⟨r, .reserving true⟩) }
  | acts (id : RequestId) (a : Action Data) (p : Proc Data Json) (phase : Phase Data Json)
      (t : Table Json) (deed : Option (Deed Data)) (current : s.procs id = some p)
      (does : Does cfg id p s.now s.table a phase t deed) :
      Happens cfg s (.act id a) (s.acted id p.req phase t deed)
  | purge : Happens cfg s .purge { s with table := purgeCompleted cfg s.table s.now }

/-- **The events** are as specified. -/
theorem happens_of_step {s s' : Server Data Json} {e : Event Body Data}
    (h : step cfg s e = some s') : Happens cfg s e s' := by
  cases e with
  | tick d =>
    cases h
    exact .tick d
  | arrive id req =>
    simp only [step, Proc.arrive] at h
    split at h
    · rename_i hnew
      obtain ⟨p, hp, rfl⟩ := Option.map_eq_some_iff.mp h
      split at hp
      · split at hp
        · cases hp
          exact .arrives id req _ (Option.isNone_iff_eq_none.mp hnew)
        · cases hp
      · cases hp
    · cases h
  | act id a =>
    simp only [step, Option.bind_eq_bind, Option.bind_eq_some_iff] at h
    obtain ⟨p, hp, ⟨phase, t, deed⟩, hstep, hs'⟩ := h
    cases hs'
    exact .acts id a p phase t deed hp (Proc.does_of_step hstep)
  | purge =>
    cases h
    exact .purge

section Acted

variable {s : Server Data Json} {id j : RequestId} {p q : Proc Data Json} {phase : Phase Data Json}
  {t : Table Json} {deed : Option (Deed Data)}

theorem Server.procs_acted_self (r : Request) :
    (s.acted id r phase t deed).procs id = some ⟨r, phase⟩ := Function.update_self _ _ _

theorem Server.procs_acted_of_ne {r : Request} (h : j ≠ id) :
    (s.acted id r phase t deed).procs j = s.procs j := Function.update_of_ne h _ _

/-- A request stays what it is. -/
theorem Server.exists_procs_acted (hp : s.procs id = some p) (hq : s.procs j = some q) :
    ∃ q', (s.acted id p.req phase t deed).procs j = some q' ∧ q'.req = q.req := by
  by_cases hj : j = id
  · subst hj
    obtain rfl : p = q := Option.some.inj (hp ▸ hq)
    exact ⟨_, procs_acted_self p.req, rfl⟩
  · exact ⟨q, by rw [procs_acted_of_ne hj, hq], rfl⟩

theorem Server.mem_log_acted {x : Entry Data} {r : Request} :
    x ∈ (s.acted id r phase t deed).log ↔
      (∃ d, deed = some d ∧ x = ⟨id, r.key, d⟩) ∨ x ∈ s.log := by
  cases deed with
  | none => simp [Server.acted]
  | some d => simp [Server.acted]

end Acted

/-! ## Table, requests and deeds -/

/-- The reservation was made by a request of the server, and is its own. -/
def Server.MadeBy (s : Server Data Json) (k : ReservationKey) (record : IdempotencyKey Json) : Prop :=
  ∃ id p, lastInserter k s.log = some id ∧ s.procs id = some p ∧ slotOf id p.req = k ∧
    p.req.Matches record ∧ ⟨id, p.req.key, .inserted record.createdAt⟩ ∈ s.log

/-- The table, the requests and their deeds agree. -/
structure Server.Coherent (s : Server Data Json) : Prop where
  entries : ∀ x ∈ s.log, ∃ p, s.procs x.id = some p ∧ p.req.key = x.key
  waiting : ∀ id p, s.procs id = some p → p.phase.isWaiting = true → ∀ x ∈ s.log, x.id ≠ id
  pending : ∀ id p, s.procs id = some p → p.phase = .executing false →
    ∀ x ∈ s.log, x.id = id → x.deed ≠ .executed
  rows : ∀ k record, s.table k = some record → s.MadeBy k record

namespace Server.Coherent

variable {s : Server Data Json}

theorem start (now : Timestamp) : (Server.start now : Server Data Json).Coherent where
  entries := nofun
  waiting := nofun
  pending := nofun
  rows := nofun

/-- A request comes in. -/
theorem arrives (h : s.Coherent) {id : RequestId} (hnew : s.procs id = none) (r : Request) :
    Server.Coherent
      { s with procs := Function.update s.procs id (some (⟨r, .reserving true⟩ : Proc Data Json)) } := by
  have hnot : ∀ x ∈ s.log, x.id ≠ id := by
    rintro x hx rfl
    obtain ⟨p, hp, -⟩ := h.entries x hx
    rw [hnew] at hp
    cases hp
  have hold : ∀ {j q}, j ≠ id → (Function.update s.procs id (some ⟨r, .reserving true⟩) j = some q ↔
      s.procs j = some q) := fun hj => by rw [Function.update_of_ne hj]
  constructor
  · intro x hx
    obtain ⟨p, hp, hkey⟩ := h.entries x hx
    exact ⟨p, (hold (hnot x hx)).mpr hp, hkey⟩
  · intro j q hq hwaiting x hx
    by_cases hj : j = id
    · exact hj ▸ hnot x hx
    · exact h.waiting j q ((hold hj).mp hq) hwaiting x hx
  · intro j q hq hphase x hx hxj
    by_cases hj : j = id
    · exact absurd (hxj.trans hj) (hnot x hx)
    · exact h.pending j q ((hold hj).mp hq) hphase x hx hxj
  · intro k record hrecord
    obtain ⟨j, q, hlast, hq, hslot, hsame, hmem⟩ := h.rows k record hrecord
    exact ⟨j, q, hlast, (hold (hnot _ hmem)).mpr hq, hslot, hsame, hmem⟩

section Acts

variable {id : RequestId} {p : Proc Data Json} {a : Action Data} {phase : Phase Data Json}
  {t : Table Json} {deed : Option (Deed Data)}

/-- A deed that inserts nothing leaves the reservations to those who have made them. -/
theorem madeBy_acted (hp : s.procs id = some p) {k : ReservationKey} {record : IdempotencyKey Json}
    (h : s.MadeBy k record) (hdeed : ∀ d ∈ deed, ∀ now, d ≠ .inserted now) :
    (s.acted id p.req phase t deed).MadeBy k record := by
  obtain ⟨j, q, hlast, hq, hslot, hsame, hmem⟩ := h
  obtain ⟨q', hq', hreq⟩ := Server.exists_procs_acted hp hq
  refine ⟨j, q', ?_, hq', hreq ▸ hslot, hreq ▸ hsame, hreq ▸ Server.mem_log_acted.mpr (.inr hmem)⟩
  cases deed with
  | none => exact hlast
  | some d => exact (lastInserter_cons (hdeed d rfl)).trans hlast

/-- The entries after an action of a request. -/
theorem entries_acted (h : s.Coherent) (hp : s.procs id = some p) :
    ∀ x ∈ (s.acted id p.req phase t deed).log,
      ∃ q, (s.acted id p.req phase t deed).procs x.id = some q ∧ q.req.key = x.key := by
  intro x hx
  rcases Server.mem_log_acted.mp hx with ⟨d, -, rfl⟩ | hx
  · exact ⟨_, Server.procs_acted_self p.req, rfl⟩
  · obtain ⟨q, hq, hkey⟩ := h.entries x hx
    obtain ⟨q', hq', hreq⟩ := Server.exists_procs_acted hp hq
    exact ⟨q', hq', by rw [hreq, hkey]⟩

theorem waiting_acted (h : s.Coherent) (hp : s.procs id = some p)
    (hd : Does cfg id p s.now s.table a phase t deed) (j : RequestId) (q : Proc Data Json)
    (hq : (s.acted id p.req phase t deed).procs j = some q) (hwaiting : q.phase.isWaiting = true) :
    ∀ x ∈ (s.acted id p.req phase t deed).log, x.id ≠ j := by
  by_cases hj : j = id
  · subst hj
    rw [Server.procs_acted_self] at hq
    cases hq
    cases hd with
    | waits a phase before after => exact h.waiting j p hp before
    | reclaims record waiting found stale => exact h.waiting j p hp waiting
    | goesOn a phase before after returned =>
      cases phase with
      | executing b => cases hwaiting
      | completing data => cases hwaiting
      | releasing e => cases hwaiting
      | _ => cases after
    | ends a phase ended answer =>
      cases phase with
      | reserving b => cases ended
      | resolving b => cases ended
      | reclaiming => cases ended
      | _ => cases hwaiting
    | inserts free waiting => cases hwaiting
    | executes running => cases hwaiting
    | completes data record running found => cases hwaiting
    | releases e running found => cases hwaiting
    | replays record response status found same answer hstatus => cases hwaiting
  · rw [Server.procs_acted_of_ne hj] at hq
    intro x hx
    rcases Server.mem_log_acted.mp hx with ⟨d, -, rfl⟩ | hx
    · exact Ne.symm hj
    · exact h.waiting j q hq hwaiting x hx

theorem pending_acted (h : s.Coherent) (hp : s.procs id = some p)
    (hd : Does cfg id p s.now s.table a phase t deed) (j : RequestId) (q : Proc Data Json)
    (hq : (s.acted id p.req phase t deed).procs j = some q) (hphase : q.phase = .executing false) :
    ∀ x ∈ (s.acted id p.req phase t deed).log, x.id = j → x.deed ≠ .executed := by
  intro x hx hxj
  by_cases hj : j = id
  · subst hj
    rw [Server.procs_acted_self] at hq
    cases hq
    obtain rfl : phase = .executing false := hphase
    cases hd with
    | inserts free waiting =>
      rcases Server.mem_log_acted.mp hx with ⟨d, hd, rfl⟩ | hx
      · cases hd
        exact nofun
      · exact absurd hxj (h.waiting _ p hp waiting x hx)
    | waits a phase before after => cases after
    | goesOn a phase before after returned => exact absurd rfl (returned false)
    | ends a phase ended answer => cases ended
  · rw [Server.procs_acted_of_ne hj] at hq
    rcases Server.mem_log_acted.mp hx with ⟨d, -, rfl⟩ | hx
    · exact absurd hxj.symm hj
    · exact h.pending j q hq hphase x hx hxj

theorem rows_acted (h : s.Coherent) (hp : s.procs id = some p)
    (hd : Does cfg id p s.now s.table a phase t deed) (k : ReservationKey)
    (record : IdempotencyKey Json) (hrecord : t k = some record) :
    (s.acted id p.req phase t deed).MadeBy k record := by
  cases hd with
  | inserts free waiting =>
    by_cases hk : k = slotOf id p.req
    · subst hk
      rw [Function.update_self] at hrecord
      cases hrecord
      exact ⟨id, _, if_pos rfl, Server.procs_acted_self p.req, rfl, ⟨rfl, rfl, rfl⟩,
        Server.mem_log_acted.mpr (.inl ⟨_, rfl, rfl⟩)⟩
    · rw [Function.update_of_ne hk] at hrecord
      obtain ⟨j, q, hlast, hq, hslot, hsame, hmem⟩ := h.rows k record hrecord
      obtain ⟨q', hq', hreq⟩ := Server.exists_procs_acted hp hq
      refine ⟨j, q', ?_, hq', hreq ▸ hslot, hreq ▸ hsame,
        hreq ▸ Server.mem_log_acted.mpr (.inr hmem)⟩
      exact (if_neg (Ne.symm hk)).trans hlast
  | waits a phase before after => exact madeBy_acted hp (h.rows k record hrecord) nofun
  | goesOn a phase before after returned => exact madeBy_acted hp (h.rows k record hrecord) nofun
  | replays record' response status found same answer hstatus =>
    exact madeBy_acted hp (h.rows k record hrecord) nofun
  | ends a phase ended answer => exact madeBy_acted hp (h.rows k record hrecord) nofun
  | executes running =>
    refine madeBy_acted hp (h.rows k record hrecord) ?_
    rintro _ ⟨⟩
    exact nofun
  | reclaims record' waiting found stale =>
    by_cases hk : k = slotOf id p.req
    · subst hk
      rw [Function.update_self] at hrecord
      cases hrecord
    · rw [Function.update_of_ne hk] at hrecord
      exact madeBy_acted hp (h.rows k record hrecord) nofun
  | completes data record' running found =>
    have hdeed : ∀ d ∈ some (Deed.completed data), ∀ now, d ≠ .inserted now := by
      rintro _ ⟨⟩
      exact nofun
    by_cases hk : k = slotOf id p.req
    · subst hk
      rw [Function.update_self] at hrecord
      cases hrecord
      obtain ⟨j, q, hlast, hq, hslot, hsame, hmem⟩ := h.rows _ record' found
      exact madeBy_acted hp
        ⟨j, q, hlast, hq, hslot, ⟨hsame.method, hsame.path, hsame.requestHash⟩, hmem⟩ hdeed
    · rw [Function.update_of_ne hk] at hrecord
      exact madeBy_acted hp (h.rows k record hrecord) hdeed
  | releases e running found =>
    by_cases hk : k = slotOf id p.req
    · subst hk
      rw [Function.update_self] at hrecord
      cases hrecord
    · rw [Function.update_of_ne hk] at hrecord
      refine madeBy_acted hp (h.rows k record hrecord) ?_
      rintro _ ⟨⟩
      exact nofun

end Acts

/-- **One event** keeps the table, the requests and their deeds in agreement. -/
theorem step (h : s.Coherent) {e : Event Body Data} {s' : Server Data Json}
    (hs : Happens cfg s e s') : s'.Coherent := by
  cases hs with
  | tick d => exact ⟨h.entries, h.waiting, h.pending, h.rows⟩
  | arrives id req r new => exact h.arrives new r
  | acts id a p phase t deed current does =>
    exact ⟨h.entries_acted current, h.waiting_acted current does, h.pending_acted current does,
      h.rows_acted current does⟩
  | purge =>
    refine ⟨h.entries, h.waiting, h.pending, fun k record hrecord => ?_⟩
    exact h.rows k record (Option.filter_eq_some_iff.mp hrecord).1

end Server.Coherent

/-! ## The reservations of running requests -/

/-- A running request with the key has the reservation under it, still in flight. -/
def Server.OwnedAt (s : Server Data Json) (k : ReservationKey) : Prop :=
  ∀ id p, s.procs id = some p → slotOf id p.req = k → p.phase.isRunning = true →
    ∃ record, s.table k = some record ∧ record.completedAt = none ∧ lastInserter k s.log = some id

/-- The reservation under the key is not stale, or the request that has made it runs no more. -/
def SparesOwner (cfg : Config Body Data Json) (s : Server Data Json) (k : ReservationKey) : Prop :=
  (∃ record ∈ s.table k, Reclaimable cfg s.now record) →
    ∀ owner ∈ lastInserter k s.log, ¬ s.Runs owner

instance (s : Server Data Json) (k : ReservationKey) : Decidable (SparesOwner cfg s k) :=
  inferInstanceAs (Decidable ((∃ record ∈ s.table k, Reclaimable cfg s.now record) →
    ∀ owner ∈ lastInserter k s.log, ¬ s.Runs owner))

/-- The request whose event deletes a stale reservation. -/
def Event.reclaims : Event Body Data → Option RequestId
  | .act id .reclaim => some id
  | _ => none

theorem Phase.not_isRunning_of_isWaiting {phase : Phase Data Json} (h : phase.isWaiting = true) :
    phase.isRunning = false := by
  cases phase with
  | executing b => cases h
  | completing data => cases h
  | releasing e => cases h
  | _ => rfl

theorem Phase.not_isRunning_of_hasEnded {phase : Phase Data Json} (h : phase.hasEnded = true) :
    phase.isRunning = false := by
  cases phase with
  | executing b => cases h
  | completing data => cases h
  | releasing e => cases h
  | _ => rfl

section Owned

variable {s : Server Data Json} {k : ReservationKey} {id j : RequestId} {p : Proc Data Json}
  {a : Action Data} {phase : Phase Data Json} {t : Table Json} {deed : Option (Deed Data)}

theorem Server.OwnedAt.start (now : Timestamp) (k : ReservationKey) :
    (Server.start now : Server Data Json).OwnedAt k := nofun

/-- The request itself, after its action. -/
theorem Server.OwnedAt.acted_self (h : s.OwnedAt k) (hp : s.procs id = some p)
    (hd : Does cfg id p s.now s.table a phase t deed) (hslot : slotOf id p.req = k)
    (hrunning : phase.isRunning = true) :
    ∃ record, t k = some record ∧ record.completedAt = none ∧
      lastInserter k (s.acted id p.req phase t deed).log = some id := by
  subst hslot
  cases hd with
  | inserts free waiting => exact ⟨_, Function.update_self _ _ _, rfl, if_pos rfl⟩
  | executes running =>
    obtain ⟨record, hrecord, hopen, hlast⟩ := h id p hp rfl (by rw [running]; rfl)
    refine ⟨record, hrecord, hopen, Eq.trans (lastInserter_cons ?_) hlast⟩
    exact nofun
  | goesOn a phase before after returned => exact h id p hp rfl before
  | waits a phase before after =>
    rw [Phase.not_isRunning_of_isWaiting after] at hrunning
    cases hrunning
  | ends a phase ended answer =>
    rw [Phase.not_isRunning_of_hasEnded ended] at hrunning
    cases hrunning
  | reclaims record waiting found stale => cases hrunning
  | completes data record running found => cases hrunning
  | releases e running found => cases hrunning
  | replays record response status found same answer hstatus => cases hrunning

/-- Another request, after the action of one. -/
theorem Server.OwnedAt.acted_of_ne (h : s.OwnedAt k) (hp : s.procs id = some p)
    (hd : Does cfg id p s.now s.table a phase t deed)
    (hspares : a = .reclaim → slotOf id p.req = k → SparesOwner cfg s k)
    {q : Proc Data Json} (hj : j ≠ id) (hq : s.procs j = some q) (hslot : slotOf j q.req = k)
    (hrunning : q.phase.isRunning = true) :
    ∃ record, t k = some record ∧ record.completedAt = none ∧
      lastInserter k (s.acted id p.req phase t deed).log = some j := by
  obtain ⟨record, hrecord, hopen, hlast⟩ := h j q hq hslot hrunning
  -- a running request with the key would be the same one
  have hother : p.phase.isRunning = true → k ≠ slotOf id p.req := by
    rintro hrun rfl
    obtain ⟨-, -, -, hlast'⟩ := h id p hp rfl hrun
    exact hj (Option.some.inj (hlast.symm.trans hlast'))
  cases hd with
  | inserts free waiting =>
    have hk : k ≠ slotOf id p.req := by
      rintro rfl
      rw [free] at hrecord
      cases hrecord
    exact ⟨record, by rw [Function.update_of_ne hk, hrecord], hopen, (if_neg hk.symm).trans hlast⟩
  | reclaims record' waiting found stale =>
    have hk : k ≠ slotOf id p.req := by
      rintro rfl
      exact hspares rfl rfl ⟨record', found, stale⟩ j hlast ⟨q, hq, hrunning⟩
    exact ⟨record, by rw [Function.update_of_ne hk, hrecord], hopen, hlast⟩
  | executes running =>
    refine ⟨record, hrecord, hopen, Eq.trans (lastInserter_cons ?_) hlast⟩
    exact nofun
  | completes data record' running found =>
    have hk := hother (by rw [running]; rfl)
    refine ⟨record, by rw [Function.update_of_ne hk, hrecord], hopen,
      Eq.trans (lastInserter_cons ?_) hlast⟩
    exact nofun
  | releases e running found =>
    have hk := hother (by rw [running]; rfl)
    refine ⟨record, by rw [Function.update_of_ne hk, hrecord], hopen,
      Eq.trans (lastInserter_cons ?_) hlast⟩
    exact nofun
  | waits a phase before after => exact ⟨record, hrecord, hopen, hlast⟩
  | goesOn a phase before after returned => exact ⟨record, hrecord, hopen, hlast⟩
  | replays record' response status found same answer hstatus =>
    exact ⟨record, hrecord, hopen, hlast⟩
  | ends a phase ended answer => exact ⟨record, hrecord, hopen, hlast⟩

/-- **One event** leaves every running request its reservation. -/
theorem Server.OwnedAt.step (h : s.OwnedAt k) {e : Event Body Data} {s' : Server Data Json}
    (hspares : ∀ id ∈ e.reclaims, ∀ p ∈ s.procs id, slotOf id p.req = k → SparesOwner cfg s k)
    (hs : Happens cfg s e s') : s'.OwnedAt k := by
  cases hs with
  | tick d => exact h
  | arrives id req r new =>
    intro j q hq hslot hrunning
    change Function.update s.procs id _ j = some q at hq
    by_cases hj : j = id
    · subst hj
      rw [Function.update_self] at hq
      cases hq
      cases hrunning
    · rw [Function.update_of_ne hj] at hq
      exact h j q hq hslot hrunning
  | acts id a p phase t deed current does =>
    intro j q hq hslot hrunning
    by_cases hj : j = id
    · subst hj
      rw [Server.procs_acted_self] at hq
      cases hq
      exact h.acted_self current does hslot hrunning
    · rw [Server.procs_acted_of_ne hj] at hq
      refine h.acted_of_ne current does ?_ hj hq hslot hrunning
      rintro rfl hk
      exact hspares id rfl p current hk
  | purge =>
    intro j q hq hslot hrunning
    obtain ⟨record, hrecord, hopen, hlast⟩ := h j q hq hslot hrunning
    refine ⟨record, Option.filter_eq_some_iff.mpr ⟨hrecord, ?_⟩, hopen, hlast⟩
    -- a reservation in flight is not purged
    simp [Expired, hopen]

end Owned

end AccountingApi.Idempotency
