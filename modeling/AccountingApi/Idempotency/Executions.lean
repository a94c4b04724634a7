import AccountingApi.Idempotency.Reservations

/-!
# Executions

A request completes and releases the reservation it has made, as long as none is reclaimed from a request
that still runs. The effect of a handler is committed once under a key, as long as no request whose
handler has committed releases its reservation.

## Main definitions

* `OwnReservations`: responses are written into, and deleted are, own reservations
* `ExecutesOnce`: one execution under a key

## Main results

* `ownReservations_of_reachable`, `completes_reservation_of_another`
* `executesOnce_of_reachable`, `executes_again_after_failed_complete`
-/

namespace AccountingApi.Idempotency

open IdempotencyService Transitions

variable {Body Data Json : Type} {cfg : Config Body Data Json}

/-! ## Two requests with one key -/

namespace Sample

/-- Bodies are their own hashes, and responses what they are stored as. -/
def config : Config String ℕ ℕ := { snapshot := some, hash := id }

def request : IdempotentRequest String where
  method := "POST"
  originalUrl := none
  url := "/v1/journal-entries"
  idempotencyKey := ["k-1"]
  user := some 1
  body := "body"
  declared := none

def slot : ReservationKey := ⟨1, "k-1"⟩

/-- The server after a list of events, where they are possible and allowed. -/
def server (guard : Server ℕ ℕ → Event String ℕ → Prop) [∀ s e, Decidable (guard s e)]
    (es : List (Event String ℕ)) : Server ℕ ℕ :=
  (runWhile (step config) guard (.start 0) es).getD (.start 0)

theorem reachable {guard : Server ℕ ℕ → Event String ℕ → Prop} [∀ s e, Decidable (guard s e)]
    (es : List (Event String ℕ))
    (h : (runWhile (step config) guard (.start 0) es).isSome = true) :
    Reachable (step config) guard (.start 0) (server guard es) := by
  obtain ⟨s, hs⟩ := Option.isSome_iff_exists.mp h
  rw [server, hs]
  exact Reachable.start.runWhile hs

/-- A request that executes and completes, and a retry that is answered with its response. -/
def retried : List (Event String ℕ) := [
  .arrive ⟨1, 0⟩ request, .act ⟨1, 0⟩ .create, .arrive ⟨1, 1⟩ request, .act ⟨1, 1⟩ .create,
  .act ⟨1, 0⟩ .commit, .act ⟨1, 0⟩ (.resolve 7), .act ⟨1, 0⟩ .complete, .act ⟨1, 1⟩ .find]

/-- A request that executes, whose response cannot be written, and a retry that executes again. -/
def failedComplete : List (Event String ℕ) := [
  .arrive ⟨1, 0⟩ request, .act ⟨1, 0⟩ .create, .act ⟨1, 0⟩ .commit, .act ⟨1, 0⟩ (.resolve 7),
  .act ⟨1, 0⟩ (.completeFails (.internal "connection lost")), .act ⟨1, 0⟩ .release,
  .arrive ⟨1, 1⟩ request, .act ⟨1, 1⟩ .create, .act ⟨1, 1⟩ .commit]

/-- A request that is still running when its reservation is reclaimed, and that completes then. -/
def outlived : List (Event String ℕ) := [
  .arrive ⟨1, 0⟩ request, .act ⟨1, 0⟩ .create, .tick 120001, .arrive ⟨1, 1⟩ request,
  .act ⟨1, 1⟩ .create, .act ⟨1, 1⟩ .find, .act ⟨1, 1⟩ .reclaim, .act ⟨1, 1⟩ .create,
  .act ⟨1, 0⟩ .commit, .act ⟨1, 0⟩ (.resolve 7), .act ⟨1, 0⟩ .complete]

end Sample

/-! ## Own reservations -/

/-- The deed writes or deletes a reservation. -/
def Deed.settles : Deed Data → Bool
  | .completed _ | .released => true
  | _ => false

/-- Whenever a request has written its response into a reservation or deleted one, it was the one to have
inserted it. -/
def OwnReservations : List (Entry Data) → Prop
  | [] => True
  | x :: l => (x.deed.settles = true → lastInserter x.slot l = some x.id) ∧ OwnReservations l

/-- The event reclaims no reservation from a request that still runs. -/
def SparesRunning (cfg : Config Body Data Json) (s : Server Data Json) (e : Event Body Data) : Prop :=
  ∀ id ∈ e.reclaims, ∀ p ∈ s.procs id, SparesOwner cfg s (slotOf id p.req)

instance (s : Server Data Json) (e : Event Body Data) : Decidable (SparesRunning cfg s e) :=
  inferInstanceAs (Decidable (∀ id ∈ e.reclaims, ∀ p ∈ s.procs id, SparesOwner cfg s (slotOf id p.req)))

/-- **One event** writes and deletes own reservations only. -/
theorem OwnReservations.step {s s' : Server Data Json} {e : Event Body Data}
    (h : OwnReservations s.log) (howned : ∀ k, s.OwnedAt k) (hs : Happens cfg s e s') :
    OwnReservations s'.log := by
  cases hs with
  | tick d => exact h
  | arrives id req r new => exact h
  | purge => exact h
  | acts id a p phase t deed current does =>
    cases deed with
    | none => exact h
    | some d =>
      refine ⟨fun hsettles => ?_, h⟩
      have hrunning : p.phase.isRunning = true := by
        cases does with
        | completes data record running found => rw [running]; rfl
        | releases e running found => rw [running]; rfl
        | inserts free waiting => cases hsettles
        | executes running => cases hsettles
      obtain ⟨-, -, -, hlast⟩ := howned _ id p current rfl hrunning
      exact hlast

/-- **Requests complete and release their own reservations**, in every run that reclaims none from a
request that still runs. -/
theorem ownReservations_of_reachable {now : Timestamp} {s : Server Data Json}
    (h : Reachable (step cfg) (SparesRunning cfg) (.start now) s) : OwnReservations s.log := by
  have hinv : (∀ k, s.OwnedAt k) ∧ OwnReservations s.log := by
    refine h.invariant (I := fun s => (∀ k, s.OwnedAt k) ∧ OwnReservations s.log) ?_ ?_
    · exact ⟨fun k => .start now k, trivial⟩
    · rintro s e s' ⟨howned, hown⟩ hspares hstep
      have hs := happens_of_step hstep
      refine ⟨fun k => (howned k).step ?_ hs, hown.step howned hs⟩
      rintro id hid p hp rfl
      exact hspares id hid p hp
  exact hinv.2

theorem ownReservations_of_reachable_retried :
    OwnReservations (Sample.server (SparesRunning Sample.config) Sample.retried).log :=
  ownReservations_of_reachable (Sample.reachable _ (by decide +kernel))

/-- **A request completes the reservation of another one**, which had reclaimed its own. -/
theorem completes_reservation_of_another :
    ∃ s, Reachable (step Sample.config) (fun _ _ => True) (.start 0) s ∧ ¬ OwnReservations s.log := by
  refine ⟨_, Sample.reachable Sample.outlived (by decide +kernel), fun h => ?_⟩
  have hlog : (Sample.server (fun _ _ => True) Sample.outlived).log = [
      ⟨⟨1, 0⟩, "k-1", .completed 7⟩, ⟨⟨1, 0⟩, "k-1", .executed⟩, ⟨⟨1, 1⟩, "k-1", .inserted 120001⟩,
      ⟨⟨1, 0⟩, "k-1", .inserted 0⟩] := by decide +kernel
  rw [hlog] at h
  exact absurd (h.1 rfl) (by decide)

/-! ## One execution -/

/-- The request whose event deletes its reservation. -/
def Event.releases : Event Body Data → Option RequestId
  | .act id .release => some id
  | _ => none

/-- The event deletes the completed reservations that are kept no longer. -/
def Event.purges : Event Body Data → Bool
  | .purge => true
  | _ => false

/-- The retries of the requests with the key come in time: the reservation they find is not stale, and a
completed one is not purged. -/
def InTime (cfg : Config Body Data Json) (k : ReservationKey) (s : Server Data Json)
    (e : Event Body Data) : Prop :=
  (∀ id ∈ e.reclaims, ∀ p ∈ s.procs id, slotOf id p.req = k →
    ∀ record ∈ s.table k, ¬ Reclaimable cfg s.now record) ∧
  (e.purges = true → ∀ record ∈ s.table k, ¬ Expired cfg s.now record)

/-- No request with the key releases its reservation once its handler has committed. -/
def KeepsCommitted (k : ReservationKey) (s : Server Data Json) (e : Event Body Data) : Prop :=
  ∀ id ∈ e.releases, ∀ p ∈ s.procs id, slotOf id p.req = k →
    ∀ x ∈ s.log, x.id = id → x.deed ≠ .executed

instance (k : ReservationKey) (s : Server Data Json) (e : Event Body Data) :
    Decidable (InTime cfg k s e) :=
  inferInstanceAs (Decidable ((∀ id ∈ e.reclaims, ∀ p ∈ s.procs id, slotOf id p.req = k →
    ∀ record ∈ s.table k, ¬ Reclaimable cfg s.now record) ∧
    (e.purges = true → ∀ record ∈ s.table k, ¬ Expired cfg s.now record)))

instance [DecidableEq Data] (k : ReservationKey) (s : Server Data Json) (e : Event Body Data) :
    Decidable (KeepsCommitted k s e) :=
  inferInstanceAs (Decidable (∀ id ∈ e.releases, ∀ p ∈ s.procs id, slotOf id p.req = k →
    ∀ x ∈ s.log, x.id = id → x.deed ≠ .executed))

/-- After an execution under the key, no request with the key runs its handler, or commits. -/
def ExecutesOnce (k : ReservationKey) (log : List (Entry Data)) : Prop :=
  log.Pairwise fun y x => x.slot = k → x.deed = .executed → y.slot = k →
    y.deed ≠ .executed ∧ ∀ t, y.deed ≠ .inserted t

/-- Once a request with the key has committed, its reservation stays. -/
def Server.ExecutedAt (s : Server Data Json) (k : ReservationKey) : Prop :=
  ∀ x ∈ s.log, x.slot = k → x.deed = .executed →
    ∃ record, s.table k = some record ∧ lastInserter k s.log = some x.id

section Acted

variable {s : Server Data Json} {k : ReservationKey} {id : RequestId} {p : Proc Data Json}
  {a : Action Data} {phase : Phase Data Json} {t : Table Json} {deed : Option (Deed Data)}

/-- The reservation of a request that has committed stays, whatever a request does. -/
theorem Server.ExecutedAt.acted (h : s.ExecutedAt k) (howned : s.OwnedAt k)
    (hp : s.procs id = some p) (hd : Does cfg id p s.now s.table a phase t deed)
    (htime : a = .reclaim → slotOf id p.req = k → ∀ record ∈ s.table k, ¬ Reclaimable cfg s.now record)
    (hkeeps : a = .release → slotOf id p.req = k → ∀ x ∈ s.log, x.id = id → x.deed ≠ .executed) :
    (s.acted id p.req phase t deed).ExecutedAt k := by
  intro x hx hslot hexecuted
  cases hd with
  | inserts free waiting =>
    rcases Server.mem_log_acted.mp hx with ⟨d, hd, rfl⟩ | hx
    · cases hd
      cases hexecuted
    · obtain ⟨record, hrecord, hlast⟩ := h x hx hslot hexecuted
      have hk : k ≠ slotOf id p.req := by
        rintro rfl
        rw [free] at hrecord
        cases hrecord
      exact ⟨record, (Function.update_of_ne hk _ _).trans hrecord, (if_neg hk.symm).trans hlast⟩
  | waits a phase before after => exact h x hx hslot hexecuted
  | goesOn a phase before after returned => exact h x hx hslot hexecuted
  | replays record response status found same answer hstatus => exact h x hx hslot hexecuted
  | ends a phase ended answer => exact h x hx hslot hexecuted
  | reclaims record waiting found stale =>
    obtain ⟨record', hrecord, hlast⟩ := h x hx hslot hexecuted
    have hk : k ≠ slotOf id p.req := by
      rintro rfl
      exact htime rfl rfl record found stale
    exact ⟨record', (Function.update_of_ne hk _ _).trans hrecord, hlast⟩
  | executes running =>
    rcases Server.mem_log_acted.mp hx with ⟨d, hd, rfl⟩ | hx
    · -- the request that commits has the reservation
      obtain ⟨record, hrecord, -, hlast⟩ := howned id p hp hslot (by rw [running]; rfl)
      refine ⟨record, hrecord, Eq.trans (lastInserter_cons ?_) hlast⟩
      exact nofun
    · obtain ⟨record, hrecord, hlast⟩ := h x hx hslot hexecuted
      refine ⟨record, hrecord, Eq.trans (lastInserter_cons ?_) hlast⟩
      exact nofun
  | completes data record running found =>
    rcases Server.mem_log_acted.mp hx with ⟨d, hd, rfl⟩ | hx
    · cases hd
      cases hexecuted
    · obtain ⟨record', hrecord, hlast⟩ := h x hx hslot hexecuted
      have hlast' : lastInserter k (s.acted id p.req (.done data) (Function.update s.table
          (slotOf id p.req) (some (p.req.completed cfg data s.now record)))
          (some (.completed data))).log = some x.id := by
        refine Eq.trans (lastInserter_cons ?_) hlast
        exact nofun
      by_cases hk : k = slotOf id p.req
      · subst hk
        exact ⟨_, Function.update_self _ _ _, hlast'⟩
      · exact ⟨record', (Function.update_of_ne hk _ _).trans hrecord, hlast'⟩
  | releases e running found =>
    rcases Server.mem_log_acted.mp hx with ⟨d, hd, rfl⟩ | hx
    · cases hd
      cases hexecuted
    · obtain ⟨record, hrecord, hlast⟩ := h x hx hslot hexecuted
      have hk : k ≠ slotOf id p.req := by
        rintro rfl
        -- the request that releases has the reservation, and has not committed
        obtain ⟨-, -, -, hlast'⟩ := howned id p hp rfl (by rw [running]; rfl)
        exact hkeeps rfl rfl x hx (Option.some.inj (hlast.symm.trans hlast')) hexecuted
      refine ⟨record, (Function.update_of_ne hk _ _).trans hrecord,
        Eq.trans (lastInserter_cons ?_) hlast⟩
      exact nofun

/-- A deed under the key, after an execution under it, is neither. -/
theorem ExecutesOnce.acted (h : ExecutesOnce k s.log) (hcoherent : s.Coherent)
    (howned : s.OwnedAt k) (hexecuted : s.ExecutedAt k) (hp : s.procs id = some p)
    (hd : Does cfg id p s.now s.table a phase t deed) :
    ExecutesOnce k (s.acted id p.req phase t deed).log := by
  cases deed with
  | none => exact h
  | some d =>
    refine .cons (fun x hx hslot hx' hk => ⟨?_, ?_⟩) h
    · rintro rfl
      cases hd with
      | executes running =>
        obtain ⟨-, -, hlast⟩ := hexecuted x hx hslot hx'
        obtain ⟨-, -, -, hlast'⟩ := howned id p hp hk (by rw [running]; rfl)
        have hid := Option.some.inj (hlast.symm.trans hlast')
        exact hcoherent.pending id p hp running x hx hid hx'
    · rintro now rfl
      cases hd with
      | inserts free waiting =>
        obtain ⟨record, hrecord, -⟩ := hexecuted x hx hslot hx'
        have hk' : slotOf id p.req = k := hk
        rw [hk', hrecord] at free
        cases free

end Acted

/-- **The effect of a handler is committed once under a key**, in every run whose retries come in time and
in which no request releases its reservation after it has committed. -/
theorem executesOnce_of_reachable {now : Timestamp} {k : ReservationKey} {s : Server Data Json}
    (h : Reachable (step cfg) (fun s e => InTime cfg k s e ∧ KeepsCommitted k s e) (.start now) s) :
    ExecutesOnce k s.log := by
  have hinv : s.Coherent ∧ s.OwnedAt k ∧ s.ExecutedAt k ∧ ExecutesOnce k s.log := by
    refine h.invariant
      (I := fun s => s.Coherent ∧ s.OwnedAt k ∧ s.ExecutedAt k ∧ ExecutesOnce k s.log) ?_ ?_
    · exact ⟨.start now, .start now k, nofun, .nil⟩
    · rintro s e s' ⟨hcoherent, howned, hexecuted, honce⟩ ⟨htime, hkeeps⟩ hstep
      have hs := happens_of_step hstep
      have hspares : ∀ id ∈ e.reclaims, ∀ p ∈ s.procs id, slotOf id p.req = k →
          SparesOwner cfg s k := fun id hid p hp hk ⟨record, hrecord, hstale⟩ =>
        absurd hstale (htime.1 id hid p hp hk record hrecord)
      refine ⟨hcoherent.step hs, howned.step hspares hs, ?_⟩
      cases hs with
      | tick d => exact ⟨hexecuted, honce⟩
      | arrives id req r new => exact ⟨hexecuted, honce⟩
      | acts id a p phase t deed current does =>
        refine ⟨hexecuted.acted howned current does ?_ ?_,
          honce.acted hcoherent howned hexecuted current does⟩
        · rintro rfl hk
          exact htime.1 id rfl p current hk
        · rintro rfl hk
          exact hkeeps id rfl p current hk
      | purge =>
        refine ⟨fun x hx hslot hx' => ?_, honce⟩
        obtain ⟨record, hrecord, hlast⟩ := hexecuted x hx hslot hx'
        exact ⟨record, Option.filter_eq_some_iff.mpr
          ⟨hrecord, decide_eq_true (htime.2 rfl record hrecord)⟩, hlast⟩
  exact hinv.2.2.2

theorem executesOnce_of_reachable_retried : ExecutesOnce Sample.slot
    (Sample.server (fun s e => InTime Sample.config Sample.slot s e ∧ KeepsCommitted Sample.slot s e)
      Sample.retried).log :=
  executesOnce_of_reachable (Sample.reachable _ (by decide +kernel))

/-- **A handler executes again** after its response could not be written. -/
theorem executes_again_after_failed_complete :
    ∃ s, Reachable (step Sample.config) (InTime Sample.config Sample.slot) (.start 0) s ∧
      ¬ ExecutesOnce Sample.slot s.log := by
  refine ⟨_, Sample.reachable Sample.failedComplete (by decide +kernel), fun h => ?_⟩
  have hlog : (Sample.server (InTime Sample.config Sample.slot) Sample.failedComplete).log = [
      ⟨⟨1, 1⟩, "k-1", .executed⟩, ⟨⟨1, 1⟩, "k-1", .inserted 0⟩, ⟨⟨1, 0⟩, "k-1", .released⟩,
      ⟨⟨1, 0⟩, "k-1", .executed⟩, ⟨⟨1, 0⟩, "k-1", .inserted 0⟩] := by decide +kernel
  rw [hlog] at h
  obtain ⟨hfirst, -⟩ := List.pairwise_cons.mp h
  exact (hfirst ⟨⟨1, 0⟩, "k-1", .executed⟩ (by simp) rfl rfl rfl).1 rfl

end AccountingApi.Idempotency
