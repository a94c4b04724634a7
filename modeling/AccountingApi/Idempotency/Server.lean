import AccountingApi.Idempotency.Service
import AccountingApi.Transitions.System

/-!
# Requests with idempotency keys

The interceptor around a handler, one statement at a time. Every statement runs alone against the table;
between two statements of a request others may run, the clock may advance, and the request may be
stopped: by the end of the process, or by the timeout, which drops what is still to be done. A statement
that is rejected has written nothing.

## Main definitions

* `Phase`, `Proc`: how far a request has come
* `Action`, `Event`: what can happen next
* `Entry`: what requests have done to the reservations, and the effects of their handlers
* `Server`, `step`: the system
-/

namespace AccountingApi.Idempotency

open IdempotencyService

/-- A request of a user. -/
structure RequestId where
  userId : Uuid
  n : ℕ
deriving DecidableEq

/-- How far a request has come. -/
inductive Phase (Data Json : Type) where
  /-- The reservation is to be inserted. -/
  | reserving (allowReclaim : Bool)
  /-- The key is taken, and the reservation is to be read. -/
  | resolving (allowReclaim : Bool)
  /-- The reservation is stale and is to be deleted. -/
  | reclaiming
  /-- The handler runs; its effect may be committed. -/
  | executing (committed : Bool)
  /-- The handler has ended, and the response is to be written. -/
  | completing (data : Data)
  /-- The request has failed, and the reservation is to be deleted. -/
  | releasing (e : Failure)
  | replayed (response : Json) (httpStatus : ℕ)
  | done (data : Data)
  | failed (e : Failure)
  | stopped

/-- The handler has been started, and the request is still to complete or to release. -/
def Phase.isRunning {Data Json : Type} : Phase Data Json → Bool
  | .executing _ | .completing _ | .releasing _ => true
  | _ => false

/-- The request has been answered or dropped. -/
def Phase.hasEnded {Data Json : Type} : Phase Data Json → Bool
  | .replayed _ _ | .done _ | .failed _ | .stopped => true
  | _ => false

/-- A request with its progress. -/
structure Proc (Data Json : Type) where
  req : Request
  phase : Phase Data Json

/-- What a request has done. -/
inductive Deed (Data : Type) where
  | inserted (createdAt : Timestamp)
  | executed
  | completed (data : Data)
  | released
deriving DecidableEq

/-- What a request has done about the key. -/
structure Entry (Data : Type) where
  id : RequestId
  key : String
  deed : Deed Data
deriving DecidableEq

/-- The reservation an entry is about. -/
def Entry.slot {Data : Type} (x : Entry Data) : ReservationKey := ⟨x.id.userId, x.key⟩

/-- What a request can do next. The handler ends with data or with an error; `commit` is the commit of its
effect. -/
inductive Action (Data : Type) where
  | create
  | find
  | reclaim
  | commit
  | resolve (data : Data)
  | reject (e : Failure)
  | complete
  | completeFails (e : Failure)
  | release
  | releaseFails
  | stop

/-- The clock advances, a request comes in or goes on, or the completed reservations are purged. -/
inductive Event (Body Data : Type) where
  | tick (d : ℕ)
  | arrive (id : RequestId) (req : IdempotentRequest Body)
  | act (id : RequestId) (a : Action Data)
  | purge

/-- The clock, the reservations, the requests, and what these have done, the last deed first. -/
structure Server (Data Json : Type) where
  now : Timestamp
  table : Table Json
  procs : RequestId → Option (Proc Data Json)
  log : List (Entry Data)

/-- The server before any request. -/
def Server.start {Data Json : Type} (now : Timestamp) : Server Data Json :=
  ⟨now, fun _ => none, fun _ => none, []⟩

variable {Body Data Json : Type} (cfg : Config Body Data Json)

/-- The reservation a request is about. -/
def slotOf (id : RequestId) (r : Request) : ReservationKey := ⟨id.userId, r.key⟩

/-- One statement of a request, or the next thing its handler does: the phase it is in then, the
reservations, and the deed if there is one. -/
def Proc.step (id : RequestId) (p : Proc Data Json) (now : Timestamp) (t : Table Json) :
    Action Data → Option (Phase Data Json × Table Json × Option (Deed Data))
  | .create =>
    match p.phase with
    | .reserving allowReclaim =>
      match create t (slotOf id p.req) p.req now with
      | some t' => some (.executing false, t', some (.inserted now))
      | none => some (.resolving allowReclaim, t, none)
    | _ => none
  | .find =>
    match p.phase with
    | .resolving allowReclaim =>
      match resolveExisting cfg p.req allowReclaim now (t (slotOf id p.req)) with
      | .fail e => some (.failed e, t, none)
      | .reclaim => some (.reclaiming, t, none)
      | .replay response httpStatus => some (.replayed response httpStatus, t, none)
    | _ => none
  | .reclaim =>
    match p.phase with
    | .reclaiming =>
      match IdempotencyService.reclaim cfg t (slotOf id p.req) now with
      | some t' => some (.reserving false, t', none)
      | none => some (.failed (inProgress p.req.key), t, none)
    | _ => none
  | .commit =>
    match p.phase with
    | .executing false => some (.executing true, t, some .executed)
    | _ => none
  | .resolve data =>
    match p.phase with
    | .executing _ => some (.completing data, t, none)
    | _ => none
  | .reject e =>
    match p.phase with
    | .executing _ => some (.releasing e, t, none)
    | _ => none
  | .complete =>
    match p.phase with
    | .completing data =>
      match IdempotencyService.complete cfg t (slotOf id p.req) data p.req.httpStatus now with
      | some t' => some (.done data, t', some (.completed data))
      | none => some (.releasing .recordNotFound, t, none)
    | _ => none
  | .completeFails e =>
    match p.phase with
    | .completing _ => some (.releasing e, t, none)
    | _ => none
  | .release =>
    match p.phase with
    | .releasing e =>
      some (.failed e, IdempotencyService.release t (slotOf id p.req),
        if (t (slotOf id p.req)).isSome = true then some .released else none)
    | _ => none
  | .releaseFails =>
    match p.phase with
    | .releasing e => some (.failed e, t, none)
    | _ => none
  | .stop => if p.phase.hasEnded = true then none else some (.stopped, t, none)

/-- A request that comes in. -/
def Proc.arrive (id : RequestId) (req : IdempotentRequest Body) : Option (Proc Data Json) :=
  match IdempotencyInterceptor.admit cfg req with
  | .ok (userId, r) => if userId = id.userId then some ⟨r, .reserving true⟩ else none
  | .error _ => none

/-- One event, where it is possible. A request that the checks refuse never reaches the table. -/
def step (s : Server Data Json) : Event Body Data → Option (Server Data Json)
  | .tick d => some { s with now := s.now + d }
  | .arrive id req =>
    if (s.procs id).isNone = true then
      (Proc.arrive cfg id req).map fun p => { s with procs := Function.update s.procs id (some p) }
    else none
  | .act id a => do
    let p ← s.procs id
    let (phase, t, deed) ← p.step cfg id s.now s.table a
    pure {
      now := s.now
      table := t
      procs := Function.update s.procs id (some ⟨p.req, phase⟩)
      log := (deed.map fun deed => ⟨id, p.req.key, deed⟩).toList ++ s.log }
  | .purge => some { s with table := purgeCompleted cfg s.table s.now }

end AccountingApi.Idempotency
