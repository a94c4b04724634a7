import AccountingApi.Errors
import Mathlib.Logic.Function.Basic

/-!
# The idempotency keys

A request with an `Idempotency-Key` inserts a reservation before its handler runs, writes the response
into it afterwards, and deletes it when the handler fails. A later request with the key of the same user
finds the reservation, or what it has become.

## Main definitions

* `ReservationKey`, `IdempotencyKey`: the table with its primary key
* `IdempotentRequest`, `Request`: a request as it comes in, and what of it is compared
* `IdempotencyInterceptor.admit`: the checks before the reservation
* `IdempotencyService.create`, `resolveExisting`, `reclaim`, `complete`, `release`, `purgeCompleted`:
  the statements of the service
-/

namespace AccountingApi.Idempotency

/-- The settings, with what a response is stored as (`none` where it is null) and the hash of a body. -/
structure Config (Body Data Json : Type) where
  inflightTtlMs : ℕ := 120000
  completedTtlMs : ℕ := 86400000
  snapshot : Data → Option Json
  hash : Body → String

/-- The primary key of a reservation. -/
structure ReservationKey where
  userId : Uuid
  key : String
deriving DecidableEq

/-- A reservation; it is in flight until the response is written. -/
structure IdempotencyKey (Json : Type) where
  method : String
  path : String
  requestHash : String
  response : Option Json
  httpStatus : Option ℕ
  createdAt : Timestamp
  completedAt : Option Timestamp
deriving DecidableEq

/-- The reservations. -/
abbrev Table (Json : Type) := ReservationKey → Option (IdempotencyKey Json)

/-! ## Requests -/

/-- A request to an idempotent route: `idempotencyKey` are the values of the header, `declared` the
status the route declares. -/
structure IdempotentRequest (Body : Type) where
  method : String
  originalUrl : Option String
  url : String
  idempotencyKey : List String
  user : Option Uuid
  body : Body
  declared : Option ℕ

/-- What of a request is reserved: the key, what it is compared with, and the status it answers with. -/
structure Request where
  key : String
  method : String
  path : String
  requestHash : String
  httpStatus : ℕ
deriving DecidableEq

/-- `IDEMPOTENCY_KEY_RE`. -/
def isIdempotencyKey (key : String) : Bool :=
  decide (1 ≤ key.length ∧ key.length ≤ 128) &&
    key.toList.all fun c => c.isAlphanum || c = '.' || c = '_' || c = ':' || c = '-'

/-- The checks of the interceptor, before it reserves the key. -/
def IdempotencyInterceptor.admit {Body Data Json : Type} (cfg : Config Body Data Json)
    (req : IdempotentRequest Body) : Except Failure (Uuid × Request) := do
  let key := req.idempotencyKey.head?.getD ""
  if key = "" then
    throw (.validationFailed "Idempotency-Key header is required" [])
  if ¬ isIdempotencyKey key then
    throw (.validationFailed "Idempotency-Key must be 1–128 characters of [A-Za-z0-9._:-]" [])
  let some userId := req.user |
    throw (.validationFailed "Idempotent requests require an authenticated user" [])
  pure (userId, {
    key := key
    method := req.method
    path := req.originalUrl.getD req.url
    requestHash := cfg.hash req.body
    httpStatus := req.declared.getD (if req.method = "POST" then 201 else 200) })

/-! ## Statements -/

namespace IdempotencyService

variable {Body Data Json : Type} (cfg : Config Body Data Json)

/-- `INSERT` of a reservation; there is none where the key is taken. -/
def create (t : Table Json) (k : ReservationKey) (r : Request) (now : Timestamp) :
    Option (Table Json) :=
  if t k = none then
    some (Function.update t k (some ⟨r.method, r.path, r.requestHash, none, none, now, none⟩))
  else none

/-- What a request whose key is taken does next. -/
inductive Resolution (Json : Type) where
  | fail (e : Failure)
  | reclaim
  | replay (response : Json) (httpStatus : ℕ)

/-- The reservation is older than the time a request may be in flight. -/
def isStale (now createdAt : Timestamp) : Prop := createdAt + cfg.inflightTtlMs < now

instance (now createdAt : Timestamp) : Decidable (isStale cfg now createdAt) :=
  inferInstanceAs (Decidable (createdAt + cfg.inflightTtlMs < now))

def inProgress (key : String) : Failure :=
  .conflict "A request with this idempotency key is in progress" [("key", .text key)]

/-- What the reservation found under the key says. -/
def resolveExisting (r : Request) (allowReclaim : Bool) (now : Timestamp)
    (record : Option (IdempotencyKey Json)) : Resolution Json :=
  match record with
  | none => .fail (inProgress r.key)
  | some record =>
    if record.method ≠ r.method ∨ record.path ≠ r.path then
      .fail (.validationFailed "Idempotency-Key already used for a different endpoint"
        [("key", .text r.key)])
    else if record.requestHash ≠ r.requestHash then
      .fail (.validationFailed "Idempotency-Key already used with a different request body"
        [("key", .text r.key)])
    else
      match record.response, record.httpStatus with
      | some response, some httpStatus => .replay response httpStatus
      | _, _ =>
        if allowReclaim = true ∧ isStale cfg now record.createdAt then .reclaim
        else .fail (inProgress r.key)

/-- The reservation is in flight and stale. -/
def Reclaimable (now : Timestamp) (record : IdempotencyKey Json) : Prop :=
  record.response.isNone = true ∧ record.completedAt = none ∧ isStale cfg now record.createdAt

instance (now : Timestamp) (record : IdempotencyKey Json) :
    Decidable (Reclaimable cfg now record) :=
  inferInstanceAs (Decidable (_ ∧ _))

/-- `DELETE` of a stale reservation; there is none where none is found. -/
def reclaim (t : Table Json) (k : ReservationKey) (now : Timestamp) : Option (Table Json) :=
  if ∃ record ∈ t k, Reclaimable cfg now record then some (Function.update t k none) else none

/-- `UPDATE` of a reservation with the response; there is none where the reservation is gone. -/
def complete (t : Table Json) (k : ReservationKey) (data : Data) (httpStatus : ℕ)
    (now : Timestamp) : Option (Table Json) :=
  (t k).map fun record => Function.update t k (some { record with
    response := cfg.snapshot data, httpStatus := some httpStatus, completedAt := some now })

/-- `DELETE` of a reservation. -/
def release (t : Table Json) (k : ReservationKey) : Table Json := Function.update t k none

/-- The response is older than the time it is kept. -/
def Expired (now : Timestamp) (record : IdempotencyKey Json) : Prop :=
  ∃ completedAt ∈ record.completedAt, completedAt + cfg.completedTtlMs < now

instance (now : Timestamp) (record : IdempotencyKey Json) : Decidable (Expired cfg now record) :=
  inferInstanceAs (Decidable (∃ completedAt ∈ record.completedAt,
    completedAt + cfg.completedTtlMs < now))

/-- `DELETE` of the completed reservations that have been kept long enough. -/
def purgeCompleted (t : Table Json) (now : Timestamp) : Table Json :=
  fun k => (t k).filter fun record => ¬ Expired cfg now record

end IdempotencyService

end AccountingApi.Idempotency
