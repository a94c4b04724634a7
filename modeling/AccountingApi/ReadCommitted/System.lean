import AccountingApi.ReadCommitted.Program

/-!
# Requests running concurrently under READ COMMITTED

A server state is the committed store together with the requests that run against it. One event is
one statement of one request: it sees what is committed when it runs and, over that, the request's
own uncommitted writes. Locks are held until the transaction ends, a write holds the row's lock, and
a transaction commits all its writes at once or none of them.

## Main definitions

* `Local`, `Proc`, `Commit`, `Server`: a transaction in progress, a request, what a commit did, the
  server
* `Server.next`: one event
* `Reachable`: the states of the runs whose events are allowed
* `anytime`, `oneAtATime`: requests admitted at any moment, and only when no other one runs
-/

namespace ReadCommitted

variable {K A : Type} [DecidableEq K] [DecidableEq A] {Row : K → Type} {Q E V R : Type}

/-- What a request holds: its locks, its uncommitted writes, the committed store each of its queries
ran on, and whether it has committed a transaction. The marks are the committed stores its statements
ran on, once for every lock held then and still held. -/
structure Local {K : Type} (Row : K → Type) (A Q : Type) where
  locks : List (Held K A) := []
  buf : List (Write Row) := []
  seen : List (Q × Store Row) := []
  marks : List (Option (Held K A) × Store Row) := []
  published : Bool := false

namespace Local

/-- The store as the transaction sees it: its own writes over what is committed. -/
def view (ℓ : Local Row A Q) (db : Store Row) : Store Row := db.putAll ℓ.buf

/-- The marks of a statement that runs on `db` under the locks `L`. -/
def marksOf (L : List (Held K A)) (db : Store Row) : List (Option (Held K A) × Store Row) :=
  (none, db) :: L.map fun h => (some h, db)

/-- The query labelled `q` ran on `db`. -/
def see (ℓ : Local Row A Q) (q : Q) (db : Store Row) : Local Row A Q :=
  { ℓ with seen := (q, db) :: ℓ.seen, marks := marksOf ℓ.locks db ++ ℓ.marks }

/-- One more lock, granted on `db`. -/
def hold (ℓ : Local Row A Q) (h : Held K A) (db : Store Row) : Local Row A Q :=
  { ℓ with locks := h :: ℓ.locks, marks := marksOf (h :: ℓ.locks) db ++ ℓ.marks }

/-- One more uncommitted write, under the row's lock. -/
def write (ℓ : Local Row A Q) (w : Write Row) (db : Store Row) : Local Row A Q :=
  { ℓ.hold (.row w.1, .exclusive) db with buf := ℓ.buf ++ [w] }

/-- The locks are released and no writes are pending. -/
def release (ℓ : Local Row A Q) : Local Row A Q :=
  { ℓ with locks := [], buf := [], marks := ℓ.marks.filter (·.1.isNone) }

/-- The transaction is committed on `db`. -/
def publish (ℓ : Local Row A Q) (db : Store Row) : Local Row A Q :=
  { ℓ.release with marks := (none, ℓ.view db) :: ℓ.release.marks, published := true }

end Local

/-- A committed transaction: who committed it, whether as its first one, the locks it and the others
held, the reads of its request, the store it found and what it wrote. -/
structure Commit {K : Type} (Row : K → Type) (A Q R : Type) where
  pid : Nat
  req : R
  first : Bool
  locks : List (Held K A)
  others : List (List (Held K A))
  seen : List (Q × Store Row)
  before : Store Row
  writes : List (Write Row)

/-- The store a commit leaves. -/
def Commit.after (c : Commit Row A Q R) : Store Row := c.before.putAll c.writes

/-- The commit of a transaction in progress. -/
def Local.toCommit (ℓ : Local Row A Q) (pid : Nat) (r : R) (others : List (List (Held K A)))
    (db : Store Row) : Commit Row A Q R :=
  ⟨pid, r, !ℓ.published, ℓ.locks, others, ℓ.seen, db, ℓ.buf⟩

/-- How far a request has come. -/
inductive Phase {K : Type} (Row : K → Type) (A Q E V : Type) where
  | running (p : Prog Row A Q E V)
  | done (v : V)
  | failed (e : E)
  | aborted

/-- Whether the request still runs. -/
def Phase.isRunning : Phase Row A Q E V → Bool
  | .running _ => true
  | _ => false

/-- A request with its progress. -/
structure Proc {K : Type} (Row : K → Type) (A Q E V R : Type) where
  req : R
  phase : Phase Row A Q E V
  loc : Local Row A Q

/-- A holding nobody else's locks exclude. -/
def grantable (others : List (List (Held K A))) (h : Held K A) : Bool :=
  others.all fun L => L.all fun h' => !Conflicts h h'

/-- One statement of a request, on the committed store `db` and against the locks of the others: the
request afterwards and the commit if there was one. A statement that must wait does not run. -/
def Proc.step (pid : Nat) (p : Proc Row A Q E V R) (others : List (List (Held K A)))
    (db : Store Row) : Option (Proc Row A Q E V R × Option (Commit Row A Q R)) :=
  match p.phase with
  | .running (.ret v) => some (⟨p.req, .done v, p.loc.release⟩, none)
  | .running (.throw e) => some (⟨p.req, .failed e, p.loc.release⟩, none)
  | .running (.select q next) =>
    some (⟨p.req, .running (next (p.loc.view db)), p.loc.see q db⟩, none)
  | .running (.acquire l m next) =>
    if grantable others (l, m) then
      some (⟨p.req, .running (next (p.loc.view db)), p.loc.hold (l, m) db⟩, none)
    else none
  | .running (.put k v next) =>
    if grantable others (.row k, .exclusive) then
      some (⟨p.req, .running next, p.loc.write ⟨k, v⟩ db⟩, none)
    else none
  | .running (.commit next) =>
    some (⟨p.req, .running next, p.loc.publish db⟩,
      some (p.loc.toCommit pid p.req others db))
  | _ => none

/-- The request ends where it is and its transaction is rolled back. -/
def Proc.abort (p : Proc Row A Q E V R) : Option (Proc Row A Q E V R) :=
  match p.phase with
  | .running _ => some ⟨p.req, .aborted, p.loc.release⟩
  | _ => none

/-- The server: the committed store, the requests in the order they came, and the commits, the last
one first. -/
structure Server {K : Type} (Row : K → Type) (A Q E V R : Type) where
  db : Store Row
  procs : List (Proc Row A Q E V R)
  history : List (Commit Row A Q R)

/-- A request comes in, one runs its next statement, or one is aborted. -/
inductive Event (R : Type) where
  | spawn (r : R)
  | step (pid : Nat)
  | abort (pid : Nat)

namespace Server

/-- The server before any request. -/
def start (db : Store Row) : Server Row A Q E V R := ⟨db, [], []⟩

/-- The locks the other requests hold. -/
def others (s : Server Row A Q E V R) (pid : Nat) : List (List (Held K A)) :=
  (s.procs.eraseIdx pid).map fun p => p.loc.locks

/-- The request `pid` has become `p'`, with its commit if there was one. -/
def update (s : Server Row A Q E V R) (pid : Nat) (p' : Proc Row A Q E V R) :
    Option (Commit Row A Q R) → Server Row A Q E V R
  | none => { s with procs := s.procs.set pid p' }
  | some c => ⟨c.after, s.procs.set pid p', c :: s.history⟩

/-- One event, where it is possible. -/
def next (code : R → Prog Row A Q E V) (s : Server Row A Q E V R) :
    Event R → Option (Server Row A Q E V R)
  | .spawn r => some { s with procs := s.procs ++ [⟨r, .running (code r), {}⟩] }
  | .step pid => do
    let p ← s.procs[pid]?
    let (p', c) ← p.step pid (s.others pid) s.db
    pure (s.update pid p' c)
  | .abort pid => do
    let p ← s.procs[pid]?
    let p' ← p.abort
    pure (s.update pid p' none)

/-- A list of events, where all of them are possible. -/
def run (code : R → Prog Row A Q E V) (s : Server Row A Q E V R) :
    List (Event R) → Option (Server Row A Q E V R)
  | [] => some s
  | e :: es => (s.next code e).bind fun s' => s'.run code es

/-- No request runs. -/
def Idle (s : Server Row A Q E V R) : Prop := ∀ p ∈ s.procs, p.phase.isRunning = false

instance (s : Server Row A Q E V R) : Decidable s.Idle :=
  inferInstanceAs (Decidable (∀ p ∈ s.procs, _))

end Server

/-- Which events may happen in a state. -/
abbrev Policy {K : Type} (Row : K → Type) (A Q E V R : Type) :=
  Server Row A Q E V R → Event R → Prop

/-- Requests that satisfy `ops` come in at any moment. -/
def anytime (ops : R → Prop) : Policy Row A Q E V R
  | _, .spawn r => ops r
  | _, _ => True

/-- Requests that satisfy `ops` come in one at a time, each when the ones before it have ended. -/
def oneAtATime (ops : R → Prop) : Policy Row A Q E V R
  | s, .spawn r => ops r ∧ s.Idle
  | _, _ => True

/-- The states of the runs of `code` from the store `db` whose events the policy allows. -/
inductive Reachable (code : R → Prog Row A Q E V) (policy : Policy Row A Q E V R)
    (db : Store Row) : Server Row A Q E V R → Prop
  | start : Reachable code policy db (.start db)
  | next {s s' : Server Row A Q E V R} (e : Event R) : Reachable code policy db s →
      policy s e → s.next code e = some s' → Reachable code policy db s'

section Reachable

variable {code : R → Prog Row A Q E V} {ops : R → Prop} {db : Store Row}
  {s s' : Server Row A Q E V R}

/-- A list of events whose requests are admitted at any moment. -/
theorem Reachable.run {es : List (Event R)} (h : Reachable code (anytime ops) db s)
    (hops : ∀ r, .spawn r ∈ es → ops r) (hrun : s.run code es = some s') :
    Reachable code (anytime ops) db s' := by
  induction es generalizing s with
  | nil =>
    cases hrun
    exact h
  | cons e es ih =>
    obtain ⟨s₁, hnext, hrun⟩ := Option.bind_eq_some_iff.mp hrun
    refine ih (h.next e ?_ hnext) (fun r hr => hops r (List.mem_cons_of_mem e hr)) hrun
    cases e with
    | spawn r => exact hops r List.mem_cons_self
    | step pid => trivial
    | abort pid => trivial

/-- A request admitted when no other one runs, and its first `n` statements. -/
def Server.serve (code : R → Prog Row A Q E V) (s : Server Row A Q E V R) (r : R) (n : Nat) :
    Option (Server Row A Q E V R) :=
  if s.Idle then s.run code (.spawn r :: List.replicate n (.step s.procs.length)) else none

/-- Requests served one after the other. -/
def Server.serveAll (code : R → Prog Row A Q E V) (s : Server Row A Q E V R) :
    List (R × Nat) → Option (Server Row A Q E V R)
  | [] => some s
  | x :: xs => (s.serve code x.1 x.2).bind fun s' => s'.serveAll code xs

theorem Reachable.steps {pid n : Nat} (h : Reachable code (oneAtATime ops) db s)
    (hrun : s.run code (List.replicate n (.step pid)) = some s') :
    Reachable code (oneAtATime ops) db s' := by
  induction n generalizing s with
  | zero =>
    cases hrun
    exact h
  | succ n ih =>
    obtain ⟨s₁, hnext, hrun⟩ := Option.bind_eq_some_iff.mp hrun
    exact ih (h.next (.step pid) trivial hnext) hrun

theorem Reachable.serve {r : R} {n : Nat} (h : Reachable code (oneAtATime ops) db s) (hr : ops r)
    (hserve : s.serve code r n = some s') : Reachable code (oneAtATime ops) db s' := by
  rw [Server.serve] at hserve
  split at hserve
  · rename_i hidle
    obtain ⟨s₁, hnext, hrun⟩ := Option.bind_eq_some_iff.mp hserve
    exact (h.next (.spawn r) ⟨hr, hidle⟩ hnext).steps hrun
  · cases hserve

/-- A list of requests served one after the other. -/
theorem Reachable.serveAll {xs : List (R × Nat)} (h : Reachable code (oneAtATime ops) db s)
    (hops : ∀ x ∈ xs, ops x.1) (hserve : s.serveAll code xs = some s') :
    Reachable code (oneAtATime ops) db s' := by
  induction xs generalizing s with
  | nil =>
    cases hserve
    exact h
  | cons x xs ih =>
    obtain ⟨s₁, hserve₁, hserve⟩ := Option.bind_eq_some_iff.mp hserve
    obtain ⟨hx, hxs⟩ := List.forall_mem_cons.mp hops
    exact ih (h.serve hx hserve₁) hxs hserve

end Reachable

end ReadCommitted
