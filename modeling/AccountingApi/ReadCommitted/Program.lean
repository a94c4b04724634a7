import AccountingApi.ReadCommitted.Store

/-!
# Transaction programs

A program reads the store one statement at a time, takes locks, buffers writes and commits them.
Every statement hands its continuation the store as the transaction sees it at that moment, so two
reads of one program may see two different stores. Statements before the first lock or write are the
reads a request makes outside its transaction.

## Main definitions

* `Lock`, `Mode`, `Held`: row locks and named locks, each shared or exclusive
* `Conflicts`: two holdings that exclude each other
* `Prog`: the programs, a monad
* `Prog.forEach`: a statement for every element of a list
-/

namespace ReadCommitted

/-- What a transaction can lock: the row under a key, or a name of its own. -/
inductive Lock (K A : Type) where
  | row (k : K)
  | named (a : A)
deriving DecidableEq

/-- The mode a lock is held in. -/
inductive Mode where
  | shared
  | exclusive
deriving DecidableEq

/-- A lock with the mode it is held in. -/
abbrev Held (K A : Type) := Lock K A × Mode

/-- Two holdings of different transactions that exclude each other. -/
def Conflicts {K A : Type} [DecidableEq K] [DecidableEq A] (h h' : Held K A) : Bool :=
  h.1 = h'.1 && (h.2 = .exclusive || h'.2 = .exclusive)

/-- No holding of the one list excludes one of the other. -/
def Compatible {K A : Type} [DecidableEq K] [DecidableEq A] (L L' : List (Held K A)) : Prop :=
  ∀ h ∈ L, ∀ h' ∈ L', Conflicts h h' = false

theorem Conflicts.symm {K A : Type} [DecidableEq K] [DecidableEq A] (h h' : Held K A) :
    Conflicts h h' = Conflicts h' h := by
  simp only [Conflicts, Bool.or_comm (decide (h.2 = .exclusive)), eq_comm (a := h.1)]

theorem Compatible.symm {K A : Type} [DecidableEq K] [DecidableEq A] {L L' : List (Held K A)}
    (hc : Compatible L L') : Compatible L' L :=
  fun h' hh' h hh => Conflicts.symm h h' ▸ hc h hh h' hh'

/-- Programs over a store: `Q` labels the queries, `A` names the locks that are no row locks, and a
program ends with a value or throws an `E`. -/
inductive Prog {K : Type} (Row : K → Type) (A Q E α : Type) : Type where
  | ret (a : α)
  | throw (e : E)
  | select (q : Q) (next : Store Row → Prog Row A Q E α)
  | acquire (l : Lock K A) (m : Mode) (next : Store Row → Prog Row A Q E α)
  | put (k : K) (v : Row k) (next : Prog Row A Q E α)
  | commit (next : Prog Row A Q E α)

namespace Prog

variable {K A Q E α β γ : Type} {Row : K → Type}

/-- The first program, then the one its value selects. -/
def bind : Prog Row A Q E α → (α → Prog Row A Q E β) → Prog Row A Q E β
  | .ret a, f => f a
  | .throw e, _ => .throw e
  | .select q next, f => .select q fun s => (next s).bind f
  | .acquire l m next, f => .acquire l m fun s => (next s).bind f
  | .put k v next, f => .put k v (next.bind f)
  | .commit next, f => .commit (next.bind f)

instance : Monad (Prog Row A Q E) where
  pure := .ret
  bind := .bind

@[simp] theorem pure_eq (a : α) : (pure a : Prog Row A Q E α) = .ret a := rfl

@[simp] theorem bind_eq (p : Prog Row A Q E α) (f : α → Prog Row A Q E β) :
    (p >>= f) = p.bind f := rfl

/-- The store as the transaction sees it when the statement labelled `q` runs. -/
def query (q : Q) : Prog Row A Q E (Store Row) := .select q .ret

/-- The lock taken, and the store as the transaction sees it once it holds the lock. -/
def lock (l : Lock K A) (m : Mode) : Prog Row A Q E (Store Row) := .acquire l m .ret

/-- One row written. -/
def write (k : K) (v : Row k) : Prog Row A Q E Unit := .put k v (.ret ())

/-- The buffered writes published and the locks released. -/
def commitTx : Prog Row A Q E Unit := .commit (.ret ())

/-- The program, its writes committed together. -/
def transaction (body : Prog Row A Q E α) : Prog Row A Q E α := body.bind fun a => .commit (.ret a)

/-- The program stops with `e` unless the condition holds. -/
def ensure (c : Prop) [Decidable c] (e : E) : Prog Row A Q E Unit :=
  if c then .ret () else .throw e

/-- The program, if the condition holds. -/
def when (c : Prop) [Decidable c] (p : Prog Row A Q E Unit) : Prog Row A Q E Unit :=
  if c then p else .ret ()

/-- The value of an option, or the program stops with `e`. -/
def orThrow (o : Option α) (e : E) : Prog Row A Q E α :=
  match o with
  | some a => .ret a
  | none => .throw e

/-- The value of a fallible computation, or the program stops with its error. -/
def ofExcept : Except E α → Prog Row A Q E α
  | .ok a => .ret a
  | .error e => .throw e

/-- The program with the errors it throws replaced, as by a handler around it. -/
def mapThrow (g : E → E) : Prog Row A Q E α → Prog Row A Q E α
  | .ret a => .ret a
  | .throw e => .throw (g e)
  | .select q next => .select q fun s => (next s).mapThrow g
  | .acquire l m next => .acquire l m fun s => (next s).mapThrow g
  | .put k v next => .put k v (next.mapThrow g)
  | .commit next => .commit (next.mapThrow g)

/-- The program run for every element of the list, in order. -/
def forEach : List α → (α → Prog Row A Q E Unit) → Prog Row A Q E Unit
  | [], _ => .ret ()
  | a :: l, f => (f a).bind fun _ => forEach l f

end Prog

end ReadCommitted
