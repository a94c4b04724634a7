import AccountingApi.Dates

/-!
# Errors

The errors a request can end with: the domain errors the services throw, and the errors of the
database layer that no service maps.

## Main definitions

* `ErrorCode`: the code of a domain error
* `Failure`: an error
-/

namespace AccountingApi

/-- The key of a row, a random UUID. -/
abbrev Uuid := ℕ

/-- The code of a domain error. -/
inductive ErrorCode where
  | validationFailed
  | notFound
  | conflict
  | unauthorized
  | unbalancedEntry
  | closedPeriod
  | closedYear
  | invalidAccount
  | segregationOfDuties
deriving DecidableEq

/-- A value among an error's details. -/
inductive Detail where
  | id (u : Uuid)
  | text (s : String)
  | year (y : ℤ)
  | amount (a : ℤ)
  | date (d : UtcDay)
deriving DecidableEq

/-- What a request that fails ends with. -/
inductive Failure where
  | domain (code : ErrorCode) (message : String) (details : List (String × Detail))
  /-- A unique constraint is violated. -/
  | uniqueViolation
  /-- The row to be updated does not exist. -/
  | recordNotFound
  /-- A value does not fit its column, or violates a check of its table. -/
  | columnViolation
  /-- An exception of the web framework. -/
  | http (status : ℕ) (message : String)
  /-- An error that is no domain error. -/
  | internal (message : String)
deriving DecidableEq

namespace Failure

def validationFailed (message : String) (details : List (String × Detail)) : Failure :=
  .domain .validationFailed message details

def notFound (message : String) (details : List (String × Detail)) : Failure :=
  .domain .notFound message details

def conflict (message : String) (details : List (String × Detail)) : Failure :=
  .domain .conflict message details

def unauthorized (message : String) (details : List (String × Detail)) : Failure :=
  .domain .unauthorized message details

/-- The error with unique violations replaced, as a handler around a transaction does. -/
def mapUnique (e : Failure) : Failure → Failure
  | .uniqueViolation => e
  | e' => e'

end Failure

/-- A result, from what is known of it where there is one. -/
theorem exists_ok_of_toOption {ε α β : Type} {e : Except ε α} {f : α → β} {b : β}
    (h : e.toOption.map f = some b) : ∃ a, e = .ok a ∧ f a = b := by
  cases e with
  | error _ => cases h
  | ok a => exact ⟨a, rfl, Option.some.inj h⟩

end AccountingApi
