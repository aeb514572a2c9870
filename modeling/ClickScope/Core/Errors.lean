import ClickScope.Zod.Schema
import Mathlib.Data.Option.Basic

/-!
# Errors

The errors a program of the service can end with: the operational `AppError`
the error middleware formats, an error Postgres raised, a failed Redis or
queue command, a rejected second parse, and anything else that was thrown.

The factories below are the only way the service builds an `AppError`, so a
status code always comes with its own machine-readable code.

## Main definitions

* `AppError`: An expected failure, with its status, code and message.
* `DbError`: The Postgres errors the schema and its statements can raise.
* `Err`: Everything a program can throw.

## Theorems

* `isUniqueViolation_iff`: Which thrown errors carry code `23505`.
-/

namespace ClickScope

/-- The machine-readable code of an error response. -/
inductive ErrorCode : Type
  | badRequest
  | unauthorized
  | forbidden
  | notFound
  | gone
  | conflict
  | tooManyRequests
  | internalError
deriving DecidableEq, Repr

/-- An expected failure. `details` lists field and message pairs, and is
    absent unless a validator filled it in. -/
structure AppError where
  statusCode : Nat
  code : ErrorCode
  message : String
  details : Option (List (String × String))
deriving DecidableEq, Repr

def badRequest (message : String) (details : Option (List (String × String)) := none) : AppError :=
  ⟨400, .badRequest, message, details⟩

def unauthorized (message : String := "Unauthorized") : AppError :=
  ⟨401, .unauthorized, message, none⟩

def notFound (message : String := "Not found") : AppError :=
  ⟨404, .notFound, message, none⟩

def gone (message : String := "Gone") : AppError :=
  ⟨410, .gone, message, none⟩

def conflict (message : String) : AppError :=
  ⟨409, .conflict, message, none⟩

def internal (message : String := "Internal server error") : AppError :=
  ⟨500, .internalError, message, none⟩

/-- The Postgres errors a statement of the service can raise. -/
inductive DbError : Type
  | uniqueViolation
  | checkViolation
  | foreignKeyViolation
  | notNullViolation
  | numericValueOutOfRange
  | datetimeFieldOverflow
  | invalidTextRepresentation
  | invalidByteSequence
  | invalidRowCount
  | datatypeMismatch
  | noActiveTransaction
  | connectionFailure
deriving DecidableEq, Repr

/-- The five-character code of an error. -/
def DbError.code : DbError → String
  | .uniqueViolation => "23505"
  | .checkViolation => "23514"
  | .foreignKeyViolation => "23503"
  | .notNullViolation => "23502"
  | .numericValueOutOfRange => "22003"
  | .datetimeFieldOverflow => "22008"
  | .invalidTextRepresentation => "22P02"
  | .invalidByteSequence => "22021"
  | .invalidRowCount => "2201W"
  | .datatypeMismatch => "42804"
  | .noActiveTransaction => "25P01"
  | .connectionFailure => "08006"

/-- Postgres error code for a unique-constraint violation. -/
def UNIQUE_VIOLATION : String := "23505"

/-- What a program can throw. -/
inductive Err : Type
  | app (e : AppError)
  | db (e : DbError)
  | redis
  | queue
  | google
  | uriError
  | typeError
  | zodError (issues : List Zod.Issue)
  | error (message : String)
deriving DecidableEq, Repr

/-- The test the catch branches make: `err instanceof DatabaseError` with the
    unique-violation code. -/
def Err.isUniqueViolation : Err → Bool
  | .db e => e.code == UNIQUE_VIOLATION
  | _ => false

@[simp] theorem isUniqueViolation_app (e : AppError) :
    (Err.app e).isUniqueViolation = false := rfl

@[simp] theorem isUniqueViolation_error (m : String) :
    (Err.error m).isUniqueViolation = false := rfl

@[simp] theorem isUniqueViolation_db (e : DbError) :
    (Err.db e).isUniqueViolation = true ↔ e = .uniqueViolation := by
  cases e <;> decide

theorem isUniqueViolation_iff (err : Err) :
    err.isUniqueViolation = true ↔ err = .db .uniqueViolation := by
  cases err with
  | db e => rw [isUniqueViolation_db, Err.db.injEq]
  | _ => simp only [Err.isUniqueViolation, Bool.false_eq_true, reduceCtorEq]

end ClickScope
