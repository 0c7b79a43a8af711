/-
The history of update attempts.

One row is kept for each attempt.  A row holds the wall-clock readings of its
report's stamps, without their distance from UTC, and is read back as UTC.

* `Row`, `Row.ofReport`, `AttemptRecord` — a row, what goes into it, and what
  comes out;
* `Store` — the rows, in the order in which they were kept;
* `Store.insert`, `Store.get?`, `Store.recent` — keeping a row, finding one by
  its attempt, and the latest ones;
* `History` — a store that may have been closed.
-/
import HotSwap.Update.Report

namespace HotSwap

/-- What is kept of one attempt. -/
structure Row where
  attemptId : String
  /-- Wall-clock readings, in microseconds. -/
  startedAt : Int
  completedAt : Int
  state : Phase
  digest : String
  drainForced : Bool
  failedPhase : Option Phase
  failureKind : Option FailureKind
  error : Option String
  rollbackError : Option String
  deriving DecidableEq, Repr

/-- The row of a report. -/
def Row.ofReport (r : UpdateReport) : Row :=
  { attemptId := r.attemptId
    startedAt := r.startedAt.wall
    completedAt := r.completedAt.wall
    state := r.state
    digest := r.candidateDigest
    drainForced := r.drainForced
    failedPhase := r.failedPhase
    failureKind := r.failureKind
    error := r.error
    rollbackError := r.rollbackError }

/-- A row as it is read back. -/
structure AttemptRecord where
  attemptId : String
  startedAt : Stamp
  completedAt : Stamp
  state : Phase
  digest : String
  drainForced : Bool
  failedPhase : Option Phase
  failureKind : Option FailureKind
  error : Option String
  rollbackError : Option String
  deriving DecidableEq, Repr

/-- Reads a row back: its wall-clock readings are taken as UTC. -/
def Row.toRecord (r : Row) : AttemptRecord :=
  { attemptId := r.attemptId
    startedAt := .utc r.startedAt
    completedAt := .utc r.completedAt
    state := r.state
    digest := r.digest
    drainForced := r.drainForced
    failedPhase := r.failedPhase
    failureKind := r.failureKind
    error := r.error
    rollbackError := r.rollbackError }

/-! ### Stores -/

/-- The rows of a history, in the order in which they were kept. -/
structure Store where
  rows : List Row := []
  deriving DecidableEq, Repr

/-- What a history refuses. -/
inductive HistoryError where
  /-- There is a row of that attempt already. -/
  | duplicate
  | closed
  /-- The limit is below one. -/
  | limitTooLow (limit : Int)
  /-- The limit exceeds what a store can count. -/
  | limitTooHigh
  deriving DecidableEq, Repr

/-- The name of the kind of a refusal. -/
def HistoryError.kind : HistoryError → String
  | duplicate => "IntegrityError"
  | closed => "RuntimeError"
  | limitTooLow _ => "ValueError"
  | limitTooHigh => "OverflowError"

/-- The message of a refusal. -/
def HistoryError.message : HistoryError → String
  | duplicate => "UNIQUE constraint failed: update_attempts.attempt_id"
  | closed => "Database not initialized"
  | limitTooLow limit => "limit must be >= 1, got " ++ toString limit
  | limitTooHigh => "Python int too large to convert to SQLite INTEGER"

/-- The fault that a refusal is. -/
def HistoryError.fault (e : HistoryError) : Fault := .raised e.kind e.message

namespace Store

/-- The row of an attempt. -/
def get? (s : Store) (attemptId : String) : Option Row :=
  s.rows.find? fun r => r.attemptId == attemptId

/-- Keeps a row, unless there is one of the same attempt. -/
def insert (s : Store) (r : Row) : Except HistoryError Store :=
  match s.get? r.attemptId with
  | some _ => .error .duplicate
  | none => .ok { rows := s.rows ++ [r] }

/-- Puts a row among rows that are ordered from the latest start to the
earliest; of equal starts the row that is put in comes first. -/
def place (r : Row) : List Row → List Row
  | [] => [r]
  | x :: rest => if x.startedAt ≤ r.startedAt then r :: x :: rest else x :: place r rest

/-- All rows from the latest start to the earliest; of equal starts the one
that was kept last comes first. -/
def latestFirst (s : Store) : List Row := s.rows.foldl (fun sorted r => place r sorted) []

/-- The latest rows, `limit` of them at most. -/
def recent (s : Store) (limit : Nat) : List Row := s.latestFirst.take limit

end Store

/-! ### Histories -/

/-- A history: its store, unless it has been closed. -/
structure History where
  store : Option Store := some {}
  deriving DecidableEq, Repr

namespace History

/-- The greatest limit that a store can count to. -/
def greatestLimit : Int := Nat.pow 2 63 - 1

/-- The store of a history that has not been closed. -/
def opened (h : History) : Except HistoryError Store :=
  match h.store with
  | some s => .ok s
  | none => .error .closed

/-- Keeps the report of an attempt. -/
def keep (h : History) (r : UpdateReport) : Except HistoryError History := do
  let s ← (← h.opened).insert (.ofReport r)
  return { store := some s }

/-- The record of an attempt. -/
def get (h : History) (attemptId : String) : Except HistoryError (Option AttemptRecord) := do
  return ((← h.opened).get? attemptId).map (·.toRecord)

/-- The records of the latest attempts. -/
def recent (h : History) (limit : Int) : Except HistoryError (List AttemptRecord) := do
  if limit < 1 then throw (.limitTooLow limit)
  let s ← h.opened
  if greatestLimit < limit then throw .limitTooHigh
  return (s.recent limit.toNat).map (·.toRecord)

/-- A closed history. -/
def close (_ : History) : History := { store := none }

end History
end HotSwap
