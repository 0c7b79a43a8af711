/-
Reports: how one phase ended, what a drain did, how an attempt ended.

* `PhaseResult` — success with a value, or failure with a kind and a fault;
* `DrainReport` — what the drain of the running flow did;
* `UpdateReport` — the end of one attempt, with what follows from its fields:
  `succeeded`, `degraded`, `drainForced`, `duration`.
-/
import HotSwap.Update.Phase
import HotSwap.Update.Fault
import HotSwap.Time.Stamp

namespace HotSwap

/-! ### Phases -/

/-- Why a phase failed: the classification and the fault. -/
structure Failure where
  kind : FailureKind
  fault : Fault
  deriving DecidableEq, Repr

/-- How one phase ended. -/
structure PhaseResult (α : Type) where
  state : Phase
  value : Option α := none
  failure : Option Failure := none

namespace PhaseResult

variable {α : Type}

/-- Whether the phase succeeded. -/
def ok (r : PhaseResult α) : Bool := r.failure.isNone

/-- Kind and message of the fault of a failed phase. -/
def describe (r : PhaseResult α) : Option String := r.failure.map (·.fault.describe)

/-- The failure kind and the fault of a phase were not given together. -/
structure HalfFailure where
  deriving DecidableEq, Repr

/-- The message for half a failure. -/
def HalfFailure.message (_ : HalfFailure) : String :=
  "failure_kind and error must be set together"

/-- A phase result from its parts: a failure has both kind and fault. -/
def ofParts (state : Phase) (value : Option α) (kind : Option FailureKind)
    (fault : Option Fault) : Except HalfFailure (PhaseResult α) :=
  match kind, fault with
  | none, none => .ok { state, value }
  | some kind, some fault => .ok { state, value, failure := some { kind, fault } }
  | _, _ => .error {}

/-- A phase that succeeded. -/
def success (state : Phase) (value : Option α) : PhaseResult α := { state, value }

end PhaseResult

/-! ### Drains -/

/-- What the drain of the running flow did. -/
structure DrainReport where
  /-- Whether the queues emptied within the budget. -/
  graceful : Bool
  /-- How often the queues were asked about. -/
  polls : Nat
  /-- The source components that were stopped first. -/
  sourcesStopped : List String := []
  /-- The remote endpoints that did not stop. -/
  endpointsTimedOut : List String := []
  deriving DecidableEq, Repr

/-- Whether queued work was dropped. -/
def DrainReport.forced (d : DrainReport) : Bool := !d.graceful

/-! ### Attempts -/

/-- The end of one update attempt. -/
structure UpdateReport where
  attemptId : String
  state : Phase
  candidateDigest : String
  startedAt : Stamp
  completedAt : Stamp
  failedPhase : Option Phase := none
  failureKind : Option FailureKind := none
  error : Option String := none
  rollbackError : Option String := none
  drain : Option DrainReport := none
  deriving DecidableEq, Repr

namespace UpdateReport

/-- Whether the candidate is running. -/
def succeeded (r : UpdateReport) : Bool := r.state == .running

/-- Whether files and running flow may disagree. -/
def degraded (r : UpdateReport) : Bool := r.state == .degradedNoReload

/-- Whether queued work was dropped on the way. -/
def drainForced (r : UpdateReport) : Bool :=
  match r.drain with
  | some d => d.forced
  | none => false

/-- Microseconds from start to end. -/
def duration (r : UpdateReport) : Except Stamp.MixedOffsets Int := r.completedAt.since r.startedAt

end UpdateReport
end HotSwap
