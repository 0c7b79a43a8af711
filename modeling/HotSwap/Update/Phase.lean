/-
The names that an update speaks in.

* `Status` — the validation state of one component of the running flow;
* `Phase` — where an update stands: the phases of the way forward, those of the
  way back, and the four ends;
* `FailureKind` — why an update did not reach its goal.

Each type has its written form (`text`) and a reader (`ofText?`) that accepts
exactly the written forms.
-/
import HotSwap.Data.Basic

namespace HotSwap

/-! ### Status -/

/-- The validation state of one component. -/
inductive Status where
  /-- Not settled yet. -/
  | validating
  | valid
  | invalid
  deriving DecidableEq, Repr

/-- The written form of a status. -/
def Status.text : Status → String
  | .validating => "validating"
  | .valid => "valid"
  | .invalid => "invalid"

/-- Every status, in order. -/
def Status.all : List Status := [.validating, .valid, .invalid]

/-- Reads a status. -/
def Status.ofText? (s : String) : Option Status := Status.all.find? (·.text == s)

/-! ### Phase -/

/-- Where an update stands. -/
inductive Phase where
  | idle
  | enriching
  | backingUp
  | persisting
  | draining
  | reloading
  | validating
  | running
  | revertingFiles
  | reloadingReverted
  | reverted
  | rejected
  | degradedNoReload
  deriving DecidableEq, Repr

namespace Phase

/-- The written form of a phase. -/
def text : Phase → String
  | idle => "idle"
  | enriching => "enriching"
  | backingUp => "backing_up"
  | persisting => "persisting"
  | draining => "draining"
  | reloading => "reloading"
  | validating => "validating"
  | running => "running"
  | revertingFiles => "reverting_files"
  | reloadingReverted => "reloading_reverted"
  | reverted => "reverted"
  | rejected => "rejected"
  | degradedNoReload => "degraded_no_reload"

/-- Every phase, in order. -/
def all : List Phase :=
  [idle, enriching, backingUp, persisting, draining, reloading, validating, running,
    revertingFiles, reloadingReverted, reverted, rejected, degradedNoReload]

/-- Reads a phase. -/
def ofText? (s : String) : Option Phase := all.find? (·.text == s)

/-- Whether an update ends there. -/
def isTerminal : Phase → Bool
  | running | reverted | rejected | degradedNoReload => true
  | _ => false

/-- Whether a failure there may have left the running flow changed. -/
def touchesRuntime : Phase → Bool
  | draining | reloading | validating => true
  | _ => false

end Phase

/-! ### Failure kinds -/

/-- Why an update did not reach its goal. -/
inductive FailureKind where
  | rejectedCandidate
  | fileOperation
  | drainFailure
  | reloadFailure
  | revertReloadFailure
  | busy
  | unexpected
  deriving DecidableEq, Repr

namespace FailureKind

/-- The written form of a failure kind. -/
def text : FailureKind → String
  | rejectedCandidate => "rejected_candidate"
  | fileOperation => "file_operation"
  | drainFailure => "drain_failure"
  | reloadFailure => "reload_failure"
  | revertReloadFailure => "revert_reload_failure"
  | busy => "busy"
  | unexpected => "unexpected"

/-- Every failure kind, in order. -/
def all : List FailureKind :=
  [rejectedCandidate, fileOperation, drainFailure, reloadFailure, revertReloadFailure, busy,
    unexpected]

/-- Reads a failure kind. -/
def ofText? (s : String) : Option FailureKind := all.find? (·.text == s)

end FailureKind

/-- The name of a member of an enumeration, from its written form. -/
def memberName (text : String) : String := text.map Char.toUpper

/-! ### Refused names -/

/-- A value that names no member of an enumeration. -/
structure UnknownName where
  value : Data
  /-- The name of the enumeration. -/
  family : String

/-- The message for a value that names no member. -/
def UnknownName.message (u : UnknownName) : String :=
  u.value.display ++ " is not a valid " ++ u.family

/-- Reads a member of an enumeration from a value. -/
def Data.member {α : Type} (family : String) (ofText? : String → Option α) (d : Data) :
    Except UnknownName α :=
  match d with
  | .text s => match ofText? s with
    | some a => .ok a
    | none => .error { value := d, family }
  | _ => .error { value := d, family }

/-- Reads a status from a value. -/
def Status.ofData : Data → Except UnknownName Status :=
  Data.member "ValidationStatus" ofText?

/-- Reads a phase from a value. -/
def Phase.ofData : Data → Except UnknownName Phase :=
  Data.member "UpdateState" ofText?

/-- Reads a failure kind from a value. -/
def FailureKind.ofData : Data → Except UnknownName FailureKind :=
  Data.member "FailureKind" ofText?

end HotSwap
