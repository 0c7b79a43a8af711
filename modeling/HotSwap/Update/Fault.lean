/-
What can go wrong during an update.

A fault is either raised by this library, with a constructor for each cause, or
by a collaborator, who may raise anything.  Faults that are not ordinary errors
(an interrupt, a request to exit) pass through every handler.  There are ordinary
errors by which somebody who is polled asks to be polled again.

* `Fault.kind`, `Fault.text` — the name and the message of a fault;
* `Fault.describe` — both, as reports show them;
* `Fault.interrupts` — whether handlers let the fault pass;
* `Fault.asksAgain` — whether it asks a loop for another poll;
* `Family` — the kinds of faults of this library and how they specialise.
-/
import HotSwap.Update.SystemError
import HotSwap.Path.Basic

namespace HotSwap

/-- A validation error reported by one component. -/
structure Issue where
  componentId : String
  message : String
  deriving DecidableEq, Repr

/-- An issue as messages show it. -/
def Issue.text (i : Issue) : String := i.componentId ++ ": " ++ i.message

/-! ### Families -/

/-- The kinds of faults that this library raises. -/
inductive Family where
  /-- Any of them. -/
  | update
  | rejectedCandidate
  | configFile
  | reloadFailed
  | validationPending
  | validationFailed
  | revertReload
  deriving DecidableEq, Repr

namespace Family

/-- The name of a family. -/
def name : Family → String
  | update => "FlowswapError"
  | rejectedCandidate => "RejectedCandidateError"
  | configFile => "ConfigFileError"
  | reloadFailed => "ReloadFailedError"
  | validationPending => "ValidationPendingError"
  | validationFailed => "ValidationFailedError"
  | revertReload => "RevertReloadError"

/-- The family itself and those it specialises, the nearest first. -/
def lineage : Family → List Family
  | update => [update]
  | validationPending => [validationPending, reloadFailed, update]
  | validationFailed => [validationFailed, reloadFailed, update]
  | f => [f, update]

end Family

/-! ### Faults -/

/-- What a file operation was doing when the system refused it. -/
inductive FileProblem where
  | staleBackup
  | unreadableActive
  | unreadableRaw
  | backupCopy
  | persist
  | restore
  | stated (message : String)
  deriving DecidableEq, Repr

/-- The message of a file problem, without the path. -/
def FileProblem.message : FileProblem → String
  | staleBackup => "Unable to remove stale backup flow configuration"
  | unreadableActive => "Unable to read active flow configuration for backup"
  | unreadableRaw => "Unable to read raw flow configuration for backup"
  | backupCopy => "Unable to write backup flow configuration"
  | persist => "Unable to persist flow configuration"
  | restore => "Unable to restore previous flow configuration"
  | stated message => message

/-- The step of a reload that failed. -/
inductive ReloadStep where
  | load
  | validate
  | collect
  | start
  deriving DecidableEq, Repr

/-- The message of a failed reload step, without its cause. -/
def ReloadStep.message : ReloadStep → String
  | load => "Unable to load persisted flow configuration"
  | validate => "Unable to validate flow components"
  | collect => "Unable to collect validation errors"
  | start => "Unable to start flow processing"

/-- Something that went wrong. -/
inductive Fault where
  /-- An ordinary error of a collaborator. -/
  | raised (kind text : String)
  /-- An ordinary error as well, of a kind that asks a polling loop to poll again. -/
  | again (kind text : String)
  /-- Not an ordinary error: it passes through every handler. -/
  | interrupt (kind text : String)
  /-- A refusal of the operating system. -/
  | system (e : SystemError)
  /-- A fault of one of this library's families with a text of its own. -/
  | stated (family : Family) (text : String)
  | configFile (problem : FileProblem) (path : Path)
  /-- The enricher refused the candidate. -/
  | notEnriched (cause : Fault)
  /-- The enricher returned something that is no byte string. -/
  | wrongPayload (typeName : String)
  | reloadFailed (step : ReloadStep) (cause : Fault)
  | validationPending (componentIds : List String)
  | validationFailed (issues : List Issue)
  /-- The reverted configuration could not be reloaded. -/
  | revertReload (cause : Fault)
  deriving DecidableEq, Repr

namespace Fault

/-- The family of a fault, if it is one of this library's. -/
def family? : Fault → Option Family
  | stated f _ => some f
  | configFile .. => some .configFile
  | notEnriched _ | wrongPayload _ => some .rejectedCandidate
  | reloadFailed .. => some .reloadFailed
  | validationPending _ => some .validationPending
  | validationFailed _ => some .validationFailed
  | revertReload _ => some .revertReload
  | raised .. | again .. | interrupt .. | system _ => none

/-- The name of a fault's kind. -/
def kind : Fault → String
  | raised kind _ | again kind _ | interrupt kind _ => kind
  | system e => e.kind
  | stated f _ => f.name
  | configFile .. => Family.configFile.name
  | notEnriched _ | wrongPayload _ => Family.rejectedCandidate.name
  | reloadFailed .. => Family.reloadFailed.name
  | validationPending _ => Family.validationPending.name
  | validationFailed _ => Family.validationFailed.name
  | revertReload _ => Family.revertReload.name

/-- The message of a fault. -/
def text : Fault → String
  | raised _ text | again _ text | interrupt _ text | stated _ text => text
  | system e => e.message
  | configFile problem path => problem.message ++ ": " ++ toString path
  | notEnriched cause =>
    "Unable to enrich candidate flow configuration: " ++ cause.kind ++ ": " ++ cause.text
  | wrongPayload typeName => "Enricher returned " ++ typeName ++ ", expected bytes"
  | reloadFailed step cause => step.message ++ ": " ++ cause.kind ++ ": " ++ cause.text
  | validationPending ids =>
    "Maximum retry number exceeded while waiting for components to be validated: "
      ++ ", ".intercalate ids
  | validationFailed issues =>
    "Unable to start flow due to " ++ toString issues.length ++ " validation error(s): "
      ++ "; ".intercalate (issues.map Issue.text)
  | revertReload cause => cause.text

/-- Kind and message, as reports show a fault. -/
def describe (f : Fault) : String := f.kind ++ ": " ++ f.text

/-- Whether handlers of ordinary errors let the fault pass. -/
def interrupts : Fault → Bool
  | interrupt .. => true
  | _ => false

/-- Whether the fault asks a polling loop to poll again. -/
def asksAgain : Fault → Bool
  | again .. => true
  | _ => false

/-- Whether the fault tells that a wait took too long. -/
def isTimeout (f : Fault) : Bool := f.kind == "TimeoutError"

/-- Whether the fault is a failed reload of any kind. -/
def isReloadFailure (f : Fault) : Bool :=
  match f.family? with
  | some family => family.lineage.contains .reloadFailed
  | none => false

/-- The fault that brought this one about, where that is kept. -/
def cause? : Fault → Option Fault
  | notEnriched cause | reloadFailed _ cause | revertReload cause => some cause
  | _ => none

/-- The components that a fault is about. -/
def componentIds? : Fault → Option (List String)
  | validationPending ids => some ids
  | _ => none

/-- The issues that a fault is about. -/
def issues? : Fault → Option (List Issue)
  | validationFailed issues => some issues
  | _ => none

end Fault
end HotSwap
