/-
One update attempt, phase by phase.

* `UpdatePlan` — what is fixed for all attempts of an updater;
* `Attempt` — what is fixed for one attempt;
* `runPhase` — one phase: its events, its span, its faults turned into a result;
* `commit` — the way forward, and `rollBack` — the way back;
* `finish` — the report, told to the log, the observers and the history;
* `perform` — the whole attempt.
-/
import HotSwap.Codec.Sha256
import HotSwap.Configuration.FileSet
import HotSwap.Flow.Drain
import HotSwap.Flow.Reload
import HotSwap.Update.Tracing

namespace HotSwap

/-- What is fixed for all attempts of an updater. -/
structure UpdatePlan where
  files : FilePaths
  drain : DrainPlan
  validation : Budget
  /-- Whether there is a tracer. -/
  tracing : Bool := false
  /-- Whether reports are kept. -/
  keepsReports : Bool := false
  /-- Whether candidates are enriched at all; if not, the enriching phase has no
  result. -/
  enriches : Bool := true

/-- What is fixed for one attempt. -/
structure Attempt where
  id : String
  digest : String
  size : Nat
  /-- In microseconds. -/
  startedAt : Int

/-- A failed phase, and why it failed. -/
structure PhaseFailure where
  phase : Phase
  failure : Failure
  deriving DecidableEq, Repr

/-- How an attempt ended: the final state, the phase that failed, and the phase
of the way back that failed. -/
structure Outcome where
  state : Phase
  failed : Option PhaseFailure := none
  rollbackFailed : Option PhaseFailure := none

/-- The kind of failure that a report names: that of the way back, if it
failed. -/
def Outcome.failureKind (o : Outcome) : Option FailureKind :=
  match o.rollbackFailed with
  | some f => some f.failure.kind
  | none => o.failed.map (·.failure.kind)

/-- The failed phase of a result. -/
def PhaseResult.failed? {α : Type} (r : PhaseResult α) : Option PhaseFailure :=
  r.failure.map fun failure => { phase := r.state, failure }

namespace Attempt

variable {σ α : Type}

/-! ### Telling -/

/-- The name under which the updater logs. -/
def logger : String := "flowswap.engine.orchestrator"

/-- Writes a log record about an attempt. -/
def say (a : Attempt) (level : Level) (event : String) (fields : List (String × Data)) :
    Act σ Unit :=
  Act.say logger level event (("attempt_id", .text a.id) :: fields)

/-- Writes a log record about an attempt, with a fault attached. -/
def sayFault (a : Attempt) (level : Level) (event : String) (fields : List (String × Data)) :
    Act σ Unit :=
  Act.record
    { level, logger, event, fields := ("attempt_id", .text a.id) :: fields, withFault := true }

/-- A text as a log field, or its absence. -/
def optionField (key : String) (value : Option String) : String × Data :=
  (key, (value.map Data.text).getD .null)

/-- Tells the observers; an ordinary fault of theirs is logged. -/
def publish (link : Link σ) (e : Event) : Act σ Unit := do
  match ← (link.ask (.publish e)).guarded with
  | .ok _ => return ()
  | .error fault =>
    Act.say logger .error "Event handler failed"
      [("event_type", .text e.kind), ("error", .text fault.text), ("error_type", .text fault.kind)]

/-! ### Begin and end -/

/-- Begins an attempt. -/
def start (link : Link σ) (raw : Bytes) : Act σ Attempt := do
  let id ← link.newId
  return {
    id
    digest := Text.hex (Codec.sha256 raw)
    size := raw.length
    startedAt := ← link.time }

/-- Keeps a report; an ordinary fault of the history is logged. -/
def keep (link : Link σ) (plan : UpdatePlan) (report : UpdateReport) : Act σ Unit := do
  if plan.keepsReports then
    match ← (link.ask (.keepReport report)).guarded with
    | .ok _ => return ()
    | .error fault =>
      Act.say logger .error "Unable to record update attempt in history"
        [("attempt_id", .text report.attemptId), ("error", .text fault.text),
          ("error_type", .text fault.kind)]

/-- The report of an attempt that ended at a time. -/
def report (a : Attempt) (o : Outcome) (drained : Option DrainReport) (completedAt : Int) :
    UpdateReport :=
  { attemptId := a.id
    state := o.state
    candidateDigest := a.digest
    startedAt := .utc a.startedAt
    completedAt := .utc completedAt
    failedPhase := o.failed.map (·.phase)
    failureKind := o.failureKind
    error := o.failed.map (·.failure.fault.describe)
    rollbackError := o.rollbackFailed.map (·.failure.fault.describe)
    drain := drained }

/-- Ends an attempt: its report goes to the log, the observers and the
history. -/
def finish (link : Link σ) (plan : UpdatePlan) (a : Attempt) (o : Outcome)
    (drained : Option DrainReport) : Act σ UpdateReport := do
  let completedAt ← link.time
  let report := a.report o drained completedAt
  let duration := completedAt - a.startedAt
  let seconds : Data := .float (Number.roundPlaces 3 (Number.ofMillionths duration))
  if report.succeeded then
    a.say .info "Flow configuration updated"
      [("duration_seconds", seconds), ("drain_forced", .bool report.drainForced)]
  else
    a.say .info "Flow configuration update finished without applying candidate"
      [("state", .text report.state.text),
        optionField "failure_kind" (report.failureKind.map (·.text)),
        ("duration_seconds", seconds)]
  publish link
    (.updateCompleted report.attemptId report.state report.succeeded duration report.failureKind)
  keep link plan report
  return report

/-! ### Phases -/

/-- Ends a phase that failed inside its span. -/
def failPhase (link : Link σ) (a : Attempt) (phase : Phase) (kind : FailureKind)
    (span : Option Span) (fault : Fault) : Act σ Unit := do
  Tracing.recordFault link span fault
  a.say .debug "Phase failed"
    [("phase", .text phase.text), ("failure_kind", .text kind.text),
      ("error", .text fault.describe)]
  publish link (.phaseFailed a.id phase kind fault.describe)

/-- The action of a phase, inside its span; ordinary faults become a failed
result. -/
def runAction (link : Link σ) (a : Attempt) (phase : Phase) (kind : FailureKind)
    (action : Act σ (Option α)) (span : Option Span) : Act σ (PhaseResult α) := do
  match ← action.guarded with
  | .ok value => return .success phase value
  | .error fault =>
    a.failPhase link phase kind span fault
    return { state := phase, failure := some { kind, fault } }

/-- Runs one phase: its action, told about before and after. -/
def runPhase (link : Link σ) (plan : UpdatePlan) (a : Attempt) (phase : Phase)
    (kind : FailureKind) (action : Act σ (Option α)) : Act σ (PhaseResult α) := do
  Act.changeDesk fun d => { d with phase }
  publish link (.phaseStarted a.id phase)
  let result ←
    Tracing.withPhaseSpan link plan.tracing phase (a.runAction link phase kind action)
  if result.ok then
    a.say .debug "Phase completed" [("phase", .text phase.text)]
    publish link (.phaseCompleted a.id phase)
  return result

/-- Runs a phase whose action has no value. -/
def runStep (link : Link σ) (plan : UpdatePlan) (a : Attempt) (phase : Phase)
    (kind : FailureKind) (action : Act σ Unit) : Act σ (PhaseResult Unit) :=
  a.runPhase link plan phase kind do
    action
    return none

/-! ### Actions of the phases -/

/-- Has the candidate enriched. -/
def enrich (link : Link σ) (plan : UpdatePlan) (raw : Bytes) : Act σ (Option Bytes) := do
  if plan.enriches then
    match ← (link.ask (.enrich raw)).guarded with
    | .error fault => Act.raise (.notEnriched fault)
    | .ok (.other typeName) => Act.raise (.wrongPayload typeName)
    | .ok (.bytes rendered) => return some rendered
  else return none

/-- Restores the files. -/
def revertFiles (link : Link σ) (files : FilePaths) : Act σ Unit := do
  if ← FileSet.revert link files then return ()
  else Act.raise (.configFile .restore files.active)

/-- Reloads the restored configuration; this cannot be cancelled. -/
def reloadReverted (link : Link σ) (validation : Budget) : Act σ Unit := do
  match ← (reloadFlow link validation false).guarded with
  | .ok _ => return ()
  | .error fault =>
    if fault.isReloadFailure then Act.raise (.revertReload fault) else Act.raise fault

/-! ### The way forward and the way back -/

/-- Drains the flow and notes what that did. -/
def drainPhase (link : Link σ) (plan : UpdatePlan) (a : Attempt) : Act σ (PhaseResult Unit) := do
  let r ← a.runPhase link plan .draining .drainFailure do
    return some (← drain link plan.drain true)
  if r.ok then Act.changeDesk fun d => { d with drained := r.value }
  return { state := r.state, failure := r.failure }

/-- Runs phases until one fails; that one. -/
def firstFailure : List (Act σ (PhaseResult Unit)) → Act σ (Option PhaseFailure)
  | [] => return none
  | phase :: rest => do
    match (← phase).failed? with
    | some failed => return some failed
    | none => firstFailure rest

/-- The phases that put an enriched candidate into the running flow. -/
def forward (link : Link σ) (plan : UpdatePlan) (a : Attempt) (raw rendered : Bytes) :
    List (Act σ (PhaseResult Unit)) :=
  [ a.runStep link plan .backingUp .fileOperation (FileSet.backup link plan.files),
    a.runStep link plan .persisting .fileOperation (FileSet.persist link plan.files rendered raw),
    a.drainPhase link plan,
    a.runStep link plan .reloading .reloadFailure (loadFlow link),
    a.runStep link plan .validating .reloadFailure (validateAndStart link plan.validation true) ]

/-- Takes an attempt back after a phase has failed: files first, then, if the
flow may have been touched, the flow. -/
def rollBack (link : Link σ) (plan : UpdatePlan) (a : Attempt) (failed : PhaseFailure) :
    Act σ Outcome := do
  a.sayFault .error "Flow configuration update failed. Reverting to previous flow configuration"
    [("failed_phase", .text failed.phase.text), ("failure_kind", .text failed.failure.kind.text),
      ("error", .text failed.failure.fault.describe)]
  let reverted ← a.runStep link plan .revertingFiles .fileOperation (revertFiles link plan.files)
  if let some rollbackFailed := reverted.failed? then
    a.say .critical
      "Unable to restore previous flow configuration files. Manual intervention required"
      [("error", .text rollbackFailed.failure.fault.describe)]
    return { state := .degradedNoReload, failed, rollbackFailed }
  if !failed.phase.touchesRuntime then
    a.say .info
      "Previous flow configuration restored. Flow was not touched, no reload is necessary" []
    return { state := .reverted, failed }
  let reloaded ← a.runStep link plan .reloadingReverted .revertReloadFailure
    (reloadReverted link plan.validation)
  if let some rollbackFailed := reloaded.failed? then
    a.sayFault .critical
      "Unable to reload the reverted flow. On-disk and running configuration may disagree, process restart required"
      [("error", .text rollbackFailed.failure.fault.describe)]
    return { state := .degradedNoReload, failed, rollbackFailed }
  a.say .warning "Previous flow configuration reverted and reloaded" []
  return { state := .reverted, failed }

/-- Puts an enriched candidate into the running flow, or takes the attempt
back. -/
def commit (link : Link σ) (plan : UpdatePlan) (a : Attempt) (raw rendered : Bytes) :
    Act σ Outcome := do
  match ← firstFailure (a.forward link plan raw rendered) with
  | none => return { state := .running }
  | some failed => a.rollBack link plan failed

/-- An attempt inside its span. -/
def runPhases (link : Link σ) (plan : UpdatePlan) (a : Attempt) (raw : Bytes) :
    Act σ UpdateReport := do
  let enriched ← a.runPhase link plan .enriching .rejectedCandidate (enrich link plan raw)
  if let some failed := enriched.failed? then
    a.say .error "Candidate flow configuration rejected, running flow left untouched"
      [("error", .text failed.failure.fault.describe)]
    return ← a.finish link plan { state := .rejected, failed } (← Act.desk).drained
  match enriched.value with
  | none =>
    Act.raise (.raised "RuntimeError"
      "Enrichment returned success but has no rendered configuration")
  | some rendered =>
    let outcome ← FileSet.transaction link plan.files (a.commit link plan raw rendered)
    a.finish link plan outcome (← Act.desk).drained

/-- An attempt from its announcement to its report. -/
def perform (link : Link σ) (plan : UpdatePlan) (a : Attempt) (raw : Bytes) :
    Act σ UpdateReport := do
  a.say .info "Attempting to update flow configuration"
    [("candidate_bytes", .int a.size), ("candidate_sha256", .text a.digest)]
  a.say .debug "Candidate flow configuration" [("content", .text raw.lossyText)]
  publish link (.updateStarted a.id a.digest a.size)
  Tracing.withUpdateSpan link plan.tracing a.id (some a.digest) fun _ =>
    a.runPhases link plan raw

end Attempt
end HotSwap
