/-
The updater: replaces the configuration of a running flow, or leaves the
previous one in place.

* `Updater.apply` — one attempt, refused while another one is running;
* `Updater.update` — the same, answering only whether the candidate runs;
* `Updater.cancelCurrent` — cuts the waiting of the running attempt short;
* `Updater.submit`, `Updater.work` — attempts that wait for the worker;
* `Updater.console` — how an order of the host is carried out.
-/
import HotSwap.Update.Attempt
import HotSwap.World.Host

namespace HotSwap.Updater

variable {σ : Type}

/-- The version of the updater. -/
def version : String := "0.1.0"

/-- Says that updates are possible now. -/
def announce (file : Path) (keepsReports : Bool) : Act σ Unit :=
  Act.say Attempt.logger .info "Flow configuration updates enabled"
    [("flow_configuration_file", .text (toString file)), ("history", .bool keepsReports)]

/-- The end of an attempt that was refused because another one is running. -/
def refused : Outcome :=
  { state := .rejected
    failed := some {
      phase := .idle
      failure := {
        kind := .busy
        fault := .raised "RuntimeError" "Another update is in progress" } } }

/-- Takes the desk for an attempt. -/
def engage : Act σ Unit :=
  Act.changeDesk fun d =>
    { d with engaged := true, token := some false, drained := none, queuePolls := 0 }

/-- Leaves the desk as it was before any attempt. -/
def release : Act σ Unit :=
  Act.changeDesk fun d =>
    { d with engaged := false, phase := .idle, token := none, drained := none, queuePolls := 0 }

/-- Ends an attempt of which an ordinary fault escaped. -/
def finishUnexpected (link : Link σ) (plan : UpdatePlan) (a : Attempt) (fault : Fault) :
    Act σ UpdateReport := do
  let desk ← Act.desk
  a.sayFault .critical "Unexpected error during flow configuration update, flow state unknown"
    [("phase", .text desk.phase.text), ("error", .text fault.text),
      ("error_type", .text fault.kind)]
  a.finish link plan
    { state := .degradedNoReload
      failed := some { phase := desk.phase, failure := { kind := .unexpected, fault } } }
    desk.drained

/-- An attempt that has the desk; every ordinary fault ends in a report. -/
def attempt (link : Link σ) (plan : UpdatePlan) (a : Attempt) (raw : Bytes) :
    Act σ UpdateReport := do
  match ← (a.perform link plan raw).guarded with
  | .ok report => return report
  | .error fault => finishUnexpected link plan a fault

/-- Applies a candidate, and reports how that ended. -/
def apply (link : Link σ) (plan : UpdatePlan) (raw : Bytes) : Act σ UpdateReport := do
  let a ← Attempt.start link raw
  if (← Act.desk).engaged then
    a.say .warning
      "Flow configuration update already in progress, refusing concurrent update" []
    a.finish link plan refused none
  else
    engage
    (attempt link plan a raw).ensuring release

/-- Applies a candidate; whether it is running now. -/
def update (link : Link σ) (plan : UpdatePlan) (raw : Bytes) : Act σ Bool := do
  return (← apply link plan raw).succeeded

/-- Cuts the waiting of the running attempt short; whether there is one. -/
def cancelCurrent : Act σ Bool := do
  let desk ← Act.desk
  match desk.token with
  | none => return false
  | some _ =>
    Act.say Attempt.logger .warning "Cancelling flow configuration update"
      [("phase", .text desk.phase.text)]
    Act.changeDesk fun d => { d with token := some true }
    return true

/-- Has a candidate wait for the worker. -/
def submit (raw : Bytes) : Act σ Unit :=
  Act.changeDesk fun d => { d with waiting := d.waiting ++ [raw] }

/-- The worker takes the oldest waiting candidate; how its attempt ended. -/
def work (link : Link σ) (plan : UpdatePlan) : Act σ (Option (Except Fault UpdateReport)) := do
  match (← Act.desk).waiting with
  | [] => return none
  | raw :: rest =>
    Act.changeDesk fun d => { d with waiting := rest }
    return some (← (apply link plan raw).outcome)

/-- Carries out an order of the host. -/
def console (plan : UpdatePlan) (link : Link σ) : Command → Act σ Reply
  | .cancelToken => do
    Act.changeDesk fun d => { d with token := d.token.map fun _ => true }
    return .done
  | .cancelCurrent => return .flag (← cancelCurrent)
  | .askPhase => return .phase (← Act.desk).phase
  | .apply raw => return .report (← apply link plan raw)
  | .update raw => return .flag (← update link plan raw)
  | .submit raw => do
    submit raw
    return .done
  | .work => do
    match ← work link plan with
    | none => return .done
    | some (.ok report) => return .report report
    | some (.error fault) => Act.raise fault

end HotSwap.Updater
