/-
Bringing the running flow to rest.

The components that originate work are stopped first; the others go on until
nothing is queued or the budget is spent.  Work that is still queued then is
dropped.  At last all processing is stopped, and every remote endpoint.

* `drain` — the whole of it, with a report.

Design notes: ordinary faults of the host are logged and absorbed at each step,
because the reload has to go ahead.
-/
import HotSwap.Flow.Poll

namespace HotSwap

/-- The budget of a drain, and how long to wait for each endpoint. -/
structure DrainPlan where
  budget : Budget
  stopTimeout : Float

/-- The name under which a drain drops queued work. -/
def drainRequestor : String := "flowswap-drain"

namespace Drain

variable {σ : Type}

/-- Writes a log record about the drain. -/
def say (level : Level) (event : String) (fields : List (String × Data)) : Act σ Unit :=
  Act.say "flowswap.engine.drain" level event fields

/-- The text and the kind of a fault as log fields. -/
def faultFields (e : Fault) : List (String × Data) :=
  [("error", .text e.text), ("error_type", .text e.kind)]

/-- Tells the observers; an ordinary fault of theirs is logged. -/
def publish (link : Link σ) (e : Event) : Act σ Unit := do
  match ← (link.ask (.publish e)).guarded with
  | .ok _ => return ()
  | .error fault =>
    say .error "Event handler failed" (("event_type", .text e.kind) :: faultFields fault)

/-! ### Sources -/

/-- The identifiers of components. -/
def identifiers (link : Link σ) : List Component → Act σ (List String)
  | [] => return []
  | c :: rest => do
    let id ← link.ask (.componentIdentifier c)
    return id :: (← identifiers link rest)

/-- The components that originate work, as the host describes the flow. -/
def classify (link : Link σ) : Act σ (List String) := do
  let components ← identifiers link (← link.ask .processors)
  return sources components (← link.ask .connections)

/-- Stops components one after another; those that did stop. -/
def stopEach (link : Link σ) : List String → Act σ (List String)
  | [] => return []
  | id :: rest => do
    match ← (link.ask (.stopComponent id)).guarded with
    | .ok _ => return id :: (← stopEach link rest)
    | .error fault =>
      say .warning "Unable to stop source component"
        (("component_id", .text id) :: faultFields fault)
      stopEach link rest

/-- Stops the components that originate work; those that did stop. -/
def stopSources (link : Link σ) : Act σ (List String) := do
  match ← (classify link).guarded with
  | .error fault =>
    say .warning "Unable to classify source components, skipping intake stop" (faultFields fault)
    return []
  | .ok ids =>
    let stopped ← stopEach link ids
    say .debug "Stopped source components" [("components", .list (stopped.map .text))]
    return stopped

/-! ### Queues -/

/-- Asks whether work is queued, and counts the question. -/
def askQueued (link : Link σ) : Act σ Bool := do
  Act.changeDesk fun d => { d with queuePolls := d.queuePolls + 1 }
  link.ask .isDataQueued

/-- Waits until nothing is queued: whether that came about, and how often was
asked. -/
def awaitEmpty (link : Link σ) (budget : Budget) (listens : Bool) : Act σ (Bool × Nat) := do
  Act.changeDesk fun d => { d with queuePolls := 0 }
  let waiting := pollUntil link budget listens (askQueued link) fun queued => return !queued
  match ← waiting.guarded with
  | .error fault =>
    say .warning "Unable to determine whether data is queued, treating flow as not drained"
      (faultFields fault)
    return (false, (← Act.desk).queuePolls)
  | .ok none => return (true, (← Act.desk).queuePolls)
  | .ok (some residual) =>
    if residual.cancelled then
      say .warning "Graceful drain cancelled" [("polls", .int residual.polls)]
    return (false, (← Act.desk).queuePolls)

/-- Stops all processing. -/
def stopProcessing (link : Link σ) : Act σ Unit := do
  match ← (link.ask .stopProcessing).guarded with
  | .ok _ => return ()
  | .error fault => say .warning "Unable to stop flow processing" (faultFields fault)

/-- Stops all processing and drops what is queued. -/
def force (link : Link σ) (budget : Budget) (polls : Nat) : Act σ Unit := do
  let requestId ← link.newId
  say .warning
    "Flow did not drain within graceful period. Force stopping flow and emptying queues"
    [("polls", .int polls), ("max_retries", .int budget.maxRetries),
      ("pause_seconds", budget.pause.data), ("drop_request_id", .text requestId)]
  stopProcessing link
  match ← (link.ask (.dropAllQueued requestId drainRequestor)).guarded with
  | .ok _ => pure ()
  | .error fault =>
    say .error "Unable to drop queued data"
      (("drop_request_id", .text requestId) :: faultFields fault)
  publish link (.drainForced polls requestId)

/-! ### Remote endpoints -/

/-- An endpoint that was asked to stop: its name and how that goes. -/
structure Stopping where
  endpointId : String
  transmission : Transmission

/-- Asks one endpoint to stop. -/
def requestStop (link : Link σ) (e : Endpoint) : Act σ Stopping := do
  let endpointId ← link.ask (.endpointIdentifier e)
  let transmission ← link.ask (.stopTransmitting e)
  return { endpointId, transmission }

/-- Asks every endpoint to stop, before any of them is waited for: those that
took the request, and the names of the others. -/
def requestStops (link : Link σ) : List Endpoint → Act σ (List Stopping × List String)
  | [] => return ([], [])
  | e :: rest => do
    match ← (requestStop link e).guarded with
    | .ok stopping =>
      let (taken, refused) ← requestStops link rest
      return (stopping :: taken, refused)
    | .error fault =>
      let logged ← link.ask (.endpointIdentifier e)
      say .warning "Unable to request remote transmission stop"
        [("endpoint_id", .text logged), ("error", .text fault.text)]
      let endpointId ← link.ask (.endpointIdentifier e)
      let (taken, refused) ← requestStops link rest
      return (taken, endpointId :: refused)

/-- Waits for one endpoint; whether it stopped. -/
def awaitEndpoint (link : Link σ) (timeout : Float) (s : Stopping) : Act σ Bool := do
  match ← (link.ask (.awaitStop s.transmission timeout)).guarded with
  | .ok _ => return true
  | .error fault =>
    if fault.isTimeout then
      say .warning "Unable to stop remote endpoint within defined interval"
        [("endpoint_id", .text s.endpointId), ("timeout_seconds", .float timeout)]
      publish link (.transmissionStopTimedOut s.endpointId timeout)
    else
      say .warning "Remote endpoint failed to stop"
        (("endpoint_id", .text s.endpointId) :: faultFields fault)
    return false

/-- Waits for endpoints one after another; the names of those that did not
stop. -/
def awaitEach (link : Link σ) (timeout : Float) : List Stopping → Act σ (List String)
  | [] => return []
  | s :: rest => do
    if ← awaitEndpoint link timeout s then awaitEach link timeout rest
    else return s.endpointId :: (← awaitEach link timeout rest)

/-- Stops every remote endpoint; the names of those that did not stop. -/
def stopTransmission (link : Link σ) (timeout : Float) : Act σ (List String) := do
  match ← (link.ask .remoteEndpoints).guarded with
  | .error fault =>
    say .warning "Unable to enumerate remote endpoints" (faultFields fault)
    return []
  | .ok endpoints =>
    let (taken, refused) ← requestStops link endpoints
    return refused ++ (← awaitEach link timeout taken)

end Drain

/-- Brings the running flow to rest. -/
def drain {σ : Type} (link : Link σ) (plan : DrainPlan) (listens : Bool) : Act σ DrainReport := do
  Drain.say .info "Stopping flow gracefully" []
  let sourcesStopped ← Drain.stopSources link
  let (graceful, polls) ← Drain.awaitEmpty link plan.budget listens
  if graceful then
    Drain.say .info "Flow has been drained gracefully" [("polls", .int polls)]
  else
    Drain.force link plan.budget polls
  Drain.stopProcessing link
  let endpointsTimedOut ← Drain.stopTransmission link plan.stopTimeout
  return { graceful, polls, sourcesStopped, endpointsTimedOut }

end HotSwap
