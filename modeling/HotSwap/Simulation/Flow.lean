/-
A simulated dataflow.

The flow keeps its components, queues and endpoints in memory, follows scripts
for their answers, and notes every call.

* `SimulatedComponent` — a component whose status follows a script;
* `SimulatedEndpoint` — a remote endpoint, and how its stop ends;
* `SimulatedFlow` — the flow, with one function for each call.
-/
import HotSwap.Flow.Request

namespace HotSwap

/-! ### Components and endpoints -/

/-- A component whose validation status follows a script; the last status of
the script repeats. -/
structure SimulatedComponent where
  identifier : String
  /-- The first status, and those after it. -/
  status : Status := .valid
  further : List Status := []
  errors : List String := []
  /-- How often it has been validated. -/
  validations : Nat := 0
  deriving DecidableEq, Repr

namespace SimulatedComponent

/-- The status that validation number `n` finds, counted from zero. -/
def statusAt (c : SimulatedComponent) (n : Nat) : Status :=
  let script := c.status :: c.further
  script.getD (min n (script.length - 1)) c.status

/-- A component as messages show it. -/
def display (c : SimulatedComponent) : String :=
  "SimulatedComponent(" ++ Text.quoted c.identifier ++ ")"

end SimulatedComponent

/-- How the stop of an endpoint ends. -/
inductive StopEnding where
  | done
  | never
  | failed (fault : Fault)
  | cancelled
  deriving DecidableEq, Repr

/-- A remote endpoint. -/
structure SimulatedEndpoint where
  identifier : String
  ending : StopEnding := .done
  /-- How often it was asked to stop. -/
  stopRequests : Nat := 0
  deriving DecidableEq, Repr

/-- What waiting for the stop of an endpoint ends with. -/
def StopEnding.awaited : StopEnding → Except Fault Unit
  | done => .ok ()
  | never => .error (.raised "TimeoutError" "")
  | failed fault => .error fault
  | cancelled => .error (.raised "CancelledError" "")

/-! ### Calls -/

/-- An argument of a noted call. -/
inductive Argument where
  | bytes (b : Bytes)
  | flag (b : Bool)
  | text (s : String)
  deriving DecidableEq, Repr

/-- A noted call. -/
structure Call where
  name : String
  arguments : List Argument := []
  deriving DecidableEq, Repr

/-- One answer to the question whether work is queued. -/
inductive QueueAnswer where
  | queued (b : Bool)
  | raises (fault : Fault)
  deriving DecidableEq, Repr

/-- A dataflow in memory. -/
structure SimulatedFlow where
  /-- The file of its active configuration. -/
  file : Path
  /-- Every component there is; the lists below point into it. -/
  table : Array SimulatedComponent := #[]
  processors : List Nat := []
  controllerServices : List Nat := []
  reportingTasks : List Nat := []
  connections : List Connection := []
  endpoints : Array SimulatedEndpoint := #[]
  /-- The answers about queued work that are still to come, and the one after
  them. -/
  queued : List QueueAnswer := []
  queuedThen : Bool := false
  /-- The processors that a configuration brings with it. -/
  byConfiguration : List (Bytes × List Nat) := []
  rejected : List Bytes := []
  calls : Array Call := #[]
  queuePolls : Nat := 0
  drops : Array (String × String) := #[]
  stopped : List String := []
  loaded : Option Bytes := none
  started : Array (Option Bytes) := #[]
  processing : Bool := true

namespace SimulatedFlow

/-- Notes a call. -/
def note (f : SimulatedFlow) (c : Call) : SimulatedFlow := { f with calls := f.calls.push c }

/-- How often a call was noted. -/
def count (f : SimulatedFlow) (name : String) : Nat :=
  (f.calls.toList.filter fun c => c.name == name).length

/-- The processors that a configuration brings with it. -/
def processorsOf (f : SimulatedFlow) (configuration : Bytes) : Option (List Nat) :=
  (f.byConfiguration.reverse.find? fun e => e.1 == configuration).map (·.2)

/-- The fault of a configuration that cannot be loaded. -/
def cannotLoad (source : Path) : Fault :=
  .raised "RuntimeError" ("Flow configuration could not be loaded from " ++ toString source)

/-- Takes over a configuration that was read from a file. -/
def load (f : SimulatedFlow) (source : Path) (configuration : Bytes) :
    Except Fault Unit × SimulatedFlow :=
  let f := f.note { name := "load_persisted_configuration", arguments := [.bytes configuration] }
  if f.rejected.contains configuration then (.error (cannotLoad source), f)
  else
    (.ok (),
      { f with
        loaded := some configuration
        processors := (f.processorsOf configuration).getD f.processors })

/-- Runs the initialisation after a load. -/
def rebuild (f : SimulatedFlow) (startComponents : Bool) : SimulatedFlow :=
  f.note { name := "reinitialize", arguments := [.flag startComponents] }

/-- Stops one component. -/
def stopComponent (f : SimulatedFlow) (id : String) : SimulatedFlow :=
  let f := f.note { name := "stop_component", arguments := [.text id] }
  { f with stopped := if f.stopped.contains id then f.stopped else id :: f.stopped }

/-- Starts one component. -/
def startComponent (f : SimulatedFlow) (id : String) : SimulatedFlow :=
  let f := f.note { name := "start_component", arguments := [.text id] }
  { f with stopped := f.stopped.filter (· != id) }

/-- Stops every component. -/
def stopProcessing (f : SimulatedFlow) : SimulatedFlow :=
  { f.note { name := "stop_processing" } with processing := false }

/-- Starts every component. -/
def startProcessing (f : SimulatedFlow) : SimulatedFlow :=
  { f.note { name := "start_processing" } with
    processing := true
    stopped := []
    started := f.started.push f.loaded }

/-- Whether work is queued: the next answer of the script. -/
def isDataQueued (f : SimulatedFlow) : Except Fault Bool × SimulatedFlow :=
  let f := { f.note { name := "is_data_queued" } with queuePolls := f.queuePolls + 1 }
  match f.queued with
  | [] => (.ok f.queuedThen, f)
  | .queued b :: rest => (.ok b, { f with queued := rest })
  -- only an ordinary fault is raised; anything else counts as an answer
  | .raises fault :: rest =>
    (if fault.interrupts then .ok true else .error fault, { f with queued := rest })

/-- Drops what is queued. -/
def dropAllQueued (f : SimulatedFlow) (requestId requestor : String) : SimulatedFlow :=
  { f.note { name := "drop_all_queued", arguments := [.text requestId, .text requestor] } with
    drops := f.drops.push (requestId, requestor) }

/-- Validates a component. -/
def validate (f : SimulatedFlow) (c : Component) : Status × SimulatedFlow :=
  match f.table[c.index]? with
  | none => (.valid, f)
  | some component =>
    (component.statusAt component.validations,
      { f with
        table := f.table.set! c.index
          { component with validations := component.validations + 1 } })

/-- The identifier of a component. -/
def identifierOf (f : SimulatedFlow) (c : Component) : String :=
  ((f.table[c.index]?).map (·.identifier)).getD ""

/-- The validation errors of a component. -/
def errorsOf (f : SimulatedFlow) (c : Component) : List String :=
  ((f.table[c.index]?).map (·.errors)).getD []

/-- The identifier of an endpoint. -/
def endpointIdentifier (f : SimulatedFlow) (e : Endpoint) : String :=
  ((f.endpoints[e.index]?).map (·.identifier)).getD ""

/-- Asks an endpoint to stop. -/
def requestStop (f : SimulatedFlow) (e : Endpoint) : SimulatedFlow :=
  { f with
    endpoints := f.endpoints.modify e.index fun endpoint =>
      { endpoint with stopRequests := endpoint.stopRequests + 1 } }

/-- How the stop of an endpoint ends. -/
def endingOf (f : SimulatedFlow) (index : Nat) : StopEnding :=
  ((f.endpoints[index]?).map (·.ending)).getD .done

end SimulatedFlow

/-! ### Enriching -/

/-- An enricher that passes a candidate on, behind a fixed beginning. -/
structure SimulatedEnricher where
  rejected : List Bytes := []
  front : Bytes := []
  /-- The name of the type of what is returned, if that is no byte string. -/
  returns : Option String := none
  /-- The candidates that were seen. -/
  seen : Array Bytes := #[]

/-- Enriches a candidate. -/
def SimulatedEnricher.enrich (e : SimulatedEnricher) (raw : Bytes) :
    Except Fault Payload × SimulatedEnricher :=
  let e := { e with seen := e.seen.push raw }
  if e.rejected.contains raw then
    (.error (.raised "ValueError"
      ("Invalid flow configuration (" ++ toString raw.length ++ " bytes)")), e)
  else match e.returns with
    | none => (.ok (.bytes (e.front ++ raw)), e)
    | some typeName => (.ok (.other typeName), e)

end HotSwap
