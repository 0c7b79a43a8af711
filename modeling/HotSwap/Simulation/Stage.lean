/-
A stage on which the updater can be tried out.

The stage is a host: a simulated flow, an enricher and a history, with observers
and a tracer that note what they see.  Hooks turn up at chosen moments; they
touch files, order something from the updater, or raise a fault.

* `Cue` — what has happened, note by note;
* `Hook`, `HookAction` — what turns up when, and what it does;
* `FileFault` — file accesses that the system refuses;
* `Stage` — the state of the stage;
* `Stage.poll`, `Stage.judge` — a scripted value, and a condition on it;
* `Stage.host` — the stage as a host.
-/
import HotSwap.Configuration.FilePaths
import HotSwap.Flow.Condition
import HotSwap.History.Store
import HotSwap.Simulation.Flow
import HotSwap.World.Host

namespace HotSwap

/-! ### What is noted -/

/-- What an action of a hook, or a step on files, ends with. -/
inductive Yield where
  | nothing
  /-- The system refused it. -/
  | refused
  | flag (b : Bool)
  | phase (p : Phase)
  | report (r : UpdateReport)
  | bytes (b : Bytes)
  | listing (entries : List (Route × Node))

/-- What has happened. -/
inductive Cue where
  | call (c : Call)
  | event (e : Event)
  | pause (seconds : Float)
  | validated (id : String) (status : Status)
  | stopRequested (endpointId : String)
  /-- An action of a hook has ended. -/
  | note (result : Except Fault Yield)
  | spanStart (name : String)
  | spanFact (name key : String) (value : Data)
  | spanFault (name description : String)
  | spanEnd (name : String)

/-! ### Hooks -/

/-- What is done to files. -/
inductive FileAction where
  /-- Gives a file a content, making the directories above it. -/
  | write (path : Path) (content : Bytes)
  | unlink (path : Path)
  | makeDirectory (path : Path)
  | removeTree (path : Path)
  | snapshot
  /-- Reads an active configuration file. -/
  | readActive (path : Path)

/-- What a hook does. -/
inductive HookAction where
  | files (a : FileAction)
  | order (c : Command)

/-- The moment at which a hook turns up. -/
inductive Moment where
  | call (name : String)
  | event (kind : String)
  deriving DecidableEq, Repr

/-- Something that turns up at a moment. -/
structure Hook where
  moment : Moment
  /-- What the moment has to be about. -/
  about : Option String := none
  /-- Which of the moments it is; every one if not given. -/
  nth : Option Nat := none
  actions : List HookAction := []
  raises : Option Fault := none
  /-- How many of the moments there have been. -/
  seen : Nat := 0

namespace Hook

/-- Whether a moment is one of those that the hook waits for. -/
def fits (h : Hook) (moment : Moment) (about : Option String) : Bool :=
  h.moment == moment && (h.about.isNone || h.about == about)

/-- Whether the hook turns up at occurrence number `n`. -/
def isDue (h : Hook) (n : Nat) : Bool :=
  match h.nth with
  | none => true
  | some k => k == n

end Hook

/-! ### Refused accesses -/

/-- The kinds of file accesses. -/
inductive AccessKind where
  | read
  | write
  | remove
  deriving DecidableEq, Repr

/-- File accesses that the system refuses. -/
structure FileFault where
  kind : AccessKind
  path : Path
  code : Nat
  /-- Which of the accesses it is; every one if not given. -/
  nth : Option Nat := none
  /-- How many of the accesses there have been. -/
  seen : Nat := 0

/-- The kind of an access, and its path. -/
def Access.target : Access → AccessKind × Path
  | .read path => (.read, path)
  | .replace _ target => (.write, target)
  | .remove path => (.remove, path)

/-- Looks for the first rule that refuses an access, counting the access in
each rule that is asked. -/
def refuse (kind : AccessKind) (path : Path) : List FileFault → Option Nat × List FileFault
  | [] => (none, [])
  | f :: rest =>
    if f.kind == kind && f.path == path then
      let f := { f with seen := f.seen + 1 }
      if f.nth.isNone || f.nth == some f.seen then (some f.code, f :: rest)
      else
        let (code, rest) := refuse kind path rest
        (code, f :: rest)
    else
      let (code, rest) := refuse kind path rest
      (code, f :: rest)

/-! ### The stage -/

/-- The state of the stage. -/
structure Stage where
  flow : SimulatedFlow
  enricher : SimulatedEnricher := {}
  history : History := {}
  hooks : Array Hook := #[]
  faults : List FileFault := []
  cues : Array Cue := #[]
  /-- Whether there are observers. -/
  observed : Bool := true
  /-- Whether pauses are noted. -/
  notesPauses : Bool := true
  /-- The names of the spans that were opened. -/
  spans : Array String := #[]
  /-- How often the scripted value was asked for. -/
  polls : Nat := 0
  /-- How many identifiers were given. -/
  ids : Nat := 0
  /-- The time of the next look at the clock, and how much later each further
  look is, in microseconds. -/
  clock : Int
  clockStep : Int := 1000000

namespace Stage

/-- A play on the stage. -/
abbrev Part (α : Type) : Type := Play (Scene Stage) α

/-- Reads the state of the stage. -/
def state : Part Stage := Play.look (·.host)

/-- Changes the state of the stage. -/
def alter (f : Stage → Stage) : Part Unit := Play.change fun s => { s with host := f s.host }

/-- Notes what has happened. -/
def cue (c : Cue) : Part Unit := alter fun s => { s with cues := s.cues.push c }

/-- Ends as a given outcome. -/
def settle {α : Type} : Except Fault α → Part α
  | .ok a => pure a
  | .error e => Play.raise e

/-! ### Files -/

/-- Whether an access is refused. -/
def gate (a : Access) (s : Stage) : Option Nat × Stage :=
  let (kind, path) := a.target
  let (code, faults) := refuse kind path s.faults
  (code, { s with faults })

/-- Reads a file as the system allows it. -/
def readFile (path : Path) : Part Bytes := do
  let (code, s) := gate (.read path) (← state)
  alter fun _ => s
  let refusal (code : Nat) : Fault := .system { code, path := some (toString path) }
  match code with
  | some code => Play.raise (refusal code)
  | none => settle (((← Play.look (·.disk)).read path).mapError refusal)

/-- Reads the configuration that a file holds. -/
def readConfiguration (path : Path) : Part Bytes := do
  let content ← readFile path
  settle ((FilePaths.decodeAt path content).mapError fun e => .raised e.kind e.message)

/-- Changes the disk, or says that the system refused. -/
def touch (change : Disk → Except Nat Disk) : Part Yield := do
  match change (← Play.look (·.disk)) with
  | .ok disk =>
    Play.change fun s => { s with disk }
    return .nothing
  | .error _ => return .refused

/-- Makes a directory and those above it; whether that went well. -/
def ensureDirectory (path : Path) : Part Bool := do
  let (disk, refusal) := (← Play.look (·.disk)).makeDirectories path
  Play.change fun s => { s with disk }
  return refusal.isNone

/-- Everything below a directory. -/
def snapshot (top : Path) : Part Yield := do
  return .listing ((← Play.look (·.disk)).listing top.parts)

/-- Does something to files; `top` is the directory of which snapshots are
taken. -/
def doFiles (top : Path) : FileAction → Part Yield
  | .write path content => do
    if ← ensureDirectory path.parent then touch (·.fill path content) else return .refused
  | .unlink path => touch (·.remove path)
  | .makeDirectory path => do
    return if ← ensureDirectory path then .nothing else .refused
  | .removeTree path => touch (·.removeTree path)
  | .snapshot => snapshot top
  | .readActive path => return .bytes (← readConfiguration path)

/-! ### Hooks -/

/-- What comes back from an order, as a note. -/
def yieldOf : Reply → Yield
  | .done => .nothing
  | .flag b => .flag b
  | .phase p => .phase p
  | .report r => .report r

/-- The play with its faults caught; orders inside it are carried out. -/
def caught {α : Type} (p : Part α) : Part (Except Fault α) := fun s =>
  go (p s)
where
  /-- Catches the fault at the end of a conduct. -/
  go : Conduct (Scene Stage) α → Conduct (Scene Stage) (Except Fault α)
    | .done r s => .done (.ok r) s
    | .order c s resume => .order c s fun reply s' => go (resume reply s')

/-- Does one action of a hook, and notes how it ended. -/
def act (top : Path) (a : HookAction) : Part Unit := do
  match a with
  | .files action => cue (.note (← caught (doFiles top action)))
  | .order c => cue (.note ((← Play.order c).map yieldOf))

/-- Does the actions of a hook. -/
def actAll (top : Path) : List HookAction → Part Unit
  | [] => return ()
  | a :: rest => do
    act top a
    actAll top rest

/-- Lets the hooks of the given numbers turn up at a moment. -/
def fireEach (top : Path) (moment : Moment) (about : Option String) : List Nat → Part Unit
  | [] => return ()
  | i :: rest => do
    if let some h := (← state).hooks[i]? then
      if h.fits moment about then
        let seen := h.seen + 1
        alter fun s => { s with hooks := s.hooks.set! i { h with seen } }
        if h.isDue seen then
          actAll top h.actions
          if let some e := h.raises then Play.raise e
    fireEach top moment about rest

/-- Lets hooks turn up at a moment. -/
def fire (top : Path) (moment : Moment) (about : Option String := none) : Part Unit := do
  fireEach top moment about (List.range (← state).hooks.size)

/-! ### The flow -/

/-- Changes the flow, and notes the calls that it has noted meanwhile. -/
def alterFlow {α : Type} (f : SimulatedFlow → Except Fault α × SimulatedFlow) : Part α := do
  let s ← state
  let (r, flow) := f s.flow
  let news := (flow.calls.toList.drop s.flow.calls.size).map Cue.call
  alter fun s => { s with flow, cues := s.cues ++ news }
  settle r

/-- A call to the flow that always succeeds. -/
def callFlow (top : Path) (name : String) (about : Option String)
    (f : SimulatedFlow → SimulatedFlow) : Part Unit := do
  fire top (.call name) about
  alterFlow fun flow => (.ok (), f flow)

/-- A question to the flow. -/
def askFlow {α : Type} (top : Path) (name : String) (about : Option String)
    (f : SimulatedFlow → α) : Part α := do
  fire top (.call name) about
  return f (← state).flow

/-- Loads a configuration file: the active one if none is given. -/
def load (top : Path) (path : Option Path) : Part Unit := do
  fire top (.call "load_persisted_configuration")
  let source := path.getD (← state).flow.file
  let configuration ← readConfiguration source
  alterFlow (·.load source configuration)

/-- Validates a component. -/
def validate (top : Path) (c : Component) : Part Status := do
  fire top (.call "perform_validation") ((← state).flow.identifierOf c)
  let s ← state
  let (status, flow) := s.flow.validate c
  alter fun s => { s with flow }
  cue (.validated (flow.identifierOf c) status)
  return status

/-- Asks an endpoint to stop. -/
def stopTransmitting (top : Path) (e : Endpoint) : Part Transmission := do
  let id := (← state).flow.endpointIdentifier e
  fire top (.call "stop_transmitting") id
  cue (.stopRequested id)
  alterFlow fun flow => (.ok (), flow.requestStop e)
  return { index := e.index }

/-- Enriches a candidate. -/
def enrich (top : Path) (raw : Bytes) : Part Payload := do
  fire top (.call "enrich")
  let (r, enricher) := (← state).enricher.enrich raw
  alter fun s => { s with enricher }
  settle r

/-! ### Observers, tracer, history -/

/-- Tells the observers of an event. -/
def observe (top : Path) (e : Event) : Part Unit := do
  if (← state).observed then
    cue (.event e)
    fire top (.event e.kind) (e.phase?.map (·.text))

/-- Pauses: that is noted, and takes no time. -/
def pause (top : Path) (seconds : Float) : Part Unit := do
  if (← state).notesPauses then
    cue (.pause seconds)
    fire top (.call "sleep")

/-- Opens a span. -/
def openSpan (top : Path) (name : String) : Part Span := do
  fire top (.call "span") name
  cue (.spanStart name)
  let s ← state
  alter fun s => { s with spans := s.spans.push name }
  return { index := s.spans.size }

/-- The name of a span. -/
def spanName (span : Span) : Part String := do
  return ((← state).spans[span.index]?).getD ""

/-- Keeps a report. -/
def keepReport (r : UpdateReport) : Part Unit := do
  let history ← settle (((← state).history.keep r).mapError (·.fault))
  alter fun s => { s with history }

/-! ### Scripted polls -/

/-- What a scripted poll gives. -/
inductive PollAnswer where
  | value (d : Data)
  | raises (fault : Fault)

/-- Asks for the next value of a script, whose last value repeats. -/
def poll (top : Path) (script : List PollAnswer) : Part Data := do
  let n := (← state).polls
  alter fun s => { s with polls := n + 1 }
  fire top (.call "poll")
  match script[min n (script.length - 1)]? with
  | none => return .null
  | some (.value d) => return d
  | some (.raises fault) => Play.raise fault

/-- Asks whether a polled value meets a condition. -/
def judge (top : Path) (c : Condition) (value : Data) : Part Bool := do
  fire top (.call "succeeded")
  settle (c.holds value)

/-! ### The stage as a host -/

/-- The components of the given numbers. -/
def handles (indices : List Nat) : List Component := indices.map fun index => { index }

/-- How the stage comes to an answer. -/
def reply (top : Path) : (r : Request) → Part r.Answer
  | .enrich raw => enrich top raw
  | .loadConfiguration => load top none
  | .rebuild => callFlow top "reinitialize" none (·.rebuild true)
  | .processors => askFlow top "processors" none fun f => handles f.processors
  | .controllerServices =>
    askFlow top "controller_services" none fun f => handles f.controllerServices
  | .reportingTasks => askFlow top "reporting_tasks" none fun f => handles f.reportingTasks
  | .connections => askFlow top "connections" none (·.connections)
  | .stopComponent id => callFlow top "stop_component" id (·.stopComponent id)
  | .stopProcessing => callFlow top "stop_processing" none (·.stopProcessing)
  | .startProcessing => callFlow top "start_processing" none (·.startProcessing)
  | .isDataQueued => do
    fire top (.call "is_data_queued")
    alterFlow (·.isDataQueued)
  | .dropAllQueued requestId requestor =>
    callFlow top "drop_all_queued" none (·.dropAllQueued requestId requestor)
  | .remoteEndpoints =>
    askFlow top "remote_endpoints" none fun f =>
      (List.range f.endpoints.size).map fun index => { index }
  | .componentIdentifier c => do return (← state).flow.identifierOf c
  | .performValidation c => validate top c
  | .validationErrors c => do
    let id := (← state).flow.identifierOf c
    askFlow top "validation_errors" id (·.errorsOf c)
  | .endpointIdentifier e => do
    let id := (← state).flow.endpointIdentifier e
    askFlow top "endpoint_identifier" id (·.endpointIdentifier e)
  | .stopTransmitting e => stopTransmitting top e
  | .awaitStop t _ => do settle ((← state).flow.endingOf t.index).awaited
  | .pause seconds => pause top seconds
  | .publish e => observe top e
  | .openSpan name => openSpan top name
  | .annotateSpan span key value => do cue (.spanFact (← spanName span) key value)
  | .recordFault span fault => do cue (.spanFault (← spanName span) fault.describe)
  | .closeSpan span => do cue (.spanEnd (← spanName span))
  | .keepReport r => keepReport r

/-- The identifier of a number: thirty-two hexadecimal digits. -/
def identifier (n : Nat) : String := String.ofList (Text.hexDigits 32 n)

/-- The stage as a host; `top` is the directory of which snapshots are taken. -/
def host (top : Path) : Host Stage where
  reply := reply top
  gate := gate
  freshId s := (identifier (s.ids + 1), { s with ids := s.ids + 1 })
  now s := (s.clock, { s with clock := s.clock + s.clockStep })

end Stage
end HotSwap
