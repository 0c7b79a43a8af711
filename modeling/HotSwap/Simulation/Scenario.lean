/-
Scenarios: the set-up of a run on the stage, written as data.

* `bytesOf` — a byte string: a text, or a recipe that repeats, joins or
  compresses others;
* `faultOf` — a fault, from its name and the values it is raised with;
* `Scenario.flow` — a simulated flow;
* `Scenario.world` — the world in which a run begins.

Design notes: the lists of a flow name each component once, so a repeated
identifier there stands for the component that came first; a configuration brings
components of its own, unless it asks for one by its identifier.
-/
import HotSwap.Codec.Gzip
import HotSwap.Data.Access
import HotSwap.Document.Json
import HotSwap.Simulation.Stage
import HotSwap.Update.NamedFault

namespace HotSwap

/-! ### Bytes and faults -/

/-- The bytes of a hexadecimal text. -/
def hexBytes : List Char → Bytes
  | a :: b :: rest =>
    match Json.hexValue? a, Json.hexValue? b with
    | some high, some low => UInt8.ofNat (high * 16 + low) :: hexBytes rest
    | _, _ => []
  | _ => []

mutual

/-- A byte string. -/
def bytesOf : Data → Bytes
  | .text s => Bytes.ofText s
  | .mapping [("hex", .text s)] => hexBytes s.toList
  | .mapping [("gz", d)] => Codec.gzip (bytesOf d)
  | .mapping [("rep", .list [d, .int n])] => (List.replicate n.toNat (bytesOf d)).flatten
  | .mapping [("cat", .list ds)] => joinedBytes ds
  | _ => []

/-- Byte strings, one after another. -/
def joinedBytes : List Data → Bytes
  | [] => []
  | d :: rest => bytesOf d ++ joinedBytes rest

end

/-- A path below a directory. -/
def Path.under (top : Path) (s : String) : Path := top.join (Path.ofString s)

/-- A fault: its kind and the values that it is raised with, or the number of a
refusal of the system and a path below `top`. -/
def faultOf (top : Path) (d : Data) : Fault :=
  match d.items with
  | .text "errno" :: code :: rest =>
    Fault.refusal (code.nat?.getD 0)
      (rest.head?.map fun p => toString (top.under p.textOrEmpty))
  | .text kind :: values => Fault.named kind values
  | _ => Fault.named "Exception" []

/-- A fault, or nothing. -/
def faultOf? (top : Path) (d : Data) : Option Fault :=
  match d with
  | .list _ => some (faultOf top d)
  | _ => none

namespace Scenario

/-! ### Files -/

/-- The disk with the given files below `top`; null stands for a directory. -/
def disk (top : Path) (files : Data) : Disk :=
  let empty : Disk := { entries := [(top.parts, .directory), (top.parts.take 1, .directory)] }
  files.entries.foldl (fun disk (name, content) =>
    let path := top.under name
    match content with
    | .null => (disk.makeDirectories path).1
    | content =>
      let disk := (disk.makeDirectories path.parent).1
      (disk.fill path (bytesOf content)).toOption.getD disk) empty

/-- Something done to files. -/
def fileAction (top : Path) (d : Data) : FileAction :=
  let path := top.under (d.get "path").textOrEmpty
  match (d.get "fs").textOrEmpty with
  | "write" => .write path (bytesOf (d.get "data"))
  | "unlink" => .unlink path
  | "mkdir" => .makeDirectory path
  | "rmdir" => .removeTree path
  | "read_active" => .readActive path
  | _ => .snapshot

/-- A file access that is refused. -/
def fileFault (top : Path) (d : Data) : FileFault :=
  { kind := match (d.get "op").textOrEmpty with
      | "write" => .write
      | "read" => .read
      | _ => .remove
    path := top.under (d.get "path").textOrEmpty
    code := (d.get "errno").nat?.getD 0
    nth := (d.get "nth").nat? }

/-! ### Hooks -/

/-- What a hook does; `cancel` is how this run is cancelled. -/
def hookAction (top : Path) (cancel : Command) (d : Data) : HookAction :=
  match (d.get "do").textOrEmpty with
  | "cancel" => .order cancel
  | "state" => .order .askPhase
  | "apply" => .order (.apply (bytesOf (d.get "raw")))
  | "update" => .order (.update (bytesOf (d.get "raw")))
  | _ => .files (fileAction top d)

/-- A hook. -/
def hook (top : Path) (cancel : Command) (d : Data) : Hook :=
  { moment :=
      if d.has "call" then .call (d.get "call").textOrEmpty
      else .event (d.get "event").textOrEmpty
    about := (d.get "id").text?
    nth := (d.get "nth").nat?
    actions := (d.get "do").items.map (hookAction top cancel)
    raises := faultOf? top (d.get "raise") }

/-! ### The flow -/

/-- The components built so far, and the first one of each identifier. -/
structure Built where
  table : Array SimulatedComponent := #[]
  first : List (String × Nat) := []

/-- Builds components, or refuses one. -/
abbrev Build := StateT Built (Except Fault)

/-- The statuses of a component, the first one apart. -/
def statuses (d : Data) : Except Fault (Status × List Status) := do
  if d.has "statuses" then
    let all ← (d.get "statuses").items.mapM fun s =>
      (Status.ofData s).mapError fun e => Fault.raised "ValueError" e.message
    match all with
    | [] => throw (.raised "ValueError" "statuses must not be empty")
    | status :: further => return (status, further)
  else return (.valid, [])

/-- Builds a component of its own: its number in the table. -/
def newComponent (d : Data) : Build Nat := do
  let id := (d.get "id").textOrEmpty
  let (status, further) ← statuses d
  let built ← get
  let index := built.table.size
  set { built with
    table := built.table.push
      { identifier := id, status, further, errors := (d.get "errors").items.map (·.textOrEmpty) }
    first :=
      if built.first.any (·.1 == id) then built.first else built.first ++ [(id, index)] : Built }
  return index

/-- The first component of an identifier, built if there is none. -/
def firstComponent (d : Data) : Build Nat := do
  match (← get).first.find? (·.1 == (d.get "id").textOrEmpty) with
  | some (_, index) => return index
  | none => newComponent d

/-- Builds the components of one of the flow's lists. -/
def components (d : Data) : Build (List Nat) := d.items.mapM firstComponent

/-- Builds the components that configurations bring with them. -/
def byConfiguration (d : Data) : Build (List (Bytes × List Nat)) :=
  d.items.mapM fun e => do
    match e.items with
    | [configuration, cs] =>
      let brought ← cs.items.mapM fun c =>
        if (c.get "same").isTruthy then firstComponent c else newComponent c
      return (bytesOf configuration, brought)
    | _ => return ([], [])

/-- How the stop of an endpoint ends. -/
def stopEnding (top : Path) (d : Data) : StopEnding :=
  match (d.get "mode").textOrEmpty with
  | "hang" => .never
  | "fail" => .failed (faultOf top (d.get "error"))
  | "cancelled" => .cancelled
  | _ => .done

/-- A connection: its source and its destination. -/
def connection (d : Data) : Connection :=
  match d.items with
  | [source, destination] =>
    { source := source.textOrEmpty, destination := destination.textOrEmpty }
  | _ => { source := "", destination := "" }

/-- An answer about queued work. -/
def queueAnswer (top : Path) (d : Data) : QueueAnswer :=
  match d with
  | .bool b => .queued b
  | d => .raises (faultOf top (d.get "raise"))

/-- A simulated flow. -/
def flow (top : Path) (d : Data) : Except Fault SimulatedFlow := do
  let build : Build (List Nat × List Nat × List Nat × List (Bytes × List Nat)) := do
    return (← components (d.get "processors"), ← components (d.get "controller_services"),
      ← components (d.get "reporting_tasks"), ← byConfiguration (d.get "by_configuration"))
  let ((processors, controllerServices, reportingTasks, byConfiguration), built) ← build.run {}
  return {
    file := top.under ((d.get "file").text?.getD "conf/flow.json.gz")
    table := built.table
    processors, controllerServices, reportingTasks, byConfiguration
    connections := (d.get "connections").items.map connection
    endpoints := ((d.get "endpoints").items.map fun e =>
      { identifier := (e.get "id").textOrEmpty, ending := stopEnding top e }).toArray
    queued := (d.get "queued").items.map (queueAnswer top)
    queuedThen := (d.get "queued_then").isTruthy
    rejected := (d.get "rejected").items.map bytesOf }

/-- A simulated enricher. -/
def enricher (d : Data) : SimulatedEnricher :=
  { rejected := (d.get "rejected").items.map bytesOf
    front := bytesOf (d.get "prefix")
    returns := (d.get "returns").text?.filter (· != "bytes") }

/-! ### The world -/

/-- What the first look at the clock finds: the beginning of the year 2026. -/
def firstInstant : Int := Stamp.daysBefore 2026 1 1 * Stamp.dayLength

/-- The world in which a run begins, with files below `top`; `cancel` is how the
run is cancelled. -/
def world (top : Path) (cancel : Command) (d : Data) : Except Fault (World Stage) := do
  let flow ← flow top (d.get "runtime")
  return {
    disk := disk top (d.get "fs")
    host := {
      flow
      enricher := enricher (d.get "enricher")
      hooks := ((d.get "hooks").items.map (hook top cancel)).toArray
      faults := (d.get "faults").items.map (fileFault top)
      observed := !(d.get "no_bus").isTruthy
      notesPauses := !(d.get "token_sleep").isTruthy
      clock := firstInstant
      clockStep := (d.get "clock_step_us").int?.getD 1000000 } }

/-- The same with a token, which may have been cancelled before. -/
def worldWithToken (top : Path) (cancelled : Bool) (d : Data) : Except Fault (World Stage) :=
  (world top .cancelToken d).map fun w => { w with desk := { w.desk with token := some cancelled } }

end Scenario
end HotSwap
