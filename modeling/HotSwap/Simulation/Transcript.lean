/-
Transcripts: what a run shows, as data.

* `Bytes.view`, `contentView` — byte strings and files: short ones in full, long
  ones by length and digest, compressed files by their content;
* `DrainReport.view`, `UpdateReport.view`, `AttemptRecord.view`, `Event.fields` —
  what an update reports;
* `Cue.view`, `Record.view`, `listingView`, `SimulatedFlow.view` — what has
  happened, what was logged, which files there are, and the flow;
* `streamView`, `Loggers.stateView` — the lines on an output stream, and a logger.
-/
import HotSwap.Codec.Gzip
import HotSwap.Codec.Sha256
import HotSwap.Data.Access
import HotSwap.Log.Loggers
import HotSwap.Number.Quantity
import HotSwap.Simulation.Stage

namespace HotSwap

/-! ### Bytes and files -/

/-- A byte string: its text, or its bytes when it is no text; beyond four hundred
bytes its length and digest. -/
def Bytes.view (b : Bytes) : Data :=
  if b.length > 400 then
    .mapping [("len", .int b.length), ("sha256", .text (Text.hex (Codec.sha256 b)))]
  else match b.text? with
    | some s => .text s
    | none => .mapping [("hex", .text (Text.hex b))]

/-- What an enricher has returned: bytes, or the name of another type. -/
def Payload.view : Payload → Data
  | .bytes b => b.view
  | .other typeName => .text typeName

/-- The content of a file, decompressed where it is compressed. -/
def contentView (b : Bytes) : Data :=
  if b.take 2 == [0x1f, 0x8b] then
    match Codec.gunzip b with
    | .ok content => .mapping [("gz", content.view)]
    | .error _ => b.view
  else b.view

/-- The name of the directory in which histories are kept. -/
def historyDirectory : String := "hist"

/-- The files and directories below a directory, those of histories apart. -/
def listingView (found : List (Route × Node)) : Data :=
  .list ((found.filter fun e => e.1.head? != some historyDirectory).map fun e => .list [
    .text (Disk.shown e),
    match e.2 with
    | .directory => .null
    | .file content => contentView content])

/-! ### Reports, events and rows -/

/-- What a drain did. -/
def DrainReport.view (d : DrainReport) : Data := .mapping [
  ("graceful", .bool d.graceful), ("polls", .int d.polls),
  ("sources_stopped", .texts d.sourcesStopped),
  ("endpoints_timed_out", .texts d.endpointsTimedOut), ("forced", .bool d.forced)]

/-- The end of an attempt that took the given number of microseconds. -/
def UpdateReport.viewWith (r : UpdateReport) (duration : Int) : Data := .mapping [
  ("attempt_id", .text r.attemptId), ("state", .text r.state.text),
  ("candidate_sha256", .text r.candidateDigest), ("started_at", .text r.startedAt.text),
  ("completed_at", .text r.completedAt.text),
  ("failed_phase", .ofText? (r.failedPhase.map (·.text))),
  ("failure_kind", .ofText? (r.failureKind.map (·.text))), ("error", .ofText? r.error),
  ("rollback_error", .ofText? r.rollbackError),
  ("drain", (r.drain.map (·.view)).getD .null), ("succeeded", .bool r.succeeded),
  ("degraded", .bool r.degraded), ("drain_forced", .bool r.drainForced),
  ("duration_seconds", .float (Number.ofMillionths duration))]

/-- The end of an attempt; a fault if its stamps cannot be compared. -/
def UpdateReport.view (r : UpdateReport) : Except Fault Data :=
  match r.duration with
  | .ok duration => .ok (r.viewWith duration)
  | .error e => .error (.raised "TypeError" e.message)

/-- A row of the history. -/
def AttemptRecord.view (r : AttemptRecord) : Data := .mapping [
  ("attempt_id", .text r.attemptId), ("started_at", .text r.startedAt.text),
  ("completed_at", .text r.completedAt.text), ("terminal_state", .text r.state.text),
  ("candidate_sha256", .text r.digest), ("drain_forced", .bool r.drainForced),
  ("failed_phase", .ofText? (r.failedPhase.map (·.text))),
  ("failure_kind", .ofText? (r.failureKind.map (·.text))), ("error", .ofText? r.error),
  ("rollback_error", .ofText? r.rollbackError)]

/-- The fields of an event. -/
def Event.fields : Event → List (String × Data)
  | .updateStarted id digest size =>
    [("attempt_id", .text id), ("candidate_sha256", .text digest), ("candidate_bytes", .int size)]
  | .phaseStarted id phase | .phaseCompleted id phase =>
    [("attempt_id", .text id), ("phase", .text phase.text)]
  | .phaseFailed id phase kind error =>
    [("attempt_id", .text id), ("phase", .text phase.text), ("failure_kind", .text kind.text),
      ("error", .text error)]
  | .drainForced polls requestId => [("polls", .int polls), ("request_id", .text requestId)]
  | .transmissionStopTimedOut id timeout =>
    [("endpoint_id", .text id), ("timeout_seconds", .float timeout)]
  | .updateCompleted id state succeeded duration kind =>
    [("attempt_id", .text id), ("state", .text state.text), ("succeeded", .bool succeeded),
      ("duration_seconds", .float (Number.ofMillionths duration)),
      ("failure_kind", .ofText? (kind.map (·.text)))]

/-! ### Faults and results -/

/-- A fault: its kind and its message. -/
def Fault.view (e : Fault) : List (String × Data) :=
  [("error", .text e.kind), ("message", .text e.text)]

/-- A result or the fault in its place. -/
def resultView (r : Except Fault Data) : List (String × Data) :=
  match r with
  | .ok d => [("result", d)]
  | .error e => e.view

/-- An issue of a component. -/
def Issue.view (i : Issue) : Data := .texts [i.componentId, i.message, i.text]

/-- A fault with what it carries: its cause, the components that are still being
validated, the issues of components. -/
def Fault.detailedView (e : Fault) : List (String × Data) :=
  if e.family?.isNone then e.view
  else
    e.view
      ++ [("cause", (e.cause?.map fun c => Data.mapping c.view).getD .null)]
      ++ (e.componentIds?.map fun ids => ("component_ids", Data.texts ids)).toList
      ++ (e.issues?.map fun issues => ("issues", Data.texts (issues.map (·.text)))).toList

/-- What an action ends with. -/
def Yield.view : Yield → Data
  | .nothing => .null
  | .refused => .text "failed"
  | .flag b => .bool b
  | .phase p => .text p.text
  | .report r => (r.view).toOption.getD .null
  | .bytes b => b.view
  | .listing found => listingView found

/-! ### Cues -/

/-- An argument of a call. -/
def Argument.view : Argument → Data
  | .bytes b => b.view
  | .flag b => .bool b
  | .text s => .text s

/-- What has happened. -/
def Cue.view : Cue → Data
  | .call c => .list (.text "call" :: .text c.name :: c.arguments.map Argument.view)
  | .event e => .list [.text "event", .text e.kind, .mapping e.fields]
  | .pause seconds => .list [.text "sleep", .float seconds]
  | .validated id status => .list [.text "validate", .text id, .text status.text]
  | .stopRequested id => .list [.text "stop_transmitting", .text id]
  | .note result => .list [.text "note", .mapping (resultView (result.map Yield.view))]
  | .spanStart name => .list [.text "span_start", .text name]
  | .spanFact name key value => .list [.text "span_attr", .text name, .text key, value]
  | .spanFault name description => .list [.text "span_exc", .text name, .text description]
  | .spanEnd name => .list [.text "span_end", .text name]

/-! ### Log and flow -/

/-- A log record. -/
def Record.view (r : Record) : Data :=
  .mapping ([("event", .text r.event), ("level", .text r.level.text), ("logger", .text r.logger)]
    ++ r.fields ++ (if r.withFault then [("exception", .bool true)] else []))

/-- The lines of an entry on a stream: its fields without the time, or the lines
of its text. -/
def Loggers.Line.view : Loggers.Line → List Data
  | .json e =>
    let fields := e.filter (·.1 != "timestamp")
    [.mapping (fields.map fun (k, d) => (k, if k == "exception" then .bool true else d))]
  | .text s => (s.splitOn "\n").map .text

/-- What was written to a stream. -/
def streamView (stream : LogStream) (lines : List (LogStream × Loggers.Line)) : Data :=
  .list ((lines.filter (·.1 == stream)).flatMap (·.2.view))

/-- The state of a logger. -/
def Loggers.stateView (l : Loggers) (name : String) : Data :=
  let s := l.get name
  .mapping [
    ("level", .text (Loggers.levelName s.level)),
    ("effective", .text (Loggers.levelName (l.effectiveLevel name))),
    ("propagate", .bool s.propagates), ("handlers", .texts (s.handlers.map (·.name)))]

/-- A configuration, or null. -/
def configurationView (b : Option Bytes) : Data := (b.map Bytes.view).getD .null

/-- The flow, with how often each call was made. -/
def SimulatedFlow.view (f : SimulatedFlow) : Data :=
  let names := (f.calls.toList.map (·.name)).eraseDups
  .mapping [
    ("loaded", configurationView f.loaded),
    ("started", .list (f.started.toList.map configurationView)),
    ("processing", .bool f.processing),
    ("stopped", .texts (f.stopped.mergeSort fun a b => a ≤ b)),
    ("drops", .list (f.drops.toList.map fun d => .texts [d.1, d.2])),
    ("queue_polls", .int f.queuePolls),
    ("counts", .mapping (names.map fun name => (name, .int (f.count name))))]

end HotSwap
