/-
Loggers, their handlers, and where their entries go.

Loggers form a tree by the dots in their names.  An entry passes if it is at
least as grave as the level of its logger, or of the nearest logger above that has
one; then it goes to the handlers of its logger and of those above, up to the first
logger that does not hand on.

* `Handler`, `LoggerState`, `Loggers` — handlers, a logger, and all of them with the
  fields of the context;
* `Loggers.lineage` — a logger and those above it;
* `Loggers.effectiveLevel`, `Loggers.takers` — what decides on an entry;
* `Loggers.configure` — installs the one handler of the updater, on the root or on
  the updater's own tree;
* `Loggers.log`, `Loggers.logForeign` — an entry with fields, and one of another
  library, as lines on the output streams.

Design notes: the names of loggers are those of the tree; the root has the empty
name, and `root` is another name of it.  Only loggers that are there are above
others: a name that nobody has asked for is passed over, with the character before
its dot.
-/
import HotSwap.Data.Access
import HotSwap.Log.Arguments
import HotSwap.Log.Console
import HotSwap.Settings.Schema
import HotSwap.Update.Fault

namespace HotSwap

/-! ### The tree -/

/-- What takes entries. -/
inductive Handler where
  /-- The handler of the updater: as JSON or for the console, on a stream. -/
  | own (json : Bool) (stream : LogStream)
  /-- A handler of the host. -/
  | host (name : String)
  deriving DecidableEq, Repr

/-- The name of the updater's tree and of its handler. -/
def packageLogger : String := "flowswap"

/-- The name of a handler. -/
def Handler.name : Handler → String
  | own .. => packageLogger
  | host name => name

/-- The state of one logger. -/
structure LoggerState where
  /-- The level by its number; nought if there is none. -/
  level : Nat := 0
  /-- Whether it hands entries on to the logger above. -/
  propagates : Bool := true
  handlers : List Handler := []
  deriving DecidableEq, Repr

/-- All loggers, and the fields that every entry takes from its context. -/
structure Loggers where
  states : List (String × LoggerState) := [("", { level := Level.warning.number })]
  context : List (String × Data) := []
  /-- Whether logging has been configured. -/
  configured : Bool := false

namespace Loggers

/-- The name of a logger in the tree. -/
def canonical (name : String) : String := if name == "root" then "" else name

/-- The name of a logger as it is shown. -/
def shownName (name : String) : String := if canonical name == "" then "root" else name

/-- The state of a logger. -/
def get (l : Loggers) (name : String) : LoggerState :=
  ((l.states.find? fun e => e.1 == canonical name).map (·.2)).getD {}

/-- The loggers with another state for one of them. -/
def set (l : Loggers) (name : String) (s : LoggerState) : Loggers :=
  { l with states := (canonical name, s) :: l.states.filter (·.1 != canonical name) }

/-- The loggers with a change of one of them. -/
def modify (l : Loggers) (name : String) (f : LoggerState → LoggerState) : Loggers :=
  l.set name (f (l.get name))

/-- Whether there is a logger of a name. -/
def isKnown (l : Loggers) (name : String) : Bool := l.states.any fun e => e.1 == name

/-- The loggers after one has been asked for, which is there from then on. -/
def ask (l : Loggers) (name : String) : Loggers := l.modify name id

/-- The loggers above a name in the tree, given its characters in reverse. -/
def above (l : Loggers) : List Char → List String
  | '.' :: c :: rest =>
    let name := String.ofList (c :: rest).reverse
    if l.isKnown name then name :: l.above (c :: rest) else l.above rest
  | _ :: rest => l.above rest
  | [] => [""]

/-- A logger and those above it, the nearest first. -/
def lineage (l : Loggers) (name : String) : List String :=
  if canonical name == "" then [""] else name :: l.above name.toList.reverse

/-- The level that decides on the entries of a logger. -/
def effectiveLevel (l : Loggers) (name : String) : Nat :=
  (((l.lineage name).map fun n => (l.get n).level).find? (· != 0)).getD 0

/-- The handlers of loggers, up to the first that does not hand on. -/
def handlersAlong (l : Loggers) : List String → List Handler
  | [] => []
  | name :: above =>
    let s := l.get name
    s.handlers ++ (if s.propagates then l.handlersAlong above else [])

/-- The handlers that the entries of a logger go to. -/
def receivers (l : Loggers) (name : String) : List Handler := l.handlersAlong (l.lineage name)

/-- Whether an entry passes; `severity` is the number of its level. -/
def passes (l : Loggers) (name : String) (severity : Int) : Bool :=
  (l.effectiveLevel name : Int) ≤ severity

/-- The handlers that an entry reaches. -/
def takers (l : Loggers) (name : String) (severity : Int) : List Handler :=
  if l.passes name severity then l.receivers name else []

/-! ### Configuration -/

/-- Sets the level of a logger. -/
def setLevel (l : Loggers) (name : String) (level : Nat) : Loggers :=
  l.modify name fun s => { s with level }

/-- Adds a handler to a logger. -/
def attach (l : Loggers) (name : String) (h : Handler) : Loggers :=
  l.modify name fun s => { s with handlers := s.handlers ++ [h] }

/-- Removes the handlers of the updater's name from a logger. -/
def detach (l : Loggers) (name : String) : Loggers :=
  l.modify name fun s => { s with handlers := s.handlers.filter fun h => h.name != packageLogger }

/-- Loggers of libraries that write much. -/
def chatty : List String := ["sqlalchemy.engine", "sqlalchemy.pool", "opentelemetry"]

/-- Installs the handler of the updater and its level where the scope asks for them.  An earlier
handler is replaced. -/
def install (l : Loggers) (s : LoggingSettings) : Loggers :=
  let handler := Handler.own s.json s.stream
  let level := s.level.number
  let l := l.detach packageLogger
  match s.scope with
  | .package =>
    ((l.detach "").attach packageLogger handler).modify packageLogger fun p =>
      { p with level, propagates := false }
  | .root =>
    (l.modify "" fun r => { r with level, handlers := [handler] }).modify packageLogger fun p =>
      { p with level := 0, propagates := true }

/-- Sets the level of the libraries that write much: warnings are the least. -/
def quieten (l : Loggers) (level : Nat) : Loggers :=
  chatty.foldl (fun l name => l.setLevel name (max level Level.warning.number)) l

/-- Configures logging. -/
def configure (l : Loggers) (s : LoggingSettings) : Loggers :=
  { (l.install s).quieten s.level.number with configured := true }

/-- The names of levels that can be set. -/
def levelNames : List (String × Nat) :=
  [("NOTSET", 0), ("WARN", Level.warning.number), ("FATAL", Level.critical.number)]
    ++ Level.all.map fun level => (level.settingName, level.number)

/-- The name of a level. -/
def levelName (level : Nat) : String :=
  if level == 0 then "NOTSET"
  else match Level.all.find? (·.number == level) with
    | some known => known.settingName
    | none => "Level " ++ toString level

/-- The level that a value names, or the fault of a value that names none. -/
def levelOf (d : Data) : Except Fault Nat :=
  match d with
  | .int n => .ok n.toNat
  | .text s =>
    match levelNames.find? (·.1 == s) with
    | some (_, level) => .ok level
    | none => .error (.raised "ValueError" ("Unknown level: " ++ d.display))
  | d => .error (.raised "TypeError" ("Level not an integer or a valid string: " ++ d.display))

/-! ### Entries -/

/-- One line of output. -/
inductive Line where
  | json (e : Log.Entry)
  | text (s : String)

/-- The entries of a list on top of others: keys that are there already keep
their values. -/
def withDefaults (e : Log.Entry) (defaults : List (String × Data)) : Log.Entry :=
  e ++ defaults.filter fun d => !e.any (·.1 == d.1)

/-- Completes an entry with the context, the logger, the level and the time. -/
def complete (l : Loggers) (name : String) (level : Level) (time : String) (e : Log.Entry) :
    Log.Entry :=
  let e := withDefaults e l.context
  let e := Data.store "logger" (.text (shownName name)) e
  let e := Data.store "level" (.text level.text) e
  Data.store "timestamp" (.text time) e

/-- An entry as a handler writes it; `terminal` tells whether the streams are
terminals. -/
def written (terminal : Bool) (e : Log.Entry) : Handler → List (LogStream × Line)
  | .own true stream => [(stream, .json e)]
  | .own false stream =>
    [(stream, .text (Log.consoleLine (if terminal then .colours else .plain) e))]
  | .host _ => []

/-- The lines of an entry: what the handlers write, or its bare message where
there is no handler at all and the entry is grave. -/
def deliver (l : Loggers) (terminal : Bool) (name : String) (level : Level) (message : String)
    (e : Log.Entry) : List (LogStream × Line) :=
  let handlers := l.takers name level.number
  if handlers.isEmpty then
    if l.passes name level.number && Level.warning.number ≤ level.number then
      [(.stderr, .text message)]
    else []
  else handlers.flatMap (written terminal e)

/-- Logs an entry with fields: those bound to the logger, and those of the call
and an attached fault on top.  Before logging is configured every entry goes to the
console. -/
def log (l : Loggers) (terminal : Bool) (time name : String) (level : Level) (event : String)
    (arguments : List Data) (bound fields : List (String × Data)) (fault : Option Fault) :
    Except Log.FormatError (List (LogStream × Line)) := do
  let text ← if arguments.isEmpty then pure event else Log.fillIn event arguments
  let attached := (fault.map fun f => ("exception", Data.text f.describe)).toList
  let e := Data.store "event" (.text text) (Data.overlay (fields ++ attached) bound)
  if l.configured then
    let e := l.complete name level time e
    return l.deliver terminal name level (Data.mapping e).display e
  else
    let e := Data.store "level" (.text level.text) (withDefaults e l.context)
    return written terminal (Data.store "timestamp" (.text time) e) (.own false .stdout)

/-- Logs an entry of another library. -/
def logForeign (l : Loggers) (terminal : Bool) (time name : String) (level : Level)
    (event : String) (arguments : List Data) :
    Except Log.FormatError (List (LogStream × Line)) := do
  if !l.passes name level.number then return []
  let text ← if arguments.isEmpty then pure event else Log.fillIn event arguments
  return l.deliver terminal name level text (l.complete name level time [("event", .text text)])

end Loggers
end HotSwap
