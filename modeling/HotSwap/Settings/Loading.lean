/-
Settings from a file and the environment.

* `Data.mergeOver` — a tree on top of another: mappings entry by entry, keys
  matched in any case, lists one behind the other, all else replaced;
* `Data.spread` — a mapping as trees of one entry each: two underscores or a dot in
  a key lead one level further down;
* `Environment.overrides` — the settings that environment variables make;
* `Settings.localName` — the file of local settings beside a file;
* `Settings.load` — the settings of a file, with the local file and then the
  environment on top, references to variables replaced.

Design notes: a relative path of the configuration file is seen from the
directory of the settings file; whatever stands in the place of that path is
taken as a text first.
-/
import HotSwap.Data.Access
import HotSwap.Data.Compare
import HotSwap.Data.Keys
import HotSwap.Disk.Basic
import HotSwap.Document.Toml
import HotSwap.Document.Yaml.Block
import HotSwap.Settings.Schema
import HotSwap.Settings.Template

namespace HotSwap

/-! ### Trees on top of others -/

namespace Data

/-- Whether two keys are the same in lower case. -/
def sameKey (a b : String) : Bool := Text.lowercase a == Text.lowercase b

mutual

/-- The tree `upper` on top of the tree `lower`. -/
def mergeOver (lower upper : Data) : Data :=
  match lower, upper with
  | mapping below, mapping entries => mapping (mergeEntries below entries)
  | list below, list items => list (below ++ items)
  | _, upper => upper

/-- Entries on top of others. -/
def mergeEntries (lower : List (String × Data)) : List (String × Data) → List (String × Data)
  | [] => lower
  | (k, d) :: rest =>
    let merged :=
      match lower.find? fun e => sameKey e.1 k with
      | some (known, old) => store known (mergeOver old d) lower
      | none => store k d lower
    mergeEntries merged rest

end

/-- The tree with one value at the end of a chain of keys. -/
def chain (keys : List String) (value : Data) : Data :=
  keys.foldr (fun key d => mapping [(key, d)]) value

/-- The levels that a key leads through. -/
def levelsOf : List Char → List (List Char)
  | '_' :: '_' :: rest | '.' :: rest => [] :: levelsOf rest
  | c :: rest =>
    match levelsOf rest with
    | level :: more => (c :: level) :: more
    | [] => [[c]]
  | [] => [[]]

/-- A value at the end of the levels of a key. -/
def placed (key : List Char) (value : Data) : Data :=
  chain ((levelsOf key).map String.ofList) value

/-- The entries of a mapping, each as a tree of its own. -/
def spread (entries : List (String × Data)) : List Data :=
  entries.map fun (k, d) => placed k.toList d

end Data

/-! ### The environment -/

namespace Environment

/-- What the names of variables with settings begin with. -/
def marker : String := "FLOWSWAP_"

/-- The value of a variable: what it is written for, or its text. -/
def valueOf (s : String) : Data :=
  let word := String.ofList (Text.strip Text.isSeparating s.toList)
  let written := if word == "True" || word == "False" then Text.lowercase s else s
  (Toml.value? written).getD (.text written)

/-- The setting that a variable makes, if it makes one. -/
def override? (e : String × String) : Option Data :=
  if marker.toList.isPrefixOf e.1.toList then
    some (Data.placed (e.1.toList.drop marker.length) (valueOf e.2))
  else none

/-- The settings that the variables make. -/
def overrides (env : Environment) : List Data := env.filterMap override?

end Environment

/-! ### Loading -/

/-- Why settings cannot be loaded. -/
inductive LoadError where
  | notFound (path : Path)
  /-- The file breaks the rules of its format. -/
  | malformed
  /-- The file holds a date that the calendar does not have. -/
  | date (message : String)
  /-- The file does not hold a mapping. -/
  | noMapping (typeName : String)
  /-- A relative path with a null character, which no directory can be searched for. -/
  | nullCharacter
  | refused (problems : List Problem)

/-- The fault that a load error is, where it is not about the format or the
settings. -/
def LoadError.fault? : LoadError → Option Fault
  | notFound path =>
    some (.raised "FileNotFoundError" ("Config file not found: " ++ toString path))
  | date message => some (.raised "ValueError" message)
  | noMapping typeName =>
    some (.raised "AttributeError" ("'" ++ typeName ++ "' object has no attribute 'items'"))
  | nullCharacter => some (.raised "ValueError" "embedded null byte")
  | malformed | refused _ => none

namespace Settings

/-- The endings of the names of files that hold settings. -/
def suffixes : List String := [".yaml", ".yml"]

/-- The file of local settings beside a file. -/
def localName (path : Path) : Path :=
  let (stem, suffix) := Path.splitName path.name
  { path with parts := path.parts.dropLast ++ [stem ++ ".local" ++ suffix] }

/-- The entries in a file; none if there is no such file or it does not hold
settings. -/
def entriesOf (disk : Disk) (path : Path) : Except LoadError (List (String × Data)) :=
  match disk.read path with
  | .error _ => .ok []
  | .ok content =>
    if !suffixes.contains path.suffix then .ok []
    else match Yaml.read content.lossyText with
      | .error .malformed => .error .malformed
      | .error (.date message) => .error (.date message)
      | .ok (.mapping entries) => .ok entries
      | .ok d => if d.isTruthy then .error (.noMapping d.typeName) else .ok []

/-- A path in the settings, seen from the directory of the settings file. -/
def seenFrom (directory config given : Path) : Except LoadError Path :=
  if given.isAbsolute then .ok given
  else if given.parts.any fun part => part.toList.contains '\x00' then .error .nullCharacter
  else .ok ((config.parent.join given).resolvedIn directory)

/-- The value that stands for the path of the configuration file. -/
def pathValue? (entries : List (String × Data)) : Option Data :=
  match Data.lookup entries "files" with
  | some (.mapping files) => Data.lookup files "flow_configuration_file"
  | _ => none

/-- The settings with a text for the path of the configuration file. -/
def putPath (text : String) (entries : List (String × Data)) : List (String × Data) :=
  match Data.lookup entries "files" with
  | some (.mapping files) =>
    Data.store "files" (.mapping (Data.store "flow_configuration_file" (.text text) files)) entries
  | _ => entries

/-- The settings with the path of the configuration file as a text, seen from
the directory of the settings file. -/
def placeFile (directory config : Path) (entries : List (String × Data)) :
    Except LoadError (List (String × Data)) := do
  match pathValue? entries with
  | some value =>
    let path ← seenFrom directory config (Path.ofString value.plain)
    return putPath (toString path) entries
  | none => return entries

/-- The entries of all sources, keys in lower case and references replaced. -/
def gather (disk : Disk) (directory : Path) (env : Environment) (config : Path) :
    Except LoadError (List (String × Data)) := do
  let place := config.absoluteIn directory
  let main ← entriesOf disk place
  let beside ← entriesOf disk (localName place)
  let sources := Data.spread main ++ Data.spread beside ++ env.overrides
  let merged := sources.foldl Data.mergeOver (.mapping [])
  return (env.expandTexts merged.lowercaseKeys).entries

/-- Loads settings; `directory` is the working directory. -/
def load (disk : Disk) (directory : Path) (env : Environment) (config : Path) :
    Except LoadError Settings := do
  match disk.at? (config.absoluteIn directory) with
  | .ok (some _) => pure ()
  | _ => throw (.notFound config)
  let entries ← gather disk directory env config
  match check (← placeFile directory config entries) with
  | .good s => return s
  | .bad problems => throw (.refused problems)

end Settings
end HotSwap
