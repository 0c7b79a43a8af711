/-
The settings: what there is to set, and what is accepted for it.

* `BudgetSettings`, `DrainSettings`, `FileSettings`, `HistorySettings`,
  `LoggingSettings`, `Settings` — the groups of settings, with their defaults;
* `….check` — reads a group from the entries of a mapping, with every problem
  that there is, in the order of the fields; unknown entries are passed over;
* `Settings.plan` — what an updater makes of its settings.
-/
import HotSwap.Log.Record
import HotSwap.Settings.Coerce
import HotSwap.Update.Attempt

namespace HotSwap

/-- The value of an entry, or a default where there is none. -/
def Checked.field {α : Type} (entries : List (String × Data)) (key : String) (default : α)
    (read : Data → Except Complaint α) : Checked α :=
  match Data.lookup entries key with
  | none => .good default
  | some d => .ofExcept key (read d)

/-- The value of an entry that has to be there. -/
def Checked.required {α : Type} (entries : List (String × Data)) (key : String)
    (read : Data → Except Complaint α) : Checked α :=
  match Data.lookup entries key with
  | none => .ofExcept key (.error .missing)
  | some d => .ofExcept key (read d)

/-- A group of settings from a value that has to be a mapping. -/
def Checked.group {α : Type} (key model : String) (check : List (String × Data) → Checked α) :
    Data → Checked α
  | .mapping entries => (check entries).below key
  | _ => .ofExcept key (.error (.noMapping model))

/-! ### Budgets -/

/-- A polling budget. -/
structure BudgetSettings where
  maxRetries : Nat
  pauseSeconds : Float

namespace BudgetSettings

/-- The budget where nothing is set. -/
def standard : BudgetSettings := { maxRetries := 5, pauseSeconds := 1.0 }

/-- Reads a budget. -/
def check (standard : BudgetSettings) (entries : List (String × Data)) : Checked BudgetSettings :=
  BudgetSettings.mk
    <$> Checked.field entries "max_retries" standard.maxRetries
      (fun d => do Settings.natural (← Settings.asInteger d))
    <*> Checked.field entries "pause_seconds" standard.pauseSeconds
      (fun d => do Settings.notNegative (← Settings.asDouble d))

/-- The polling budget. -/
def budget (b : BudgetSettings) : Budget :=
  { maxRetries := b.maxRetries, pause := .float b.pauseSeconds }

/-- More retries than a double can hold. -/
structure TooManyRetries where
  deriving DecidableEq, Repr

/-- The message for more retries than a double can hold. -/
def TooManyRetries.message (_ : TooManyRetries) : String := "int too large to convert to float"

/-- The longest time that polling can pause altogether. -/
def worstCase (b : BudgetSettings) : Except TooManyRetries Float :=
  let retries := Number.ofInt b.maxRetries
  if (Number.Binary64.ofFloat retries matches .finite ..) then .ok (retries * b.pauseSeconds)
  else .error {}

end BudgetSettings

/-! ### Drain -/

/-- The settings of the drain. -/
structure DrainSettings where
  budget : BudgetSettings := { maxRetries := 60, pauseSeconds := 1.0 }
  stopTimeout : Float := 10.0

namespace DrainSettings

/-- Reads the settings of the drain. -/
def check (entries : List (String × Data)) : Checked DrainSettings :=
  DrainSettings.mk
    <$> BudgetSettings.check ({} : DrainSettings).budget entries
    <*> Checked.field entries "transmission_stop_timeout_seconds" ({} : DrainSettings).stopTimeout
      (fun d => do Settings.positive (← Settings.asDouble d))

/-- What a drain makes of its settings. -/
def plan (d : DrainSettings) : DrainPlan :=
  { budget := d.budget.budget, stopTimeout := d.stopTimeout }

end DrainSettings

/-! ### Files -/

/-- The settings of the files. -/
structure FileSettings where
  file : Path
  backupSuffix : String := ".backup"
  rawExtension : String := ".raw"

namespace FileSettings

/-- Whether a text is a file extension: a dot, something behind it, and no
slash. -/
def isExtension (s : String) : Bool :=
  s.toList.head? == some '.' && 2 ≤ s.length && !s.toList.contains '/'

/-- A text that has to be a file extension. -/
def extension (s : String) : Except Complaint String :=
  if isExtension s then .ok s else .error (.extension s)

/-- Reads the settings of the files. -/
def check (entries : List (String × Data)) : Checked FileSettings :=
  FileSettings.mk
    <$> Checked.required entries "flow_configuration_file" Settings.asPath
    <*> Checked.field entries "backup_suffix" ".backup"
      (fun d => do extension (← Settings.asText d))
    <*> Checked.field entries "raw_extension" ".raw"
      (fun d => do extension (← Settings.asText d))

/-- The paths of the four files, seen from a working directory. -/
def paths (f : FileSettings) (directory : Path) : Except Path.NameError FilePaths :=
  FilePaths.derive f.file directory f.backupSuffix f.rawExtension

end FileSettings

/-! ### History -/

/-- The settings of the history. -/
structure HistorySettings where
  enabled : Bool := false
  url : String := "sqlite:///./state/flowswap.db"

namespace HistorySettings

/-- A text that has to be the address of a store. -/
def address (s : String) : Except Complaint String :=
  match Url.ofString s with
  | .ok _ => .ok s
  | .error e => .error (.url e)

/-- Reads the settings of the history. -/
def check (entries : List (String × Data)) : Checked HistorySettings :=
  HistorySettings.mk
    <$> Checked.field entries "enabled" ({} : HistorySettings).enabled Settings.asFlag
    <*> Checked.field entries "url" ({} : HistorySettings).url
      (fun d => do address (← Settings.asText d))

end HistorySettings

/-! ### Logging -/

/-- Whose records are formatted. -/
inductive LogScope where
  /-- Those of every logger in the process. -/
  | root
  /-- Those of the updater alone. -/
  | package
  deriving DecidableEq, Repr

/-- The name of a scope. -/
def LogScope.text : LogScope → String
  | .root => "root"
  | .package => "flowswap"

/-- Where records are written. -/
inductive LogStream where
  | stdout
  | stderr
  deriving DecidableEq, Repr

/-- The name of a stream. -/
def LogStream.text : LogStream → String
  | .stdout => "stdout"
  | .stderr => "stderr"

/-- The settings of logging. -/
structure LoggingSettings where
  level : Level := .info
  json : Bool := false
  scope : LogScope := .root
  stream : LogStream := .stdout

namespace LoggingSettings

/-- Reads the settings of logging. -/
def check (entries : List (String × Data)) : Checked LoggingSettings :=
  LoggingSettings.mk
    <$> Checked.field entries "level" ({} : LoggingSettings).level
      (Settings.asOneOf (Level.all.map fun l => (l.settingName, l)))
    <*> Checked.field entries "json_output" ({} : LoggingSettings).json Settings.asFlag
    <*> Checked.field entries "scope" ({} : LoggingSettings).scope
      (Settings.asOneOf ([LogScope.root, .package].map fun s => (s.text, s)))
    <*> Checked.field entries "stream" ({} : LoggingSettings).stream
      (Settings.asOneOf ([LogStream.stdout, .stderr].map fun s => (s.text, s)))

end LoggingSettings

/-! ### All settings -/

/-- All settings. -/
structure Settings where
  files : FileSettings
  drain : DrainSettings := {}
  validation : BudgetSettings := .standard
  history : HistorySettings := {}
  logging : LoggingSettings := {}

namespace Settings

/-- A group of settings, or its defaults where it is not given. -/
def optionalGroup {α : Type} (entries : List (String × Data)) (key model : String) (default : α)
    (check : List (String × Data) → Checked α) : Checked α :=
  match Data.lookup entries key with
  | none => .good default
  | some d => Checked.group key model check d

/-- A group of settings that has to be there. -/
def requiredGroup {α : Type} (entries : List (String × Data)) (key model : String)
    (check : List (String × Data) → Checked α) : Checked α :=
  match Data.lookup entries key with
  | none => .ofExcept key (.error .missing)
  | some d => Checked.group key model check d

/-- Reads all settings. -/
def check (entries : List (String × Data)) : Checked Settings :=
  Settings.mk
    <$> requiredGroup entries "files" "FileSettings" FileSettings.check
    <*> optionalGroup entries "drain" "DrainSettings" {} DrainSettings.check
    <*> optionalGroup entries "validation" "ValidationSettings" .standard
      (BudgetSettings.check .standard)
    <*> optionalGroup entries "history" "HistorySettings" {} HistorySettings.check
    <*> optionalGroup entries "logging" "LoggingSettings" {} LoggingSettings.check

/-- What an updater makes of its settings, seen from a working directory. -/
def plan (s : Settings) (directory : Path) : Except Path.NameError UpdatePlan := do
  return {
    files := ← s.files.paths directory
    drain := s.drain.plan
    validation := s.validation.budget }

end Settings
end HotSwap
