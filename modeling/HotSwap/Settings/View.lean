/-
Settings as data.

* `BudgetSettings.view`, …, `Settings.view` — the fields of a group of settings; a
  budget also shows the longest time that it can take;
* `Settings.Model` — the groups of settings by name, and `Settings.Model.check`;
* `Settings.assign` — what comes of an attempt to change a setting.
-/
import HotSwap.Data.Access
import HotSwap.Settings.Schema

namespace HotSwap

/-! ### Fields -/

/-- The fields of a budget. -/
def BudgetSettings.view (b : BudgetSettings) : List (String × Data) :=
  let worst : Data :=
    match b.worstCase with
    | .ok seconds => .float seconds
    | .error e => .mapping [("error", .text "OverflowError"), ("message", .text e.message)]
  [("max_retries", .int b.maxRetries), ("pause_seconds", .float b.pauseSeconds),
    ("worst_case_seconds", worst)]

/-- The fields of the settings of the drain. -/
def DrainSettings.view (d : DrainSettings) : List (String × Data) :=
  d.budget.view ++ [("transmission_stop_timeout_seconds", .float d.stopTimeout)]

/-- The fields of the settings of the files. -/
def FileSettings.view (f : FileSettings) : List (String × Data) := [
  ("flow_configuration_file", .text (toString f.file)),
  ("backup_suffix", .text f.backupSuffix), ("raw_extension", .text f.rawExtension)]

/-- The fields of the settings of the history. -/
def HistorySettings.view (h : HistorySettings) : List (String × Data) := [
  ("enabled", .bool h.enabled), ("url", .text h.url)]

/-- The fields of the settings of logging. -/
def LoggingSettings.view (l : LoggingSettings) : List (String × Data) := [
  ("level", .text l.level.settingName), ("json_output", .bool l.json),
  ("scope", .text l.scope.text), ("stream", .text l.stream.text)]

namespace Settings

/-- The fields of all settings. -/
def view (s : Settings) : List (String × Data) := [
  ("files", .mapping s.files.view), ("drain", .mapping s.drain.view),
  ("validation", .mapping s.validation.view), ("history", .mapping s.history.view),
  ("logging", .mapping s.logging.view)]

/-! ### Groups by name -/

/-- The groups of settings. -/
inductive Model where
  | retryBudget
  | drain
  | validation
  | files
  | history
  | logging
  | all
  deriving DecidableEq, Repr

namespace Model

/-- The name of a group. -/
def name : Model → String
  | retryBudget => "RetryBudgetSettings"
  | drain => "DrainSettings"
  | validation => "ValidationSettings"
  | files => "FileSettings"
  | history => "HistorySettings"
  | logging => "LoggingSettings"
  | all => "FlowswapSettings"

/-- The group of a name. -/
def ofName? (s : String) : Option Model :=
  [retryBudget, drain, validation, files, history, logging, all].find? (·.name == s)

/-- Reads a group and shows its fields. -/
def check (m : Model) (entries : List (String × Data)) : Checked (List (String × Data)) :=
  match m with
  | retryBudget | validation => BudgetSettings.view <$> BudgetSettings.check .standard entries
  | drain => DrainSettings.view <$> DrainSettings.check entries
  | files => FileSettings.view <$> FileSettings.check entries
  | history => HistorySettings.view <$> HistorySettings.check entries
  | logging => LoggingSettings.view <$> LoggingSettings.check entries
  | all => Settings.view <$> Settings.check entries

end Model

/-- Changing what is there under a name: no setting can be changed, and a name with
an underscore in front is none. -/
def assign (name : String) : Checked Unit :=
  if name.toList.head? == some '_' then .good () else .ofExcept name (.error .frozen)

end Settings
end HotSwap
