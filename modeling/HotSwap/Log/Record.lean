/-
Log records.

* `Level` — how grave a record is, with its name and its number;
* `Record` — one record: level, logger, event and fields.
-/
import HotSwap.Data.Basic

namespace HotSwap

/-- How grave a record is. -/
inductive Level where
  | debug
  | info
  | warning
  | error
  | critical
  deriving DecidableEq, Repr

namespace Level

/-- The number of a level: the graver, the greater. -/
def number : Level → Nat
  | debug => 10
  | info => 20
  | warning => 30
  | error => 40
  | critical => 50

/-- The name of a level in records. -/
def text : Level → String
  | debug => "debug"
  | info => "info"
  | warning => "warning"
  | error => "error"
  | critical => "critical"

/-- The name of a level in settings. -/
def settingName : Level → String
  | debug => "DEBUG"
  | info => "INFO"
  | warning => "WARNING"
  | error => "ERROR"
  | critical => "CRITICAL"

/-- Every level, in order. -/
def all : List Level := [debug, info, warning, error, critical]

/-- Reads the name of a level in settings. -/
def ofSettingName? (s : String) : Option Level := all.find? (·.settingName == s)

end Level

/-- One record. -/
structure Record where
  level : Level
  logger : String
  event : String
  fields : List (String × Data) := []
  /-- Whether a fault is attached. -/
  withFault : Bool := false

end HotSwap
