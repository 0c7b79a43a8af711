/-
Faults from their names.

* `Fault.named` — the fault of a kind, with the values that it was raised with;
* `Fault.refusal` — the refusal of the system with a number.
-/
import HotSwap.Data.Basic
import HotSwap.Update.Fault

namespace HotSwap.Fault

/-- The kinds of faults that are not ordinary errors. -/
def interruptKinds : List String := ["KeyboardInterrupt", "SystemExit", "GeneratorExit"]

/-- The kind of fault that asks a polling loop to poll again. -/
def againKind : String := "TryAgain"

/-- The families of faults that are raised with a text alone. -/
def plainFamilies : List Family := [.update, .rejectedCandidate, .reloadFailed, .revertReload]

/-- The texts in a list. -/
def textsOf : Data → List String
  | .list items => items.map Data.plain
  | _ => []

/-- An issue from a pair. -/
def issueOf : Data → Issue
  | .list (id :: message :: _) => { componentId := id.plain, message := message.plain }
  | d => { componentId := d.plain, message := "" }

/-- The message of a fault that was raised with some values. -/
def messageOf (kind : String) (values : List Data) : String :=
  match kind, values with
  | "KeyError", [key] => key.display
  | _, values => Data.displayArguments values

/-- The fault of a kind that was raised with some values. -/
def named (kind : String) (values : List Data) : Fault :=
  let first := values.headD .null
  if kind == Family.configFile.name then
    .configFile (.stated first.plain) { anchor := .slash, parts := ["x"] }
  else if kind == Family.validationPending.name then .validationPending (textsOf first)
  else if kind == Family.validationFailed.name then
    match first with
    | .list items => .validationFailed (items.map issueOf)
    | _ => .validationFailed []
  else match plainFamilies.find? (·.name == kind) with
    | some family => .stated family (messageOf kind values)
    | none =>
      if interruptKinds.contains kind then .interrupt kind (messageOf kind values)
      else if kind == againKind then .again kind (messageOf kind values)
      else .raised kind (messageOf kind values)

/-- The refusal of the system with a number, which may name a path. -/
def refusal (code : Nat) (path : Option String) : Fault := .system { code, path }

end HotSwap.Fault
