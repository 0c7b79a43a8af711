/-
Bringing a persisted configuration to run.

Loading puts the configuration into the flow.  Starting waits until no
component is validating any more, refuses to start when any of them has an
error, and resumes processing.

* `reloadFlow` — both, one after the other;
* `loadFlow`, `validateAndStart` — each of them.

Every ordinary fault of the host on the way becomes a failed reload that names
the step.
-/
import HotSwap.Flow.Poll

namespace HotSwap

namespace Reload

variable {σ : Type}

/-- Writes a log record about the reload. -/
def say (level : Level) (event : String) (fields : List (String × Data)) : Act σ Unit :=
  Act.say "flowswap.engine.reload" level event fields

/-- An act whose ordinary faults become a failed reload step. -/
def step {α : Type} (s : ReloadStep) (a : Act σ α) : Act σ α := do
  match ← a.guarded with
  | .ok x => return x
  | .error fault => Act.raise (.reloadFailed s fault)

/-- The first component of each identifier, of those whose identifier is not in
`seen`. -/
def distinct (link : Link σ) (seen : List String) : List Component → Act σ (List Component)
  | [] => return []
  | c :: rest => do
    if seen.contains (← link.ask (.componentIdentifier c)) then distinct link seen rest
    else
      let id ← link.ask (.componentIdentifier c)
      return c :: (← distinct link (id :: seen) rest)

/-- The components that have to be valid: controller services, reporting tasks,
and processors, of which only the first of each identifier counts. -/
def components (link : Link σ) : Act σ (List Component) := do
  let services : List Component ← link.ask .controllerServices
  let tasks : List Component ← link.ask .reportingTasks
  return services ++ tasks ++ (← distinct link [] (← link.ask .processors))

/-- One round of validation: the components that have not settled. -/
def unsettled (link : Link σ) : List Component → Act σ (List Component)
  | [] => return []
  | c :: rest => do
    let status : Status ← link.ask (.performValidation c)
    let others ← unsettled link rest
    return if status == .validating then c :: others else others

/-- The validation errors of components, in order. -/
def issues (link : Link σ) : List Component → Act σ (List Issue)
  | [] => return []
  | c :: rest => do
    let messages : List String ← link.ask (.validationErrors c)
    let own ← name link c messages
    return own ++ (← issues link rest)
where
  /-- Attaches the identifier of a component to its messages, asking for it
  once per message. -/
  name (link : Link σ) (c : Component) : List String → Act σ (List Issue)
    | [] => return []
    | message :: rest => do
      let componentId ← link.ask (.componentIdentifier c)
      return { componentId, message } :: (← name link c rest)

/-- The identifiers of components. -/
def identifiers (link : Link σ) : List Component → Act σ (List String)
  | [] => return []
  | c :: rest => do
    let id ← link.ask (.componentIdentifier c)
    return id :: (← identifiers link rest)

/-- Polls until every component has settled; the components, and the end of
the loop if some have not. -/
def settle (link : Link σ) (budget : Budget) (listens : Bool) :
    Act σ (List Component × Option (Residual (List Component))) := do
  let cs ← components link
  let pending ← pollUntil link budget listens (unsettled link cs) fun open_ => return open_.isEmpty
  return (cs, pending)

end Reload

variable {σ : Type}

/-- Loads the active configuration file into the flow. -/
def loadFlow (link : Link σ) : Act σ Unit := do
  Reload.say .info "Initiating flow reload" []
  Reload.step .load do
    link.ask .loadConfiguration
    link.ask .rebuild

/-- Waits until every component has settled, and starts the flow when none of
them has an error. -/
def validateAndStart (link : Link σ) (budget : Budget) (listens : Bool) : Act σ Unit := do
  match ← Reload.step .validate (Reload.settle link budget listens) with
  | (_, some pending) =>
    let ids ← Reload.identifiers link pending.value
    Reload.say .error "Components are still in VALIDATING state"
      [("components", .list (ids.map .text)), ("polls", .int pending.polls)]
    Act.raise (.validationPending ids)
  | (cs, none) =>
    let found ← Reload.step .collect (Reload.issues link cs)
    if !found.isEmpty then
      Reload.say .error "Validation errors found when reloading the flow"
        [("errors", .list (found.map fun i => .text i.text))]
      Act.raise (.validationFailed found)
    Reload.step .start (link.ask .startProcessing)
    Reload.say .info "Flow has been reloaded successfully" [("components", .int cs.length)]

/-- Loads the active configuration file and starts it. -/
def reloadFlow (link : Link σ) (budget : Budget) (listens : Bool) : Act σ Unit := do
  loadFlow link
  validateAndStart link budget listens

end HotSwap
