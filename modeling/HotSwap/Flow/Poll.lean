/-
Polling within a budget.

* `Budget` — how often to poll again, and how long to pause in between;
* `Residual` — what the last poll gave when the loop did not converge;
* `pollOnce` — one poll after which there may be another one;
* `pollUntil` — polls until a value is settled, the budget is spent, or the
  cancellation token is seen.

Design notes: a value is tested before the token is looked at, so that a loop
that has converged says so even when it has been cancelled meanwhile.  A fault
that asks for another poll is heard like a value that has not settled; where no
other poll can follow it is raised like any other fault.
-/
import HotSwap.Number.Quantity
import HotSwap.World.Link

namespace HotSwap

/-- A polling budget: polls after the first one, and the pause before each. -/
structure Budget where
  maxRetries : Nat
  pause : Quantity

/-- Why a budget cannot be had. -/
inductive BudgetError where
  | retries (given : Int)
  | pause (given : Quantity)

/-- The message of a refused budget. -/
def BudgetError.message : BudgetError → String
  | retries given => "max_retries must be >= 0, got " ++ toString given
  | pause given => "pause_seconds must be >= 0, got " ++ given.data.display

/-- A budget from numbers that must not be negative. -/
def Budget.ofNumbers (maxRetries : Int) (pause : Quantity) : Except BudgetError Budget :=
  if maxRetries < 0 then .error (.retries maxRetries)
  else if pause.isNegative then .error (.pause pause)
  else .ok { maxRetries := maxRetries.toNat, pause }

/-- The end of a loop that did not converge. -/
structure Residual (α : Type) where
  /-- What the last poll gave. -/
  value : α
  /-- How often was polled. -/
  polls : Nat
  /-- Whether the token was cancelled when the loop ended. -/
  cancelled : Bool

variable {σ α : Type}

/-- Whether a loop has been told to stop; one that does not listen has not. -/
def toldToStop (listens : Bool) : Act σ Bool := do
  return listens && (← Act.desk).cancelled

/-- Logs that a loop will poll again. -/
def sayPollAgain (budget : Budget) (poll : Nat) : Act σ Unit :=
  Act.say "flowswap.engine.retry" .debug "Condition not met, polling again"
    [("attempt", .int poll), ("max_attempts", .int (budget.maxRetries + 1)),
      ("pause_seconds", budget.pause.data)]

/-- What the value of poll number `poll` comes to: the end of the loop, or
nothing if it goes on. -/
def weigh (listens : Bool) (settled : α → Act σ Bool) (poll : Nat) (value : α) :
    Act σ (Option (Option (Residual α))) := do
  if ← settled value then return some none
  if ← toldToStop listens then return some (some { value, polls := poll, cancelled := true })
  return none

/-- Poll number `poll`, after which there may be another one: the end of the
loop, or nothing if it goes on. -/
def pollOnce (listens : Bool) (ask : Act σ α) (settled : α → Act σ Bool) (poll : Nat) :
    Act σ (Option (Option (Residual α))) := do
  match ← ask.outcome with
  | .ok value => weigh listens settled poll value
  | .error fault =>
    let told ← toldToStop listens
    if fault.asksAgain && !told then return none
    Act.raise fault

/-- The loop with `left` further polls allowed, about to make poll number
`poll`. -/
def pollFrom (link : Link σ) (budget : Budget) (listens : Bool) (ask : Act σ α)
    (settled : α → Act σ Bool) : (left poll : Nat) → Act σ (Option (Residual α))
  | 0, poll => do
    let value ← ask
    if ← settled value then return none
    return some { value, polls := poll, cancelled := ← toldToStop listens }
  | left + 1, poll => do
    match ← pollOnce listens ask settled poll with
    | some answer => return answer
    | none =>
      sayPollAgain budget poll
      link.ask (.pause budget.pause.seconds)
      pollFrom link budget listens ask settled left (poll + 1)

/-- Polls until a value is settled: nothing then, and otherwise what the last
poll gave. -/
def pollUntil (link : Link σ) (budget : Budget) (listens : Bool) (ask : Act σ α)
    (settled : α → Act σ Bool) : Act σ (Option (Residual α)) :=
  pollFrom link budget listens ask settled budget.maxRetries 1

end HotSwap
