/-
A bus that carries events to their subscribers.

Subscribers of a kind of event are called in the order in which they
subscribed; one that subscribes while an event of its kind is being delivered
is still called for that event.  A fault of a subscriber ends the delivery.

* `Bus` — the subscribers of each kind;
* `Subscriber` — what a subscriber does when it is called, in a script;
* `Delivery` — events that are being delivered, with what has been seen;
* `Delivery.perform` — a step, and everything that follows from it.
-/
import HotSwap.Data.Basic
import HotSwap.Update.Fault

namespace HotSwap

/-- The names of the subscribers of each kind of event, in the order in which
they subscribed. -/
structure Bus where
  subscribers : List (String × String) := []
  deriving DecidableEq, Repr

namespace Bus

/-- Adds a subscriber to a kind of event. -/
def subscribe (b : Bus) (kind name : String) : Bus :=
  { subscribers := b.subscribers ++ [(kind, name)] }

/-- The subscribers of a kind of event. -/
def subscribersOf (b : Bus) (kind : String) : List String :=
  (b.subscribers.filter (·.1 == kind)).map (·.2)

end Bus

/-- What can be done with a bus. -/
inductive BusStep where
  | subscribe (kind name : String)
  | emit (kind : String) (value : Data)

/-- What a subscriber does when it is called. -/
structure Subscriber where
  name : String
  /-- What it does with the bus. -/
  steps : List BusStep := []
  /-- For how many of its calls it does so. -/
  limit : Nat := 1
  /-- What it raises at last. -/
  raises : Option Fault := none

/-- Events that are being delivered. -/
structure Delivery where
  bus : Bus := {}
  script : List Subscriber := []
  /-- The calls so far, the latest first: subscriber, kind of event, value. -/
  seen : List (String × String × Data) := []
  /-- The names of the subscribers called so far. -/
  called : List String := []

/-- What is still to be done. -/
inductive BusTask where
  | step (s : BusStep)
  /-- Call the subscribers of a kind, from a position on. -/
  | deliver (kind : String) (value : Data) (position : Nat)
  | raise (fault : Fault)

namespace Delivery

/-- The script of a subscriber; one without a script does nothing. -/
def scriptOf (d : Delivery) (name : String) : Subscriber :=
  (d.script.find? (·.name == name)).getD { name }

/-- What a subscriber does when it is called now. -/
def tasksOf (d : Delivery) (name : String) : List BusTask :=
  let s := d.scriptOf name
  let steps := if d.called.count name < s.limit then s.steps.map BusTask.step else []
  steps ++ s.raises.toList.map BusTask.raise

/-- Carries tasks out, at most `fuel` of them; a fault drops those that are
left. -/
def run : (fuel : Nat) → List BusTask → Delivery → Option Fault × Delivery
  | 0, _, d => (none, d)
  | _ + 1, [], d => (none, d)
  | fuel + 1, task :: rest, d =>
    match task with
    | .step (.subscribe kind name) => run fuel rest { d with bus := d.bus.subscribe kind name }
    | .step (.emit kind value) => run fuel (.deliver kind value 0 :: rest) d
    | .raise fault => (some fault, d)
    | .deliver kind value position =>
      match (d.bus.subscribersOf kind)[position]? with
      | none => run fuel rest d
      | some name =>
        run fuel (d.tasksOf name ++ .deliver kind value (position + 1) :: rest)
          { d with seen := (name, kind, value) :: d.seen, called := name :: d.called }

/-- How many steps the scripts can still take. -/
def scriptedSteps (d : Delivery) : Nat :=
  (d.script.map fun s => (s.limit - d.called.count s.name) * s.steps.length).foldr (· + ·) 0

/-- More tasks than one step can lead to: each step that is taken calls every
subscriber at most once, and there is at most one more of them for each step. -/
def enough (d : Delivery) : Nat :=
  let steps := d.scriptedSteps + 1
  steps * 2 * (d.bus.subscribers.length + steps + 2) + 1

/-- Takes a step, and carries out all that follows from it. -/
def perform (d : Delivery) (s : BusStep) : Option Fault × Delivery := run d.enough [.step s] d

end Delivery
end HotSwap
