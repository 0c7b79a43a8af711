/-
Conditions under which polling stops.

* `Condition` — a condition on the polled value;
* `Condition.holds` — whether it holds, or the fault of asking.
-/
import HotSwap.Data.Compare
import HotSwap.Update.Fault

namespace HotSwap

/-- A condition on a polled value. -/
inductive Condition where
  | equals (d : Data)
  | truthy
  | falsy
  | atLeast (d : Data)
  /-- More parts than a number. -/
  | longerThan (n : Data)

namespace Condition

/-- Whether a value meets the condition. -/
def holds (c : Condition) (value : Data) : Except Fault Bool :=
  match c with
  | equals d => .ok (value.same d)
  | truthy => .ok value.isTruthy
  | falsy => .ok !value.isTruthy
  | atLeast d => (value.atLeast d).mapError fun e => .raised "TypeError" e.message
  | longerThan n =>
    match value.size with
    | .error typeName =>
      .error (.raised "TypeError" ("object of type '" ++ typeName ++ "' has no len()"))
    | .ok size => .ok !((n.atLeast (.int size)).toOption.getD true)

end Condition
end HotSwap
