/-
Numbers as they were given: integers stay integers.

* `Quantity` — an integer or a double;
* `Quantity.data`, `Quantity.seconds`, `Quantity.isNegative`.
-/
import HotSwap.Data.Basic

namespace HotSwap

/-- An integer or a double. -/
inductive Quantity where
  | int (n : Int)
  | float (x : Float)

namespace Quantity

/-- The quantity as a value. -/
def data : Quantity → Data
  | int n => .int n
  | float x => .float x

/-- The quantity as a number of seconds. -/
def seconds : Quantity → Float
  | int n => Number.ofInt n
  | float x => x

/-- Whether the quantity is below zero. -/
def isNegative : Quantity → Bool
  | int n => n < 0
  | float x => x < 0

end Quantity
end HotSwap
