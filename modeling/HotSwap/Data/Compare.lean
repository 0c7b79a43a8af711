/-
Comparing values.

* `Data.same` — equality: numbers by their value, whatever their type; mappings
  without regard to order;
* `Data.atLeast` — order, where there is one;
* `Data.isTruthy` — whether a value counts as true;
* `Data.size` — how many parts a value has.
-/
import HotSwap.Data.Basic

namespace HotSwap.Data

open HotSwap.Number

/-- The number that a value is, in units of `2 ^ -1074`; no number for the
infinities and for what is no number. -/
def scaled : Data → Option Int
  | bool b => some (if b then Nat.pow 2 1074 else 0)
  | int n => some (n * Nat.pow 2 1074)
  | float x =>
    match Binary64.ofFloat x with
    | .finite negative m q =>
      let size : Int := m * Nat.pow 2 (q + 1074).toNat
      some (if negative then -size else size)
    | _ => none
  | _ => none

/-- Whether a value is a number of any type. -/
def isNumeric : Data → Bool
  | bool _ | int _ | float _ => true
  | _ => false

/-- The value as a double, if it is a number. -/
def asFloat : Data → Float
  | bool b => if b then 1.0 else 0.0
  | int n => ofInt n
  | float x => x
  | _ => 0.0

mutual

/-- Whether two values are equal. -/
def same : Data → Data → Bool
  | null, null => true
  | text s, text t => s == t
  | calendar _ a, calendar _ b => a == b
  | list xs, list ys => sameItems xs ys
  | mapping xs, mapping ys => xs.length == ys.length && sameEntries xs ys
  | a, b =>
    a.isNumeric && b.isNumeric &&
      match a.scaled, b.scaled with
      | some m, some n => m == n
      | none, none => a.asFloat == b.asFloat
      | _, _ => false

/-- Whether two lists have equal items. -/
def sameItems : List Data → List Data → Bool
  | [], [] => true
  | x :: xs, y :: ys => same x y && sameItems xs ys
  | _, _ => false

/-- Whether every entry of the first mapping is in the second one. -/
def sameEntries : List (String × Data) → List (String × Data) → Bool
  | [], _ => true
  | (k, x) :: xs, ys =>
    (match lookup ys k with
      | some y => same x y
      | none => false) && sameEntries xs ys

end

/-- The name of a value's type. -/
def typeName : Data → String
  | null => "NoneType"
  | bool _ => "bool"
  | int _ => "int"
  | float _ => "float"
  | text _ => "str"
  -- a calendar value is shown as a call of its type
  | calendar _ shown => String.ofList (shown.toList.takeWhile (· != '('))
  | list _ => "list"
  | mapping _ => "dict"

/-- Two values of types that have no common order. -/
structure NoOrder where
  left : String
  right : String

/-- The message for values that have no order. -/
def NoOrder.message (e : NoOrder) : String :=
  "'>=' not supported between instances of '" ++ e.left ++ "' and '" ++ e.right ++ "'"

/-- Whether the first value is at least the second. -/
def atLeast (a b : Data) : Except NoOrder Bool :=
  match a, b with
  | text s, text t => .ok (t ≤ s)
  | a, b =>
    if a.isNumeric && b.isNumeric then
      match a.scaled, b.scaled with
      | some m, some n => .ok (n ≤ m)
      | _, _ => .ok (a.asFloat ≥ b.asFloat)
    else .error { left := a.typeName, right := b.typeName }

/-- Whether a value counts as true. -/
def isTruthy : Data → Bool
  | null => false
  | bool b => b
  | int n => n != 0
  | float x => x != 0.0
  | text s => s != ""
  | calendar .. => true
  | list items => !items.isEmpty
  | mapping entries => !entries.isEmpty

/-- How many parts a value has; the name of its type if it has none. -/
def size : Data → Except String Nat
  | text s => .ok s.length
  | list items => .ok items.length
  | mapping entries => .ok entries.length
  | d => .error d.typeName

end HotSwap.Data
