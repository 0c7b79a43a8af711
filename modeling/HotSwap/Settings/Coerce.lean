/-
Reading the value of a setting from data.

Each reader accepts the data that have an obvious meaning as the wanted value:
truth values as numbers, numbers in texts, words for truth values.

* `asInteger`, `asDouble`, `asFlag`, `asText`, `asPath`, `asOneOf`;
* `atLeast`, `above`, `atLeastDouble` — bounds.
-/
import HotSwap.Data.Basic
import HotSwap.Number.Reading
import HotSwap.Path.Basic
import HotSwap.Settings.Problem

namespace HotSwap.Settings

open HotSwap.Number

/-- The greatest length of a text that is read as an integer. -/
def longestInteger : Nat := 4300

/-- Reads an integer. -/
def asInteger : Data → Except Complaint Int
  | .int n => .ok n
  | .bool b => .ok (if b then 1 else 0)
  | .float x =>
    match Binary64.ofFloat x with
    | .finite .. =>
      if !isIntegral x then .error .integerFraction
      else if (truncate x).natAbs < Nat.pow 2 63 then .ok (truncate x) else .error .integerSize
    | _ => .error .notFinite
  | .text s =>
    if s.length > longestInteger then .error .integerSize
    else match integer? s with
      | some n => .ok n
      | none => .error .integerText
  | _ => .error .noInteger

/-- Reads a double. -/
def asDouble : Data → Except Complaint Float
  | .float x => .ok x
  | .int n =>
    let x := ofInt n
    if (Binary64.ofFloat x matches .finite ..) then .ok x else .error .noNumber
  | .bool b => .ok (if b then 1.0 else 0.0)
  | .text s =>
    match double? s with
    | some x => .ok x
    | none => .error .numberText
  | _ => .error .noNumber

/-- The words for truth values. -/
def flagWords : List (String × Bool) := [
  ("0", false), ("off", false), ("f", false), ("false", false), ("n", false), ("no", false),
  ("1", true), ("on", true), ("t", true), ("true", true), ("y", true), ("yes", true)]

/-- Reads a truth value from an integer. -/
def flagOfInteger (n : Int) : Except Complaint Bool :=
  if n == 0 then .ok false else if n == 1 then .ok true else .error .flagValue

/-- Reads a truth value. -/
def asFlag : Data → Except Complaint Bool
  | .bool b => .ok b
  | .text s =>
    match flagWords.find? fun w => w.1 == s.map Char.toLower with
    | some w => .ok w.2
    | none => .error .flagValue
  | .int n => if n.natAbs < Nat.pow 2 63 then flagOfInteger n else .error .noFlag
  | .float x =>
    if isIntegral x && (truncate x).natAbs < Nat.pow 2 63 then flagOfInteger (truncate x)
    else .error .noFlag
  | _ => .error .noFlag

/-- Reads a text. -/
def asText : Data → Except Complaint String
  | .text s => .ok s
  | _ => .error .noText

/-- Reads a path. -/
def asPath : Data → Except Complaint Path
  | .text s => .ok (Path.ofString s)
  | _ => .error .noPath

/-- Reads one of the texts that name a value. -/
def asOneOf {α : Type} (named : List (String × α)) : Data → Except Complaint α
  | .text s =>
    match named.find? fun e => e.1 == s with
    | some e => .ok e.2
    | none => .error (.noneOf (named.map (·.1)))
  | _ => .error (.noneOf (named.map (·.1)))

/-! ### Bounds -/

/-- An integer that must not be negative. -/
def natural (n : Int) : Except Complaint Nat :=
  if n < 0 then .error (.below 0) else .ok n.toNat

/-- A double that must not be negative. -/
def notNegative (x : Float) : Except Complaint Float :=
  if x ≥ 0 then .ok x else .error (.below 0)

/-- A double that must be positive. -/
def positive (x : Float) : Except Complaint Float :=
  if x > 0 then .ok x else .error (.notAbove 0)

end HotSwap.Settings
