/-
Plain scalars of YAML documents: which value a text without quotes stands for.

* `Yaml.Error` — why a document cannot be read;
* `Yaml.resolve` — the value of a plain scalar: null, a truth value, an integer in
  one of four bases, a double, a date, a point in time, or the text itself.

Design notes: the rules are those of version 1.2 of the format, with underscores
among digits and with calendar values; `yes`, `no`, `on` and `off` are texts, and
a leading zero does not make a number octal.
-/
import HotSwap.Data.Basic
import HotSwap.Number.Reading
import HotSwap.Time.Display

namespace HotSwap.Yaml

open HotSwap.Number

/-- Why a document cannot be read. -/
inductive Error where
  /-- The text breaks the rules of the format. -/
  | malformed
  /-- A date that the calendar does not have. -/
  | date (message : String)
  deriving DecidableEq, Repr

/-! ### Numbers -/

/-- Splits a sign off: whether it is a minus, and the rest. -/
def splitSign : List Char → Bool × List Char
  | '-' :: cs => (true, cs)
  | '+' :: cs => (false, cs)
  | cs => (false, cs)

/-- The value of a digit in a base up to sixteen. -/
def digitIn? (base : Nat) (c : Char) : Option Nat :=
  let value :=
    if c.isDigit then some (c.toNat - 48)
    else if 'a' ≤ c && c ≤ 'f' then some (c.toNat - 87)
    else if 'A' ≤ c && c ≤ 'F' then some (c.toNat - 55)
    else none
  value.filter (· < base)

/-- Reads digits of a base with underscores among them; at least one digit. -/
def naturalIn? (base : Nat) (cs : List Char) : Option Nat :=
  match cs.filter (· != '_') with
  | [] => none
  | digits => digits.foldlM (fun n c => (digitIn? base c).map (n * base + ·)) 0

/-- Reads an integer. -/
def integer? (cs : List Char) : Option Int :=
  let (negative, digits) := splitSign cs
  let size :=
    match digits with
    | '0' :: 'b' :: rest => naturalIn? 2 rest
    | '0' :: 'o' :: rest => naturalIn? 8 rest
    | '0' :: 'x' :: rest => naturalIn? 16 rest
    | rest => naturalIn? 10 rest
  -- an underscore may stand anywhere but at the front
  if cs.head? == some '_' then none
  else size.map fun n => if negative then -(n : Int) else n

/-- Splits digits and underscores off. -/
def spanPadded (cs : List Char) : List Char × List Char :=
  let front := cs.takeWhile fun c => c.isDigit || c == '_'
  (front, cs.drop front.length)

/-- Whether a text is empty or an exponent; `signed` asks for a sign in it. -/
def isExponent (signed : Bool) : List Char → Bool
  | [] => true
  | e :: rest =>
    let digits :=
      match rest with
      | '-' :: digits | '+' :: digits => digits
      | digits => if signed then [] else digits
    (e == 'e' || e == 'E') && !digits.isEmpty && digits.all Char.isDigit

/-- Whether a text without sign has the shape of a decimal with a point or an
exponent. -/
def isDecimal (cs : List Char) : Bool :=
  let (whole, rest) := spanPadded cs
  match rest with
  | '.' :: rest =>
    let (fraction, rest) := spanPadded rest
    if whole.isEmpty then !fraction.isEmpty && isExponent true rest
    else (whole.head?.map Char.isDigit).getD false && isExponent false rest
  | _ :: _ => (whole.head?.map Char.isDigit).getD false && isExponent false rest
  | [] => false

/-- Reads a double. -/
def double? (cs : List Char) : Option Float :=
  let (negative, rest) := splitSign cs
  let text := String.ofList rest
  if [".inf", ".Inf", ".INF"].contains text then
    some (if negative then -1.0 / 0.0 else 1.0 / 0.0)
  else if [".nan", ".NaN", ".NAN"].contains (String.ofList cs) then some (0.0 / 0.0)
  else if isDecimal rest then plainDouble? (cs.filter (· != '_'))
  else none

/-! ### Calendar values -/

/-- A date, if the calendar has it. -/
def checkDate (year month day : Nat) : Except Error Unit :=
  if year == 0 then .error (.date "year 0 is out of range")
  else if month == 0 || 12 < month then .error (.date "month must be in 1..12")
  else if day == 0 || Stamp.daysInMonth year month < day then
    .error (.date "day is out of range for month")
  else .ok ()

/-- Reads between `least` and `most` digits. -/
def digits? (least most : Nat) (cs : List Char) : Option (Nat × List Char) :=
  let front := (cs.take most).takeWhile Char.isDigit
  if front.length < least then none
  else (readDigits front).map fun n => (n, cs.drop front.length)

/-- Reads a date in year, month and day, the latter two with `least` digits at
least. -/
def dateParts? (least : Nat) (cs : List Char) : Option (Nat × Nat × Nat × List Char) := do
  let (year, cs) ← digits? 4 4 cs
  let cs ← Stamp.expect? '-' cs
  let (month, cs) ← digits? least 2 cs
  let cs ← Stamp.expect? '-' cs
  let (day, cs) ← digits? least 2 cs
  return (year, month, day, cs)

/-- Reads a date. -/
def date? (cs : List Char) : Option (Except Error Data) :=
  match dateParts? 2 cs with
  | some (year, month, day, []) => some do
    checkDate year month day
    let days := Stamp.daysBefore year month day
    return .calendar (Stamp.dateText days) (Stamp.displayDate days)
  | _ => none

/-- Reads a distance from UTC in microseconds: none, the letter Z, or hours and
minutes behind a sign. -/
def offset? (cs : List Char) : Option Int :=
  match cs.dropWhile fun c => c == ' ' || c == '\t' with
  | [] => if cs.isEmpty then some 0 else none
  | ['Z'] => some 0
  | sign :: rest => do
    if sign != '+' && sign != '-' then none
    let (hours, rest) ← digits? 1 2 rest
    let minutes ←
      match rest with
      | [] => some 0
      | ':' :: rest => (digits? 2 2 rest).bind fun (m, rest) => if rest.isEmpty then some m else none
      | _ => none
    let size : Int := (hours * 60 + minutes) * 60000000
    return if sign == '-' then -size else size

/-- Reads a point in time: a date, a time of day with a fraction, and a distance
from UTC. -/
def moment? (cs : List Char) : Option (Except Error Data) := do
  let (year, month, day, cs) ← dateParts? 1 cs
  let cs ←
    match cs with
    | 'T' :: rest | 't' :: rest => some rest
    | ' ' :: rest | '\t' :: rest => some (rest.dropWhile fun c => c == ' ' || c == '\t')
    | _ => none
  let (hour, cs) ← digits? 1 2 cs
  let cs ← Stamp.expect? ':' cs
  let (minute, cs) ← digits? 2 2 cs
  let cs ← Stamp.expect? ':' cs
  let (second, cs) ← digits? 2 2 cs
  let (micros, cs) :=
    match cs with
    | '.' :: rest =>
      let digits := rest.takeWhile Char.isDigit
      ((readDigits ((digits ++ List.replicate 6 '0').take 6)).getD 0, rest.drop digits.length)
    | cs => (0, cs)
  let offset ← offset? cs
  some do
    checkDate year month day
    if 23 < hour then throw (.date "hour must be in 0..23")
    if 59 < minute then throw (.date "minute must be in 0..59")
    if 59 < second then throw (.date "second must be in 0..59")
    let wall : Int := (Stamp.daysBefore year month day * Stamp.dayLength
      + ((hour * 60 + minute) * 60 + second) * 1000000 + micros : Nat)
    let moment : Stamp := { wall := wall - offset }
    return .calendar (moment.textWith " ") moment.display

/-! ### Scalars -/

/-- The words for null and for the truth values. -/
def words : List (String × Data) := [
  ("", .null), ("~", .null), ("null", .null), ("Null", .null), ("NULL", .null),
  ("true", .bool true), ("True", .bool true), ("TRUE", .bool true),
  ("false", .bool false), ("False", .bool false), ("FALSE", .bool false)]

/-- The value of a plain scalar. -/
def resolve (cs : List Char) : Except Error Data :=
  let text := String.ofList cs
  match words.find? (·.1 == text) with
  | some (_, value) => .ok value
  | none =>
    match double? cs with
    | some x => .ok (.float x)
    | none =>
      match integer? cs with
      | some n => .ok (.int n)
      | none => ((date? cs).orElse fun _ => moment? cs).getD (.ok (.text text))

end HotSwap.Yaml
