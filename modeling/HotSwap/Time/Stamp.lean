/-
Time stamps: a wall-clock reading and, if known, its distance from UTC.

The reading counts microseconds of the proleptic Gregorian calendar from the
start of the year 1; years run from 1 to 9999.

* `Stamp.text`, `Stamp.ofText?` — the written form
  `2026-01-01T00:00:00.000001+01:00`, microseconds only when they are not zero;
* `Stamp.since` — the microseconds between two stamps, refused when only one
  of them knows its distance from UTC;
* `Stamp.instant` — the point in time that a stamp with a known distance names.
-/
namespace HotSwap

/-- A wall-clock reading in microseconds since the start of the year 1, and its
distance from UTC in microseconds if it is known. -/
structure Stamp where
  wall : Int
  offset : Option Int := none
  deriving DecidableEq, Repr

namespace Stamp

/-! ### The calendar -/

/-- Whether a year has a leap day. -/
def isLeap (year : Nat) : Bool := year % 4 == 0 && (year % 100 != 0 || year % 400 == 0)

/-- The days of a month. -/
def daysInMonth (year month : Nat) : Nat :=
  if month == 2 then (if isLeap year then 29 else 28)
  else if month == 4 || month == 6 || month == 9 || month == 11 then 30 else 31

/-- Days before the first of January of a year, counted from year 1. -/
def daysBeforeYear (year : Nat) : Nat :=
  let y := year - 1
  y * 365 + y / 4 - y / 100 + y / 400

/-- Days of a year before a month. -/
def daysBeforeMonth (year : Nat) : (month : Nat) → Nat
  | 0 => 0
  | 1 => 0
  | m + 2 => daysBeforeMonth year (m + 1) + daysInMonth year (m + 1)

/-- Days before a date, counted from the first day of year 1. -/
def daysBefore (year month day : Nat) : Nat :=
  daysBeforeYear year + daysBeforeMonth year month + (day - 1)

/-- The year that holds a day, found from a first guess that is at most one
too low. -/
def yearOfDay (days : Nat) : Nat :=
  -- 146097 days make 400 years, so the quotient is never too high by more than one
  let guess := days * 400 / 146097 + 1
  if daysBeforeYear (guess + 1) ≤ days then guess + 1
  else if daysBeforeYear guess ≤ days then guess else guess - 1

/-- The last of the months `1, …, m` that starts on or before a day of the
year. -/
def monthOfDay (year dayOfYear : Nat) : (m : Nat) → Nat
  | 0 => 1
  | m + 1 => if daysBeforeMonth year (m + 1) ≤ dayOfYear then m + 1 else monthOfDay year dayOfYear m

/-- Microseconds of a day. -/
def dayLength : Nat := 86400000000

/-! ### Writing -/

/-- A number with at least `width` digits. -/
def padded (width n : Nat) : String :=
  let digits := Nat.toDigits 10 n
  String.ofList (List.replicate (width - digits.length) '0' ++ digits)

/-- Hours, minutes and, where they are not zero, seconds and microseconds of a
distance from UTC. -/
def offsetText (offset : Int) : String :=
  let size := offset.natAbs
  let seconds := size / 1000000
  let rest := size % 1000000
  let small :=
    if rest != 0 then ":" ++ padded 2 (seconds % 60) ++ "." ++ padded 6 rest
    else if seconds % 60 != 0 then ":" ++ padded 2 (seconds % 60) else ""
  (if offset < 0 then "-" else "+") ++ padded 2 (seconds / 3600) ++ ":"
    ++ padded 2 (seconds / 60 % 60) ++ small

/-- The date of a day count. -/
def dateText (days : Nat) : String :=
  let year := yearOfDay days
  let dayOfYear := days - daysBeforeYear year
  let month := monthOfDay year dayOfYear 12
  let day := dayOfYear - daysBeforeMonth year month + 1
  padded 4 year ++ "-" ++ padded 2 month ++ "-" ++ padded 2 day

/-- The time of a day, in microseconds. -/
def clockText (micros : Nat) : String :=
  let seconds := micros / 1000000
  let rest := micros % 1000000
  padded 2 (seconds / 3600) ++ ":" ++ padded 2 (seconds / 60 % 60) ++ ":"
    ++ padded 2 (seconds % 60) ++ (if rest == 0 then "" else "." ++ padded 6 rest)

/-- The written form, with `between` separating date and time. -/
def textWith (between : String) (s : Stamp) : String :=
  let wall := s.wall.toNat
  dateText (wall / dayLength) ++ between ++ clockText (wall % dayLength)
    ++ (match s.offset with | none => "" | some offset => offsetText offset)

/-- The written form. -/
def text (s : Stamp) : String := s.textWith "T"

/-! ### Reading -/

/-- Reads digits, one at least, to a number. -/
def number? (cs : List Char) : Option Nat :=
  if cs.isEmpty || !cs.all Char.isDigit then none
  else some (cs.foldl (fun n c => n * 10 + (c.toNat - 48)) 0)

/-- Reads exactly `width` digits from the front. -/
def take? (width : Nat) (cs : List Char) : Option (Nat × List Char) := do
  let n ← number? (cs.take width)
  if (cs.take width).length == width then some (n, cs.drop width) else none

/-- Reads a character from the front. -/
def expect? (c : Char) : List Char → Option (List Char)
  | d :: rest => if c == d then some rest else none
  | [] => none

/-- Reads a fraction of a second, to microseconds. -/
def fraction? : List Char → Option (Nat × List Char)
  | '.' :: rest =>
    let digits := rest.takeWhile Char.isDigit
    if digits.isEmpty then none
    else (number? ((digits ++ List.replicate 6 '0').take 6)).map fun n =>
      (n, rest.drop digits.length)
  | cs => some (0, cs)

/-- Reads hours, minutes, seconds and a fraction, the last two being optional;
in microseconds. -/
def clock? (cs : List Char) : Option (Nat × List Char) := do
  let (h, cs) ← take? 2 cs
  let cs ← expect? ':' cs
  let (m, cs) ← take? 2 cs
  match cs with
  | ':' :: rest =>
    let (s, rest) ← take? 2 rest
    let (f, rest) ← fraction? rest
    if h < 24 && m < 60 && s < 60 then some (((h * 60 + m) * 60 + s) * 1000000 + f, rest) else none
  | _ => if h < 24 && m < 60 then some ((h * 60 + m) * 60000000, cs) else none

/-- Reads a distance from UTC, if one is written. -/
def offset? : List Char → Option (Option Int)
  | [] => some none
  | ['Z'] => some (some 0)
  | '+' :: rest => do
    let (n, rest) ← clock? rest
    if rest.isEmpty then some (some n) else none
  | '-' :: rest => do
    let (n, rest) ← clock? rest
    if rest.isEmpty then some (some (-n)) else none
  | _ => none

/-- Reads a date to its day count. -/
def date? (cs : List Char) : Option (Nat × List Char) := do
  let (year, cs) ← take? 4 cs
  let cs ← expect? '-' cs
  let (month, cs) ← take? 2 cs
  let cs ← expect? '-' cs
  let (day, cs) ← take? 2 cs
  if 1 ≤ year && 1 ≤ month && month ≤ 12 && 1 ≤ day && day ≤ daysInMonth year month then
    some (daysBefore year month day, cs)
  else none

/-- Reads a stamp. -/
def ofText? (s : String) : Option Stamp := do
  let (days, cs) ← date? s.toList
  match cs with
  | [] => some { wall := days * dayLength }
  | _ :: rest =>
    let (micros, rest) ← clock? rest
    let offset ← offset? rest
    some { wall := days * dayLength + micros, offset }

/-! ### Arithmetic -/

/-- The point in time, for a stamp whose distance from UTC is known. -/
def instant (s : Stamp) : Option Int := s.offset.map (s.wall - ·)

/-- Only one of two stamps knows its distance from UTC. -/
structure MixedOffsets where
  deriving DecidableEq, Repr

/-- The message for stamps that cannot be compared. -/
def MixedOffsets.message (_ : MixedOffsets) : String :=
  "can't subtract offset-naive and offset-aware datetimes"

/-- Microseconds from `earlier` to `later`. -/
def since (later earlier : Stamp) : Except MixedOffsets Int :=
  match later.offset, earlier.offset with
  | none, none => .ok (later.wall - earlier.wall)
  | some a, some b => .ok ((later.wall - a) - (earlier.wall - b))
  | _, _ => .error {}

/-- The stamp in UTC of a point in time. -/
def utc (instant : Int) : Stamp := { wall := instant, offset := some 0 }

/-- The stamp without its distance from UTC. -/
def wallOnly (s : Stamp) : Stamp := { wall := s.wall }

/-- The stamp read as UTC when it does not know its distance. -/
def assumeUtc (s : Stamp) : Stamp := { s with offset := some (s.offset.getD 0) }

end Stamp
end HotSwap
