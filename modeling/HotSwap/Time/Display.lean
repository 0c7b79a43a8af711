/-
Calendar values as messages show them inside other values: their kind, and in round
brackets their parts.

* `Stamp.displayDate` — a date;
* `Stamp.displayClock` — a time of day;
* `Stamp.display` — both, with the distance from UTC.
-/
import HotSwap.Time.Stamp

namespace HotSwap.Stamp

/-- A kind and its parts. -/
def displayParts (kind : String) (parts : List String) : String :=
  "datetime." ++ kind ++ "(" ++ ", ".intercalate parts ++ ")"

/-- Year, month and day of a day count. -/
def dateParts (days : Nat) : List String :=
  let year := yearOfDay days
  let dayOfYear := days - daysBeforeYear year
  let month := monthOfDay year dayOfYear 12
  [year, month, dayOfYear - daysBeforeMonth year month + 1].map toString

/-- Hours and minutes of a time of day, and seconds and microseconds unless all that
follows is zero. -/
def clockParts (micros : Nat) : List String :=
  let seconds := micros / 1000000
  let rest := micros % 1000000
  let parts := [seconds / 3600, seconds / 60 % 60]
  let small := if rest != 0 then [seconds % 60, rest]
    else if seconds % 60 != 0 then [seconds % 60] else []
  (parts ++ small).map toString

/-- A distance from UTC. -/
def displayOffset (offset : Int) : String :=
  if offset == 0 then "datetime.timezone.utc"
  else
    let days := Int.fdiv offset dayLength
    let seconds := Int.fmod offset dayLength / 1000000
    let parts := (if days == 0 then [] else ["days=" ++ toString days])
      ++ (if seconds == 0 then [] else ["seconds=" ++ toString seconds])
    displayParts "timezone" [displayParts "timedelta" parts]

/-- A date. -/
def displayDate (days : Nat) : String := displayParts "date" (dateParts days)

/-- A time of day. -/
def displayClock (micros : Nat) : String := displayParts "time" (clockParts micros)

/-- A date with a time of day, and its distance from UTC. -/
def display (s : Stamp) : String :=
  let wall := s.wall.toNat
  let zone := match s.offset with
    | none => []
    | some offset => ["tzinfo=" ++ displayOffset offset]
  displayParts "datetime" (dateParts (wall / dayLength) ++ clockParts (wall % dayLength) ++ zone)

end HotSwap.Stamp
