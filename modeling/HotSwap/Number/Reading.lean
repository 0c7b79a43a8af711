/-
Reading numbers from text.

* `readDigits` — ASCII digits to a natural number;
* `integer?` — an integer with sign, leading zeros, single underscores between
  digits, and a fraction of zeros;
* `double?` — a decimal with fraction and exponent, or a name of an infinity or
  of no number.
-/
import HotSwap.Number.Binary64
import HotSwap.Text.Lowercase
import HotSwap.Text.Word

namespace HotSwap.Number

open HotSwap.Text

/-- Reads ASCII digits, one at least. -/
def readDigits (cs : List Char) : Option Nat :=
  if cs.isEmpty || !cs.all Char.isDigit then none
  else some (cs.foldl (fun n c => n * 10 + (c.toNat - 48)) 0)

/-- Drops the underscores between digits; nothing if one stands at an end, or
two together, or if there is none. -/
def dropUnderscores (cs : List Char) : Option (List Char) :=
  let rec pairs : List Char → Bool
    | '_' :: '_' :: _ => true
    | _ :: rest => pairs rest
    | [] => false
  if cs.head? == some '_' || cs.getLast? == some '_' || pairs cs || !cs.contains '_' then none
  else some (cs.filter (· != '_'))

/-! ### Integers -/

/-- Drops zeros in front of other digits, and underscores among them; one zero
stays where nothing else would. -/
def dropZeros : List Char → Option (List Char)
  | '0' :: rest => go '0' rest
  | c :: rest => if ('1' ≤ c && c ≤ '9') || c == '-' then some (c :: rest) else none
  | [] => none
where
  /-- The same behind a character that was dropped. -/
  go (before : Char) : List Char → Option (List Char)
    | [] => some [before]
    | c :: rest =>
      if c == '0' || c == '_' then go c rest
      else if '1' ≤ c && c ≤ '9' then some (c :: rest)
      else if c == '.' then some (before :: c :: rest)
      else none

/-- Drops a fraction that consists of zeros; nothing if there is another one. -/
def dropZeroFraction (cs : List Char) : Option (List Char) :=
  let whole := cs.takeWhile (· != '.')
  match cs.drop whole.length with
  | [] => some cs
  | _ :: fraction => if !fraction.isEmpty && fraction.all (· == '0') then some whole else none

/-- Reads an integer without blanks, underscores and needless zeros. -/
def plainInteger? : List Char → Option Int
  | '-' :: cs => (natural? cs).map fun n => -(n : Int)
  | cs => (natural? cs).map fun n => (n : Int)
where
  /-- Reads digits that do not begin with a needless zero. -/
  natural? (cs : List Char) : Option Nat :=
    if cs.length > 1 && cs.head? == some '0' then none else readDigits cs

/-- Reads an integer as it may be written in settings. -/
def integer? (s : String) : Option Int := do
  let cs := strip isSpace s.toList
  let cs ←
    match cs with
    | '+' :: rest => if rest.head? == some '-' then none else some rest
    | _ => some cs
  let cs ← dropZeroFraction (← dropZeros cs)
  plainInteger? ((dropUnderscores cs).getD cs)

/-! ### Doubles -/

/-- Splits digits off. -/
def spanDigits (cs : List Char) : List Char × List Char :=
  (cs.takeWhile Char.isDigit, cs.dropWhile Char.isDigit)

/-- Reads an exponent, if one is written. -/
def exponent? : List Char → Option Int
  | [] => some 0
  | e :: rest =>
    if e == 'e' || e == 'E' then
      match rest with
      | '-' :: digits => (readDigits digits).map fun n => -(n : Int)
      | '+' :: digits => (readDigits digits).map fun n => (n : Int)
      | digits => (readDigits digits).map fun n => (n : Int)
    else none

/-- Reads a decimal without sign. -/
def decimal? (negative : Bool) (cs : List Char) : Option Float := do
  let (whole, rest) := spanDigits cs
  let (fraction, rest) :=
    match rest with
    | '.' :: more => spanDigits more
    | _ => ([], rest)
  let digits ← readDigits (whole ++ fraction)
  let e ← exponent? rest
  return ofDecimal negative digits (e - fraction.length)

/-- Reads a decimal or a name, without blanks and underscores. -/
def plainDouble? (cs : List Char) : Option Float :=
  let (negative, size) :=
    match cs with
    | '-' :: rest => (true, rest)
    | '+' :: rest => (false, rest)
    | _ => (false, cs)
  let word := size.map Char.toLower
  if word == "inf".toList || word == "infinity".toList then
    some (if negative then -(1.0 / 0.0) else 1.0 / 0.0)
  else if word == "nan".toList then some (0.0 / 0.0)
  else decimal? negative size

/-- Reads a double as it may be written in settings. -/
def double? (s : String) : Option Float :=
  match plainDouble? (strip isSpace s.toList) with
  | some x => some x
  | none => do plainDouble? (strip isSpace (← dropUnderscores s.toList))

end HotSwap.Number
