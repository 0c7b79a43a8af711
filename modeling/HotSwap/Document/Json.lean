/-
Data as JSON text.

* `Json.write` — the text of a value, in ASCII: every other character is escaped
  as its UTF-16 units;
* `Json.read?` — the value of a text: numbers are integers unless they have a
  fraction or an exponent, and the entries of a mapping keep their order.

Design notes:

* the reader recurses on fuel, one unit for a value, an item, an entry or a
  character of a text; two units for each character of the input are enough;
* half of a surrogate pair that stands alone is read as a replacement character;
* infinities and the value that is no number have names, which both sides know.
-/
import HotSwap.Data.Basic
import HotSwap.Number.Reading

namespace HotSwap.Json

open HotSwap.Text HotSwap.Number

/-! ### Writing -/

/-- A UTF-16 unit as an escape. -/
def unitEscape (unit : Nat) : List Char := '\\' :: 'u' :: hexDigits 4 unit

/-- A character of a text between double quotes. -/
def escaped (c : Char) : List Char :=
  match c with
  | '"' => ['\\', '"']
  | '\\' => ['\\', '\\']
  | '\n' => ['\\', 'n']
  | '\r' => ['\\', 'r']
  | '\t' => ['\\', 't']
  | '\x08' => ['\\', 'b']
  | '\x0c' => ['\\', 'f']
  | c =>
    let n := c.toNat
    if 0x20 ≤ n && n < 0x7f then [c]
    else if n < 0x10000 then unitEscape n
    else unitEscape (0xd800 + (n - 0x10000) / 0x400) ++ unitEscape (0xdc00 + (n - 0x10000) % 0x400)

/-- A text between double quotes. -/
def writeText (s : String) : String :=
  String.ofList ('"' :: s.toList.flatMap escaped ++ ['"'])

/-- A double. -/
def writeDouble (x : Float) : String :=
  if x.isNaN then "NaN"
  else if x.isInf then (if x < 0 then "-Infinity" else "Infinity")
  else floatText x

mutual

/-- The text of a value. -/
def write : Data → String
  | .null => "null"
  | .bool b => if b then "true" else "false"
  | .int n => toString n
  | .float x => writeDouble x
  | .text s => writeText s
  | .calendar s _ => writeText s
  | .list items => "[" ++ ", ".intercalate (writeItems items) ++ "]"
  | .mapping entries => "\x7b" ++ ", ".intercalate (writeEntries entries) ++ "\x7d"

/-- The texts of the items of a list. -/
def writeItems : List Data → List String
  | [] => []
  | d :: rest => write d :: writeItems rest

/-- The texts of the entries of a mapping. -/
def writeEntries : List (String × Data) → List String
  | [] => []
  | (k, d) :: rest => (writeText k ++ ": " ++ write d) :: writeEntries rest

end

/-! ### Reading -/

/-- Skips blanks. -/
def skip (cs : List Char) : List Char := cs.dropWhile Char.isWhitespace

/-- The value of a hexadecimal digit. -/
def hexValue? (c : Char) : Option Nat :=
  if c.isDigit then some (c.toNat - 48)
  else if 'a' ≤ c && c ≤ 'f' then some (c.toNat - 87)
  else if 'A' ≤ c && c ≤ 'F' then some (c.toNat - 55)
  else none

/-- Reads the four digits of a UTF-16 unit. -/
def readUnit (cs : List Char) : Option (Nat × List Char) :=
  if (cs.take 4).length < 4 then none
  else ((cs.take 4).foldlM (fun n c => (hexValue? c).map (n * 16 + ·)) 0).map fun n =>
    (n, cs.drop 4)

/-- The second half of a surrogate pair, as an escape. -/
def readLowHalf : List Char → Option (Nat × List Char)
  | '\\' :: 'u' :: rest =>
    (readUnit rest).filter fun (unit, _) => 0xdc00 ≤ unit && unit < 0xe000
  | _ => none

/-- Reads the escape behind a backslash; two units may be one character. -/
def readEscape : List Char → Option (Char × List Char)
  | 'u' :: rest =>
    match readUnit rest with
    | none => none
    | some (unit, rest) =>
      if unit < 0xd800 || 0xe000 ≤ unit then some (Char.ofNat unit, rest)
      else if unit < 0xdc00 then
        match readLowHalf rest with
        | some (low, rest) =>
          some (Char.ofNat (0x10000 + (unit - 0xd800) * 0x400 + (low - 0xdc00)), rest)
        | none => some ('\ufffd', rest)
      else some ('\ufffd', rest)
  | 'n' :: rest => some ('\n', rest)
  | 'r' :: rest => some ('\r', rest)
  | 't' :: rest => some ('\t', rest)
  | 'b' :: rest => some ('\x08', rest)
  | 'f' :: rest => some ('\x0c', rest)
  | c :: rest => if c == '"' || c == '\\' || c == '/' then some (c, rest) else none
  | [] => none

/-- Reads a text up to its closing quote; `acc` holds its characters so far, the
last one first. -/
def readText : (fuel : Nat) → (acc : List Char) → List Char → Option (String × List Char)
  | 0, _, _ => none
  | fuel + 1, acc, cs =>
    match cs with
    | [] => none
    | '"' :: rest => some (String.ofList acc.reverse, rest)
    | '\\' :: rest =>
      match readEscape rest with
      | none => none
      | some (c, rest) => readText fuel (c :: acc) rest
    | c :: rest => readText fuel (c :: acc) rest

/-- Reads a number. -/
def readNumber (cs : List Char) : Option (Data × List Char) :=
  let isPart (c : Char) : Bool :=
    c.isDigit || c == '-' || c == '+' || c == '.' || c == 'e' || c == 'E'
  let number := cs.takeWhile isPart
  let rest := cs.drop number.length
  let value :=
    match number with
    | '-' :: digits =>
      if digits.all Char.isDigit then (readDigits digits).map fun n => Data.int (-n)
      else (plainDouble? number).map .float
    | digits =>
      if digits.all Char.isDigit then (readDigits digits).map fun n => Data.int n
      else (plainDouble? number).map .float
  value.map fun d => (d, rest)

mutual

/-- Reads a value. -/
def readValue : (fuel : Nat) → List Char → Option (Data × List Char)
  | 0, _ => none
  | fuel + 1, cs =>
    match skip cs with
    | '"' :: rest => (readText fuel [] rest).map fun (s, rest) => (.text s, rest)
    | '[' :: rest =>
      match skip rest with
      | ']' :: rest => some (.list [], rest)
      | rest => (readItems fuel rest).map fun (items, rest) => (.list items, rest)
    | '\x7b' :: rest =>
      match skip rest with
      | '\x7d' :: rest => some (.mapping [], rest)
      | rest => (readEntries fuel rest).map fun (entries, rest) => (.mapping entries, rest)
    | 't' :: 'r' :: 'u' :: 'e' :: rest => some (.bool true, rest)
    | 'f' :: 'a' :: 'l' :: 's' :: 'e' :: rest => some (.bool false, rest)
    | 'n' :: 'u' :: 'l' :: 'l' :: rest => some (.null, rest)
    | 'N' :: 'a' :: 'N' :: rest => some (.float (0.0 / 0.0), rest)
    | 'I' :: 'n' :: 'f' :: 'i' :: 'n' :: 'i' :: 't' :: 'y' :: rest => some (.float (1.0 / 0.0), rest)
    | '-' :: 'I' :: 'n' :: 'f' :: 'i' :: 'n' :: 'i' :: 't' :: 'y' :: rest =>
      some (.float (-1.0 / 0.0), rest)
    | cs => readNumber cs

/-- Reads items up to the bracket that closes their list. -/
def readItems : (fuel : Nat) → List Char → Option (List Data × List Char)
  | 0, _ => none
  | fuel + 1, cs =>
    match readValue fuel cs with
    | none => none
    | some (d, rest) =>
      match skip rest with
      | ',' :: rest => (readItems fuel rest).map fun (items, rest) => (d :: items, rest)
      | ']' :: rest => some ([d], rest)
      | _ => none

/-- Reads entries up to the brace that closes their mapping. -/
def readEntries : (fuel : Nat) → List Char → Option (List (String × Data) × List Char)
  | 0, _ => none
  | fuel + 1, cs =>
    match skip cs with
    | '"' :: rest =>
      match readText fuel [] rest with
      | none => none
      | some (key, rest) =>
        match skip rest with
        | ':' :: rest =>
          match readValue fuel rest with
          | none => none
          | some (d, rest) =>
            match skip rest with
            | ',' :: rest =>
              (readEntries fuel rest).map fun (entries, rest) => ((key, d) :: entries, rest)
            | '\x7d' :: rest => some ([(key, d)], rest)
            | _ => none
        | _ => none
    | _ => none

end

/-- The value of a text; nothing else may follow it. -/
def read? (s : String) : Option Data :=
  let cs := s.toList
  match readValue (2 * cs.length + 2) cs with
  | some (d, rest) => if (skip rest).isEmpty then some d else none
  | none => none

end HotSwap.Json
