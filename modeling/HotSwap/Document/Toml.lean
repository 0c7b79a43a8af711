/-
Values of TOML documents.

* `Toml.value?` — the value that a text is written for: a quoted text, a truth
  value, an integer in one of four bases, a double, a date or a time, a list
  between brackets, or a table between braces.

Design notes: blanks may stand around the value and a comment behind it; keys with
dots and texts over several lines are not read.
-/
import HotSwap.Document.Yaml.Scalar

namespace HotSwap.Toml

open HotSwap.Number

/-! ### Texts -/

/-- Whether a character may stand in a text on one line. -/
def isTextChar (c : Char) : Bool := c == '\t' || (0x20 ≤ c.toNat && c.toNat != 0x7f)

/-- Reads a text between apostrophes, without the first. -/
def literal? : List Char → Option (List Char × List Char)
  | [] => none
  | c :: rest =>
    if c == '\'' then some ([], rest)
    else if isTextChar c then (literal? rest).map fun (s, rest) => (c :: s, rest)
    else none

/-- The escapes of one letter. -/
def letterEscapes : List (Char × Char) := [
  ('b', '\x08'), ('t', '\t'), ('n', '\n'), ('f', '\x0c'), ('r', '\r'), ('"', '"'), ('\\', '\\')]

/-- The character of a code point, unless it is a surrogate or beyond the last. -/
def charOf? (n : Nat) : Option Char :=
  if n < 0xd800 || (0xe000 ≤ n && n < 0x110000) then some (Char.ofNat n) else none

/-- Reads an escape behind its backslash. -/
def escape? : List Char → Option (Char × List Char)
  | [] => none
  | c :: rest =>
    match letterEscapes.find? (·.1 == c) with
    | some (_, plain) => some (plain, rest)
    | none =>
      let width := if c == 'u' then 4 else if c == 'U' then 8 else 0
      if width == 0 || (rest.take width).length < width then none
      else do
        let n ← (rest.take width).foldlM
          (fun n d => (Yaml.digitIn? 16 d).map (n * 16 + ·)) 0
        return (← charOf? n, rest.drop width)

/-- Reads a text between double quotes, without the first, one unit of fuel for a
character or an escape. -/
def basic? : (fuel : Nat) → List Char → Option (List Char × List Char)
  | 0, _ => none
  | _, [] => none
  | fuel + 1, c :: rest =>
    if c == '"' then some ([], rest)
    else if c == '\\' then do
      let (plain, rest) ← escape? rest
      let (s, rest) ← basic? fuel rest
      return (plain :: s, rest)
    else if isTextChar c then (basic? fuel rest).map fun (s, rest) => (c :: s, rest)
    else none

/-! ### Numbers -/

/-- Whether digits are separated by single underscores only: each underscore has
a digit of the base on both sides. -/
def isSeparated (base : Nat) (digitBefore : Bool) : List Char → Bool
  | [] => digitBefore
  | c :: rest =>
    if c == '_' then digitBefore && isSeparated base false rest
    else (Yaml.digitIn? base c).isSome && isSeparated base true rest

/-- Reads digits of a base, separated by single underscores. -/
def natural? (base : Nat) (cs : List Char) : Option Nat :=
  if isSeparated base false cs then Yaml.naturalIn? base cs else none

/-- Whether digits have no needless zero in front. -/
def isLean : List Char → Bool
  | '0' :: rest => rest.isEmpty
  | _ => true

/-- Reads an integer. -/
def integer? (cs : List Char) : Option Int :=
  match cs with
  | '0' :: 'x' :: rest => (natural? 16 rest).map Int.ofNat
  | '0' :: 'o' :: rest => (natural? 8 rest).map Int.ofNat
  | '0' :: 'b' :: rest => (natural? 2 rest).map Int.ofNat
  | cs =>
    let (negative, digits) := Yaml.splitSign cs
    if isLean digits then
      (natural? 10 digits).map fun n => if negative then -(n : Int) else n
    else none

/-- Reads a double: a whole part, and a fraction, an exponent or both. -/
def double? (cs : List Char) : Option Float :=
  let (negative, size) := Yaml.splitSign cs
  let text := String.ofList size
  if text == "inf" then some (if negative then -1.0 / 0.0 else 1.0 / 0.0)
  else if text == "nan" then some (0.0 / 0.0)
  else
    let (whole, rest) := Yaml.spanPadded size
    let (fraction, rest) :=
      match rest with
      | '.' :: more =>
        let (fraction, rest) := Yaml.spanPadded more
        (some fraction, rest)
      | _ => (none, rest)
    let exponent :=
      match rest with
      | [] => none
      | _ :: '-' :: digits | _ :: '+' :: digits => some digits
      | _ :: digits => some digits
    let marked := rest.isEmpty || rest.head? == some 'e' || rest.head? == some 'E'
    let separated (digits : Option (List Char)) : Bool :=
      (digits.map (isSeparated 10 false)).getD true
    if isLean whole && isSeparated 10 false whole && separated fraction && marked
        && separated exponent && (fraction.isSome || exponent.isSome) then
      plainDouble? (cs.filter (· != '_'))
    else none

/-! ### Calendar values -/

/-- Reads a time of day with a fraction, in microseconds. -/
def clock? (cs : List Char) : Option (Nat × List Char) := do
  let (hour, cs) ← Yaml.digits? 2 2 cs
  let cs ← Stamp.expect? ':' cs
  let (minute, cs) ← Yaml.digits? 2 2 cs
  let cs ← Stamp.expect? ':' cs
  let (second, cs) ← Yaml.digits? 2 2 cs
  let (micros, cs) ← Stamp.fraction? cs
  if hour < 24 && minute < 60 && second < 60 then
    some (((hour * 60 + minute) * 60 + second) * 1000000 + micros, cs)
  else none

/-- Reads a date, a time, or both with a distance from UTC. -/
def calendar? (cs : List Char) : Option Data :=
  match clock? cs with
  | some (micros, []) => some (.calendar (Stamp.clockText micros) (Stamp.displayClock micros))
  | some _ => none
  | none => do
    let (days, cs) ← Stamp.date? cs
    match cs with
    | [] => some (.calendar (Stamp.dateText days) (Stamp.displayDate days))
    | between :: cs =>
      if between != 'T' && between != 't' && between != ' ' then none
      let (micros, cs) ← clock? cs
      let cs := if cs == ['z'] then ['Z'] else cs
      let offset ← Stamp.offset? cs
      let moment : Stamp := { wall := days * Stamp.dayLength + micros, offset }
      return .calendar (moment.textWith " ") moment.display

/-! ### Values -/

/-- Whether a character is a blank. -/
def isBlank (c : Char) : Bool := c == ' ' || c == '\t'

/-- Whether nothing but blanks and a comment is left. -/
def isDone (cs : List Char) : Bool :=
  match cs.dropWhile isBlank with
  | [] => true
  | c :: rest => c == '#' && rest.all isTextChar

/-- Reads a scalar that is not quoted. -/
def bare? (cs : List Char) : Option Data :=
  if cs == "true".toList then some (.bool true)
  else if cs == "false".toList then some (.bool false)
  else match integer? cs with
    | some n => some (.int n)
    | none =>
      match double? cs with
      | some x => some (.float x)
      | none => calendar? cs

/-- Whether a character may stand in a key without quotes. -/
def isKeyChar (c : Char) : Bool := c.isAlphanum || c == '_' || c == '-'

/-- Reads a key. -/
def key? : List Char → Option (List Char × List Char)
  | '\'' :: rest => literal? rest
  | '"' :: rest => basic? (rest.length + 1) rest
  | cs =>
    let key := cs.takeWhile isKeyChar
    if key.isEmpty then none else some (key, cs.drop key.length)

/-- Skips blanks, line breaks and comments. -/
def skipGaps : List Char → List Char
  | [] => []
  | c :: rest =>
    if isBlank c || c == '\n' then skipGaps rest
    else if c == '#' then skipComment rest
    else c :: rest
where
  /-- Skips up to the end of the line, and gaps behind it. -/
  skipComment : List Char → List Char
    | [] => []
    | c :: rest => if c == '\n' then skipGaps rest else skipComment rest

mutual

/-- Reads a value, one unit of fuel for an item, an entry or a level. -/
def read? : (fuel : Nat) → List Char → Option (Data × List Char)
  | 0, _ => none
  | fuel + 1, cs =>
    match cs.dropWhile isBlank with
    | '\'' :: rest => (literal? rest).map fun (s, rest) => (.text (String.ofList s), rest)
    | '"' :: rest =>
      (basic? (rest.length + 1) rest).map fun (s, rest) => (.text (String.ofList s), rest)
    | '[' :: rest => (readItems? fuel [] rest).map fun (items, rest) => (.list items, rest)
    | '\x7b' :: rest =>
      match rest.dropWhile isBlank with
      | '\x7d' :: rest => some (.mapping [], rest)
      | rest => (readEntries? fuel [] rest).map fun (entries, rest) => (.mapping entries, rest)
    | cs =>
      let word := cs.takeWhile fun c => c != ',' && c != ']' && c != '\x7d' && c != '#' && c != '\n'
      (bare? (word.reverse.dropWhile isBlank).reverse).map fun d => (d, cs.drop word.length)

/-- Reads the items of a list up to its closing bracket. -/
def readItems? : (fuel : Nat) → List Data → List Char → Option (List Data × List Char)
  | 0, _, _ => none
  | fuel + 1, items, cs =>
    match skipGaps cs with
    | ']' :: rest => some (items, rest)
    | cs => do
      let (d, rest) ← read? fuel cs
      match skipGaps rest with
      | ',' :: rest => readItems? fuel (items ++ [d]) rest
      | ']' :: rest => some (items ++ [d], rest)
      | _ => none

/-- Reads the entries of a table up to its closing brace, of which there is one at
least. -/
def readEntries? : (fuel : Nat) → List (String × Data) → List Char →
    Option (List (String × Data) × List Char)
  | 0, _, _ => none
  | fuel + 1, entries, cs => do
    let (key, rest) ← key? (cs.dropWhile isBlank)
    let key := String.ofList key
    let rest ← Stamp.expect? '=' (rest.dropWhile isBlank)
    let (d, rest) ← read? fuel rest
    if entries.any (·.1 == key) then none
    let entries := entries ++ [(key, d)]
    match rest.dropWhile isBlank with
    | ',' :: rest => readEntries? fuel entries rest
    | '\x7d' :: rest => some (entries, rest)
    | _ => none

end

/-- The value that a text is written for. -/
def value? (s : String) : Option Data :=
  match read? (2 * s.length + 2) s.toList with
  | some (d, rest) => if isDone rest then some d else none
  | none => none

end HotSwap.Toml
