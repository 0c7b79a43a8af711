/-
Events with arguments.

A directive in an event's text — a percent sign, flags, a width, a precision and
a letter — stands for an argument: in the order of the arguments, or under a key
in round brackets when the only argument is a mapping.

* `Directive` — a directive, and `Directive.read` behind its percent sign;
* `Directive.render` — an argument as a directive asks for it;
* `fillIn` — a text with its directives replaced;
* `FormatError` — why that cannot be done.
-/
import HotSwap.Data.Compare
import HotSwap.Number.Significant

namespace HotSwap.Log

open HotSwap.Text HotSwap.Number

/-- Why an event cannot be put together from text and arguments. -/
inductive FormatError where
  | tooFew
  | tooMany
  | noMapping
  | noKey (key : String)
  /-- A key without a closing bracket. -/
  | unfinishedKey
  | unfinished
  | unknownLetter (letter : Char) (index : Nat)
  /-- A value of the named type where a number is wanted. -/
  | noNumber (letter : Char) (typeName : String)
  | noInteger (letter : Char) (typeName : String)
  | noReal (typeName : String)
  | noCharacter
  /-- A number that is no code point. -/
  | noCodePoint
  /-- An infinity, or no number, where an integer is wanted. -/
  | notFinite (x : Float)
  /-- An integer that no double can hold. -/
  | tooLarge

namespace FormatError

/-- The name of the kind of the error. -/
def kind : FormatError → String
  | noKey _ => "KeyError"
  | unfinishedKey | unfinished | unknownLetter .. => "ValueError"
  | noCodePoint | tooLarge => "OverflowError"
  | notFinite x => if isNumber x then "OverflowError" else "ValueError"
  | _ => "TypeError"

/-- The message of the error. -/
def message : FormatError → String
  | tooFew => "not enough arguments for format string"
  | tooMany => "not all arguments converted during string formatting"
  | noMapping => "format requires a mapping"
  | noKey key => quoted key
  | unfinishedKey => "incomplete format key"
  | unfinished => "incomplete format"
  | unknownLetter letter index =>
    let shown := if 31 < letter.toNat && letter.toNat < 127 then letter else '?'
    "unsupported format character '" ++ shown.toString ++ "' (0x"
      ++ String.ofList (Nat.toDigits 16 letter.toNat) ++ ") at index " ++ toString index
  | noNumber letter typeName =>
    "%" ++ letter.toString ++ " format: a real number is required, not " ++ typeName
  | noInteger letter typeName =>
    "%" ++ letter.toString ++ " format: an integer is required, not " ++ typeName
  | noReal typeName => "must be real number, not " ++ typeName
  | noCharacter => "%c requires int or char"
  | noCodePoint => "%c arg not in range(0x110000)"
  | tooLarge => "int too large to convert to float"
  | notFinite x =>
    if isNumber x then "cannot convert float infinity to integer"
    else "cannot convert float NaN to integer"

end FormatError

/-! ### Directives -/

/-- A directive. -/
structure Directive where
  alignLeft : Bool := false
  plus : Bool := false
  blank : Bool := false
  zeros : Bool := false
  alternate : Bool := false
  width : Nat := 0
  precision : Option Nat := none
  letter : Char
  deriving Repr

namespace Directive

/-- Reads flags. -/
def readFlags (d : Directive) : List Char → Directive × List Char
  | '-' :: rest => readFlags { d with alignLeft := true } rest
  | '+' :: rest => readFlags { d with plus := true } rest
  | ' ' :: rest => readFlags { d with blank := true } rest
  | '0' :: rest => readFlags { d with zeros := true } rest
  | '#' :: rest => readFlags { d with alternate := true } rest
  | cs => (d, cs)

/-- Reads digits, none being zero. -/
def readSize (cs : List Char) : Nat × List Char :=
  let digits := cs.takeWhile Char.isDigit
  (digits.foldl (fun n c => n * 10 + (c.toNat - 48)) 0, cs.drop digits.length)

/-- Reads a directive behind its percent sign and its key. -/
def read (cs : List Char) : Option (Directive × List Char) :=
  let (d, cs) := readFlags { letter := '%' } cs
  let (width, cs) := readSize cs
  let (precision, cs) :=
    match cs with
    | '.' :: rest =>
      let (n, rest) := readSize rest
      (some n, rest)
    | cs => (none, cs)
  -- the size of a number does not matter
  let cs :=
    match cs with
    | 'h' :: rest | 'l' :: rest | 'L' :: rest => rest
    | cs => cs
  match cs with
  | [] => none
  | letter :: rest => some ({ d with width, precision, letter }, rest)

/-- A text at its width. -/
def pad (d : Directive) (cs : List Char) : List Char :=
  let blanks := List.replicate (d.width - cs.length) ' '
  if d.alignLeft then cs ++ blanks else blanks ++ cs

/-- A number at its width: its sign, what marks its base, and its digits. -/
def padNumber (d : Directive) (negative : Bool) (base digits : List Char) : List Char :=
  let sign := if negative then ['-'] else if d.plus then ['+'] else if d.blank then [' '] else []
  let used := sign.length + base.length + digits.length
  if d.zeros && !d.alignLeft then
    sign ++ base ++ List.replicate (d.width - used) '0' ++ digits
  else d.pad (sign ++ base ++ digits)

/-- The integer of a value; a double loses its fraction where that is
`allowed`. -/
def integerOf (d : Directive) (allowed : Bool) (value : Data) : Except FormatError Int :=
  match value with
  | .int n => .ok n
  | .bool b => .ok (if b then 1 else 0)
  | .float x =>
    if !allowed then .error (.noInteger d.letter value.typeName)
    else match Binary64.ofFloat x with
      | .finite .. => .ok (truncate x)
      | _ => .error (.notFinite x)
  | _ =>
    if allowed then .error (.noNumber d.letter value.typeName)
    else .error (.noInteger d.letter value.typeName)

/-- An integer in a base, with as many digits as the precision asks for. -/
def renderInteger (d : Directive) (base : Nat) (mark : List Char) (upper : Bool) (n : Int) :
    List Char :=
  let digits := Nat.toDigits base n.natAbs
  let digits := if upper then digits.map Char.toUpper else digits
  let digits := List.replicate (d.precision.getD 0 - digits.length) '0' ++ digits
  d.padNumber (n < 0) (if d.alternate then mark else []) digits

/-- The point between the digits before and behind it; it is left out where nothing
follows, unless the directive asks for it. -/
def pointed (d : Directive) (whole fraction : List Char) : List Char :=
  if fraction.isEmpty && !d.alternate then whole else whole ++ '.' :: fraction

/-- A number with a fixed number of places. -/
def fixed (d : Directive) (places m : Nat) (q : Int) : List Char :=
  let digits := Nat.toDigits 10 (unitsOf places m q)
  let digits := List.replicate (places + 1 - digits.length) '0' ++ digits
  d.pointed (digits.take (digits.length - places)) (digits.drop (digits.length - places))

/-- Digits with an exponent of two digits at least. -/
def scientific (d : Directive) (digits : List Char) (e : Int) : List Char :=
  let size := Nat.toDigits 10 e.natAbs
  d.pointed (digits.take 1) (digits.drop 1) ++ 'e' :: (if e < 0 then '-' else '+')
    :: (if size.length < 2 then '0' :: size else size)

/-- A number with a fixed number of digits, in the shorter of the two forms; zeros at
its end are left out, unless the directive asks for them. -/
def general (d : Directive) (count m : Nat) (q : Int) : List Char :=
  let (digits, e) := significantDigits count m q
  let lean (cs : List Char) : List Char :=
    if d.alternate then cs else (cs.reverse.dropWhile (· == '0')).reverse
  if -4 ≤ e && e < count then
    if e < 0 then d.pointed ['0'] (List.replicate (-e - 1).toNat '0' ++ lean digits)
    else d.pointed (digits.take (e.toNat + 1)) (lean (digits.drop (e.toNat + 1)))
  else d.scientific (digits.take 1 ++ lean (digits.drop 1)) e

/-- A double as the letter of the directive asks for it. -/
def renderReal (d : Directive) (x : Float) : List Char :=
  let spell (cs : List Char) : List Char := if d.letter.isUpper then cs.map Char.toUpper else cs
  match Binary64.ofFloat x with
  | .nan => d.padNumber false [] (spell "nan".toList)
  | .infinite negative => d.padNumber negative [] (spell "inf".toList)
  | .finite negative m q =>
    let precision := d.precision.getD 6
    d.padNumber negative [] (spell (match d.letter.toLower with
      | 'e' =>
        let (digits, e) := significantDigits (precision + 1) m q
        d.scientific digits e
      | 'g' => d.general (max 1 precision) m q
      | _ => d.fixed precision m q))

/-- The double of a value. -/
def realOf : Data → Except FormatError Float
  | .float x => .ok x
  | .int n =>
    let x := ofInt n
    if (Binary64.ofFloat x matches .finite ..) then .ok x else .error .tooLarge
  | .bool b => .ok (if b then 1.0 else 0.0)
  | d => .error (.noReal d.typeName)

/-- An argument as the directive asks for it; `index` is where its letter
stands. -/
def render (d : Directive) (index : Nat) (value : Data) : Except FormatError (List Char) :=
  let text (s : String) : List Char :=
    d.pad (match d.precision with | some n => s.toList.take n | none => s.toList)
  match d.letter with
  | 's' => .ok (text value.plain)
  | 'r' => .ok (text value.display)
  | 'a' => .ok (text (asciiOnly value.display))
  | 'd' | 'i' | 'u' => (d.integerOf true value).map (d.renderInteger 10 [] false)
  | 'x' => (d.integerOf false value).map (d.renderInteger 16 ['0', 'x'] false)
  | 'X' => (d.integerOf false value).map (d.renderInteger 16 ['0', 'X'] true)
  | 'o' => (d.integerOf false value).map (d.renderInteger 8 ['0', 'o'] false)
  | 'e' | 'E' | 'f' | 'F' | 'g' | 'G' => (realOf value).map d.renderReal
  | 'c' =>
    match value with
    | .int n =>
      if 0 ≤ n && n < 0x110000 then .ok (d.pad [Char.ofNat n.toNat]) else .error .noCodePoint
    | .bool b => .ok (d.pad [Char.ofNat b.toNat])
    | .text s => if s.length == 1 then .ok (d.pad s.toList) else .error .noCharacter
    | _ => .error .noCharacter
  | letter => .error (.unknownLetter letter index)

end Directive

/-! ### Events -/

/-- The arguments of an event: values in order, or a mapping. -/
inductive Arguments where
  | inOrder (values : List Data)
  /-- A mapping, and whether it may still stand for itself. -/
  | byKey (entries : List (String × Data)) (whole : Bool)

/-- The arguments that were given with an event; a mapping that stands alone and
is not empty is one to look keys up in. -/
def Arguments.ofList : List Data → Arguments
  | [.mapping (e :: rest)] => byKey (e :: rest) true
  | values => inOrder values

/-- The next argument, and the arguments that are left. -/
def Arguments.next : Arguments → Except FormatError (Data × Arguments)
  | inOrder [] => .error .tooFew
  | inOrder (value :: rest) => .ok (value, inOrder rest)
  -- without a key the mapping as a whole is the only argument
  | byKey entries true => .ok (.mapping entries, byKey entries false)
  | byKey _ false => .error .tooFew

/-- The argument under a key, and the arguments that are left. -/
def Arguments.under (a : Arguments) (key : String) : Except FormatError (Data × Arguments) :=
  match a with
  | inOrder _ => .error .noMapping
  | byKey entries _ =>
    match Data.lookup entries key with
    | some value => .ok (value, byKey entries false)
    | none => .error (.noKey key)

/-- Splits a key off, behind its opening bracket, with the brackets inside it in
pairs. -/
def spanKey : (depth : Nat) → List Char → Option (List Char × List Char)
  | _, [] => none
  | 0, ')' :: rest => some ([], rest)
  | depth, c :: rest =>
    let inner := if c == '(' then depth + 1 else if c == ')' then depth - 1 else depth
    (spanKey inner rest).map fun (key, rest) => (c :: key, rest)

/-- The argument under the key of a directive, if it has one, and what follows the
key. -/
def Arguments.keyed (a : Arguments) (cs : List Char) :
    Except FormatError (Option (Data × Arguments) × List Char) :=
  match a, cs with
  | inOrder _, '(' :: _ => .error .noMapping
  | a, '(' :: rest =>
    match spanKey 0 rest with
    | some (key, rest) => (a.under (String.ofList key)).map fun found => (some found, rest)
    | none => .error .unfinishedKey
  | _, cs => .ok (none, cs)

/-- Fills the directives of a text in; `index` counts the characters before it. -/
def fillFrom : (fuel index : Nat) → Arguments → List Char → Except FormatError (List Char)
  | 0, _, _, cs => .ok cs
  | _, _, .inOrder (_ :: _), [] => .error .tooMany
  | _, _, _, [] => .ok []
  | fuel + 1, index, a, c :: rest =>
    if c != '%' then (fillFrom fuel (index + 1) a rest).map (c :: ·)
    else if rest.head? == some '%' then
      (fillFrom fuel (index + 2) a (rest.drop 1)).map ('%' :: ·)
    else do
      let (found, behind) ← a.keyed rest
      match Directive.read behind with
      | none => throw .unfinished
      | some (d, after) =>
        let next := index + 1 + (rest.length - after.length)
        let (value, a) ← match found with
          | some found => pure found
          | none => a.next
        let shown ← d.render (next - 1) value
        return shown ++ (← fillFrom fuel next a after)

/-- A text with its directives replaced by arguments. -/
def fillIn (text : String) (values : List Data) : Except FormatError String :=
  let cs := text.toList
  (fillFrom (cs.length + 1) 0 (.ofList values) cs).map String.ofList

end HotSwap.Log
