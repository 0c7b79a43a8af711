/-
Quoted text: how a value is shown inside a message.

A text stands between apostrophes, or between double quotes when it holds an
apostrophe and no double quote.  The quote in use, the backslash and every
character that is not printable are escaped; bytes are shown the same way
behind the letter b, with every byte outside printable ASCII escaped.

* `quoted` — a text;
* `quotedBytes` — a byte string;
* `asciiOnly` — a text with every character beyond ASCII escaped.
-/
import HotSwap.Text.Printable

namespace HotSwap.Text

/-- Digits of lower-case hexadecimal notation. -/
def hexDigit (n : Nat) : Char :=
  if n < 10 then Char.ofNat (48 + n) else Char.ofNat (87 + n)

/-- The last `width` hexadecimal digits of a number, most significant first. -/
def hexDigits : (width : Nat) → Nat → List Char
  | 0, _ => []
  | w + 1, n => hexDigits w (n / 16) ++ [hexDigit (n % 16)]

/-- The quote that surrounds a text: double only when that saves an escape. -/
def quoteFor (cs : List Char) : Char :=
  if cs.contains '\'' && !cs.contains '"' then '"' else '\''

/-- Escapes that have a letter of their own. -/
def shortEscape? : Char → Option Char
  | '\n' => some 'n'
  | '\r' => some 'r'
  | '\t' => some 't'
  | _ => none

/-- The escape of a code point, as short as it can be. -/
def codeEscape (c : Char) : List Char :=
  if c.toNat ≤ 0xff then '\\' :: 'x' :: hexDigits 2 c.toNat
  else if c.toNat ≤ 0xffff then '\\' :: 'u' :: hexDigits 4 c.toNat
  else '\\' :: 'U' :: hexDigits 8 c.toNat

/-- One character of a quoted text. -/
def quotedChar (quote c : Char) : List Char :=
  if c == quote || c == '\\' then ['\\', c]
  else match shortEscape? c with
    | some letter => ['\\', letter]
    | none => if isPrintable c then [c] else codeEscape c

/-- A text as messages show it. -/
def quoted (s : String) : String :=
  let cs := s.toList
  let quote := quoteFor cs
  String.ofList (quote :: cs.flatMap (quotedChar quote) ++ [quote])

/-- A text with every character beyond ASCII escaped. -/
def asciiOnly (s : String) : String :=
  String.ofList (s.toList.flatMap fun c => if c.toNat < 0x80 then [c] else codeEscape c)

/-- One byte of a quoted byte string. -/
def quotedByte (quote : Char) (b : UInt8) : List Char :=
  let c := Char.ofNat b.toNat
  if c == quote || c == '\\' then ['\\', c]
  else match shortEscape? c with
    | some letter => ['\\', letter]
    | none =>
      if 0x20 ≤ b.toNat && b.toNat < 0x7f then [c]
      else '\\' :: 'x' :: hexDigits 2 b.toNat

/-- A byte string as messages show it. -/
def quotedBytes (bytes : List UInt8) : String :=
  let quote := quoteFor (bytes.map fun b => Char.ofNat b.toNat)
  String.ofList ('b' :: quote :: bytes.flatMap (quotedByte quote) ++ [quote])

/-- Bytes in hexadecimal notation. -/
def hex (bytes : List UInt8) : String :=
  String.ofList (bytes.flatMap fun b => hexDigits 2 b.toNat)

end HotSwap.Text
