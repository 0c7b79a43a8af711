/-
Byte strings and the texts they encode.

* `Bytes` — a list of bytes;
* `Bytes.ofText` — UTF-8;
* `Bytes.text?` — the text that a byte string encodes, if it is valid UTF-8;
* `Bytes.lossyText` — the same for any bytes, each maximal piece of an encoding
  that cannot be completed being read as one replacement character.
-/
namespace HotSwap

/-- A byte string. -/
abbrev Bytes := List UInt8

namespace Bytes

/-- The UTF-8 encoding of a text. -/
def ofText (s : String) : Bytes := s.toUTF8.toList

/-- How many bytes follow a leading byte, the range of the first of them, and
the bits that the leading byte carries. -/
def lead? (b : Nat) : Option (Nat × Nat × Nat × Nat) :=
  if b < 0x80 then some (0, 0, 0, b)
  else if 0xc2 ≤ b && b ≤ 0xdf then some (1, 0x80, 0xbf, b - 0xc0)
  else if b == 0xe0 then some (2, 0xa0, 0xbf, 0)
  else if b == 0xed then some (2, 0x80, 0x9f, 0xd)
  else if 0xe1 ≤ b && b ≤ 0xef then some (2, 0x80, 0xbf, b - 0xe0)
  else if b == 0xf0 then some (3, 0x90, 0xbf, 0)
  else if 0xf1 ≤ b && b ≤ 0xf3 then some (3, 0x80, 0xbf, b - 0xf0)
  else if b == 0xf4 then some (3, 0x80, 0x8f, 4)
  else none

/-- Reads `count` further bytes of an encoding, the first within `low … high`:
the code point when all are there, and how many were read. -/
def follow (code taken : Nat) : (count low high : Nat) → Bytes → Option Nat × Nat
  | 0, _, _, _ => (some code, taken)
  | _ + 1, _, _, [] => (none, taken)
  | count + 1, low, high, b :: rest =>
    if low ≤ b.toNat && b.toNat ≤ high then
      follow (code * 64 + (b.toNat - 0x80)) (taken + 1) count 0x80 0xbf rest
    else (none, taken)

/-- The first character of a byte string, `none` for a piece that encodes no
character, and how many bytes after the first it takes. -/
def firstChar (b : UInt8) (rest : Bytes) : Option Char × Nat :=
  match lead? b.toNat with
  | none => (none, 0)
  | some (count, low, high, bits) =>
    let (code, taken) := follow bits 0 count low high rest
    (code.map Char.ofNat, taken)

/-- The characters of a byte string, one `none` for each undecodable piece. -/
def chars (bytes : Bytes) : List (Option Char) :=
  match bytes with
  | [] => []
  | b :: rest =>
    let (c, taken) := firstChar b rest
    c :: chars (rest.drop taken)
termination_by bytes.length
decreasing_by simp only [List.length_drop, List.length_cons]; omega

/-- The text that the bytes encode, if they are valid UTF-8. -/
def text? (bytes : Bytes) : Option String :=
  (bytes.chars.mapM id).map String.ofList

/-- The text of the bytes, undecodable pieces replaced. -/
def lossyText (bytes : Bytes) : String :=
  String.ofList (bytes.chars.map fun c => c.getD '\ufffd')

end Bytes
end HotSwap
