/-
Writing the deflate format.

The tokens of a byte string are cut into blocks; each block is written with the
fixed code, with a code of its own, or as plain bytes, whichever takes the
fewest bytes.

Main definition: `encode`.
-/
import HotSwap.Codec.Deflate.Symbols
import HotSwap.Codec.Deflate.Matches
import HotSwap.Codec.Deflate.CodeLengths

namespace HotSwap.Codec.Deflate

/-! ### Bits -/

/-- Appends the low bits of a number, the lowest first. -/
def putBits : (width : Nat) → Nat → Array Bool → Array Bool
  | 0, _, bits => bits
  | w + 1, n, bits => putBits w (n / 2) (bits.push (n % 2 == 1))

/-- Appends a code, its highest bit first. -/
def putCode : (width : Nat) → Nat → Array Bool → Array Bool
  | 0, _, bits => bits
  | w + 1, code, bits => putCode w code (bits.push (code / Nat.pow 2 w % 2 == 1))

/-- Appends zeros up to a whole byte. -/
def align (bits : Array Bool) : Array Bool :=
  bits ++ Array.replicate ((8 - bits.size % 8) % 8) false

/-- The number whose bits are given, the lowest first. -/
def bitsValue : List Bool → Nat
  | [] => 0
  | b :: rest => (if b then 1 else 0) + 2 * bitsValue rest

/-- Bits packed into bytes. -/
def pack : (fuel : Nat) → List Bool → Bytes
  | 0, _ => []
  | fuel + 1, bits =>
    if bits.isEmpty then [] else UInt8.ofNat (bitsValue (bits.take 8)) :: pack fuel (bits.drop 8)

/-! ### Codes -/

/-- A pair of codes: for literals and lengths, and for distances. -/
structure Codes where
  literalLengths : Array Nat
  distanceLengths : Array Nat

/-- The fixed codes. -/
def Codes.fixed : Codes :=
  { literalLengths := fixedLiteralLengths, distanceLengths := fixedDistanceLengths }

/-- Frequencies of literal and length symbols, and of distance symbols. -/
def frequencies (ts : List Token) : Array Nat × Array Nat :=
  ts.foldl
    (fun (acc : Array Nat × Array Nat) t =>
      match t with
      | .literal b => (acc.1.modify b.toNat (· + 1), acc.2)
      | .reference length distance =>
        (acc.1.modify (257 + (lengthCode length).1) (· + 1),
          acc.2.modify (distanceCode distance).1 (· + 1)))
    ((Array.replicate 286 0).modify endOfBlock (· + 1), Array.replicate 30 0)

/-- The bits that the tokens of a block take. -/
def size (codes : Codes) (ts : List Token) : Nat :=
  ts.foldl
    (fun n t =>
      match t with
      | .literal b => n + codes.literalLengths.getD b.toNat 0
      | .reference length distance =>
        let (lc, le, _) := lengthCode length
        let (dc, de, _) := distanceCode distance
        n + codes.literalLengths.getD (257 + lc) 0 + le + codes.distanceLengths.getD dc 0 + de)
    (codes.literalLengths.getD endOfBlock 0)

/-- Writes the tokens of a block and its end. -/
def putTokens (codes : Codes) (ts : List Token) (bits : Array Bool) : Array Bool :=
  let literalCodes := canonicalCodes codes.literalLengths
  let distanceCodes := canonicalCodes codes.distanceLengths
  let literal (s : Nat) (bits : Array Bool) : Array Bool :=
    putCode (codes.literalLengths.getD s 0) (literalCodes.getD s 0) bits
  let written := ts.foldl
    (fun bits t =>
      match t with
      | .literal b => literal b.toNat bits
      | .reference length distance =>
        let (lc, le, lv) := lengthCode length
        let (dc, de, dv) := distanceCode distance
        let bits := putBits le lv (literal (257 + lc) bits)
        putBits de dv
          (putCode (codes.distanceLengths.getD dc 0) (distanceCodes.getD dc 0) bits))
    bits
  literal endOfBlock written

/-! ### Codes of a block's own -/

/-- A symbol of the code-length code with its extra bits and their value. -/
structure LengthSymbol where
  symbol : Nat
  extra : Nat := 0
  value : Nat := 0

/-- Drops the zeros at the end. -/
def trimmed (lengths : Array Nat) : List Nat :=
  (lengths.toList.reverse.dropWhile (· == 0)).reverse

/-- Cuts a run of `count` equal lengths into symbols; `repeated` tells whether
the length stands before the run already. -/
def runSymbols (length : Nat) : (fuel : Nat) → (repeated : Bool) → (count : Nat) → List LengthSymbol
  | 0, _, _ => []
  | fuel + 1, repeated, count =>
    if count == 0 then []
    else if length == 0 then
      if count < 3 then List.replicate count { symbol := 0 }
      else if count ≤ 10 then [{ symbol := 17, extra := 3, value := count - 3 }]
      else
        let n := min count 138
        { symbol := 18, extra := 7, value := n - 11 } :: runSymbols length fuel repeated (count - n)
    else if repeated then
      if count < 3 then List.replicate count { symbol := length }
      else
        let n := min count 6
        { symbol := 16, extra := 2, value := n - 3 } :: runSymbols length fuel repeated (count - n)
    else if count < 4 then List.replicate count { symbol := length }
    else
      let n := min count 7
      { symbol := length } :: { symbol := 16, extra := 2, value := n - 4 }
        :: runSymbols length fuel true (count - n)

/-- The runs of equal neighbours of a list. -/
def runs : List Nat → List (Nat × Nat)
  | [] => []
  | x :: rest =>
    match runs rest with
    | (y, n) :: more => if x == y then (y, n + 1) :: more else (x, 1) :: (y, n) :: more
    | [] => [(x, 1)]

/-- The symbols that describe a list of code lengths. -/
def lengthSymbols (lengths : List Nat) : List LengthSymbol :=
  (runs lengths).flatMap fun r => runSymbols r.1 (r.2 + 1) false r.2

/-- The description of a block's own codes. -/
structure Description where
  literals : List Nat
  distances : List Nat
  symbols : List LengthSymbol
  lengthLengths : Array Nat
  /-- How many lengths of the code-length code are sent. -/
  sent : Nat

/-- Describes a pair of codes. -/
def describe (codes : Codes) : Description :=
  let literals := trimmed codes.literalLengths
  let distances := trimmed codes.distanceLengths
  let symbols := lengthSymbols literals ++ lengthSymbols distances
  let counts := symbols.foldl (fun cs s => cs.modify s.symbol (· + 1)) (Array.replicate 19 0)
  let lengthLengths := codeLengths 7 counts
  let ordered := lengthOrder.toList.map fun s => lengthLengths.getD s 0
  { literals, distances, symbols, lengthLengths
    sent := max 4 (ordered.reverse.dropWhile (· == 0)).length }

/-- The bits that a description takes. -/
def Description.size (d : Description) : Nat :=
  14 + 3 * d.sent
    + d.symbols.foldl (fun n s => n + d.lengthLengths.getD s.symbol 0 + s.extra) 0

/-- Writes a description. -/
def Description.put (d : Description) (bits : Array Bool) : Array Bool :=
  let bits := putBits 5 (d.literals.length - 257) bits
  let bits := putBits 5 (d.distances.length - 1) bits
  let bits := putBits 4 (d.sent - 4) bits
  let bits := (lengthOrder.toList.take d.sent).foldl
    (fun bits s => putBits 3 (d.lengthLengths.getD s 0) bits) bits
  let codes := canonicalCodes d.lengthLengths
  d.symbols.foldl
    (fun bits s =>
      putBits s.extra s.value
        (putCode (d.lengthLengths.getD s.symbol 0) (codes.getD s.symbol 0) bits))
    bits

/-! ### Blocks -/

/-- How many tokens a block holds at most. -/
def blockTokens : Nat := 16383

/-- The bytes that tokens stand for, by number. -/
def spanOf (ts : List Token) : Nat :=
  ts.foldl (fun n t => match t with | .literal _ => n + 1 | .reference length _ => n + length) 0

/-- Writes one block: its tokens, and the bytes they stand for. -/
def putBlock (last : Bool) (ts : List Token) (plain : Bytes) (bits : Array Bool) : Array Bool :=
  let (lf, df) := frequencies ts
  let own : Codes := { literalLengths := codeLengths 15 lf, distanceLengths := codeLengths 15 df }
  let description := describe own
  let ownBytes := (3 + description.size + size own ts + 7) / 8
  let fixedBytes := (3 + size Codes.fixed ts + 7) / 8
  let final := if last then 1 else 0
  if plain.length + 4 ≤ min ownBytes fixedBytes then
    let bits := align (putBits 3 final bits)
    let bits := putBits 16 (65535 - plain.length) (putBits 16 plain.length bits)
    plain.foldl (fun bits b => putBits 8 b.toNat bits) bits
  else if fixedBytes ≤ ownBytes then
    putTokens Codes.fixed ts (putBits 3 (2 + final) bits)
  else putTokens own ts (description.put (putBits 3 (4 + final) bits))

/-- Writes tokens in blocks, the last one marked. -/
def putBlocks : (fuel : Nat) → List Token → Bytes → Array Bool → Array Bool
  | 0, _, _, bits => bits
  | fuel + 1, ts, plain, bits =>
    if ts.length < blockTokens then putBlock true ts plain bits
    else
      let block := ts.take blockTokens
      let span := spanOf block
      putBlocks fuel (ts.drop blockTokens) (plain.drop span)
        (putBlock false block (plain.take span) bits)

/-- The deflate form of a byte string. -/
def encode (bytes : Bytes) : Bytes :=
  let ts := tokens bytes
  let bits := putBlocks (ts.length + 1) ts bytes #[]
  pack (bits.size + 1) bits.toList

end HotSwap.Codec.Deflate
