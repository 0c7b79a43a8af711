/-
Reading the deflate format.

Blocks are read bit by bit: plain blocks byte for byte, coded blocks symbol by
symbol, references copying from what was read before.

* `decode` — the bytes of a deflate stream and the bytes after it;
* `Damage` — what can be wrong with a stream.
-/
import HotSwap.Codec.Deflate.Symbols
import HotSwap.Codec.Bytes

namespace HotSwap.Codec.Deflate

/-- What is wrong with a stream. -/
inductive Damage where
  /-- It ends too early. -/
  | cutShort
  | blockType
  | storedLengths
  | tooManySymbols
  | codeLengthSet
  | lengthRepeat
  | noEndOfBlock
  | literalSet
  | distanceSet
  | literalCode
  | distanceCode
  | distanceTooFar
  deriving DecidableEq, Repr

/-- The bits of a byte string, each byte's lowest first. -/
def bitsOf (bytes : Bytes) : List Bool :=
  bytes.flatMap fun b => (List.range 8).map fun i => b.toNat / Nat.pow 2 i % 2 == 1

/-- Reads a number of `width` bits, the lowest first. -/
def takeBits : (width : Nat) → List Bool → Except Damage (Nat × List Bool)
  | 0, bits => .ok (0, bits)
  | _ + 1, [] => .error .cutShort
  | w + 1, b :: bits =>
    match takeBits w bits with
    | .error e => .error e
    | .ok (n, rest) => .ok ((if b then 1 else 0) + 2 * n, rest)

/-! ### Codes -/

/-- A canonical code: how many codes of each length, and the symbols in order
of their codes. -/
structure Code where
  counts : Array Nat
  symbols : Array Nat

/-- The canonical code with the given lengths. -/
def Code.ofLengths (lengths : List Nat) : Code :=
  { counts := lengthCounts lengths.toArray
    symbols := ((List.range 15).flatMap fun l =>
      (lengths.zipIdx.filter fun s => s.1 == l + 1).map (·.2)).toArray }

/-- The room that a code leaves: zero when complete, negative when too full. -/
def Code.room (c : Code) : Int :=
  (List.range 15).foldl (fun (left : Int) l => 2 * left - c.counts.getD (l + 1) 0) 1

/-- Reads one symbol: at length `l`, codes of that length start at `first`,
`index` symbols have shorter codes, and `code` was read so far. -/
def Code.take (c : Code) (bad : Damage) : (fuel l first index code : Nat) → List Bool →
    Except Damage (Nat × List Bool)
  | 0, _, _, _, _, _ => .error bad
  | _ + 1, _, _, _, _, [] => .error .cutShort
  | fuel + 1, l, first, index, code, b :: bits =>
    let code := code + (if b then 1 else 0)
    let count := c.counts.getD l 0
    if code < first + count then .ok (c.symbols.getD (index + (code - first)) 0, bits)
    else c.take bad fuel (l + 1) ((first + count) * 2) (index + count) (code * 2) bits

/-- Reads one symbol. -/
def Code.symbol (c : Code) (bad : Damage) (bits : List Bool) : Except Damage (Nat × List Bool) :=
  c.take bad 15 1 0 0 0 bits

/-! ### Blocks -/

/-- Copies `n` bytes from `distance` back, one after another. -/
def copyBack (distance : Nat) : (n : Nat) → Array UInt8 → Array UInt8
  | 0, out => out
  | n + 1, out => copyBack distance n (out.push (out.getD (out.size - distance) 0))

/-- Reads the symbols of a coded block. -/
def takeSymbols (literals distances : Code) : (fuel : Nat) → List Bool → Array UInt8 →
    Except Damage (List Bool × Array UInt8)
  | 0, _, _ => .error .cutShort
  | fuel + 1, bits, out => do
    let (s, bits) ← literals.symbol .literalCode bits
    if s < endOfBlock then takeSymbols literals distances fuel bits (out.push (UInt8.ofNat s))
    else if s == endOfBlock then .ok (bits, out)
    else
      match lengthBases[s - 257]? with
      | none => .error .literalCode
      | some (base, extra) =>
        let (more, bits) ← takeBits extra bits
        let (d, bits) ← distances.symbol .distanceCode bits
        match distanceBases[d]? with
        | none => .error .distanceCode
        | some (dbase, dextra) =>
          let (dmore, bits) ← takeBits dextra bits
          if out.size < dbase + dmore then .error .distanceTooFar
          else takeSymbols literals distances fuel bits (copyBack (dbase + dmore) (base + more) out)

/-- Reads the lengths of the code-length code. -/
def takeLengthLengths : List Nat → List Bool → Array Nat → Except Damage (Array Nat × List Bool)
  | [], bits, lengths => .ok (lengths, bits)
  | s :: rest, bits, lengths => do
    let (n, bits) ← takeBits 3 bits
    takeLengthLengths rest bits (lengths.setIfInBounds s n)

/-- Reads `total` code lengths, written with repetitions. -/
def takeLengths (code : Code) (total : Nat) : (fuel : Nat) → List Bool → List Nat →
    Except Damage (List Nat × List Bool)
  | 0, _, _ => .error .cutShort
  | fuel + 1, bits, found => do
    -- `found` holds the lengths read, the latest first
    if found.length == total then .ok (found.reverse, bits)
    else
      let (s, bits) ← code.symbol .codeLengthSet bits
      if s < 16 then takeLengths code total fuel bits (s :: found)
      else
        let (value, width, base) :=
          if s == 16 then (found.head?, 2, 3) else if s == 17 then (some 0, 3, 3) else (some 0, 7, 11)
        match value with
        | none => .error .lengthRepeat
        | some value =>
          let (n, bits) ← takeBits width bits
          if total < found.length + base + n then .error .lengthRepeat
          else takeLengths code total fuel bits (List.replicate (base + n) value ++ found)

/-- Reads the codes of a block. -/
def takeCodes (bits : List Bool) : Except Damage (Code × Code × List Bool) := do
  let (nlit, bits) ← takeBits 5 bits
  let (ndist, bits) ← takeBits 5 bits
  let (nlen, bits) ← takeBits 4 bits
  if 29 < nlit || 29 < ndist then throw .tooManySymbols
  let (lengthLengths, bits) ←
    takeLengthLengths (lengthOrder.toList.take (nlen + 4)) bits (Array.replicate 19 0)
  let lengthCode := Code.ofLengths lengthLengths.toList
  if lengthCode.room != 0 then throw .codeLengthSet
  let (lengths, bits) ← takeLengths lengthCode (nlit + 257 + ndist + 1) 400 bits []
  let literalLengths := lengths.take (nlit + 257)
  let distanceLengths := lengths.drop (nlit + 257)
  if literalLengths.getD endOfBlock 0 == 0 then throw .noEndOfBlock
  let literals := Code.ofLengths literalLengths
  let distances := Code.ofLengths distanceLengths
  -- an incomplete code is allowed only if it has a single symbol
  if literals.room < 0 || (literals.room > 0 && literals.symbols.size > 1) then throw .literalSet
  if distances.room < 0 || (distances.room > 0 && distances.symbols.size > 1) then
    throw .distanceSet
  return (literals, distances, bits)

/-- Reads `n` whole bytes. -/
def takeBytes : (n : Nat) → List Bool → Array UInt8 → Except Damage (List Bool × Array UInt8)
  | 0, bits, out => .ok (bits, out)
  | n + 1, bits, out => do
    let (b, bits) ← takeBits 8 bits
    takeBytes n bits (out.push (UInt8.ofNat b))

/-- Reads blocks up to the last one; `total` is the number of all bits. -/
def takeBlocks (total : Nat) : (fuel : Nat) → List Bool → Array UInt8 →
    Except Damage (List Bool × Array UInt8)
  | 0, _, _ => .error .cutShort
  | fuel + 1, bits, out => do
    let (final, bits) ← takeBits 1 bits
    let (kind, bits) ← takeBits 2 bits
    let (bits, out) ←
      match kind with
      | 0 => do
        -- a plain block starts at a whole byte
        let bits := bits.drop (bits.length % 8)
        let (n, bits) ← takeBits 16 bits
        let (check, bits) ← takeBits 16 bits
        if n + check == 65535 then takeBytes n bits out else .error .storedLengths
      | 1 =>
        takeSymbols (.ofLengths fixedLiteralLengths.toList)
          (.ofLengths fixedDistanceLengths.toList) (total + 1) bits out
      | 2 => do
        let (literals, distances, bits) ← takeCodes bits
        takeSymbols literals distances (total + 1) bits out
      | _ => .error .blockType
    if final == 1 then .ok (bits, out) else takeBlocks total fuel bits out

/-- The bytes of a deflate stream, and those after it. -/
def decode (bytes : Bytes) : Except Damage (Bytes × Bytes) := do
  let bits := bitsOf bytes
  let (rest, out) ← takeBlocks bits.length (bits.length + 1) bits #[]
  return (out.toList, bytes.drop (bytes.length - rest.length / 8))

end HotSwap.Codec.Deflate
