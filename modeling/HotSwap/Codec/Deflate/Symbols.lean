/-
The alphabets of the deflate format.

Lengths of 3 to 258 bytes and distances of 1 to 32768 bytes are each named by a
code and some extra bits.

* `lengthCode`, `distanceCode` — code, extra bits and their value;
* `lengthBases`, `distanceBases` — smallest value and extra bits of each code;
* `fixedLiteralLengths`, `fixedDistanceLengths` — code lengths of the fixed
  code;
* `lengthOrder` — the order in which code lengths of code lengths are sent.
-/
namespace HotSwap.Codec.Deflate

/-- Smallest length and number of extra bits of the codes 257, 258, …. -/
def lengthBases : Array (Nat × Nat) := #[
  (3, 0), (4, 0), (5, 0), (6, 0), (7, 0), (8, 0), (9, 0), (10, 0), (11, 1), (13, 1), (15, 1),
  (17, 1), (19, 2), (23, 2), (27, 2), (31, 2), (35, 3), (43, 3), (51, 3), (59, 3), (67, 4),
  (83, 4), (99, 4), (115, 4), (131, 5), (163, 5), (195, 5), (227, 5), (258, 0)]

/-- Smallest distance and number of extra bits of the codes 0, 1, …. -/
def distanceBases : Array (Nat × Nat) := #[
  (1, 0), (2, 0), (3, 0), (4, 0), (5, 1), (7, 1), (9, 2), (13, 2), (17, 3), (25, 3), (33, 4),
  (49, 4), (65, 5), (97, 5), (129, 6), (193, 6), (257, 7), (385, 7), (513, 8), (769, 8),
  (1025, 9), (1537, 9), (2049, 10), (3073, 10), (4097, 11), (6145, 11), (8193, 12), (12289, 12),
  (16385, 13), (24577, 13)]

/-- The last entry of a table of bases that a value reaches: its index, its
extra bits and the value in them. -/
def codeIn (bases : Array (Nat × Nat)) (value : Nat) : Nat × Nat × Nat :=
  let index := (bases.toList.takeWhile fun b => b.1 ≤ value).length - 1
  let (base, extra) := bases.getD index (0, 0)
  (index, extra, value - base)

/-- The code of a length, counted from 0: code, extra bits and their value. -/
def lengthCode (length : Nat) : Nat × Nat × Nat := codeIn lengthBases length

/-- The code of a distance. -/
def distanceCode (distance : Nat) : Nat × Nat × Nat := codeIn distanceBases distance

/-- Code lengths of literals, end of block and lengths in the fixed code. -/
def fixedLiteralLengths : Array Nat :=
  Array.replicate 144 8 ++ Array.replicate 112 9 ++ Array.replicate 24 7 ++ Array.replicate 8 8

/-- Code lengths of distances in the fixed code. -/
def fixedDistanceLengths : Array Nat := Array.replicate 30 5

/-- The symbol that ends a block. -/
def endOfBlock : Nat := 256

/-- The order in which the lengths of the code-length code are sent. -/
def lengthOrder : Array Nat := #[16, 17, 18, 0, 8, 7, 9, 6, 10, 5, 11, 4, 12, 3, 13, 2, 14, 1, 15]

/-- How many codes of each length a table of code lengths uses. -/
def lengthCounts (lengths : Array Nat) : Array Nat :=
  lengths.foldl (fun counts l => if l == 0 then counts else counts.modify l (· + 1))
    (Array.replicate 16 0)

/-- The first code of each length: codes of one length are consecutive, and
longer codes start after twice the shorter ones. -/
def firstCodes (counts : Array Nat) : Array Nat :=
  ((List.range 16).foldl
    (fun (acc : Array Nat × Nat) l =>
      let code := if l == 0 then 0 else (acc.2 + counts.getD (l - 1) 0) * 2
      (acc.1.push code, code))
    (#[], 0)).1

/-- The canonical code of each symbol. -/
def canonicalCodes (lengths : Array Nat) : Array Nat :=
  (lengths.foldl
    (fun (acc : Array Nat × Array Nat) l =>
      if l == 0 then (acc.1.push 0, acc.2)
      else (acc.1.push (acc.2.getD l 0), acc.2.modify l (· + 1)))
    (#[], firstCodes (lengthCounts lengths))).1

end HotSwap.Codec.Deflate
