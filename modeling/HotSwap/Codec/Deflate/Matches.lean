/-
Splitting a byte string into literals and references to earlier bytes.

At every position the longest earlier occurrence is looked for along the chain
of positions whose next three bytes have the same hash, the nearest first.  A
reference found at one position is given up for a literal when the next
position offers a longer one.

Main definition: `tokens`, the tokens of a byte string.

Design notes: the search is bounded by the window and by the length of the
chain; position 0 is never referred to, because it stands for the end of a
chain.
-/
import HotSwap.Codec.Bytes

namespace HotSwap.Codec.Deflate

/-- A literal byte, or a reference to `length` bytes `distance` bytes back. -/
inductive Token where
  | literal (byte : UInt8)
  | reference (length distance : Nat)
  deriving DecidableEq, Repr

/-- The farthest distance that a search goes back. -/
def reach : Nat := 32768 - 262

/-- The length of the longest reference. -/
def longest : Nat := 258

/-- How many positions of a chain are looked at. -/
def chainLimit : Nat := 4096

/-- A reference of this length at the position before shortens the search. -/
def goodLength : Nat := 32

/-- A reference of three bytes is not worth a distance beyond this. -/
def farForThree : Nat := 4096

/-- The positions met so far: for each hash the latest one, and for each
position the one before it on its chain. -/
structure Chains where
  head : Array Nat
  previous : Array Nat

/-- No position met yet. -/
def Chains.empty (size : Nat) : Chains :=
  { head := Array.replicate 32768 0, previous := Array.replicate size 0 }

/-- The hash of the three bytes from a position. -/
def hashAt (data : Array UInt8) (i : Nat) : Nat :=
  ((data.getD i 0).toNat * 1024 ^^^ (data.getD (i + 1) 0).toNat * 32 ^^^ (data.getD (i + 2) 0).toNat)
    % 32768

/-- Enters a position: the chains, and the position that its chain held. -/
def Chains.insert (c : Chains) (data : Array UInt8) (i : Nat) : Chains × Nat :=
  let h := hashAt data i
  let found := c.head.getD h 0
  ({ head := c.head.setIfInBounds h i, previous := c.previous.setIfInBounds i found }, found)

/-- Enters `n` positions from `i` on, as far as three bytes follow. -/
def Chains.insertAll (data : Array UInt8) : (n : Nat) → Nat → Chains → Chains
  | 0, _, c => c
  | n + 1, i, c =>
    insertAll data n (i + 1) (if i + 3 ≤ data.size then (c.insert data i).1 else c)

/-- How many bytes agree from two positions on, up to a bound. -/
def agreement (data : Array UInt8) (i j : Nat) : (bound : Nat) → Nat
  | 0 => 0
  | bound + 1 =>
    if data.getD i 0 == data.getD j 0 then 1 + agreement data (i + 1) (j + 1) bound else 0

/-- Follows a chain from `candidate`: the longest agreement above `best` and
its position, stopping at one that reaches the bound. -/
def searchChain (data : Array UInt8) (previous : Array Nat) (i bound limit : Nat) :
    (fuel : Nat) → (candidate : Nat) → (best position : Nat) → Nat × Nat
  | 0, _, best, position => (best, position)
  | fuel + 1, candidate, best, position =>
    -- only a candidate that agrees at the end of the best one can be longer
    let worth := data.getD (candidate + best) 0 == data.getD (i + best) 0 && best < bound
    let size := if worth then agreement data candidate i bound else 0
    let next := previous.getD candidate 0
    if best < size then
      if bound ≤ size || next ≤ limit then (size, candidate)
      else searchChain data previous i bound limit fuel next size candidate
    else if next ≤ limit then (best, position)
    else searchChain data previous i bound limit fuel next best position

/-- The state of the search while it walks along the bytes. -/
structure Walk where
  chains : Chains
  /-- The reference found at the position before. -/
  length : Nat := 2
  position : Nat := 0
  /-- Whether the byte before still waits for its token. -/
  pending : Bool := false
  tokens : Array Token := #[]

/-- Walks on from position `i`. -/
def walk (data : Array UInt8) : (fuel : Nat) → Nat → Walk → Array Token
  | 0, _, w => w.tokens
  | fuel + 1, i, w =>
    if data.size ≤ i then
      if w.pending then w.tokens.push (.literal (data.getD (i - 1) 0)) else w.tokens
    else
      let remaining := data.size - i
      let (chains, found) := if 3 ≤ remaining then w.chains.insert data i else (w.chains, 0)
      let bound := min longest remaining
      let (length, position) :=
        if found != 0 && w.length < longest && i - found ≤ reach then
          let fuel := if goodLength ≤ w.length then chainLimit / 4 else chainLimit
          let (length, position) :=
            searchChain data chains.previous i bound (i - reach) fuel found w.length w.position
          let length := min length remaining
          if length == 3 && farForThree < i - position then (2, position) else (length, position)
        else (2, w.position)
      if 3 ≤ w.length && length ≤ w.length then
        -- the reference at the position before stands
        let chains := Chains.insertAll data (w.length - 2) (i + 1) chains
        walk data fuel (i + w.length - 1)
          { chains, length := 2, position, pending := false,
            tokens := w.tokens.push (.reference w.length (i - 1 - w.position)) }
      else
        let tokens :=
          if w.pending then w.tokens.push (.literal (data.getD (i - 1) 0)) else w.tokens
        walk data fuel (i + 1) { chains, length, position, pending := true, tokens }

/-- The tokens of a byte string. -/
def tokens (bytes : Bytes) : List Token :=
  let data := bytes.toArray
  (walk data (2 * data.size + 2) 0 { chains := Chains.empty data.size }).toList

end HotSwap.Codec.Deflate
