/-
Code lengths for an alphabet whose symbols occur with given frequencies.

Two trees of least frequency are joined again and again (of equal frequency
the shallower first) until one tree is left; the depth of a leaf is the length
of its code.  Lengths beyond the limit are cut, and the deepest codes still
within it are lengthened until the code is complete again.

Main definition: `codeLengths`.

Design notes: the trees wait in a binary heap, and the order in which it gives
up equal elements decides which of several optimal codes is chosen, so the heap
is spelled out.  A code has at least two symbols; symbols that do not occur are
added where there are fewer.
-/
namespace HotSwap.Codec.Deflate

/-- The trees that wait to be joined.  Nodes are numbered, symbols first. -/
structure Forest where
  /-- The heap of tree roots, from index 1 on. -/
  heap : Array Nat
  /-- How many roots it holds. -/
  size : Nat
  frequency : Array Nat
  depth : Array Nat
  parent : Array Nat
  /-- The nodes taken out, the latest first. -/
  taken : List Nat := []

namespace Forest

/-- The root at a place of the heap. -/
def root (f : Forest) (k : Nat) : Nat := f.heap.getD k 0

/-- Whether one tree comes before another. -/
def before (f : Forest) (n m : Nat) : Bool :=
  let fn := f.frequency.getD n 0
  let fm := f.frequency.getD m 0
  fn < fm || (fn == fm && f.depth.getD n 0 ≤ f.depth.getD m 0)

/-- Lets `node` sink from place `k` to where no child comes before it. -/
def sink (f : Forest) (node : Nat) : (fuel : Nat) → (k : Nat) → Forest
  | 0, k => { f with heap := f.heap.setIfInBounds k node }
  | fuel + 1, k =>
    let j := 2 * k
    if f.size < j then { f with heap := f.heap.setIfInBounds k node }
    else
      let j := if j < f.size && f.before (f.root (j + 1)) (f.root j) then j + 1 else j
      if f.before node (f.root j) then { f with heap := f.heap.setIfInBounds k node }
      else sink { f with heap := f.heap.setIfInBounds k (f.root j) } node fuel j

/-- Restores the heap below place `k`. -/
def settle (f : Forest) (k : Nat) : Forest := f.sink (f.root k) f.heap.size k

/-- Restores the heap from place `k` down to the first. -/
def settleAll : (k : Nat) → Forest → Forest
  | 0, f => f
  | k + 1, f => settleAll k (f.settle (k + 1))

/-- Joins the first two trees, until one is left; `node` is the next number. -/
def joinAll : (fuel : Nat) → (node : Nat) → Forest → Forest
  | 0, _, f => f
  | fuel + 1, node, f =>
    if f.size < 2 then { f with taken := f.root 1 :: f.taken }
    else
      let n := f.root 1
      let f := { f with heap := f.heap.setIfInBounds 1 (f.root f.size), size := f.size - 1 }.settle 1
      let m := f.root 1
      let joined :=
        { f with
          heap := f.heap.setIfInBounds 1 node
          frequency := f.frequency.setIfInBounds node (f.frequency.getD n 0 + f.frequency.getD m 0)
          depth := f.depth.setIfInBounds node (max (f.depth.getD n 0) (f.depth.getD m 0) + 1)
          parent := (f.parent.setIfInBounds n node).setIfInBounds m node
          taken := m :: n :: f.taken }
      joinAll fuel (node + 1) (joined.settle 1)

end Forest

/-- The symbols that get a code: those that occur, and more if they are fewer
than two. -/
def coded (frequencies : Array Nat) : List Nat :=
  let occurring := (List.range frequencies.size).filter fun n => frequencies.getD n 0 != 0
  match occurring with
  | [] => [0, 1]
  | [n] => if n < 2 then [n, n + 1] else [n, 0]
  | ns => ns

/-- Depths of the nodes below the root, cut at the limit, with the number of
nodes that were cut. -/
def cutDepths (limit : Nat) (f : Forest) : Array Nat × Nat :=
  (f.taken.drop 1).foldl
    (fun (acc : Array Nat × Nat) n =>
      let depth := acc.1.getD (f.parent.getD n 0) 0 + 1
      if limit < depth then (acc.1.setIfInBounds n limit, acc.2 + 1)
      else (acc.1.setIfInBounds n depth, acc.2))
    (Array.replicate f.parent.size 0, 0)

/-- The greatest length from `bits` down that has a code. -/
def longestUsed (counts : Array Nat) : (bits : Nat) → Nat
  | 0 => 0
  | bits + 1 => if counts.getD (bits + 1) 0 == 0 then longestUsed counts bits else bits + 1

/-- Makes up for `overflow` cut nodes: a code below the limit is lengthened and
takes one of the cut ones as its brother. -/
def repair (limit : Nat) : (fuel : Nat) → (overflow : Nat) → Array Nat → Array Nat
  | 0, _, counts => counts
  | fuel + 1, overflow, counts =>
    if overflow == 0 then counts
    else
      let bits := longestUsed counts (limit - 1)
      let counts := counts.modify bits (· - 1)
      let counts := counts.modify (bits + 1) (· + 2)
      repair limit fuel (overflow - 2) (counts.modify limit (· - 1))

/-- Hands out lengths, the longest first, to symbols in order. -/
def handOut (counts : Array Nat) : (bits : Nat) → List Nat → Array Nat → Array Nat
  | 0, _, lengths => lengths
  | bits + 1, symbols, lengths =>
    let n := counts.getD (bits + 1) 0
    handOut counts bits (symbols.drop n)
      ((symbols.take n).foldl (fun ls s => ls.setIfInBounds s (bits + 1)) lengths)

/-- Code lengths, at most `limit`, for the given frequencies. -/
def codeLengths (limit : Nat) (frequencies : Array Nat) : Array Nat :=
  let elements := frequencies.size
  let symbols := coded frequencies
  let forest : Forest :=
    { heap := (0 :: symbols).toArray
      size := symbols.length
      frequency :=
        symbols.foldl (fun fs n => if fs.getD n 0 == 0 then fs.setIfInBounds n 1 else fs)
          frequencies ++ Array.replicate (elements + 1) 0
      depth := Array.replicate (2 * elements + 1) 0
      parent := Array.replicate (2 * elements + 1) 0 }
  let forest := Forest.joinAll (2 * elements) elements (Forest.settleAll (symbols.length / 2) forest)
  let (depths, overflow) := cutDepths limit forest
  let leaves := forest.taken.filter (· < elements)
  let counts := leaves.foldl (fun cs n => cs.modify (depths.getD n 0) (· + 1)) (Array.replicate 16 0)
  if overflow == 0 then
    leaves.foldl (fun ls n => ls.setIfInBounds n (depths.getD n 0)) (Array.replicate elements 0)
  else
    handOut (repair limit elements overflow counts) limit leaves.reverse
      (Array.replicate elements 0)

end HotSwap.Codec.Deflate
