/-
The shortest decimal text that reads back as the same double.

Among all decimals that round to a given double, the ones with the fewest
digits are taken, and of those the nearest to the double; on each grid of
decimals it is enough to look at the two neighbours of the exact value.

* `shortestDigits` — digits and position of the decimal point;
* `floatText` — the text: positional from `0.0001` up to below `10 ^ 16`, with
  at least one digit after the point, and in exponent form outside.
-/
import HotSwap.Number.Binary64

namespace HotSwap.Number

/-- The power of `base` whose exponent is the nonnegative part of an integer. -/
private def raise (base : Nat) (e : Int) : Nat := Nat.pow base e.toNat

/-- The reals that round to one double, in units of `2 ^ (exponent - 2)`:
between `low` and `high`, ends included when `closed`. -/
structure Interval where
  exponent : Int
  low : Nat
  value : Nat
  high : Nat
  closed : Bool

/-- The interval of reals that round to `m · 2 ^ q`. -/
def Interval.of (m : Nat) (q : Int) : Interval :=
  { exponent := q - 2
    low := if m == Nat.pow 2 52 && q > -1074 then 4 * m - 1 else 4 * m - 2
    value := 4 * m
    high := 4 * m + 2
    closed := m % 2 == 0 }

/-- Whether the decimal `c · 10 ^ e` lies in the interval. -/
def Interval.holds (i : Interval) (c : Nat) (e : Int) : Bool :=
  let decimal := c * raise 10 e * raise 2 (-i.exponent)
  let unit := raise 2 i.exponent * raise 10 (-e)
  if i.closed then i.low * unit ≤ decimal && decimal ≤ i.high * unit
  else i.low * unit < decimal && decimal < i.high * unit

/-- The greatest `c` with `c · 10 ^ e` at most the value. -/
def Interval.floorOn (i : Interval) (e : Int) : Nat :=
  i.value * raise 2 i.exponent * raise 10 (-e) / (raise 10 e * raise 2 (-i.exponent))

/-- Whether `(c + 1) · 10 ^ e` is nearer to the value than `c · 10 ^ e`; at
equal distance the even one wins. -/
def Interval.upperNearer (i : Interval) (c : Nat) (e : Int) : Bool :=
  let value2 := 2 * (i.value * raise 2 i.exponent * raise 10 (-e))
  let middle2 := (2 * c + 1) * (raise 10 e * raise 2 (-i.exponent))
  middle2 < value2 || (middle2 == value2 && c % 2 == 1)

/-- The decimal on the grid `10 ^ e` that lies in the interval, if one does. -/
def Interval.onGrid? (i : Interval) (e : Int) : Option Nat :=
  let c := i.floorOn e
  match i.holds c e, i.holds (c + 1) e with
  | true, true => some (if i.upperNearer c e then c + 1 else c)
  | true, false => some c
  | false, true => some (c + 1)
  | false, false => none

/-- Looks for the coarsest grid, starting at `10 ^ e` and refining. -/
def Interval.search (i : Interval) : (fuel : Nat) → Int → Nat × Int
  | 0, e => (i.floorOn e, e)
  | fuel + 1, e =>
    match i.onGrid? e with
    | some c => (c, e)
    | none => i.search fuel (e - 1)

/-- An upper bound for the decimal exponent of `m · 2 ^ q`: one more than the
number of decimal digits before the point. -/
def decimalBound (m : Nat) (q : Int) : Int :=
  if q ≥ 0 then (digitCount (m * Nat.pow 2 q.toNat) : Int) + 1
  else
    -- `10 ^ k` exceeds `m / 2 ^ p` once it exceeds the quotient of digit counts
    (digitCount m : Int) - digitCount (Nat.pow 2 (-q).toNat) + 2

/-- Digits of the shortest decimal for `m · 2 ^ q` (`m` positive), and the
position of its decimal point counted from the left of the digits. -/
def shortestDigits (m : Nat) (q : Int) : List Char × Int :=
  let (c, e) := (Interval.of m q).search 800 (decimalBound m q)
  let digits := Nat.toDigits 10 c
  (digits, e + digits.length)

/-- Places digits around the decimal point, positionally or with an exponent. -/
def placeDigits (digits : List Char) (point : Int) : List Char :=
  let zeros (n : Int) : List Char := List.replicate n.toNat '0'
  if -4 < point && point ≤ 16 then
    if point ≤ 0 then '0' :: '.' :: zeros (-point) ++ digits
    else
      let before := digits.take point.toNat ++ zeros (point - digits.length)
      let after := digits.drop point.toNat
      before ++ '.' :: (if after.isEmpty then ['0'] else after)
  else
    let e := point - 1
    let mark := if e < 0 then '-' else '+'
    let size := Nat.toDigits 10 e.natAbs
    let padded := if size.length < 2 then '0' :: size else size
    let lead := digits.take 1 ++ (if digits.length > 1 then '.' :: digits.drop 1 else [])
    lead ++ 'e' :: mark :: padded

/-- The text of a double. -/
def floatText (x : Float) : String :=
  match Binary64.ofFloat x with
  | .nan => "nan"
  | .infinite negative => if negative then "-inf" else "inf"
  | .finite negative m q =>
    let size :=
      if m == 0 then ['0', '.', '0']
      else
        let (digits, point) := shortestDigits m q
        placeDigits digits point
    String.ofList (if negative then '-' :: size else size)

end HotSwap.Number
