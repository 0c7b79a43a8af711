/-
Decimals with a given number of digits.

* `decimalExponent` — the power of ten that a number begins with;
* `significantDigits` — the first digits of a number, rounded to nearest, and the
  power of ten that they begin with.
-/
import HotSwap.Number.Binary64

namespace HotSwap.Number

/-- A number `m · 2 ^ q` as the quotient of two naturals. -/
def quotientOf (m : Nat) (q : Int) : Nat × Nat :=
  (m * Nat.pow 2 q.toNat, Nat.pow 2 (-q).toNat)

/-- The greatest `e` for which `10 ^ e` is at most `num / den`, both of them being
positive. -/
def decimalExponent (num den : Nat) : Int :=
  let e : Int := (digitCount num : Int) - digitCount den
  if den * Nat.pow 10 e.toNat ≤ num * Nat.pow 10 (-e).toNat then e else e - 1

/-- The first `count` digits of `m · 2 ^ q`, rounded to nearest, ties to even, and the
power of ten that the first of them stands for. -/
def significantDigits (count m : Nat) (q : Int) : List Char × Int :=
  if m == 0 then (List.replicate count '0', 0)
  else
    let (num, den) := quotientOf m q
    let e := decimalExponent num den
    let shift := e - (count - 1 : Nat)
    let units := roundDiv (num * Nat.pow 10 (-shift).toNat) (den * Nat.pow 10 shift.toNat)
    let digits := Nat.toDigits 10 units
    -- rounding up may lead to the next power of ten
    if count < digits.length then (digits.take count, e + 1) else (digits, e)

end HotSwap.Number
