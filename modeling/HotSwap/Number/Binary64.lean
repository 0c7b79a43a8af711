/-
Double-precision numbers taken apart.

A finite double is `± m · 2 ^ q` with natural `m`; this file reads sign,
mantissa and exponent off the sixty-four bits, and goes back from a decimal
fraction to the nearest double.

* `Binary64.ofFloat` — the parts of a double;
* `ofDecimal` — the double nearest to `± digits · 10 ^ exponent`, ties to even,
  with exponents far out of range settled before any power is computed;
* `roundDiv` — the quotient of two naturals rounded to nearest, ties to even.
-/
namespace HotSwap.Number

/-- A double, taken apart. -/
inductive Binary64 where
  /-- Not a number. -/
  | nan
  /-- An infinity. -/
  | infinite (negative : Bool)
  /-- `± mantissa · 2 ^ exponent`. -/
  | finite (negative : Bool) (mantissa : Nat) (exponent : Int)
  deriving DecidableEq, Repr

/-- Reads the sixty-four bits: one of sign, eleven of exponent, fifty-two of
mantissa. -/
def Binary64.ofBits (bits : Nat) : Binary64 :=
  let negative := bits / Nat.pow 2 63 == 1
  let biased : Nat := bits / Nat.pow 2 52 % Nat.pow 2 11
  let fraction : Nat := bits % Nat.pow 2 52
  if biased == 2047 then
    if fraction == 0 then .infinite negative else .nan
  else if biased == 0 then .finite negative fraction (-1074)
  else .finite negative (fraction + Nat.pow 2 52) ((biased : Int) - 1075)

/-- The parts of a double. -/
def Binary64.ofFloat (x : Float) : Binary64 := .ofBits x.toBits.toNat

/-- Whether the double is a number. -/
def isNumber (x : Float) : Bool :=
  match Binary64.ofFloat x with
  | .nan => false
  | _ => true

/-- Whether the double is an integer. -/
def isIntegral (x : Float) : Bool :=
  match Binary64.ofFloat x with
  | .finite _ m q => q ≥ 0 || m % Nat.pow 2 (-q).toNat == 0
  | _ => false

/-- The integer part of a finite double, toward zero. -/
def truncate (x : Float) : Int :=
  match Binary64.ofFloat x with
  | .finite negative m q =>
    let size : Nat := if q ≥ 0 then m * Nat.pow 2 q.toNat else m / Nat.pow 2 (-q).toNat
    if negative then -size else size
  | _ => 0

/-- The quotient of two naturals, rounded to nearest, ties to even. -/
def roundDiv (num den : Nat) : Nat :=
  let q := num / den
  let twice := 2 * (num % den)
  if twice < den then q
  else if den < twice then q + 1
  else if q % 2 == 0 then q else q + 1

/-- The number of decimal digits, zero having none. -/
def digitCount (n : Nat) : Nat := if n == 0 then 0 else (Nat.toDigits 10 n).length

/-- The double nearest to `± digits · 10 ^ exponent`. -/
def ofDecimal (negative : Bool) (digits : Nat) (exponent : Int) : Float :=
  let size :=
    if digits == 0 then 0.0
    else if exponent + digitCount digits > 310 then 1.0 / 0.0
    else if exponent + digitCount digits < -330 then 0.0
    else if exponent ≥ 0 then Float.ofScientific digits false exponent.toNat
    else Float.ofScientific digits true (-exponent).toNat
  if negative then -size else size

/-- The double nearest to an integer. -/
def ofInt (n : Int) : Float := ofDecimal (n < 0) n.natAbs 0

/-- The double nearest to a whole number of millionths. -/
def ofMillionths (n : Int) : Float := ofDecimal (n < 0) n.natAbs (-6)

/-- How many units of the last of `places` decimal places `m · 2 ^ q` has, to
nearest, ties to even. -/
def unitsOf (places m : Nat) (q : Int) : Nat :=
  let scaled := m * Nat.pow 10 places
  if q ≥ 0 then scaled * Nat.pow 2 q.toNat else roundDiv scaled (Nat.pow 2 (-q).toNat)

/-- A double rounded to `places` decimal places, ties of its exact value to
even. -/
def roundPlaces (places : Nat) (x : Float) : Float :=
  match Binary64.ofFloat x with
  | .finite negative m q => ofDecimal negative (unitsOf places m q) (-places)
  | _ => x

end HotSwap.Number
