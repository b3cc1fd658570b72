/-!
# Decimal numerals

A non-negative number written as a coefficient and a power of ten, its digits,
and the double nearest to it.
-/

namespace DocQuery

/-- The number `coefficient * 10 ^ exponent`. -/
structure Decimal where
  coefficient : Nat
  exponent : Int
deriving DecidableEq, Repr

namespace Decimal

def digits (d : Decimal) : List Char :=
  Nat.toDigits 10 d.coefficient

/-- The power of ten at which the first digit stands. -/
def leadingExponent (d : Decimal) : Int :=
  d.exponent + d.digits.length - 1

/--
The double nearest to the number, infinite when it is too large.

Exponents far outside the range of doubles are decided without computing the
power of ten.
-/
def toFloat (d : Decimal) : Float :=
  if d.coefficient = 0 then 0.0
  else if 400 < d.exponent then 1.0 / 0.0
  else if d.exponent + (d.coefficient.log2 / 3 : Nat) + 1 < -400 then 0.0
  else Float.ofScientific d.coefficient (decide (d.exponent < 0)) d.exponent.natAbs

/-- The number spelled by digits before and after a decimal point, times a power of ten. -/
def ofDigits (whole fraction : List Char) (exponent : Int) : Decimal :=
  ⟨(whole ++ fraction).foldl (fun n c => 10 * n + (c.toNat - '0'.toNat)) 0,
    exponent - fraction.length⟩

end Decimal

end DocQuery
