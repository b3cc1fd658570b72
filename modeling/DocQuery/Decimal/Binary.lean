/-!
# The exact value of a double

A finite double is a sign and a whole number of halvings or doublings.  The
reals that round to it form an interval, which decides how it is written.
-/

namespace DocQuery

/-- The number `significand * 2 ^ exponent`, with the width of the gap below it. -/
structure BinaryFraction where
  significand : Nat
  exponent : Int
  /-- The next smaller double is only half as far away as the next larger one. -/
  atBinade : Bool
deriving DecidableEq, Repr

namespace BinaryFraction

def ofFloat (x : Float) : BinaryFraction :=
  let bits : Nat := x.toBits.toNat
  let field : Nat := bits / Nat.pow 2 52 % Nat.pow 2 11
  let fraction : Nat := bits % Nat.pow 2 52
  if field = 0 then ⟨fraction, -1074, false⟩
  else ⟨fraction + Nat.pow 2 52, (field : Int) - 1075, decide (fraction = 0) && decide (1 < field)⟩

/-- Four times the significand; the ends of the rounding interval are whole in this unit. -/
def quarters (b : BinaryFraction) : Nat :=
  4 * b.significand

/-- The lower end of the interval of reals that round to the number, in quarters. -/
def lower (b : BinaryFraction) : Nat :=
  if b.atBinade then b.quarters - 1 else b.quarters - 2

def upper (b : BinaryFraction) : Nat :=
  b.quarters + 2

/-- The ends of the interval round to the number exactly when its significand is even. -/
def includesEnds (b : BinaryFraction) : Bool :=
  b.significand % 2 = 0

def quarterNumerator (b : BinaryFraction) (grid : Int) : Nat :=
  Nat.pow 2 (b.exponent - 2).toNat * Nat.pow 10 (-grid).toNat

def quarterDenominator (b : BinaryFraction) (grid : Int) : Nat :=
  Nat.pow 2 (2 - b.exponent).toNat * Nat.pow 10 grid.toNat

end BinaryFraction

/-- Whether a double carries a minus sign, zero and infinity included. -/
def isNegative (x : Float) : Bool :=
  Nat.pow 2 63 ≤ x.toBits.toNat

end DocQuery
