import DocQuery.Decimal.Shortest

/-!
# Text of doubles

Which decimals are written with a power of ten, and how the point, the exponent
and the special values are spelled.
-/

namespace DocQuery

structure FloatNotation where
  /-- The least leading exponent written without a power of ten. -/
  leastPositional : Int
  /-- The greatest leading exponent written without a power of ten. -/
  greatestPositional : Int
  /-- What stands before an exponent that is not negative. -/
  exponentPlus : List Char
  /-- Whether the larger of two equally near decimals is written. -/
  tieUp : Bool

namespace FloatNotation

/--
JSON notation: positional from `0.00001` to below `1e+16`, a plus sign in larger
exponents, the even one of two equally near decimals.
-/
def json : FloatNotation := ⟨-5, 15, ['+'], false⟩

/--
Diagnostic notation: positional from `0.0001` to below `1e16`, bare exponents, the
larger of two equally near decimals.
-/
def diagnostic : FloatNotation := ⟨-4, 15, [], true⟩

def integerText (n : Int) : List Char :=
  if n < 0 then '-' :: Nat.toDigits 10 n.natAbs else Nat.toDigits 10 n.toNat

/-- Digits with a decimal point after position `leading`, at least one digit on each side. -/
def positional (digits : List Char) (leading : Int) : List Char :=
  if leading < 0 then
    ['0', '.'] ++ List.replicate (-leading - 1).toNat '0' ++ digits
  else
    let whole := leading.toNat + 1
    let fraction := digits.drop whole
    digits.take whole ++ List.replicate (whole - digits.length) '0' ++
      '.' :: (if fraction.isEmpty then ['0'] else fraction)

def scientific (style : FloatNotation) (digits : List Char) (leading : Int) : List Char :=
  digits.take 1 ++ (if digits.length ≤ 1 then [] else '.' :: digits.drop 1) ++
    'e' :: (if leading < 0 then [] else style.exponentPlus) ++ integerText leading

def decimalText (style : FloatNotation) (d : Decimal) : List Char :=
  if style.leastPositional ≤ d.leadingExponent ∧ d.leadingExponent ≤ style.greatestPositional then
    positional d.digits d.leadingExponent
  else style.scientific d.digits d.leadingExponent

def magnitude (style : FloatNotation) (x : Float) : List Char :=
  if x.isNaN then "NaN".toList
  else if x.isInf then "inf".toList
  else if x == 0.0 then "0.0".toList
  else style.decimalText ((BinaryFraction.ofFloat x).shortest style.tieUp)

def text (style : FloatNotation) (x : Float) : List Char :=
  if isNegative x && !x.isNaN then '-' :: style.magnitude x else style.magnitude x

end FloatNotation

/-- A double with six decimal places; a half goes to the even neighbour. -/
def sixPlaces (x : Float) : List Char :=
  let b := BinaryFraction.ofFloat x
  let numerator := b.significand * Nat.pow 2 b.exponent.toNat * Nat.pow 10 6
  let denominator := Nat.pow 2 (-b.exponent).toNat
  let below := numerator / denominator
  let remainder := 2 * (numerator % denominator)
  let rounded :=
    if denominator < remainder ∨ (remainder = denominator ∧ below % 2 = 1) then below + 1
    else below
  let fraction := Nat.toDigits 10 (rounded % Nat.pow 10 6)
  (if isNegative x then ['-'] else []) ++ Nat.toDigits 10 (rounded / Nat.pow 10 6) ++
    '.' :: List.replicate (6 - fraction.length) '0' ++ fraction

end DocQuery
