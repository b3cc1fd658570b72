import DocQuery.Decimal.Basic
import DocQuery.Decimal.Binary

/-!
# Shortest decimals

The decimal with the fewest digits among those that read back as a given double,
and of these the nearest to it.
-/

namespace DocQuery

namespace BinaryFraction

/-- Whether `count` steps of the grid lie in the interval that rounds to the number. -/
def admits (b : BinaryFraction) (grid : Int) (count : Nat) : Bool :=
  let point := count * b.quarterDenominator grid
  let low := b.lower * b.quarterNumerator grid
  let high := b.upper * b.quarterNumerator grid
  0 < count &&
    if b.includesEnds then low ≤ point && point ≤ high else low < point && point < high

/--
The point of the grid `10 ^ grid` that is written for the number: one of its two
neighbours, if it reads back, the nearer one when both do.
-/
def gridPoint? (tieUp : Bool) (b : BinaryFraction) (grid : Int) : Option Nat :=
  let value := b.quarters * b.quarterNumerator grid
  let unit := b.quarterDenominator grid
  let below := value / unit
  let above := below + 1
  match b.admits grid below, b.admits grid above with
  | false, false => none
  | true, false => some below
  | false, true => some above
  | true, true =>
      let remainder := 2 * (value % unit)
      if remainder < unit then some below
      else if unit < remainder then some above
      else if tieUp then some above
      else if below % 2 = 0 then some below else some above

def coarsestGrid (b : BinaryFraction) : Int :=
  let bits := b.exponent + b.significand.log2 + 1
  if 0 ≤ bits then bits / 3 + 1 else -(-bits / 4)

/--
The shortest decimal that reads back as the number: the coarsest grid of powers
of ten with a point in the rounding interval gives its digits.
-/
def shortest (tieUp : Bool) (b : BinaryFraction) : Decimal :=
  ((List.range 700).findSome? fun (step : Nat) =>
    let grid : Int := b.coarsestGrid - step
    (b.gridPoint? tieUp grid).map fun point => ⟨point, grid⟩).getD ⟨0, 0⟩

theorem admits_pos {b : BinaryFraction} {grid : Int} {count : Nat}
    (h : b.admits grid count = true) : 0 < count := by
  simp only [admits, Bool.and_eq_true, decide_eq_true_eq] at h
  exact h.1

theorem gridPoint?_admits {tieUp : Bool} {b : BinaryFraction} {grid : Int} {point : Nat}
    (h : b.gridPoint? tieUp grid = some point) : b.admits grid point = true := by
  unfold gridPoint? at h
  grind

end BinaryFraction

end DocQuery
