import DocQuery.Function.Basic
import DocQuery.Value.Basic

/-!
# Functions of the rows of a group

An aggregate sees one value for each row.  Counting leaves out null; the others
leave out what is not a number, and are null when nothing is left.
-/

namespace DocQuery

namespace Aggregate

def greatestFloat : Float := 1.7976931348623157e308

/-- The sum of doubles from left to right; the empty sum is the negative zero. -/
def total (xs : List Float) : Float :=
  xs.foldl (· + ·) (-0.0)

def greatest (xs : List Float) : Float :=
  xs.foldl (fun best x => if best < x then x else best) (-greatestFloat)

def least (xs : List Float) : Float :=
  xs.foldl (fun best x => if x < best then x else best) greatestFloat

def ofFloats (f : Aggregate) (xs : List Float) : Float :=
  match f with
  | average => total xs / Float.ofNat xs.length
  | maximum => greatest xs
  | minimum => least xs
  | _ => total xs

def apply (f : Aggregate) (values : List Value) : Value :=
  match f with
  | count => .ofNat (values.countP fun value => !value.isNull)
  | other =>
      let xs := values.filterMap Value.toFloat?
      if xs.isEmpty then .null else .ofFloat (other.ofFloats xs)

end Aggregate

end DocQuery
