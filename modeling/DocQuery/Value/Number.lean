/-!
# Numbers of a document

A number is an integer of 64 bits, signed or unsigned, or a finite double.  The
two kinds stay apart: `1` and `1.0` are different numbers that compare equal.
-/

namespace DocQuery

def FitsSigned (n : Int) : Prop :=
  -9223372036854775808 ≤ n ∧ n ≤ 9223372036854775807

instance (n : Int) : Decidable (FitsSigned n) :=
  inferInstanceAs (Decidable (_ ∧ _))

/-- An integer that is a signed or an unsigned word of 64 bits. -/
structure Integer where
  val : Int
  least_le : -9223372036854775808 ≤ val
  le_greatest : val ≤ 18446744073709551615
deriving DecidableEq

/-- A double that is neither infinite nor undefined. -/
structure FiniteFloat where
  val : Float
  isFinite : val.isFinite = true

namespace Integer

def ofInt? (n : Int) : Option Integer :=
  if h : -9223372036854775808 ≤ n ∧ n ≤ 18446744073709551615 then some ⟨n, h.1, h.2⟩ else none

/-- A natural number, held at the greatest integer. -/
def ofNat (n : Nat) : Integer :=
  ⟨(min n 18446744073709551615 : Nat), by omega, by omega⟩

@[simp] theorem ofInt?_val (n : Integer) : ofInt? n.val = some n := by
  unfold ofInt?
  rw [dif_pos ⟨n.least_le, n.le_greatest⟩]

end Integer

inductive Number where
  | integer (n : Integer)
  | float (x : FiniteFloat)

namespace Number

def toFloat : Number → Float
  | integer n => Float.ofInt n.val
  | float x => x.val

def toInt? : Number → Option Int
  | integer n => if FitsSigned n.val then some n.val else none
  | float _ => none

def same : Number → Number → Bool
  | integer m, integer n => m.val == n.val
  | float x, float y => x.val == y.val
  | _, _ => false

theorem toInt?_fits {number : Number} {n : Int} (h : number.toInt? = some n) : FitsSigned n := by
  cases number with
  | integer i =>
      simp only [toInt?] at h
      split at h
      · cases h
        assumption
      · cases h
  | float x => cases h

end Number

end DocQuery
