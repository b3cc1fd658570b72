import DocQuery.Value.Order
import Mathlib

/-!
# The order of doubles

Doubles that are not undefined are ordered like their classes, exponents and
significands: the comparison of two of them is that of their ranks in a linear order.
The double of a number of a document is never undefined.
-/

namespace DocQuery

namespace Binary64

open Float.Model Float.Model.UnpackedFloat

/-- The places of doubles: class, exponent and significand, in this order. -/
abbrev Rank := ℤ ×ₗ ℤ ×ₗ ℤ

/--
Where a double in parts stands: negative before zero before positive, then by exponent
and significand.  Both zeros stand at the same place.
-/
def rankOfParts : UnpackedFloat → Rank
  | .infinity .negative => toLex (-2, toLex (0, 0))
  | .finite .negative mantissa exponent _ => toLex (-1, toLex (-exponent, -mantissa))
  | .zero _ | .notANumber => toLex (0, toLex (0, 0))
  | .finite .positive mantissa exponent _ => toLex (1, toLex (exponent, mantissa))
  | .infinity .positive => toLex (2, toLex (0, 0))

theorem compare_toLex (sign e e' m m' : ℤ) :
    compare (toLex (sign, toLex (e, m))) (toLex (sign, toLex (e', m'))) =
      (compare e e').then (compare m m') := by
  simp [Prod.Lex.compare_def, compareLex, compareOn]

theorem compare_natCast (m n : ℕ) : compare (m : ℤ) (n : ℤ) = compare m n := by
  simp only [compare, compareOfLessAndEq, Int.ofNat_lt, Int.natCast_inj]

theorem compare_neg (m n : ℤ) : compare (-m) (-n) = (compare m n).swap := by
  rw [Int.compare_swap]
  simp [compare, compareOfLessAndEq, eq_comm]

/-- Two doubles in parts compare like the places where they stand. -/
theorem compare_parts {x y : UnpackedFloat} (hx : x.isNaN = false) (hy : y.isNaN = false) :
    x.compare y = some (compare (rankOfParts x) (rankOfParts y)) := by
  cases x with
  | notANumber => cases hx
  | infinity s =>
      cases y with
      | notANumber => cases hy
      | infinity t => cases s <;> cases t <;> rfl
      | zero t => cases s <;> rfl
      | finite t m' e' _ => cases s <;> cases t <;> rfl
  | zero s =>
      cases y with
      | notANumber => cases hy
      | infinity t => cases t <;> rfl
      | zero t => rfl
      | finite t m' e' _ => cases t <;> rfl
  | finite s m e _ =>
      cases y with
      | notANumber => cases hy
      | infinity t => cases s <;> cases t <;> rfl
      | zero t => cases s <;> rfl
      | finite t m' e' _ =>
          cases s <;> cases t
          case negative.positive => rfl
          case positive.negative => rfl
          case positive.positive =>
            rw [rankOfParts, rankOfParts, compare_toLex, compare_natCast]
            rfl
          case negative.negative =>
            rw [rankOfParts, rankOfParts, compare_toLex, compare_neg, compare_neg, compare_natCast,
              ← Ordering.swap_then]
            rfl

/-! ## Doubles of numbers -/

theorem isNaN_roundWithAccuracy (format : Format) (s : Sign) (m : ℕ) (e : ℤ) (a : Accuracy) :
    (roundWithAccuracy format s m e a).isNaN = false := by
  unfold roundWithAccuracy
  dsimp only
  split <;> rfl

theorem isNaN_normalize (format : Format) (m e : ℤ) (zeroSign : Sign) :
    (UnpackedFloat.normalize format m e zeroSign).isNaN = false := by
  unfold UnpackedFloat.normalize
  split
  · exact isNaN_roundWithAccuracy _ _ _ _ _
  · rfl
  · exact isNaN_roundWithAccuracy _ _ _ _ _

/-- A product with a number that is neither zero nor infinite is undefined only if a factor is. -/
theorem isNaN_mul_finite (format : Format) {x : UnpackedFloat} (h : x.isNaN = false) (s : Sign)
    (m : ℕ) (e : ℤ) (hm : 0 < m) : (x.mul format (.finite s m e hm)).isNaN = false := by
  cases x with
  | notANumber => cases h
  | infinity t => rfl
  | zero t => rfl
  | finite t m' e' _ => exact isNaN_roundWithAccuracy _ _ _ _ _

theorem isNaN_ofScientific (format : Format) (m : ℕ) {e : ℤ} (h : 0 ≤ e) :
    (UnpackedFloat.ofScientific format m e).isNaN = false := by
  unfold UnpackedFloat.ofScientific
  split
  · rfl
  · split
    · rfl
    · split
      · rfl
      · exact isNaN_mul_finite format rfl _ _ _ _

theorem isNaN_unpack_packComponents (s : Sign) (exponent : BitVec 11) (fraction : BitVec 52)
    (h : exponent = -1#_ → fraction = 0#_) :
    (UnpackedFloat.unpack Format.binary64
      (packComponents Format.binary64 s exponent fraction)).isNaN = false := by
  have hmantissa : unpackMantissa (packComponents Format.binary64 s exponent fraction) = fraction :=
    unpackMantissa_packComponents
  have hexponent : unpackExponent (packComponents Format.binary64 s exponent fraction) = exponent :=
    unpackExponent_packComponents
  unfold UnpackedFloat.unpack
  dsimp only
  split
  · rename_i hlast
    rw [hmantissa, if_pos (h (hexponent.symm.trans hlast))]
    rfl
  · split
    · split <;> rfl
    · rfl

/-- Packing keeps a double defined: an exponent that does not fit gives an infinite one. -/
theorem isNaN_unpack_pack {x : UnpackedFloat} (h : x.isNaN = false) :
    (UnpackedFloat.unpack Format.binary64
      (UnpackedFloat.pack Format.binary64 x)).isNaN = false := by
  cases x with
  | notANumber => cases h
  | infinity s => exact isNaN_unpack_packComponents s _ _ fun _ => rfl
  | zero s => exact isNaN_unpack_packComponents s _ _ fun _ => rfl
  | finite s m e _ =>
      unfold UnpackedFloat.pack
      dsimp only
      split
      · exact isNaN_unpack_packComponents s _ _ fun _ => rfl
      · rename_i hfits
        split
        · -- All exponent bits are set only where the exponent does not fit.
          refine isNaN_unpack_packComponents s _ _ fun hexponent => absurd ?_ hfits
          have hbits := congrArg BitVec.toNat hexponent
          rw [BitVec.toNat_ofNat, show (-1#11).toNat = 2047 from rfl] at hbits
          omega
        · exact isNaN_unpack_packComponents s _ _ fun hexponent => absurd hexponent (by decide)

/-- The double `1.0` with its significand of 53 bits. -/
theorem unpack_one :
    (Float.ofBits 0x3FF0000000000000).toModel.unpack =
      .finite .positive 0x10000000000000 (-52) (by decide) := by
  rfl

theorem isNaN_ofNat (n : ℕ) : (Float.ofNat n).isNaN = false := by
  change (Float.ofScientific n false 0).isNaN = false
  unfold Float.ofScientific
  split
  · refine isNaN_unpack_pack ?_
    change (UnpackedFloat.mul _ _ (Float.ofBits 0x3FF0000000000000).toModel.unpack).isNaN = false
    rw [unpack_one]
    exact isNaN_mul_finite _ (isNaN_unpack_pack (isNaN_normalize _ _ _ _)) _ _ _ _
  · exact isNaN_unpack_pack (isNaN_ofScientific _ _ (Int.natCast_nonneg 0))

theorem isNaN_neg {x : Float} (h : x.isNaN = false) : (-x).isNaN = false := by
  refine isNaN_unpack_pack ?_
  change x.toModel.unpack.isNaN = false at h
  cases hx : x.toModel.unpack with
  | notANumber =>
      rw [hx] at h
      cases h
  | _ => rfl

theorem isNaN_ofInt (n : ℤ) : (Float.ofInt n).isNaN = false := by
  cases n with
  | ofNat n => exact isNaN_ofNat n
  | negSucc n => exact isNaN_neg (isNaN_ofNat _)

theorem isNaN_of_isFinite {x : Float} (h : x.isFinite = true) : x.isNaN = false := by
  change x.toModel.unpack.isFinite = true at h
  change x.toModel.unpack.isNaN = false
  cases hx : x.toModel.unpack with
  | notANumber =>
      rw [hx] at h
      cases h
  | _ => rfl

/-! ## Comparing doubles -/

def rank (x : Float) : Rank :=
  rankOfParts x.toModel.unpack

theorem lt_iff {x y : Float} (hx : x.isNaN = false) (hy : y.isNaN = false) :
    x < y ↔ rank x < rank y := by
  have hcompare := compare_parts (x := x.toModel.unpack) (y := y.toModel.unpack) hx hy
  have hlt : x < y ↔ x.toModel.unpack.compare y.toModel.unpack = some .lt := by
    change decide (x.toModel.unpack.lt y.toModel.unpack = true) = true ↔ _
    simp [UnpackedFloat.lt]
  rw [hlt, hcompare, Option.some_inj, compare_lt_iff_lt]
  rfl

theorem beq_iff {x y : Float} (hx : x.isNaN = false) (hy : y.isNaN = false) :
    (x == y) = true ↔ rank x = rank y := by
  have hcompare := compare_parts (x := x.toModel.unpack) (y := y.toModel.unpack) hx hy
  have hbeq : (x == y) = true ↔ x.toModel.unpack.compare y.toModel.unpack = some .eq := by
    change x.toModel.unpack.beq y.toModel.unpack = true ↔ _
    unfold UnpackedFloat.beq
    simp
  rw [hbeq, hcompare, Option.some_inj, compare_eq_iff_eq]
  rfl

/-- The order of two doubles is that of their places. -/
theorem compareFloats_eq {x y : Float} (hx : x.isNaN = false) (hy : y.isNaN = false) :
    Value.compareFloats x y = compare (rank x) (rank y) := by
  rw [LinearOrder.compare_eq_compareOfLessAndEq, Value.compareFloats, compareOfLessAndEq]
  simp only [lt_iff hx hy, beq_iff hx hy]

end Binary64

namespace Number

theorem isNaN_toFloat (n : Number) : n.toFloat.isNaN = false := by
  cases n with
  | integer n => exact Binary64.isNaN_ofInt n.val
  | float x => exact Binary64.isNaN_of_isFinite x.isFinite

end Number

end DocQuery
