import DocQuery.Value.Number
import Mathlib

/-!
# Negating a double

Negation changes the sign of a double and keeps its exponent and its fraction, so that
two negations give the same double.  The one undefined double is its own negation.
-/

namespace DocQuery

namespace Binary64

open Float.Model Float.Model.UnpackedFloat

def negated (bits : BitVec 64) : BitVec 64 :=
  UnpackedFloat.pack Format.binary64 (UnpackedFloat.unpack Format.binary64 bits).neg

theorem neg_neg_sign (s : Sign) : - -s = s := by
  cases s <;> rfl

theorem neg_neg_unpacked (x : UnpackedFloat) : x.neg.neg = x := by
  cases x <;> simp [UnpackedFloat.neg, neg_neg_sign]

/-- Bits that differ in the sign alone unpack to a number and its negation. -/
theorem unpack_packComponents_neg {format : Format} (s : Sign)
    (exponent : BitVec format.exponentBits)
    (fraction : BitVec format.mantissaBitsWithoutImplicit) :
    UnpackedFloat.unpack format (packComponents format (-s) exponent fraction) =
      (UnpackedFloat.unpack format (packComponents format s exponent fraction)).neg := by
  simp only [UnpackedFloat.unpack, unpackSign_packComponents, unpackExponent_packComponents,
    unpackMantissa_packComponents, Sign.ofBitVec_toBitVec]
  split
  · split <;> rfl
  · split
    · split <;> rfl
    · rfl

/-- What negation packs unpacks to the negation. -/
theorem unpack_negated {bits : BitVec 64} (h : Format.binary64.Valid bits) :
    UnpackedFloat.unpack Format.binary64 (negated bits) =
      (UnpackedFloat.unpack Format.binary64 bits).neg := by
  by_cases hnan : bits = packedNaN Format.binary64
  · rw [negated, hnan, unpack_packedNaN]
    exact unpack_packedNaN
  · obtain ⟨s, exponent, fraction, rfl⟩ :
        ∃ s exponent fraction, bits = packComponents Format.binary64 s exponent fraction :=
      ⟨_, _, _, Eq.symm <|
        @packComponents_unpackSign_unpackExponent_unpackMantissa Format.binary64 bits⟩
    -- With the sign changed the bits are still those of a double, since they are no NaN.
    have hvalid :
        Format.binary64.Valid (packComponents Format.binary64 (-s) exponent fraction) := by
      refine ⟨fun hexponent hfraction => absurd ?_ hnan⟩
      rw [unpackExponent_packComponents] at hexponent
      rw [unpackMantissa_packComponents] at hfraction
      exact h.eq_packedNaN (by rwa [unpackExponent_packComponents])
        (by rwa [unpackMantissa_packComponents])
    rw [negated, ← unpack_packComponents_neg, pack_unpack_of_valid hvalid]

theorem negated_negated {bits : BitVec 64} (h : Format.binary64.Valid bits) :
    negated (negated bits) = bits := by
  rw [negated, unpack_negated h, neg_neg_unpacked]
  exact pack_unpack_of_valid h

/-- A double is known by its parts. -/
theorem eq_of_unpack_eq {x y : Float} (h : x.toModel.unpack = y.toModel.unpack) : x = y := by
  obtain ⟨bits, hvalid⟩ := x
  obtain ⟨bits', hvalid'⟩ := y
  have hbits : bits.toBitVec = bits'.toBitVec :=
    (pack_unpack_of_valid hvalid).symm.trans
      ((congrArg (UnpackedFloat.pack Format.binary64) h).trans (pack_unpack_of_valid hvalid'))
  exact congrArg Float.ofModel (Float.Model.mk.injEq _ _ _ _ ▸ UInt64.toBitVec_inj.mp hbits)

end Binary64

/-- Negating a double twice gives the same double. -/
theorem Binary64.neg_neg (x : Float) : -(-x) = x := by
  obtain ⟨bits, hvalid⟩ := x
  have hbits : UInt64.ofBitVec (Binary64.negated (Binary64.negated bits.toBitVec)) = bits := by
    rw [Binary64.negated_negated hvalid]
  exact congrArg Float.ofModel (Float.Model.mk.injEq _ _ _ _ ▸ hbits)

end DocQuery
