import DocQuery.Function.Apply
import Mathlib.Data.Int.Bitwise

/-!
# Functions of signed words

A function of two integers reads them as signed words of 64 bits.  It gives the exact integer
when that is a signed word again, and null otherwise: no result wraps around.  Only the shift
to the left drops bits, and it does so by its meaning.
-/

namespace DocQuery

/-! ## Integers that are signed words -/

namespace FitsSigned

variable {m n : Int}

/-- The only quotient of signed words that is none is that of the least one by minus one. -/
theorem tdiv_iff (h : FitsSigned m) (n : Int) :
    FitsSigned (m.tdiv n) ↔ ¬(m = -9223372036854775808 ∧ n = -1) := by
  constructor
  · rintro hquotient ⟨rfl, rfl⟩
    exact absurd hquotient (by decide)
  · intro hne
    have hquotient : (m.tdiv n).natAbs = m.natAbs / n.natAbs := Int.natAbs_tdiv m n
    unfold FitsSigned at h ⊢
    by_cases hone : n.natAbs = 1
    · rcases (by omega : n = 1 ∨ n = -1) with rfl | rfl
      · rwa [Int.tdiv_one]
      · rw [Int.tdiv_neg, Int.tdiv_one]
        omega
    · -- Any other divisor but zero at least halves the distance from zero.
      have hhalf : m.natAbs / n.natAbs ≤ m.natAbs / 2 := by
        rcases Nat.eq_zero_or_pos n.natAbs with hzero | hpos
        · rw [hzero, Nat.div_zero]
          exact Nat.zero_le _
        · exact Nat.div_le_div_left (by omega) (by decide)
      omega

/-- A remainder lies between zero and what is divided, and so does the rest of it. -/
theorem tmod (h : FitsSigned m) (n : Int) :
    FitsSigned (m.tmod n) ∧ FitsSigned (m - m.tmod n) := by
  have hle : (m.tmod n).natAbs ≤ m.natAbs := by
    rw [Int.natAbs_tmod]
    exact Nat.mod_le _ _
  have hpos : 0 ≤ m → 0 ≤ m.tmod n := Int.tmod_nonneg n
  have hneg : m ≤ 0 → 0 ≤ -m.tmod n := by
    intro hm
    rw [← Int.neg_tmod]
    exact Int.tmod_nonneg n (Int.neg_nonneg.mpr hm)
  unfold FitsSigned at h ⊢
  omega

/-- The multiple of the divisor that a quotient stands for is a signed word. -/
theorem tdiv_mul (h : FitsSigned m) (n : Int) : FitsSigned (m.tdiv n * n) := by
  rw [Int.tdiv_mul_self]
  exact (h.tmod n).2

/-- The two's complement of a signed word repeats its last bit from there on. -/
theorem testBit_eq_getLsbD (h : FitsSigned m) (i : Nat) :
    m.testBit i = (BitVec.ofInt 64 m).getLsbD (min i 63) := by
  have hplace : min i 63 < 64 := by omega
  have hhigh {k : Nat} (hk : k < 2 ^ 63) : k.testBit i = k.testBit (min i 63) := by
    rcases Nat.le_total i 63 with hi | hi
    · rw [Nat.min_eq_left hi]
    · rw [Nat.min_eq_right hi, Nat.testBit_lt_two_pow hk,
        Nat.testBit_lt_two_pow (Nat.lt_of_lt_of_le hk (Nat.pow_le_pow_right (by decide) hi))]
  obtain ⟨hleast, hgreatest⟩ := h
  cases m with
  | ofNat k =>
      have hk : k < 2 ^ 63 := by
        rw [Int.ofNat_eq_natCast] at hgreatest
        omega
      rw [Int.ofNat_eq_natCast, BitVec.ofInt_natCast, BitVec.getLsbD_ofNat]
      simp [hplace, ← hhigh hk, Int.testBit]
  | negSucc k =>
      have hk : k < 2 ^ 63 := by omega
      rw [BitVec.ofInt_negSucc_eq_not_ofNat, BitVec.getLsbD_not, BitVec.getLsbD_ofNat]
      simp [hplace, ← hhigh hk, Int.testBit]

theorem toInt (x : BitVec 64) : FitsSigned x.toInt := by
  have hleast := BitVec.le_toInt x
  have hgreatest := BitVec.toInt_lt (x := x)
  unfold FitsSigned
  omega

theorem toInt_ofInt (h : FitsSigned m) : (BitVec.ofInt 64 m).toInt = m := by
  have hgreatest := h.2
  exact BitVec.toInt_ofInt_eq_self (by decide) h.1 (by omega)

end FitsSigned

/-! ## Results of calls -/

/-- A result is a given integer, which is a signed word, but null in the cases left out. -/
def Value.IsIntegerUnless (result : Value) (leftOut : Prop) (n : Int) : Prop :=
  (leftOut → result = .null) ∧ (¬leftOut → result.toInt? = some n)

theorem Value.isIntegerUnless_ofInt (n : Int) :
    (Value.ofInt n).IsIntegerUnless (¬FitsSigned n) n :=
  ⟨Value.ofInt_eq_null_iff.mpr, fun h => Value.toInt?_ofInt (not_not.mp h)⟩

namespace WordFunction

variable {f : WordFunction} {a b : Value} {m n : Int}

/-- A call on two signed words computes with these. -/
theorem apply_words (hf : f ≠ complement) (ha : a.toInt? = some m) (hb : b.toInt? = some n) :
    f.apply [a, b] = (f.compute? m n).elim .null .ofInt := by
  have hsecond : (if f = complement then a else b).toInt? = some n := by rwa [if_neg hf]
  simp only [apply, List.getD_cons_zero, List.getD_cons_succ, ha, hsecond]
  cases f.compute? m n <;> rfl

theorem apply_eq_null (hf : f ≠ complement) (h : a.toInt? = none ∨ b.toInt? = none) :
    f.apply [a, b] = .null := by
  simp only [apply, List.getD_cons_zero, List.getD_cons_succ, if_neg hf]
  rcases h with h | h
  · rw [h]
  · rw [h]
    cases a.toInt? <;> rfl

/-- Quotient and remainder are exact where both exist, which is but for two cases. -/
theorem apply_division (ha : a.toInt? = some m) (hb : b.toInt? = some n) :
    let leftOut := n = 0 ∨ (m = -9223372036854775808 ∧ n = -1)
    (divide.apply [a, b]).IsIntegerUnless leftOut (m.tdiv n) ∧
      (remainder.apply [a, b]).IsIntegerUnless leftOut (m.tmod n) := by
  intro leftOut
  have hm : FitsSigned m := (Value.toInt?_eq_some_iff.mp ha).1
  have hquotient : ¬FitsSigned (m.tdiv n) ↔ m = -9223372036854775808 ∧ n = -1 := by
    rw [hm.tdiv_iff n, not_not]
  have hdivide : divide.apply [a, b] = if leftOut then .null else .ofInt (m.tdiv n) := by
    rw [apply_words (by decide) ha hb, compute?]
    by_cases hn : n = 0
    · simp [leftOut, hn]
    · by_cases hleast : m = -9223372036854775808 ∧ n = -1
      · rw [if_neg hn, if_pos (.inr hleast)]
        exact Value.ofInt_eq_null_iff.mpr (hquotient.mpr hleast)
      · rw [if_neg hn, if_neg (not_or.mpr ⟨hn, hleast⟩)]
        rfl
  have hremainder : remainder.apply [a, b] = if leftOut then .null else .ofInt (m.tmod n) := by
    rw [apply_words (by decide) ha hb, compute?]
    simp only [hquotient, leftOut]
    split <;> rfl
  rw [hdivide, hremainder]
  refine ⟨⟨fun h => if_pos h, fun h => ?_⟩, fun h => if_pos h, fun h => ?_⟩
  · rw [if_neg h]
    exact Value.toInt?_ofInt ((hm.tdiv_iff n).mpr (not_or.mp h).2)
  · rw [if_neg h]
    exact Value.toInt?_ofInt (hm.tmod n).1

/-- The bits of the two's complement of a result are computed place by place. -/
theorem testBit_onBits (hm : FitsSigned m) (hn : FitsSigned n)
    {f : BitVec 64 → BitVec 64 → BitVec 64} {g : Bool → Bool → Bool}
    (hf : ∀ x y i, (f x y).getLsbD i = g (x.getLsbD i) (y.getLsbD i)) (i : Nat) :
    (onBits f m n).testBit i = g (m.testBit i) (n.testBit i) := by
  have hfits : FitsSigned (onBits f m n) := .toInt _
  rw [hfits.testBit_eq_getLsbD, onBits, BitVec.ofInt_toInt, hf, hm.testBit_eq_getLsbD,
    hn.testBit_eq_getLsbD]

theorem apply_bits (hf : f ≠ complement) (ha : a.toInt? = some m) (hb : b.toInt? = some n)
    {onWords : BitVec 64 → BitVec 64 → BitVec 64} {onBool : Bool → Bool → Bool}
    (hcompute : f.compute? m n = some (onBits onWords m n))
    (hbits : ∀ x y i, (onWords x y).getLsbD i = onBool (x.getLsbD i) (y.getLsbD i)) :
    ∃ r : Int, (f.apply [a, b]).toInt? = some r ∧
      ∀ i, r.testBit i = onBool (m.testBit i) (n.testBit i) := by
  refine ⟨onBits onWords m n, ?_, ?_⟩
  · rw [apply_words hf ha hb, hcompute]
    exact Value.toInt?_ofInt (.toInt _)
  · exact testBit_onBits (Value.toInt?_eq_some_iff.mp ha).1 (Value.toInt?_eq_some_iff.mp hb).1 hbits

/-- A shift by fewer places than a word has is that of its two's complement. -/
theorem apply_shifts (ha : a.toInt? = some m) (hb : b.toInt? = some n) :
    let leftOut := ¬(0 ≤ n ∧ n ≤ 63)
    (shiftLeft.apply [a, b]).IsIntegerUnless leftOut ((m * 2 ^ n.toNat).bmod (2 ^ 64)) ∧
      (shiftRight.apply [a, b]).IsIntegerUnless leftOut (m / 2 ^ n.toNat) := by
  intro leftOut
  have hm : FitsSigned m := (Value.toInt?_eq_some_iff.mp ha).1
  have hplaces : (0 ≤ n ∧ n < 64) ↔ ¬leftOut := by
    rw [not_not]
    omega
  have hleft : (BitVec.ofInt 64 m <<< n.toNat).toInt = (m * 2 ^ n.toNat).bmod (2 ^ 64) := by
    have hnonneg : 0 ≤ m % (2 ^ 64 : Nat) := Int.emod_nonneg m (by decide)
    rw [BitVec.toInt_shiftLeft, BitVec.toNat_ofInt, Nat.shiftLeft_eq, Nat.cast_mul,
      Int.toNat_of_nonneg hnonneg, Int.emod_mul_bmod, Nat.cast_pow, Nat.cast_ofNat]
  have hright : ((BitVec.ofInt 64 m).sshiftRight n.toNat).toInt = m / 2 ^ n.toNat := by
    rw [BitVec.toInt_sshiftRight, hm.toInt_ofInt, Int.shiftRight_eq_div_pow]
    norm_cast
  have happly {f : WordFunction} {r : Int} (hf : f ≠ complement) (hr : FitsSigned r)
      (hcompute : f.compute? m n = if 0 ≤ n ∧ n < 64 then some r else none) :
      (f.apply [a, b]).IsIntegerUnless leftOut r := by
    rw [apply_words hf ha hb, hcompute]
    refine ⟨fun h => ?_, fun h => ?_⟩
    · rw [if_neg (fun hn => hplaces.mp hn h)]
      rfl
    · rw [if_pos (hplaces.mpr h)]
      exact Value.toInt?_ofInt hr
  rw [← hleft, ← hright]
  exact ⟨happly (by decide) (.toInt _) rfl, happly (by decide) (.toInt _) rfl⟩

/-- A quotient gives back what was divided, and all that is computed on the way exists. -/
theorem apply_divide_back (ha : a.toInt? = some m) (hb : b.toInt? = some n)
    (hquotient : divide.apply [a, b] ≠ .null) :
    let product := multiply.apply [divide.apply [a, b], b]
    product ≠ .null ∧ remainder.apply [a, b] ≠ .null ∧
      add.apply [product, remainder.apply [a, b]] = a := by
  intro product
  obtain ⟨hm, rfl⟩ := Value.toInt?_eq_some_iff.mp ha
  obtain ⟨hdivide, hremainder⟩ := apply_division ha hb
  have hdefined := fun h => hquotient (hdivide.1 h)
  have hq := hdivide.2 hdefined
  have hr := hremainder.2 hdefined
  have hproduct : product.toInt? = some (m.tdiv n * n) := by
    have happly : product = .ofInt (m.tdiv n * n) := apply_words (by decide) hq hb
    rw [happly]
    exact Value.toInt?_ofInt (hm.tdiv_mul n)
  have hne {value : Value} {r : Int} (h : value.toInt? = some r) : value ≠ .null := by
    rintro rfl
    cases h
  refine ⟨hne hproduct, hne hr, ?_⟩
  have hsum : add.apply [product, remainder.apply [.ofInt m, b]] =
      .ofInt (m.tdiv n * n + m.tmod n) := apply_words (by decide) hproduct hr
  rw [hsum, Int.tdiv_mul_add_tmod]

end WordFunction

namespace Function

open WordFunction (add subtract multiply divide remainder conjunction disjunction difference
  shiftLeft shiftRight)

/--
A function of two words is null unless both are integers that are signed words.  Sum,
difference and product are exact, and null when they are no signed words.  Quotient and
remainder are those of the division that cuts off toward zero, and null only for a division by
zero and that of the least word by minus one.  The functions of bits work on each place of the
two's complement.  The shifts are null for a number of places outside the word; the one to the
left keeps the lower 64 bits, the one to the right rounds down.  So a division can be undone.
-/
theorem words_exact_or_null (a b : Value) :
    let call (f : WordFunction) (a b : Value) : Value := (word f).apply [a, b]
    (a.toInt? = none ∨ b.toInt? = none →
      ∀ f, f ≠ WordFunction.complement → call f a b = .null) ∧
    ∀ m n : Int, a.toInt? = some m → b.toInt? = some n →
      (call add a b).IsIntegerUnless (¬FitsSigned (m + n)) (m + n) ∧
      (call subtract a b).IsIntegerUnless (¬FitsSigned (m - n)) (m - n) ∧
      (call multiply a b).IsIntegerUnless (¬FitsSigned (m * n)) (m * n) ∧
      (call divide a b).IsIntegerUnless
        (n = 0 ∨ (m = -9223372036854775808 ∧ n = -1)) (m.tdiv n) ∧
      (call remainder a b).IsIntegerUnless
        (n = 0 ∨ (m = -9223372036854775808 ∧ n = -1)) (m.tmod n) ∧
      (∃ r : Int, (call conjunction a b).toInt? = some r ∧
        ∀ i, r.testBit i = (m.testBit i && n.testBit i)) ∧
      (∃ r : Int, (call disjunction a b).toInt? = some r ∧
        ∀ i, r.testBit i = (m.testBit i || n.testBit i)) ∧
      (∃ r : Int, (call difference a b).toInt? = some r ∧
        ∀ i, r.testBit i = (m.testBit i ^^ n.testBit i)) ∧
      (call shiftLeft a b).IsIntegerUnless (¬(0 ≤ n ∧ n ≤ 63))
        ((m * 2 ^ n.toNat).bmod (2 ^ 64)) ∧
      (call shiftRight a b).IsIntegerUnless (¬(0 ≤ n ∧ n ≤ 63)) (m / 2 ^ n.toNat) ∧
      (call divide a b ≠ .null →
        let product := call multiply (call divide a b) b
        product ≠ .null ∧ call remainder a b ≠ .null ∧
          call add product (call remainder a b) = a) := by
  intro call
  refine ⟨fun h f hf => WordFunction.apply_eq_null hf h, fun m n ha hb => ?_⟩
  have hexact {f : WordFunction} {r : Int} (hf : f ≠ .complement) (hr : f.compute? m n = some r) :
      (call f a b).IsIntegerUnless (¬FitsSigned r) r := by
    have happly : call f a b = .ofInt r := by
      rw [show call f a b = _ from WordFunction.apply_words hf ha hb, hr]
      rfl
    exact happly ▸ Value.isIntegerUnless_ofInt r
  obtain ⟨hquotient, hremainder⟩ := WordFunction.apply_division ha hb
  obtain ⟨hleft, hright⟩ := WordFunction.apply_shifts ha hb
  have hand := WordFunction.apply_bits (f := conjunction) (by decide) ha hb rfl
    fun _ _ _ => BitVec.getLsbD_and
  have hor := WordFunction.apply_bits (f := disjunction) (by decide) ha hb rfl
    fun _ _ _ => BitVec.getLsbD_or
  have hxor := WordFunction.apply_bits (f := difference) (by decide) ha hb rfl
    fun _ _ _ => BitVec.getLsbD_xor
  exact ⟨hexact (by decide) rfl, hexact (by decide) rfl, hexact (by decide) rfl, hquotient,
    hremainder, hand, hor, hxor, hleft, hright, WordFunction.apply_divide_back ha hb⟩

/-- The least word times 63 is no word; divided by 63 it can be put together again. -/
theorem words_exact_or_null_least :
    let call (f : WordFunction) (a b : Value) : Value := (word f).apply [a, b]
    let least : Value := .ofInt (-9223372036854775808)
    let places : Value := .ofInt 63
    call add least (.ofNat 9223372036854775808) = .null ∧
      call multiply least places = .null ∧
      (call shiftLeft least places).toInt? = some 0 ∧
      (call shiftRight least places).toInt? = some (-1) ∧
      call add (call multiply (call divide least places) places) (call remainder least places) =
        least := by
  intro call least places
  have hleast : least.toInt? = some (-9223372036854775808) := by decide
  have hplaces : places.toInt? = some 63 := by decide
  have hnone := (words_exact_or_null least (.ofNat 9223372036854775808)).1 (.inr (by decide))
  obtain ⟨-, -, hproduct, -, -, -, -, -, hleft, hright, hback⟩ :=
    (words_exact_or_null least places).2 _ _ hleast hplaces
  exact ⟨hnone add (by decide), hproduct.1 (by decide), hleft.2 (by decide), hright.2 (by decide),
    (hback fun h => absurd (congrArg Value.isNull h) (by decide)).2.2⟩

end Function

end DocQuery
