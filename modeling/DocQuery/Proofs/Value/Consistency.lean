import DocQuery.Proofs.Value.Equality

/-!
# Where the comparison is an order

Equality is an equivalence of all values.  On one scale, null included, the comparison is
that of a linear order: it turns round with its operands and is transitive.
-/

namespace DocQuery

namespace Value

theorem compare_swap {scale : Scale} {a b : Value} (ha : a.On scale) (hb : b.On scale) :
    a.compare b = (b.compare a).swap := by
  rw [compare_eq_of_on ha hb, compare_eq_of_on hb ha, Std.OrientedOrd.eq_swap]

/-- On one scale a comparison comes out the same across a value between two others. -/
theorem compare_trans {scale : Scale} {a b c : Value} (ha : a.On scale) (hb : b.On scale)
    (hc : c.On scale) {order : Ordering} (hab : a.compare b = order) (hbc : b.compare c = order) :
    a.compare c = order := by
  rw [compare_eq_of_on ha hb] at hab
  rw [compare_eq_of_on hb hc] at hbc
  rw [compare_eq_of_on ha hc]
  cases order with
  | lt => exact compare_lt_iff_lt.mpr ((compare_lt_iff_lt.mp hab).trans (compare_lt_iff_lt.mp hbc))
  | eq => exact compare_eq_iff_eq.mpr ((compare_eq_iff_eq.mp hab).trans (compare_eq_iff_eq.mp hbc))
  | gt => exact compare_gt_iff_gt.mpr ((compare_gt_iff_gt.mp hbc).trans (compare_gt_iff_gt.mp hab))

theorem isLE_compare_iff {scale : Scale} {a b : Value} (ha : a.On scale) (hb : b.On scale) :
    (a.compare b).isLE ↔ a.rank ≤ b.rank := by
  rw [compare_eq_of_on ha hb, ← compare_le_iff_le, ← Ordering.ne_gt_iff_isLE]

theorem isLE_trans {scale : Scale} {a b c : Value} (ha : a.On scale) (hb : b.On scale)
    (hc : c.On scale) (hab : (a.compare b).isLE) (hbc : (b.compare c).isLE) :
    (a.compare c).isLE := by
  rw [isLE_compare_iff ha hb] at hab
  rw [isLE_compare_iff hb hc] at hbc
  rw [isLE_compare_iff ha hc]
  exact hab.trans hbc

/--
Equality is reflexive, symmetric and transitive on all values, and null is below every other
value.  Among null and the numbers, null and the texts, or null and the booleans, a comparison
is the reverse of the one with its operands swapped, and it is transitive: two comparisons
with the same outcome have it together, and so have two of which neither comes out greater.
-/
theorem compare_consistent :
    (∀ a : Value, a.equal a) ∧ (∀ a b : Value, a.equal b → b.equal a) ∧
    (∀ a b c : Value, a.equal b → b.equal c → a.equal c) ∧
    (∀ value : Value, value ≠ null → null.compare value = .lt ∧ value.compare null = .gt) ∧
    ∀ (scale : Scale) (a b c : Value), a.On scale → b.On scale → c.On scale →
      a.compare b = (b.compare a).swap ∧
      (∀ order, a.compare b = order → b.compare c = order → a.compare c = order) ∧
      ((a.compare b).isLE → (b.compare c).isLE → (a.compare c).isLE) := by
  refine ⟨equal_refl, fun a b hab => equal_comm a b ▸ hab, fun a b c => equal_trans,
    fun value hvalue => ⟨compare_null_left hvalue, compare_null_right hvalue⟩, ?_⟩
  intro scale a b c ha hb hc
  exact ⟨compare_swap ha hb, fun order => compare_trans ha hb hc, isLE_trans ha hb hc⟩

/-- Null, an integer and the double above it, in this order. -/
theorem compare_consistent_numbers :
    let one : Value := .number (.integer ⟨1, by decide, by decide⟩)
    let more : Value := .number (.float ⟨1.5, by decide⟩)
    null.compare one = .lt ∧ one.compare more = .lt ∧ null.compare more = .lt ∧
      one.compare more = (more.compare one).swap ∧ one.equal one ∧
      ((null.compare one).isLE → (one.compare more).isLE → (null.compare more).isLE) := by
  intro one more
  obtain ⟨hrefl, -, -, hnull, hscale⟩ := compare_consistent
  obtain ⟨-, htrans, hle⟩ := hscale .numbers null one more (.null _) (.number _) (.number _)
  obtain ⟨hswap, -, -⟩ := hscale .numbers one more null (.number _) (.number _) (.null _)
  have hone : null.compare one = .lt := (hnull one (by simp [one])).1
  have hmore : one.compare more = .lt := by decide +kernel
  exact ⟨hone, hmore, htrans .lt hone hmore, hswap, hrefl one, hle⟩

end Value

end DocQuery
