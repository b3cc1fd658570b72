import DocQuery.Proofs.Query.Distinct
import DocQuery.Proofs.Query.Membership

/-!
# Unions and intersections

The union of two arrays holds each of their values once, so it is searched as the two are.
The intersection is what the first holds of the second, with the repeats of the second, and
tells an integer from a double of its value, which the search for a value does not.
-/

namespace DocQuery

/-- No two of the values, at different places, are the same. -/
def Value.AllDifferent (values : List Value) : Prop :=
  values.Pairwise fun a b => a.same b = false ∧ b.same a = false

theorem Listing.unrepeated_sublist {α : Type} (equal : α → α → Bool) (seen items : List α) :
    (unrepeated equal seen items).Sublist items := by
  induction items generalizing seen with
  | nil => exact .slnil
  | cons item rest ih =>
      rw [unrepeated]
      split
      · exact (ih seen).cons item
      · exact (ih _).cons_cons item

namespace ArrayFunction

theorem holdsSame_eq_true_iff {held : List Value} {value : Value} :
    holdsSame held value = true ↔ ∃ item ∈ held, item.same value = true := by
  rw [holdsSame, List.any_eq_true]

theorem holdsSame_of_same {held : List Value} {value other : Value} (h : holdsSame held value)
    (hsame : value.same other) : holdsSame held other := by
  obtain ⟨item, hitem, hvalue⟩ := holdsSame_eq_true_iff.mp h
  exact holdsSame_eq_true_iff.mpr ⟨item, hitem, Value.same_trans hvalue hsame⟩

/-- Adding what is missing appends what does not repeat. -/
theorem addMissing_eq (held values : List Value) :
    addMissing held values = held ++ Listing.unrepeated Value.same held values := by
  induction values generalizing held with
  | nil => rw [addMissing, Listing.unrepeated, List.append_nil]
  | cons value rest ih =>
      rw [addMissing, ih, Listing.unrepeated, holdsSame]
      split
      · rfl
      · rw [List.append_assoc, List.singleton_append]

end ArrayFunction

namespace Value

theorem allDifferent_unrepeated (values : List Value) :
    AllDifferent (Listing.unrepeated same [] values) :=
  (Listing.pairwise_unrepeated same [] values).imp fun {a b} h => ⟨h, b.same_comm a ▸ h⟩

/-- What a list holds of another is all different when none of it repeats in the other. -/
theorem allDifferent_filter_iff (held values : List Value) :
    AllDifferent (values.filter fun value => ArrayFunction.holdsSame held value) ↔
      values.Pairwise fun a b => ArrayFunction.holdsSame held a → a.same b = false := by
  rw [AllDifferent, List.pairwise_filter]
  refine iff_of_eq (congrArg (values.Pairwise ·) (funext₂ fun a b => propext ?_))
  constructor
  · intro h ha
    by_contra hsame
    rw [Bool.not_eq_false] at hsame
    exact Bool.false_ne_true ((h ha (ArrayFunction.holdsSame_of_same ha hsame)).1.symm.trans hsame)
  · intro h ha _
    exact ⟨h ha, b.same_comm a ▸ h ha⟩

/-- A value is among others exactly when it is among them without repeats. -/
theorem memberOf_unrepeated (x : Value) (values : List Value) :
    x.memberOf (Listing.unrepeated same [] values) = x.memberOf values := by
  rw [Bool.eq_iff_iff, memberOf_eq_true_iff, memberOf_eq_true_iff]
  constructor
  · rintro ⟨value, hvalue, hequal⟩
    exact ⟨value, (Listing.unrepeated_sublist same [] values).subset hvalue, hequal⟩
  · rintro ⟨value, hvalue, hequal⟩
    obtain ⟨kept, hkept, hsame⟩ := Listing.exists_equal_of_mem same_refl [] hvalue
    exact ⟨kept, hkept, equal_trans (equal_of_same hsame) hequal⟩

theorem memberOf_append (x : Value) (as bs : List Value) :
    x.memberOf (as ++ bs) = (x.memberOf as || x.memberOf bs) :=
  List.any_append

/-- What is among the values that a list holds of another has the same equal in both. -/
theorem memberOf_filter_iff (x : Value) (held values : List Value) :
    x.memberOf (values.filter fun value => ArrayFunction.holdsSame held value) = true ↔
      ∃ u ∈ held, ∃ v ∈ values, u.same v = true ∧ u.equal x = true := by
  rw [memberOf_eq_true_iff]
  constructor
  · rintro ⟨v, hv, hequal⟩
    obtain ⟨hv, hheld⟩ := List.mem_filter.mp hv
    obtain ⟨u, hu, hsame⟩ := ArrayFunction.holdsSame_eq_true_iff.mp hheld
    exact ⟨u, hu, v, hv, hsame, equal_trans (equal_of_same hsame) hequal⟩
  · rintro ⟨u, hu, v, hv, hsame, hequal⟩
    have hheld : ArrayFunction.holdsSame held v :=
      ArrayFunction.holdsSame_eq_true_iff.mpr ⟨u, hu, hsame⟩
    refine ⟨v, List.mem_filter.mpr ⟨hv, hheld⟩, ?_⟩
    exact equal_trans (equal_of_same (u.same_comm v ▸ hsame)) hequal

end Value

namespace Function

variable (a b : List Value)

theorem apply_union : (array .union).apply [.array a, .array b] =
    .array (Listing.unrepeated Value.same [] (a ++ b)) :=
  congrArg Value.array (ArrayFunction.addMissing_eq [] (a ++ b))

theorem apply_intersect : (array .intersect).apply [.array a, .array b] =
    .array (b.filter fun value => ArrayFunction.holdsSame a value) :=
  rfl

/--
The values of a union are all different.  Those of an intersection are so exactly when no
value that the first array holds repeats in the second.
-/
theorem allDifferent_setFunctions :
    (∃ values, (array .union).apply [.array a, .array b] = .array values ∧
      Value.AllDifferent values) ∧
    ∃ values, (array .intersect).apply [.array a, .array b] = .array values ∧
      (Value.AllDifferent values ↔
        b.Pairwise fun v w => ArrayFunction.holdsSame a v → v.same w = false) :=
  ⟨⟨_, apply_union a b, Value.allDifferent_unrepeated (a ++ b)⟩,
    _, apply_intersect a b, Value.allDifferent_filter_iff a b⟩

/-- The intersection with an array that repeats a value repeats it. -/
theorem not_allDifferent_intersect :
    let one : Value := .ofInt 1
    (array .intersect).apply [.array [one], .array [one, one]] = .array [one, one] ∧
      ¬Value.AllDifferent [one, one] := by
  refine ⟨rfl, fun h => ?_⟩
  exact absurd (List.pairwise_pair.mp h).1 (by decide)

/--
A union is searched as its two arrays are.  An intersection holds what is equal to a value
that both arrays have; so what it holds both hold, and the other way round for all but
numbers.
-/
theorem contains_setFunctions (x : Value) :
    let search (held : Value) : Value := (array .contains).apply [held, x]
    ∃ inFirst inSecond inBoth : Bool,
      search (.array a) = .bool inFirst ∧ search (.array b) = .bool inSecond ∧
      search ((array .union).apply [.array a, .array b]) = .bool (inFirst || inSecond) ∧
      search ((array .intersect).apply [.array a, .array b]) = .bool inBoth ∧
      (inBoth = true ↔ ∃ u ∈ a, ∃ v ∈ b, u.same v = true ∧ u.equal x = true) ∧
      (inBoth = true → inFirst = true ∧ inSecond = true) ∧
      ((∀ n, x ≠ .number n) → inBoth = (inFirst && inSecond)) := by
  intro search
  have hboth := x.memberOf_filter_iff a b
  have hparts : x.memberOf (b.filter fun value => ArrayFunction.holdsSame a value) = true →
      x.memberOf a = true ∧ x.memberOf b = true := by
    intro h
    obtain ⟨u, hu, v, hv, hsame, hequal⟩ := hboth.mp h
    have hsecond : v.equal x :=
      Value.equal_trans (Value.equal_of_same (u.same_comm v ▸ hsame)) hequal
    exact ⟨Value.memberOf_eq_true_iff.mpr ⟨u, hu, hequal⟩,
      Value.memberOf_eq_true_iff.mpr ⟨v, hv, hsecond⟩⟩
  refine ⟨_, _, _, apply_contains x a, apply_contains x b, ?_, ?_, hboth, hparts, fun hx => ?_⟩
  · rw [apply_union, ← Value.memberOf_append, ← Value.memberOf_unrepeated]
    exact apply_contains x _
  · rw [apply_intersect]
    exact apply_contains x _
  · rw [Bool.eq_iff_iff, Bool.and_eq_true]
    refine ⟨hparts, fun hfound => ?_⟩
    obtain ⟨u, hu, hfirst⟩ := Value.memberOf_eq_true_iff.mp hfound.1
    obtain ⟨v, hv, hsecond⟩ := Value.memberOf_eq_true_iff.mp hfound.2
    have hsame : u.same v :=
      Value.same_trans (Value.same_of_equal hx hfirst)
        (v.same_comm x ▸ Value.same_of_equal hx hsecond)
    exact hboth.mpr ⟨u, hu, v, hv, hsame, hfirst⟩

/-- A text behind arrays that are equal to no other is found in what both arrays hold. -/
theorem contains_setFunctions_text :
    let x : Value := .text "x"
    let a : List Value := [.array [.ofInt 1], x, x]
    let b : List Value := [.array [.ofFloat 1.0], x]
    (∀ n, x ≠ .number n) ∧
      (array .contains).apply [(array .union).apply [.array a, .array b], x] = .bool true ∧
      (array .contains).apply [(array .intersect).apply [.array a, .array b], x] = .bool true := by
  intro x a b
  have hx : ∀ n, x ≠ .number n := fun _ => Value.noConfusion
  obtain ⟨inFirst, inSecond, inBoth, hfirst, hsecond, hunion, hintersect, -, -, hand⟩ :=
    contains_setFunctions a b x
  obtain rfl : inFirst = true := Value.bool.inj (hfirst.symm.trans rfl)
  obtain rfl : inSecond = true := Value.bool.inj (hsecond.symm.trans rfl)
  obtain rfl : inBoth = true := hand hx
  exact ⟨hx, hunion, hintersect⟩

/-- An integer and the double of its value are equal, and have nothing in common as arrays. -/
theorem not_contains_intersect :
    let one : Value := .ofInt 1
    let alike : Value := .ofFloat 1.0
    (array .contains).apply [.array [one], one] = .bool true ∧
      (array .contains).apply [.array [alike], one] = .bool true ∧
      (array .contains).apply [(array .intersect).apply [.array [one], .array [alike]], one] =
        .bool false :=
  ⟨rfl, rfl, rfl⟩

end Function

end DocQuery
