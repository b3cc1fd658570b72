import DocQuery.Proofs.Value.Comparison
import Mathlib.Data.List.Forall2

/-!
# Equal values

Two notions of equality are in use.  Structural identity tells an integer from a double,
the comparison of two numbers does not, and inside arrays and objects the comparison is
structural identity.  Both are kernels of a map, hence equivalences, and identity is the
finer of the two.
-/

namespace DocQuery

namespace Number

/-- What structural identity sees of a number: an integer, or the place of a double. -/
def place : Number → ℤ ⊕ Binary64.Rank
  | integer n => .inl n.val
  | float x => .inr (Binary64.rank x.val)

theorem same_iff_place_eq (m n : Number) : m.same n = true ↔ m.place = n.place := by
  cases m with
  | integer i =>
      cases n with
      | integer j => simp [same, place]
      | float y => simp [same, place]
  | float x =>
      cases n with
      | integer j => simp [same, place]
      | float y =>
          rw [same, place, place, Sum.inr.injEq]
          exact Binary64.beq_iff (isNaN_toFloat (.float x)) (isNaN_toFloat (.float y))

/-- Identical numbers denote the same double. -/
theorem rank_eq_of_same {m n : Number} (h : m.same n) :
    Binary64.rank m.toFloat = Binary64.rank n.toFloat := by
  rw [same_iff_place_eq] at h
  cases m with
  | integer i =>
      cases n with
      | integer j =>
          have hval : i.val = j.val := Sum.inl.inj h
          rw [toFloat, toFloat, hval]
      | float y => cases h
  | float x =>
      cases n with
      | integer j => cases h
      | float y => exact Sum.inr.inj h

end Number

namespace Value

inductive Shape where
  | null
  | bool (b : Bool)
  | number (place : ℤ ⊕ Binary64.Rank)
  | text (s : String)
  | array (elements : List Shape)
  | object (members : List (String × Shape))

mutual

def shape : Value → Shape
  | null => .null
  | bool b => .bool b
  | number n => .number n.place
  | text s => .text s
  | array elements => .array (shapes elements)
  | object members => .object (memberShapes members)

def shapes : List Value → List Shape
  | [] => []
  | value :: rest => shape value :: shapes rest

def memberShapes : List (String × Value) → List (String × Shape)
  | [] => []
  | (name, value) :: rest => (name, shape value) :: memberShapes rest

end

mutual

theorem same_iff_shape_eq : ∀ a b : Value, a.same b = true ↔ a.shape = b.shape
  | null, b => by cases b <;> simp [same, shape]
  | bool p, b => by cases b <;> simp [same, shape]
  | number m, b => by cases b <;> simp [same, shape, Number.same_iff_place_eq]
  | text s, b => by cases b <;> simp [same, shape]
  | array as, b => by
      cases b with
      | array bs => simpa [same, shape] using sameElements_iff_shapes_eq as bs
      | _ => simp [same, shape]
  | object ms, b => by
      cases b with
      | object ns => simpa [same, shape] using sameMembers_iff_shapes_eq ms ns
      | _ => simp [same, shape]

theorem sameElements_iff_shapes_eq :
    ∀ as bs : List Value, sameElements as bs = true ↔ shapes as = shapes bs
  | [], bs => by cases bs <;> simp [sameElements, shapes]
  | a :: as, bs => by
      cases bs with
      | nil => simp [sameElements, shapes]
      | cons b bs =>
          simp [sameElements, shapes, same_iff_shape_eq a b, sameElements_iff_shapes_eq as bs]

theorem sameMembers_iff_shapes_eq :
    ∀ ms ns : List (String × Value), sameMembers ms ns = true ↔ memberShapes ms = memberShapes ns
  | [], ns => by cases ns <;> simp [sameMembers, memberShapes]
  | (m, a) :: ms, ns => by
      cases ns with
      | nil => simp [sameMembers, memberShapes]
      | cons n ns =>
          simp [sameMembers, memberShapes, same_iff_shape_eq a n.2,
            sameMembers_iff_shapes_eq ms ns]

end

/-! ## The comparison -/

/-- What the comparison sees of a value: the double that a number denotes, or a shape. -/
def face : Value → Binary64.Rank ⊕ Shape
  | number n => .inl (Binary64.rank n.toFloat)
  | other => .inr other.shape

theorem compareFloats_eq_eq_iff {x y : Float} (hx : x.isNaN = false) (hy : y.isNaN = false) :
    compareFloats x y = .eq ↔ Binary64.rank x = Binary64.rank y := by
  rw [Binary64.compareFloats_eq hx hy, compare_eq_iff_eq]

theorem compareTexts_eq_eq_iff (a b : String) : compareTexts a b = .eq ↔ a = b := by
  rw [compareTexts_eq, compare_eq_iff_eq]

theorem compareBools_eq_eq_iff (a b : Bool) : compareBools a b = .eq ↔ a = b := by
  rw [compareBools_eq, compare_eq_iff_eq]

/-- Two values compare as equal exactly when the comparison sees the same of them. -/
theorem equal_iff_face_eq (a b : Value) : a.equal b = true ↔ a.face = b.face := by
  rw [equal_eq_true_iff]
  cases a with
  | null => cases b <;> simp [compare, face, shape]
  | bool p => cases b <;> simp [compare, face, shape, compareBools_eq_eq_iff]
  | number m =>
      cases b with
      | number n =>
          simp [compare, face, compareFloats_eq_eq_iff m.isNaN_toFloat n.isNaN_toFloat]
      | _ => simp [compare, face]
  | text s => cases b <;> simp [compare, face, shape, compareTexts_eq_eq_iff]
  | array as =>
      cases b with
      | array bs => simp [compare, face, shape, sameElements_iff_shapes_eq]
      | _ => simp [compare, face, shape]
  | object ms =>
      cases b with
      | object ns => simp [compare, face, shape, sameMembers_iff_shapes_eq]
      | _ => simp [compare, face, shape]

theorem equal_refl (a : Value) : a.equal a = true :=
  (equal_iff_face_eq a a).mpr rfl

theorem equal_comm (a b : Value) : a.equal b = b.equal a := by
  rw [Bool.eq_iff_iff, equal_iff_face_eq, equal_iff_face_eq, eq_comm]

theorem equal_trans {a b c : Value} (hab : a.equal b) (hbc : b.equal c) : a.equal c :=
  (equal_iff_face_eq a c).mpr
    (((equal_iff_face_eq a b).mp hab).trans ((equal_iff_face_eq b c).mp hbc))

theorem same_refl (a : Value) : a.same a = true :=
  (same_iff_shape_eq a a).mpr rfl

theorem same_comm (a b : Value) : a.same b = b.same a := by
  rw [Bool.eq_iff_iff, same_iff_shape_eq, same_iff_shape_eq, eq_comm]

theorem same_trans {a b c : Value} (hab : a.same b) (hbc : b.same c) : a.same c :=
  (same_iff_shape_eq a c).mpr
    (((same_iff_shape_eq a b).mp hab).trans ((same_iff_shape_eq b c).mp hbc))

/-! ## Where the two differ -/

/-- Two values that are not two different numbers. -/
def FacesAlike (a b : Value) : Prop :=
  ∀ m n, a = .number m → b = .number n → m.same n

/-- Values are identical when they are equal and are not two different numbers. -/
theorem same_iff (a b : Value) : a.same b = true ↔ a.equal b = true ∧ a.FacesAlike b := by
  rw [same_iff_shape_eq, equal_iff_face_eq]
  by_cases hnumbers : (∃ m, a = .number m) ∧ ∃ n, b = .number n
  · obtain ⟨⟨m, rfl⟩, n, rfl⟩ := hnumbers
    have hsame : (Value.number m).shape = (Value.number n).shape ↔ m.same n := by
      rw [shape, shape, Shape.number.injEq, Number.same_iff_place_eq]
    rw [hsame, face, face, Sum.inl.injEq]
    constructor
    · intro h
      refine ⟨Number.rank_eq_of_same h, ?_⟩
      rintro _ _ ⟨⟩ ⟨⟩
      exact h
    · rintro ⟨-, h⟩
      exact h m n rfl rfl
  · have hfaces : a.FacesAlike b := by
      rintro m n rfl rfl
      exact absurd ⟨⟨m, rfl⟩, n, rfl⟩ hnumbers
    have hface : a.shape = b.shape ↔ a.face = b.face := by
      cases a <;> cases b <;> simp [shape, face] at hnumbers ⊢
    rw [hface]
    exact (and_iff_left hfaces).symm

theorem equal_of_same {a b : Value} (h : a.same b) : a.equal b :=
  ((same_iff a b).mp h).1

/-- What is equal to a value that is no number is the same. -/
theorem same_of_equal {a b : Value} (hb : ∀ n, b ≠ .number n) (h : a.equal b) : a.same b :=
  (same_iff a b).mpr ⟨h, fun _ n _ hn => absurd hn (hb n)⟩

theorem sameElements_iff (as bs : List Value) :
    sameElements as bs = true ↔ List.Forall₂ (fun a b => a.same b = true) as bs := by
  induction as generalizing bs with
  | nil => cases bs <;> simp [sameElements]
  | cons a as ih => cases bs <;> simp [sameElements, ih]

theorem sameMembers_iff (ms ns : Members) :
    sameMembers ms ns = true ↔
      List.Forall₂ (fun m n => m.1 = n.1 ∧ m.2.same n.2 = true) ms ns := by
  induction ms generalizing ns with
  | nil => cases ns <;> simp [sameMembers]
  | cons m ms ih => cases ns <;> simp [sameMembers, ih]

theorem equal_array (as bs : List Value) : (array as).equal (array bs) = sameElements as bs := by
  rw [equal, compare]
  cases sameElements as bs <;> rfl

theorem equal_object (ms ns : Members) : (object ms).equal (object ns) = sameMembers ms ns := by
  rw [equal, compare]
  cases sameMembers ms ns <;> rfl

/-- Arrays of equal elements are equal when no two different numbers face each other. -/
theorem equal_array_iff {as bs : List Value}
    (h : List.Forall₂ (fun a b => a.equal b = true) as bs) :
    (array as).equal (array bs) = true ↔ List.Forall₂ FacesAlike as bs := by
  rw [equal_array, sameElements_iff]
  induction h with
  | nil => simp
  | cons hab _ ih =>
      rw [List.forall₂_cons, List.forall₂_cons, ih, same_iff, and_iff_right hab]

/-- Objects of equal members are equal when no two different numbers face each other. -/
theorem equal_object_iff {ms ns : Members}
    (h : List.Forall₂ (fun m n => m.1 = n.1 ∧ m.2.equal n.2 = true) ms ns) :
    (object ms).equal (object ns) = true ↔
      List.Forall₂ (fun m n => m.2.FacesAlike n.2) ms ns := by
  rw [equal_object, sameMembers_iff]
  induction h with
  | nil => simp
  | cons hmn _ ih =>
      rw [List.forall₂_cons, List.forall₂_cons, ih, same_iff, and_iff_right hmn.1,
        and_iff_right hmn.2]

end Value

end DocQuery
