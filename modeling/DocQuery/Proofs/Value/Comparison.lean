import DocQuery.Proofs.Value.FloatOrder

/-!
# Comparing values of one kind

Numbers, texts and booleans each form a scale with null at its lower end.  Values of
one scale compare like their places in a linear order, whatever the representation of
their numbers.  Across scales the comparison is no order.
-/

namespace DocQuery

/-- The kinds of values that are ordered among themselves. -/
inductive Scale where
  | numbers | texts | booleans

namespace Value

inductive On : Scale → Value → Prop where
  | null (scale : Scale) : On scale .null
  | number (n : Number) : On .numbers (.number n)
  | text (s : String) : On .texts (.text s)
  | bool (b : Bool) : On .booleans (.bool b)

/--
Whether a value lies below another one on their scale: null below all others, numbers by
the doubles they denote, texts by code points, `false` below `true`.
-/
def isBelow : Value → Value → Bool
  | null, null => false
  | null, _ => true
  | number a, number b => a.toFloat < b.toFloat
  | text a, text b => a < b
  | bool a, bool b => !a && b
  | _, _ => false

/-- The places of numbers, texts and booleans, and one below them all. -/
abbrev Rank := WithBot (Binary64.Rank ⊕ₗ String ⊕ₗ Bool)

def rankOfNumber (x : Binary64.Rank) : Rank :=
  WithBot.some (toLex (.inl x))

def rankOfText (s : String) : Rank :=
  WithBot.some (toLex (.inr (toLex (.inl s))))

def rankOfBool (b : Bool) : Rank :=
  WithBot.some (toLex (.inr (toLex (.inr b))))

/-- Where a value stands; arrays and objects stand nowhere in particular. -/
def rank : Value → Rank
  | number n => rankOfNumber (Binary64.rank n.toFloat)
  | text s => rankOfText s
  | bool b => rankOfBool b
  | _ => ⊥

theorem compareTexts_eq (a b : String) : compareTexts a b = Ord.compare a b := by
  rw [LinearOrder.compare_eq_compareOfLessAndEq, compareTexts, compareOfLessAndEq]

theorem compareBools_eq (a b : Bool) : compareBools a b = Ord.compare a b := by
  cases a <;> cases b <;> rfl

/-- An order that keeps `<` keeps comparisons. -/
theorem compare_of_strictMono {α β : Type} [LinearOrder α] [LinearOrder β] {f : α → β}
    (h : StrictMono f) (a b : α) : Ord.compare (f a) (f b) = Ord.compare a b := by
  rw [← cmp_eq_compare, ← cmp_eq_compare, h.cmp_map_eq]

theorem strictMono_rankOfNumber : StrictMono rankOfNumber := fun _ _ h =>
  WithBot.coe_lt_coe.mpr (Sum.Lex.inl_strictMono h)

theorem strictMono_rankOfText : StrictMono rankOfText := fun _ _ h =>
  WithBot.coe_lt_coe.mpr (Sum.Lex.inr_strictMono (Sum.Lex.inl_strictMono h))

theorem strictMono_rankOfBool : StrictMono rankOfBool := fun _ _ h =>
  WithBot.coe_lt_coe.mpr (Sum.Lex.inr_strictMono (Sum.Lex.inr_strictMono h))

theorem bot_lt_rank {value : Value} {scale : Scale} (h : value.On scale) (hnull : value ≠ .null) :
    ⊥ < value.rank := by
  cases h with
  | null => exact absurd rfl hnull
  | number n => exact WithBot.bot_lt_coe _
  | text s => exact WithBot.bot_lt_coe _
  | bool b => exact WithBot.bot_lt_coe _

/-- Values of one scale compare like the places where they stand. -/
theorem compare_eq_of_on {scale : Scale} {a b : Value} (ha : a.On scale) (hb : b.On scale) :
    a.compare b = Ord.compare a.rank b.rank := by
  by_cases hnullA : a = .null
  · subst hnullA
    by_cases hnullB : b = .null
    · subst hnullB
      exact (compare_eq_iff_eq.mpr rfl).symm
    · rw [compare_null_left hnullB]
      exact (compare_lt_iff_lt.mpr (bot_lt_rank hb hnullB)).symm
  by_cases hnullB : b = .null
  · subst hnullB
    rw [compare_null_right hnullA]
    exact (compare_gt_iff_gt.mpr (bot_lt_rank ha hnullA)).symm
  cases ha with
  | null => exact absurd rfl hnullA
  | number m =>
      cases hb with
      | null => exact absurd rfl hnullB
      | number n =>
          rw [rank, rank, compare_of_strictMono strictMono_rankOfNumber]
          exact Binary64.compareFloats_eq m.isNaN_toFloat n.isNaN_toFloat
  | text s =>
      cases hb with
      | null => exact absurd rfl hnullB
      | text t =>
          rw [rank, rank, compare_of_strictMono strictMono_rankOfText]
          exact compareTexts_eq s t
  | bool p =>
      cases hb with
      | null => exact absurd rfl hnullB
      | bool q =>
          rw [rank, rank, compare_of_strictMono strictMono_rankOfBool]
          exact compareBools_eq p q

/-- On one scale the values below another one are those that compare as less. -/
theorem isBelow_eq_of_on {scale : Scale} {a b : Value} (ha : a.On scale) (hb : b.On scale) :
    a.isBelow b = (a.compare b == .lt) := by
  cases ha with
  | null => cases hb <;> rfl
  | number m =>
      cases hb with
      | null => rfl
      | number n =>
          rw [isBelow, compare, compareFloats]
          split <;> rename_i h
          · simp [h]
          · split <;> simp [h]
  | text s =>
      cases hb with
      | null => rfl
      | text t =>
          rw [isBelow, compare, compareTexts]
          split <;> rename_i h
          · simp only [h, decide_true]
            rfl
          · split <;> simp only [h, decide_false] <;> rfl
  | bool p =>
      cases hb with
      | null => rfl
      | bool q => cases p <;> cases q <;> rfl

end Value

end DocQuery
