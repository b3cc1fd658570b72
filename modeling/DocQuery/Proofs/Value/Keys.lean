import DocQuery.Proofs.Json.Scalars
import DocQuery.Proofs.Value.Equality
import DocQuery.Proofs.Value.Negation
import DocQuery.Value.Text

/-!
# Grouping keys of equal values

A grouping key holds the text of each value and a colon after it.  Values that compare as
equal, but are not the same down to how their numbers are represented, differ in a character
of these texts, and no text that follows can make up for it.
-/

namespace DocQuery

/-! ## Doubles of one place -/

namespace Binary64

open Float.Model Float.Model.UnpackedFloat

/-- Numbers in parts that stand at one place are the same, or zeros. -/
theorem parts_eq_or_zeros {x y : UnpackedFloat} (hx : x.isNaN = false) (hy : y.isNaN = false)
    (h : rankOfParts x = rankOfParts y) : x = y ∨ (∃ s, x = .zero s) ∧ ∃ t, y = .zero t := by
  cases x with
  | notANumber => cases hx
  | infinity s =>
      cases y with
      | notANumber => cases hy
      | infinity t => cases s <;> cases t <;> simp [rankOfParts] at h ⊢
      | zero t => cases s <;> simp [rankOfParts] at h
      | finite t m' e' _ => cases s <;> cases t <;> simp [rankOfParts] at h
  | zero s =>
      cases y with
      | notANumber => cases hy
      | infinity t => cases t <;> simp [rankOfParts] at h
      | zero t => exact .inr ⟨⟨s, rfl⟩, t, rfl⟩
      | finite t m' e' _ => cases t <;> simp [rankOfParts] at h
  | finite s m e _ =>
      cases y with
      | notANumber => cases hy
      | infinity t => cases s <;> cases t <;> simp [rankOfParts] at h
      | zero t => cases s <;> simp [rankOfParts] at h
      | finite t m' e' _ =>
          cases s <;> cases t <;> simp [rankOfParts] at h ⊢ <;> exact ⟨h.2, h.1⟩

theorem isInf_of_isFinite {x : Float} (h : x.isFinite = true) : x.isInf = false := by
  change x.toModel.unpack.isFinite = true at h
  change x.toModel.unpack.isInf = false
  cases hx : x.toModel.unpack with
  | infinity s =>
      rw [hx] at h
      cases h
  | _ => rfl

theorem eq_zero_of_unpack {x : Float} {s : Sign} (h : x.toModel.unpack = .zero s) :
    x = 0.0 ∨ x = -0.0 := by
  cases s with
  | positive =>
      have hzero : (0.0 : Float).toModel.unpack = .zero .positive := rfl
      exact .inl (eq_of_unpack_eq (h.trans hzero.symm))
  | negative =>
      have hzero : (-0.0 : Float).toModel.unpack = .zero .negative := rfl
      exact .inr (eq_of_unpack_eq (h.trans hzero.symm))

/-- Doubles of one place are the same double, or zeros. -/
theorem eq_or_zeros {x y : Float} (hx : x.isNaN = false) (hy : y.isNaN = false)
    (h : rank x = rank y) : x = y ∨ (x = 0.0 ∨ x = -0.0) ∧ (y = 0.0 ∨ y = -0.0) := by
  rcases parts_eq_or_zeros hx hy h with hparts | ⟨⟨s, hs⟩, t, ht⟩
  · exact .inl (eq_of_unpack_eq hparts)
  · exact .inr ⟨eq_zero_of_unpack hs, eq_zero_of_unpack ht⟩

end Binary64

/-! ## Texts that part -/

/-- Whether two texts differ in a character, after what they have in common in front. -/
def Apart (xs ys : List Char) : Prop :=
  ∃ front a b left right, a ≠ b ∧ xs = front ++ a :: left ∧ ys = front ++ b :: right

namespace Apart

variable {xs ys : List Char}

theorem ne (h : Apart xs ys) : xs ≠ ys := by
  obtain ⟨front, a, b, left, right, hne, rfl, rfl⟩ := h
  intro heq
  exact hne (List.cons.inj (List.append_cancel_left heq)).1

theorem append (h : Apart xs ys) (s t : List Char) : Apart (xs ++ s) (ys ++ t) := by
  obtain ⟨front, a, b, left, right, hne, rfl, rfl⟩ := h
  exact ⟨front, a, b, left ++ s, right ++ t, hne, by simp, by simp⟩

theorem prepend (h : Apart xs ys) (front : List Char) : Apart (front ++ xs) (front ++ ys) := by
  obtain ⟨common, a, b, left, right, hne, rfl, rfl⟩ := h
  exact ⟨front ++ common, a, b, left, right, hne, by simp, by simp⟩

theorem cons (h : Apart xs ys) (c : Char) : Apart (c :: xs) (c :: ys) :=
  h.prepend [c]

theorem of_head {a b : Char} (hne : a ≠ b) (left right : List Char) :
    Apart (a :: left) (b :: right) :=
  ⟨[], a, b, left, right, hne, rfl, rfl⟩

/-- Two different texts part at the latest where a character follows that neither of them has. -/
theorem of_ne {c : Char} (hne : xs ≠ ys) (hxs : c ∉ xs) (hys : c ∉ ys) (s t : List Char) :
    Apart (xs ++ c :: s) (ys ++ c :: t) := by
  induction xs generalizing ys with
  | nil =>
      cases ys with
      | nil => exact absurd rfl hne
      | cons y ys => exact of_head (List.ne_of_not_mem_cons hys) _ _
  | cons x xs ih =>
      cases ys with
      | nil => exact of_head (List.ne_of_not_mem_cons hxs).symm _ _
      | cons y ys =>
          by_cases hxy : x = y
          · subst hxy
            have hrest : xs ≠ ys := fun h => hne (h ▸ rfl)
            exact (ih hrest (List.not_mem_of_not_mem_cons hxs)
              (List.not_mem_of_not_mem_cons hys)).cons x
          · exact of_head hxy _ _

/-- Two parts that are the same or part in front of two others that are the same or part. -/
theorem of_parts {p q : Prop} {s t : List Char} (hp : p → xs = ys) (h : p ∨ Apart xs ys)
    (h' : q ∨ Apart s t) : (p ∧ q) ∨ Apart (xs ++ s) (ys ++ t) := by
  rcases h with h | hapart
  · rcases h' with h' | hapart'
    · exact .inl ⟨h, h'⟩
    · rw [hp h]
      exact .inr (hapart'.prepend ys)
  · exact .inr (hapart.append s t)

end Apart

/-! ## Texts of numbers -/

theorem isDigit_of_mem_toDigits {n : ℕ} {c : Char} (h : c ∈ Nat.toDigits 10 n) :
    c.isDigit = true :=
  Nat.isDigit_of_mem_toDigits (by decide) (by decide) h

namespace BinaryFraction

/-- A shortest decimal has a first digit, or it is zero with no power of ten. -/
theorem shortest_eq_zero_or (tieUp : Bool) (b : BinaryFraction) :
    b.shortest tieUp = ⟨0, 0⟩ ∨ (b.shortest tieUp).coefficient ≠ 0 := by
  unfold shortest
  cases h : (List.range 700).findSome? fun (step : Nat) =>
      (b.gridPoint? tieUp (b.coarsestGrid - step)).map fun point =>
        (⟨point, b.coarsestGrid - step⟩ : Decimal) with
  | none => exact .inl rfl
  | some d =>
      obtain ⟨step, -, hstep⟩ := List.exists_of_findSome?_eq_some h
      obtain ⟨point, hpoint, rfl⟩ := Option.map_eq_some_iff.mp hstep
      exact .inr (Nat.ne_of_gt (admits_pos (gridPoint?_admits hpoint)))

end BinaryFraction

namespace FloatNotation

variable {c : Char}

theorem mem_integerText {n : ℤ} (h : c ∈ integerText n) : c.isDigit = true ∨ c = '-' := by
  unfold integerText at h
  split at h
  · rcases List.mem_cons.mp h with rfl | h
    · exact .inr rfl
    · exact .inl (isDigit_of_mem_toDigits h)
  · exact .inl (isDigit_of_mem_toDigits h)

theorem mem_positional {digits : List Char} {leading : ℤ} (h : c ∈ positional digits leading) :
    c ∈ digits ∨ c = '0' ∨ c = '.' := by
  unfold positional at h
  split at h
  · simp only [List.mem_append, List.mem_cons, List.mem_replicate, List.not_mem_nil] at h
    tauto
  · rcases List.mem_append.mp h with h | h
    · rcases List.mem_append.mp h with h | h
      · exact .inl (List.mem_of_mem_take h)
      · exact .inr (.inl (List.mem_replicate.mp h).2)
    · rcases List.mem_cons.mp h with h | h
      · exact .inr (.inr h)
      · split at h
        · exact .inr (.inl (List.mem_singleton.mp h))
        · exact .inl (List.mem_of_mem_drop h)

theorem dot_mem_positional (digits : List Char) (leading : ℤ) :
    '.' ∈ positional digits leading := by
  unfold positional
  split <;> simp

theorem mem_scientific {style : FloatNotation} {digits : List Char} {leading : ℤ}
    (h : c ∈ style.scientific digits leading) :
    c ∈ digits ∨ c = '.' ∨ c = 'e' ∨ c ∈ style.exponentPlus ∨ c ∈ integerText leading := by
  rw [scientific, List.append_assoc] at h
  rcases List.mem_append.mp h with h | h
  · rcases List.mem_append.mp h with h | h
    · exact .inl (List.mem_of_mem_take h)
    · split at h
      · cases h
      · rcases List.mem_cons.mp h with h | h
        · exact .inr (.inl h)
        · exact .inl (List.mem_of_mem_drop h)
  · rcases List.mem_append.mp h with h | h
    · rcases List.mem_cons.mp h with h | h
      · exact .inr (.inr (.inl h))
      · split at h
        · cases h
        · exact .inr (.inr (.inr (.inl h)))
    · exact .inr (.inr (.inr (.inr h)))

theorem e_mem_scientific (style : FloatNotation) (digits : List Char) (leading : ℤ) :
    'e' ∈ style.scientific digits leading := by
  simp [scientific]

def signs : List Char :=
  ['-', '+', '.', 'e']

theorem mem_decimalText {d : Decimal} (h : c ∈ json.decimalText d) :
    c.isDigit = true ∨ c ∈ signs := by
  unfold decimalText at h
  split at h
  · rcases mem_positional h with h | rfl | rfl
    · exact .inl (isDigit_of_mem_toDigits h)
    · exact .inl rfl
    · exact .inr (by decide)
  · rcases mem_scientific h with h | rfl | rfl | h | h
    · exact .inl (isDigit_of_mem_toDigits h)
    · exact .inr (by decide)
    · exact .inr (by decide)
    · rw [List.mem_singleton.mp h]
      exact .inr (by decide)
    · rcases mem_integerText h with h | rfl
      · exact .inl h
      · exact .inr (by decide)

/-- The text of a decimal has a point or a power of ten. -/
theorem point_or_power_mem_decimalText (style : FloatNotation) (d : Decimal) :
    '.' ∈ style.decimalText d ∨ 'e' ∈ style.decimalText d := by
  unfold decimalText
  split
  · exact .inl (dot_mem_positional _ _)
  · exact .inr (e_mem_scientific _ _ _)

/--
The text of a finite double is its sign and the text of zero or of a decimal, which has a
first digit if there is anything to it.
-/
theorem text_of_isFinite (style : FloatNotation) {x : Float} (h : x.isFinite = true) :
    ∃ digits, (digits = "0.0".toList ∨
        ∃ d : Decimal, (d = ⟨0, 0⟩ ∨ d.coefficient ≠ 0) ∧ digits = style.decimalText d) ∧
      style.text x = (if isNegative x then ['-'] else []) ++ digits := by
  have hnan : x.isNaN = false := Binary64.isNaN_of_isFinite h
  have hinf : x.isInf = false := Binary64.isInf_of_isFinite h
  refine ⟨style.magnitude x, ?_, ?_⟩
  · rw [magnitude, if_neg (Bool.eq_false_iff.mp hnan), if_neg (Bool.eq_false_iff.mp hinf)]
    split
    · exact .inl rfl
    · exact .inr ⟨_, BinaryFraction.shortest_eq_zero_or _ _, rfl⟩
  · rw [text, hnan]
    cases isNegative x <;> rfl

theorem mem_text {x : Float} (hx : x.isFinite = true) (h : c ∈ json.text x) :
    c.isDigit = true ∨ c ∈ signs := by
  obtain ⟨digits, hdigits, htext⟩ := text_of_isFinite json hx
  rw [htext] at h
  rcases List.mem_append.mp h with h | h
  · split at h
    · rw [List.mem_singleton.mp h]
      exact .inr (by decide)
    · cases h
  · rcases hdigits with rfl | ⟨d, -, rfl⟩
    · have hzero : "0.0".toList = ['0', '.', '0'] := rfl
      simp only [hzero, List.mem_cons, List.not_mem_nil, or_false] at h
      rcases h with rfl | rfl | rfl <;> decide
    · exact mem_decimalText h

theorem point_or_power_mem_text {style : FloatNotation} {x : Float} (hx : x.isFinite = true) :
    '.' ∈ style.text x ∨ 'e' ∈ style.text x := by
  obtain ⟨digits, hdigits, htext⟩ := text_of_isFinite style hx
  have hmem : '.' ∈ digits ∨ 'e' ∈ digits := by
    rcases hdigits with rfl | ⟨d, -, rfl⟩
    · exact .inl (by decide +kernel)
    · exact point_or_power_mem_decimalText style d
  rw [htext]
  exact hmem.imp (List.mem_append_right _) (List.mem_append_right _)

end FloatNotation

namespace Json

theorem number_integer_injective {m n : Integer} (h : number (.integer m) = number (.integer n)) :
    m = n := by
  have hread := number?_integerText m
  have htext : FloatNotation.integerText m.val = FloatNotation.integerText n.val := h
  rw [htext, number?_integerText n] at hread
  simpa using hread.symm

/-- No colon stands in the text of a number. -/
theorem colon_not_mem_number (n : Number) : ':' ∉ number n := by
  intro h
  cases n with
  | integer n => rcases FloatNotation.mem_integerText h with h | h <;> exact absurd h (by decide)
  | float x => rcases FloatNotation.mem_text x.isFinite h with h | h <;> exact absurd h (by decide)

/-- The text of an integer is not that of a double. -/
theorem number_integer_ne_float (n : Integer) (x : FiniteFloat) :
    number (.integer n) ≠ number (.float x) := by
  intro h
  have hmem : '.' ∈ number (.integer n) ∨ 'e' ∈ number (.integer n) := by
    rw [h]
    exact FloatNotation.point_or_power_mem_text x.isFinite
  rcases hmem with hmem | hmem <;> rcases FloatNotation.mem_integerText hmem with h | h <;>
    exact absurd h (by decide)

/-- Doubles of one place are the same, or one is zero and the other one minus zero. -/
theorem float_eq_or_apart {x y : FiniteFloat} (h : Binary64.rank x.val = Binary64.rank y.val) :
    x = y ∨ Apart (number (.float x)) (number (.float y)) := by
  have hx := Binary64.isNaN_of_isFinite x.isFinite
  have hy := Binary64.isNaN_of_isFinite y.isFinite
  obtain ⟨x, hfinite⟩ := x
  obtain ⟨y, hfinite'⟩ := y
  simp only [FiniteFloat.mk.injEq, number]
  rcases Binary64.eq_or_zeros hx hy h with hsame | ⟨rfl | rfl, rfl | rfl⟩
  · exact .inl hsame
  · exact .inl rfl
  · exact .inr (Apart.of_head (a := '0') (b := '-') (by decide) ['.', '0'] ['0', '.', '0'])
  · exact .inr (Apart.of_head (a := '-') (b := '0') (by decide) ['0', '.', '0'] ['.', '0'])
  · exact .inl rfl

/-- Identical numbers are the same, or their texts part. -/
theorem number_eq_or_apart {m n : Number} (h : m.same n = true) :
    m = n ∨ Apart (number m) (number n) := by
  rw [Number.same_iff_place_eq] at h
  cases m with
  | integer i =>
      cases n with
      | integer j =>
          have hval : i.val = j.val := Sum.inl.inj h
          left
          congr 1
          cases i
          cases j
          cases hval
          rfl
      | float y => cases h
  | float x =>
      cases n with
      | integer j => cases h
      | float y => exact (float_eq_or_apart (Sum.inr.inj h)).imp_left (congrArg Number.float)

/-- Two different numbers that are equal have different texts. -/
theorem number_ne {m n : Number} (hne : m ≠ n)
    (h : Binary64.rank m.toFloat = Binary64.rank n.toFloat) : number m ≠ number n := by
  cases m with
  | integer i =>
      cases n with
      | integer j =>
          intro htext
          exact hne (congrArg Number.integer (number_integer_injective htext))
      | float y => exact number_integer_ne_float i y
  | float x =>
      cases n with
      | integer j => exact (number_integer_ne_float j x).symm
      | float y =>
          rcases float_eq_or_apart h with rfl | hapart
          · exact absurd rfl hne
          · exact hapart.ne

end Json

/-! ## Texts of values -/

namespace Value

open Json

def furtherElements : List Value → List Char
  | [] => []
  | a :: as => ',' :: compactElements (a :: as)

def furtherMembers : List (String × Value) → List Char
  | [] => []
  | m :: ms => ',' :: compactMembers (m :: ms)

theorem compactElements_cons (a : Value) (as : List Value) :
    compactElements (a :: as) = compact a ++ furtherElements as := by
  cases as <;> simp [compactElements, furtherElements]

theorem compactMembers_cons (name : String) (a : Value) (ms : List (String × Value)) :
    compactMembers ((name, a) :: ms) =
      (quote name.toList ++ [':']) ++ (compact a ++ furtherMembers ms) := by
  cases ms <;> simp [compactMembers, furtherMembers]

theorem furtherElements_apart {as bs : List Value} (hsame : sameElements as bs = true)
    (h : Apart (compactElements as) (compactElements bs)) :
    Apart (furtherElements as) (furtherElements bs) := by
  cases as with
  | nil =>
      cases bs with
      | nil => exact absurd rfl h.ne
      | cons b bs => cases hsame
  | cons a as =>
      cases bs with
      | nil => cases hsame
      | cons b bs => exact h.cons ','

theorem furtherMembers_apart {ms ns : List (String × Value)} (hsame : sameMembers ms ns = true)
    (h : Apart (compactMembers ms) (compactMembers ns)) :
    Apart (furtherMembers ms) (furtherMembers ns) := by
  cases ms with
  | nil =>
      cases ns with
      | nil => exact absurd rfl h.ne
      | cons n ns => cases hsame
  | cons m ms =>
      cases ns with
      | nil => cases hsame
      | cons n ns => exact h.cons ','

mutual

/-- Identical values are the same, or their texts part. -/
theorem eq_or_apart : ∀ a b : Value, a.same b = true → a = b ∨ Apart (compact a) (compact b)
  | null, b, h => by
      cases b <;> simp [same] at h ⊢
  | bool p, b, h => by
      cases b <;> simp [same] at h ⊢
      exact .inl h
  | number m, b, h => by
      cases b with
      | number n => exact (number_eq_or_apart h).imp_left (congrArg Value.number)
      | _ => cases h
  | text s, b, h => by
      cases b <;> simp [same] at h ⊢
      exact .inl h
  | array as, b, h => by
      cases b with
      | array bs =>
          rcases elements_eq_or_apart as bs h with rfl | hapart
          · exact .inl rfl
          · exact .inr ((hapart.append [']'] [']']).cons '[')
      | _ => cases h
  | object ms, b, h => by
      cases b with
      | object ns =>
          rcases members_eq_or_apart ms ns h with rfl | hapart
          · exact .inl rfl
          · exact .inr ((hapart.append ['\x7d'] ['\x7d']).cons '\x7b')
      | _ => cases h

theorem elements_eq_or_apart : ∀ as bs : List Value, sameElements as bs = true →
    as = bs ∨ Apart (compactElements as) (compactElements bs)
  | [], bs, h => by
      cases bs with
      | nil => exact .inl rfl
      | cons b bs => cases h
  | a :: as, bs, h => by
      cases bs with
      | nil => cases h
      | cons b bs =>
          rw [sameElements, Bool.and_eq_true] at h
          have hrest := (elements_eq_or_apart as bs h.2).imp_right (furtherElements_apart h.2)
          have hboth := Apart.of_parts (congrArg compact) (eq_or_apart a b h.1) hrest
          rcases hboth with ⟨rfl, rfl⟩ | hapart
          · exact .inl rfl
          · rw [compactElements_cons, compactElements_cons]
            exact .inr hapart

theorem members_eq_or_apart : ∀ ms ns : List (String × Value), sameMembers ms ns = true →
    ms = ns ∨ Apart (compactMembers ms) (compactMembers ns)
  | [], ns, h => by
      cases ns with
      | nil => exact .inl rfl
      | cons n ns => cases h
  | (name, a) :: ms, ns, h => by
      cases ns with
      | nil => cases h
      | cons n ns =>
          obtain ⟨other, b⟩ := n
          rw [sameMembers, Bool.and_eq_true, Bool.and_eq_true, beq_iff_eq] at h
          obtain ⟨⟨rfl, hsame⟩, hothers⟩ := h
          have hrest := (members_eq_or_apart ms ns hothers).imp_right (furtherMembers_apart hothers)
          have hboth := Apart.of_parts (congrArg compact) (eq_or_apart a b hsame) hrest
          rcases hboth with ⟨rfl, rfl⟩ | hapart
          · exact .inl rfl
          · rw [compactMembers_cons, compactMembers_cons]
            exact .inr (hapart.prepend _)

end

/-! ## Keys -/

/-- Equal values are the same, or what they contribute to a key parts. -/
theorem eq_or_keyPart_apart {a b : Value} (h : a.equal b = true) (s t : List Char) :
    a = b ∨ Apart (a.keyPart ++ ':' :: s) (b.keyPart ++ ':' :: t) := by
  cases a with
  | null => cases b <;> simp [equal, compare] at h ⊢
  | bool p =>
      cases b <;> simp [equal, compare, compareBools_eq_eq_iff] at h ⊢
      exact .inl h
  | text u =>
      cases b <;> simp [equal, compare, compareTexts_eq_eq_iff] at h ⊢
      exact .inl h
  | number m =>
      cases b with
      | number n =>
          by_cases hne : m = n
          · exact .inl (congrArg number hne)
          · have hrank := Sum.inl.inj ((equal_iff_face_eq (number m) (number n)).mp h)
            exact .inr (Apart.of_ne (number_ne hne hrank) (colon_not_mem_number m)
              (colon_not_mem_number n) s t)
      | _ => simp [equal, compare] at h
  | array as =>
      cases b with
      | array bs =>
          rw [equal_array] at h
          exact (eq_or_apart (array as) (array bs) h).imp_right fun hapart => hapart.append _ _
      | _ => simp [equal, compare] at h
  | object ms =>
      cases b with
      | object ns =>
          rw [equal_object] at h
          exact (eq_or_apart (object ms) (object ns) h).imp_right fun hapart => hapart.append _ _
      | _ => simp [equal, compare] at h

/-- Equal values have one key exactly when they are the same, each number in kind as well. -/
theorem groupKey_eq_iff {us vs : List Value}
    (h : List.Forall₂ (fun u v => Value.equal u v = true) us vs) :
    groupKey us = groupKey vs ↔ us = vs := by
  refine ⟨fun hkey => ?_, congrArg groupKey⟩
  induction h with
  | nil => rfl
  | @cons u v us vs huv _ ih =>
      rw [groupKey_cons, groupKey_cons] at hkey
      rcases eq_or_keyPart_apart huv (groupKey us) (groupKey vs) with rfl | hapart
      · have hrest : groupKey us = groupKey vs := (List.cons.inj (List.append_cancel_left hkey)).2
        rw [ih hrest]
      · exact absurd hkey hapart.ne

end Value

end DocQuery
