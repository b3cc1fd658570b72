import DocQuery.Text.Case

/-!
# Lowering a text inside another

All characters but one are lowered on their own.  A capital sigma looks at the text around
it, so a part of a text may be lowered otherwise than alone: exactly when one of its capital
sigmas ends a word in the one and not in the other.
-/

namespace DocQuery

namespace Text

/-- Whether a capital sigma ends a word between two texts, the first of them read backwards. -/
def endsWordBetween (before after : List Char) : Bool :=
  meetsCased before && !meetsCased after

def lowerAt (before : List Char) (c : Char) (after : List Char) : List Char :=
  if c = 'Σ' then if endsWordBetween before after then ['ς'] else ['σ'] else lowerChar c

def lowerBetween (before : List Char) : List Char → List Char → List Char
  | [], _ => []
  | c :: rest, after => lowerAt before c (rest ++ after) ++ lowerBetween (c :: before) rest after

/-- Each capital sigma of a text ends a word there exactly when it does between two others. -/
def KeepsSigmas (front cs back : List Char) : Prop :=
  ∀ earlier later, cs = earlier ++ 'Σ' :: later →
    endsWordBetween (earlier.reverse ++ front.reverse) (later ++ back) =
      endsWordBetween earlier.reverse later

theorem lowerAfter_cons (before : List Char) (c : Char) (rest : List Char) :
    lowerAfter before (c :: rest) = lowerAt before c rest ++ lowerAfter (c :: before) rest :=
  rfl

theorem lowerAfter_append (before cs after : List Char) :
    lowerAfter before (cs ++ after) =
      lowerBetween before cs after ++ lowerAfter (cs.reverse ++ before) after := by
  induction cs generalizing before with
  | nil => rfl
  | cons c rest ih =>
      rw [List.cons_append, lowerAfter_cons, ih, lowerBetween, List.append_assoc,
        List.reverse_cons, List.append_assoc, List.singleton_append]

theorem lowerBetween_nil_right (before cs : List Char) :
    lowerBetween before cs [] = lowerAfter before cs := by
  have h := lowerAfter_append before cs []
  rwa [List.append_nil, lowerAfter, List.append_nil, eq_comm] at h

/-- The lower-case form of a text, cut where the text is cut into three parts. -/
theorem lower_append_append (front cs back : List Char) :
    lower (front ++ cs ++ back) =
      lowerBetween [] front (cs ++ back) ++ lowerBetween front.reverse cs back ++
        lowerAfter (cs.reverse ++ front.reverse) back := by
  rw [lower, List.append_assoc, lowerAfter_append, lowerAfter_append, List.append_nil,
    List.append_assoc]

/-! ## What the text around changes -/

variable {before before' after after' : List Char}

theorem length_lowerAt (c : Char) :
    (lowerAt before c after).length = (lowerAt before' c after').length := by
  unfold lowerAt
  split
  · split <;> split <;> rfl
  · rfl

theorem length_lowerBetween (cs : List Char) :
    (lowerBetween before cs after).length = (lowerBetween before' cs after').length := by
  induction cs generalizing before before' with
  | nil => rfl
  | cons c rest ih =>
      rw [lowerBetween, lowerBetween, List.length_append, List.length_append,
        length_lowerAt c, ih]

theorem lowerAt_eq_iff (c : Char) :
    lowerAt before c after = lowerAt before' c after' ↔
      (c = 'Σ' → endsWordBetween before after = endsWordBetween before' after') := by
  unfold lowerAt
  by_cases hc : c = 'Σ'
  · rw [if_pos hc, if_pos hc]
    cases endsWordBetween before after <;> cases endsWordBetween before' after' <;> simp [hc]
  · simp [hc]

/-- A text is lowered alike in two places exactly when each of its capital sigmas is. -/
theorem lowerBetween_eq_iff (cs : List Char) :
    lowerBetween before cs after = lowerBetween before' cs after' ↔
      ∀ earlier later, cs = earlier ++ 'Σ' :: later →
        endsWordBetween (earlier.reverse ++ before) (later ++ after) =
          endsWordBetween (earlier.reverse ++ before') (later ++ after') := by
  induction cs generalizing before before' with
  | nil => simp [lowerBetween]
  | cons c rest ih =>
      have happend : lowerBetween before (c :: rest) after =
            lowerBetween before' (c :: rest) after' ↔
          lowerAt before c (rest ++ after) = lowerAt before' c (rest ++ after') ∧
            lowerBetween (c :: before) rest after = lowerBetween (c :: before') rest after' := by
        rw [lowerBetween, lowerBetween]
        exact ⟨fun h => List.append_inj h (length_lowerAt c), fun h => by rw [h.1, h.2]⟩
      rw [happend, lowerAt_eq_iff, ih]
      constructor
      · rintro ⟨hfirst, hrest⟩ earlier later h
        cases earlier with
        | nil =>
            obtain ⟨hc, rfl⟩ := List.cons.inj h
            exact hfirst hc
        | cons first earlier =>
            obtain ⟨rfl, hcut⟩ := List.cons.inj h
            simpa using hrest earlier later hcut
      · intro h
        refine ⟨fun hc => h [] rest (by rw [hc, List.nil_append]), fun earlier later hcut => ?_⟩
        simpa using h (c :: earlier) later (by rw [hcut, List.cons_append])

/-- A text is lowered between two others as it is alone exactly when it keeps its sigmas. -/
theorem keepsSigmas_iff {front cs back : List Char} :
    KeepsSigmas front cs back ↔ lowerBetween front.reverse cs back = lower cs := by
  rw [lower, ← lowerBetween_nil_right, lowerBetween_eq_iff]
  simp only [KeepsSigmas, List.append_nil]

instance (front cs back : List Char) : Decidable (KeepsSigmas front cs back) :=
  decidable_of_iff _ keepsSigmas_iff.symm

theorem keepsSigmas_nil (cs : List Char) : KeepsSigmas [] cs [] := by
  intro earlier later _
  rw [List.reverse_nil, List.append_nil, List.append_nil]

end Text

end DocQuery
