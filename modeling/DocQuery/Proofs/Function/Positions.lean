import DocQuery.Function.Text
import DocQuery.Proofs.Text.Search

/-!
# Positions of a needle

The position that a call gives is the least one from its start on at which the needle can be
cut out of the text.  The start is the position of a character: from the end of the text on
not even the empty needle is looked for.
-/

namespace DocQuery

namespace TextFunction

section

variable {text needle : List Char} {start : Nat}

/-- The search from a start gives the least occurrence from there on, if there is one. -/
theorem indexFrom_cases (h : needle ≠ [] ∨ start ≠ text.length) :
    (∃ i : Nat, indexFrom text needle start = i ∧
        IsLeast { j | start ≤ j ∧ Text.OccursAt needle text j } i) ∨
      indexFrom text needle start = -1 ∧ ∀ j, start ≤ j → ¬Text.OccursAt needle text j := by
  unfold indexFrom
  by_cases hstart : start < text.length
  · have hle : start ≤ text.length := Nat.le_of_lt hstart
    rw [if_pos hstart]
    cases hfound : Text.indexOf? needle (text.drop start) with
    | none =>
        refine .inr ⟨rfl, fun j hj hoccurs => ?_⟩
        refine Text.not_occursAt_of_indexOf? hfound (j - start) ?_
        rw [Text.occursAt_drop hle, Nat.add_sub_cancel' hj]
        exact hoccurs
    | some found =>
        obtain ⟨hoccurs, hleast⟩ := Text.isLeast_of_indexOf? hfound
        refine .inl ⟨start + found, rfl, ⟨Nat.le_add_right _ _, ?_⟩, fun j hj => ?_⟩
        · exact (Text.occursAt_drop hle).mp hoccurs
        · obtain ⟨hj, hother⟩ := hj
          have hbehind : found ≤ j - start := by
            refine hleast ((Text.occursAt_drop hle).mpr ?_)
            rwa [Nat.add_sub_cancel' hj]
          omega
  · rw [if_neg hstart]
    refine .inr ⟨rfl, fun j hj hoccurs => ?_⟩
    obtain ⟨hlength, hneedle⟩ := hoccurs
    rw [List.drop_eq_nil_of_le (by omega), List.prefix_nil] at hneedle
    exact h.elim (fun hne => hne hneedle) fun hne => hne (by omega)

end

section

variable {s needle : String} {i : Nat}

/-- A needle occurs where it can be cut out of the text. -/
theorem substring_eq_needle_iff (hs : FitsSigned s.length) (hi : i ≤ s.length) :
    substring.apply [.text s, .ofNat i, length.apply [.text needle]] = .text needle ↔
      Text.OccursAt needle.toList s.toList i := by
  have happly : substring.apply [.text s, .ofNat i, length.apply [.text needle]] =
      .ofChars (between s.toList (Value.ofNat i).toInt?
        (Value.ofNat needle.toList.length).toInt?) := rfl
  have hfits : FitsSigned i := by
    unfold FitsSigned at hs ⊢
    omega
  have hprefix : Text.OccursAt needle.toList s.toList i ↔ needle.toList <+: s.toList.drop i :=
    and_iff_right (by rwa [String.length_toList])
  rw [happly, hprefix, Value.toInt?_ofNat, Value.toInt?_ofNat, if_pos hfits, Value.ofChars,
    Value.text.injEq, ← String.toList_inj, String.toList_ofList]
  by_cases hneedle : FitsSigned needle.toList.length
  · rw [if_pos hneedle, List.prefix_iff_eq_take, eq_comm]
    rfl
  · -- Nothing is cut out for a length that is no signed word, and so long a needle occurs nowhere.
    have hnothing : [] ≠ needle.toList := by
      intro h
      rw [← h] at hneedle
      exact hneedle (by decide)
    have hlong : ¬needle.toList <+: s.toList.drop i := by
      intro h
      have hlength := h.length_le
      simp only [List.length_drop, String.length_toList] at hlength hneedle
      unfold FitsSigned at hs hneedle
      omega
    rw [if_neg hneedle]
    exact iff_of_false hnothing hlong

theorem countOf_integer (n : Integer) :
    countOf (.number (.integer n)) = if FitsSigned n.val then n.val.toNat else 0 := by
  rw [countOf, Value.toInt?, Number.toInt?]
  split <;> rfl

theorem fitsSigned_indexFrom (hs : FitsSigned s.length) (start : Nat) :
    FitsSigned (indexFrom s.toList needle.toList start) := by
  rw [← String.length_toList] at hs
  unfold indexFrom
  split
  · rename_i hstart
    cases hfound : Text.indexOf? needle.toList (s.toList.drop start) with
    | none => exact (by decide : FitsSigned (-1))
    | some found =>
        have hle := (Text.isLeast_of_indexOf? hfound).1.1
        rw [List.length_drop] at hle
        unfold FitsSigned at hs ⊢
        dsimp only
        omega
  · decide

/-- A text holds a needle when the search for it from the front gives a position. -/
theorem apply_contains_iff (hs : FitsSigned s.length) (h : s ≠ "" ∨ needle ≠ "") :
    contains.apply [.text s, .text needle] = .bool true ↔
      ∃ i : Nat, indexOf.apply [.text s, .text needle] = .ofInt i := by
  have hcontains : contains.apply [.text s, .text needle] =
      .bool (Text.occurs needle.toList s.toList) := rfl
  have hindex : indexOf.apply [.text s, .text needle] =
      .ofInt (indexFrom s.toList needle.toList 0) := rfl
  have hstart : needle.toList ≠ [] ∨ 0 ≠ s.toList.length := by
    rcases h with h | h
    · refine .inr fun hlength => h (String.toList_eq_nil_iff.mp ?_)
      exact List.length_eq_zero_iff.mp hlength.symm
    · exact .inl fun hnil => h (String.toList_eq_nil_iff.mp hnil)
  simp only [hcontains, hindex, Value.bool.injEq, Text.occurs_eq_true_iff,
    Value.ofInt_inj (fitsSigned_indexFrom hs 0)]
  rcases indexFrom_cases hstart with ⟨i, hi, hleast⟩ | ⟨hnone, hnowhere⟩
  · exact iff_of_true ⟨i, hleast.1.2⟩ ⟨i, hi⟩
  · rw [hnone]
    refine iff_of_false ?_ ?_
    · rintro ⟨i, hi⟩
      exact hnowhere i (Nat.zero_le i) hi
    · rintro ⟨i, hi⟩
      omega

/--
The position of a needle from a start on is the least one at or behind it from which the
needle can be cut out of the text, and -1 exactly when there is none; a start that is no
signed word counts as zero.  Only the empty needle at the very end is left aside.  So a text
holds a needle exactly when it has a position, both being empty left aside.  The length of a
text that fits into memory is a signed word.
-/
theorem indexOf_first_occurrence (s needle : String) (start : Integer)
    (hs : FitsSigned s.length) :
    let first := if FitsSigned start.val then start.val.toNat else 0
    let position := indexOf.apply [.text s, .text needle, .number (.integer start)]
    let found (i : Nat) : Prop := first ≤ i ∧ i ≤ s.length ∧
      substring.apply [.text s, .ofNat i, length.apply [.text needle]] = .text needle
    (needle ≠ "" ∨ first ≠ s.length →
      (∀ i : Nat, position = .ofInt i ↔ IsLeast { j | found j } i) ∧
        (position = .ofInt (-1) ↔ ∀ i, ¬found i)) ∧
    (s ≠ "" ∨ needle ≠ "" →
      (contains.apply [.text s, .text needle] = .bool true ↔
        ∃ i : Nat, indexOf.apply [.text s, .text needle] = .ofInt i)) := by
  intro first position found
  refine ⟨fun hstart => ?_, apply_contains_iff hs⟩
  have hposition : position = .ofInt (indexFrom s.toList needle.toList first) := by
    have happly : position = .ofInt (indexFrom s.toList needle.toList
      (countOf (.number (.integer start)))) := rfl
    rw [happly, countOf_integer]
  have hfound (i : Nat) : found i ↔ first ≤ i ∧ Text.OccursAt needle.toList s.toList i := by
    refine and_congr_right fun _ => ⟨fun h => (substring_eq_needle_iff hs h.1).mp h.2, fun h => ?_⟩
    have hi : i ≤ s.length := String.length_toList ▸ h.1
    exact ⟨hi, (substring_eq_needle_iff hs hi).mpr h⟩
  have hends : needle.toList ≠ [] ∨ first ≠ s.toList.length := by
    rw [String.length_toList]
    exact hstart.imp_left fun hne hnil => hne (String.toList_eq_nil_iff.mp hnil)
  simp only [hposition, hfound, Value.ofInt_inj (fitsSigned_indexFrom hs first)]
  rcases indexFrom_cases hends with ⟨i, hi, hleast⟩ | ⟨hnone, hnowhere⟩
  · rw [hi]
    refine ⟨fun j => ⟨?_, ?_⟩, iff_of_false (by omega) fun h => h i hleast.1⟩
    · intro hj
      exact Int.ofNat.inj hj ▸ hleast
    · intro hj
      exact congrArg Nat.cast (hleast.unique hj)
  · rw [hnone]
    refine ⟨fun j => iff_of_false (by omega) fun hj => hnowhere j hj.1.1 hj.1.2, ?_⟩
    exact iff_of_true rfl fun j hj => hnowhere j hj.1 hj.2

/-- From the third character on the accented letter stands in the fourth place first. -/
theorem indexOf_first_occurrence_accented :
    let start : Integer := ⟨2, by decide, by decide⟩
    let found (i : Nat) : Prop := 2 ≤ i ∧ i ≤ "ééaéé".length ∧
      substring.apply [.text "ééaéé", .ofNat i, length.apply [.text "é"]] = .text "é"
    FitsSigned "ééaéé".length ∧ ("é" ≠ "" ∨ 2 ≠ "ééaéé".length) ∧
      indexOf.apply [.text "ééaéé", .text "é", .number (.integer start)] = .ofInt 3 ∧
      IsLeast { j | found j } 3 ∧
      ∃ i : Nat, indexOf.apply [.text "ééaéé", .text "é"] = .ofInt i := by
  intro start found
  have hfits : FitsSigned "ééaéé".length := by decide
  have hne : "é" ≠ "" := by decide
  have hthree : indexOf.apply [.text "ééaéé", .text "é", .number (.integer start)] = .ofInt 3 := rfl
  obtain ⟨hposition, hcontains⟩ := indexOf_first_occurrence "ééaéé" "é" start hfits
  exact ⟨hfits, .inl hne, hthree, ((hposition (.inl hne)).1 3).mp hthree,
    (hcontains (.inr hne)).mp rfl⟩

/--
The empty needle can be cut out of the empty text, which holds it, and has no position there.
A start beyond the signed words is before the needle that is found.
-/
theorem indexOf_not_first_occurrence :
    let start : Integer := ⟨9223372036854775808, by decide, by decide⟩
    (indexOf.apply [.text "", .text "", .ofInt 0] = .ofInt (-1) ∧
      substring.apply [.text "", .ofNat 0, length.apply [.text ""]] = .text "" ∧
      indexOf.apply [.text "", .text ""] = .ofInt (-1) ∧
      contains.apply [.text "", .text ""] = .bool true) ∧
    0 < start.val ∧
      indexOf.apply [.text "a", .text "a", .number (.integer start)] = .ofInt 0 :=
  ⟨⟨rfl, rfl, rfl, rfl⟩, by decide, rfl⟩

end

end TextFunction

end DocQuery
