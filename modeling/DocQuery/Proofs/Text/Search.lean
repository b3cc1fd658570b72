import DocQuery.Text.Search
import Mathlib.Order.Bounds.Basic

/-!
# Occurrences

A needle occurs at a position when the text from there on begins with it.  The search gives
the least such position, and nothing exactly when there is none.
-/

namespace DocQuery

namespace Text

/-- The needle stands at this position; the end of a text is a position of its own. -/
def OccursAt (needle text : List Char) (i : Nat) : Prop :=
  i ≤ text.length ∧ needle <+: text.drop i

section

variable {needle text : List Char} {i : Nat}

theorem occursAt_nil_iff : OccursAt needle [] i ↔ i = 0 ∧ needle = [] := by
  simp [OccursAt]

theorem occursAt_cons_zero {c : Char} : OccursAt needle (c :: text) 0 ↔ needle <+: c :: text := by
  simp [OccursAt]

theorem occursAt_cons_succ {c : Char} :
    OccursAt needle (c :: text) (i + 1) ↔ OccursAt needle text i := by
  simp [OccursAt]

/-- An occurrence behind some characters is one in the text that they stand in front of. -/
theorem occursAt_drop {n : Nat} (hn : n ≤ text.length) :
    OccursAt needle (text.drop n) i ↔ OccursAt needle text (n + i) := by
  rw [OccursAt, OccursAt, List.length_drop, List.drop_drop]
  exact and_congr_left fun _ => by omega

/-- The search gives the least position at which the needle occurs. -/
theorem isLeast_of_indexOf? (h : indexOf? needle text = some i) :
    IsLeast { j | OccursAt needle text j } i := by
  induction text generalizing i with
  | nil =>
      rw [indexOf?] at h
      split at h
      · rename_i hempty
        cases h
        exact ⟨occursAt_nil_iff.mpr ⟨rfl, List.isEmpty_iff.mp hempty⟩, fun j _ => Nat.zero_le j⟩
      · cases h
  | cons c rest ih =>
      rw [indexOf?] at h
      split at h
      · rename_i hhead
        cases h
        have hprefix := List.isPrefixOf_iff_prefix.mp hhead
        exact ⟨occursAt_cons_zero.mpr hprefix, fun j _ => Nat.zero_le j⟩
      · rename_i hhead
        obtain ⟨found, hfound, rfl⟩ := Option.map_eq_some_iff.mp h
        obtain ⟨hoccurs, hleast⟩ := ih hfound
        refine ⟨occursAt_cons_succ.mpr hoccurs, fun j hj => ?_⟩
        cases j with
        | zero => exact absurd (List.isPrefixOf_iff_prefix.mpr (occursAt_cons_zero.mp hj)) hhead
        | succ j => exact Nat.succ_le_succ (hleast (occursAt_cons_succ.mp hj))

/-- The search gives nothing only when the needle occurs nowhere. -/
theorem not_occursAt_of_indexOf? (h : indexOf? needle text = none) (i : Nat) :
    ¬OccursAt needle text i := by
  induction text generalizing i with
  | nil =>
      rw [indexOf?] at h
      split at h
      · cases h
      · rename_i hempty
        exact fun hi => hempty (List.isEmpty_iff.mpr (occursAt_nil_iff.mp hi).2)
  | cons c rest ih =>
      rw [indexOf?] at h
      split at h
      · cases h
      · rename_i hhead
        intro hi
        cases i with
        | zero => exact hhead (List.isPrefixOf_iff_prefix.mpr (occursAt_cons_zero.mp hi))
        | succ i => exact ih (Option.map_eq_none_iff.mp h) i (occursAt_cons_succ.mp hi)

theorem occurs_eq_true_iff : occurs needle text = true ↔ ∃ i, OccursAt needle text i := by
  rw [occurs]
  cases h : indexOf? needle text with
  | none => exact iff_of_false Bool.false_ne_true (not_exists.mpr (not_occursAt_of_indexOf? h))
  | some found => exact iff_of_true rfl ⟨found, (isLeast_of_indexOf? h).1⟩

/-- A needle occurs in a text exactly when the text is the needle between two others. -/
theorem occurs_eq_true_iff_infix : occurs needle text = true ↔ needle <:+: text := by
  rw [occurs_eq_true_iff]
  constructor
  · rintro ⟨i, -, hi⟩
    exact hi.isInfix.trans (List.drop_suffix i text).isInfix
  · rintro ⟨front, back, rfl⟩
    refine ⟨front.length, by simp, back, ?_⟩
    rw [List.append_assoc, List.drop_left]

end

end Text

end DocQuery
