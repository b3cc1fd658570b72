import DocQuery.Function.Text
import DocQuery.Proofs.Text.Lowering
import DocQuery.Proofs.Text.Search

/-!
# Matching texts without regard to case

Four functions ask how one text stands in another, and lower both texts when case is to be
ignored.  Each text is lowered on its own, so a match is lost where a capital sigma of the
second text ends a word in that text and not in the first, or the other way round.
-/

namespace DocQuery

namespace TextFunction

def test : TextFunction → List Char → List Char → Bool
  | equals, text, part => text == part
  | contains, text, part => Text.occurs part text
  | startsWith, text, part => part.isPrefixOf text
  | endsWith, text, part => part.isSuffixOf text
  | _, _, _ => false

/-- What may stand in front of and behind a part that a function finds in a text. -/
def Admits : TextFunction → List Char → List Char → Prop
  | equals, front, back => front = [] ∧ back = []
  | contains, _, _ => True
  | startsWith, front, _ => front = []
  | endsWith, _, back => back = []
  | _, _, _ => False

theorem test_eq_true_iff (f : TextFunction) (text part : List Char) :
    f.test text part = true ↔ ∃ front back, f.Admits front back ∧ front ++ part ++ back = text := by
  cases f with
  | equals =>
      rw [test, beq_iff_eq]
      constructor
      · rintro rfl
        exact ⟨[], [], ⟨rfl, rfl⟩, List.append_nil text⟩
      · rintro ⟨_, _, ⟨rfl, rfl⟩, rfl⟩
        exact List.append_nil part
  | contains => simp [test, Admits, Text.occurs_eq_true_iff_infix, List.IsInfix]
  | startsWith => simp [test, Admits, List.IsPrefix]
  | endsWith => simp [test, Admits, List.IsSuffix]
  | _ => simp [test, Admits]

/-- A call tests its texts, in lower case when the argument behind them is true. -/
theorem apply_texts {f : TextFunction} (hf : f ∈ [equals, contains, startsWith, endsWith])
    (a b : String) (options : List Value) :
    f.apply (.text a :: .text b :: options) =
      .bool (f.test (folded (argument options 0).isTrue a.toList)
        (folded (argument options 0).isTrue b.toList)) := by
  simp only [List.mem_cons, List.not_mem_nil, or_false] at hf
  rcases hf with rfl | rfl | rfl | rfl <;> rfl

/-! ## Lower case -/

variable {f : TextFunction} {front part back : List Char}

theorem Admits.lowered (h : f.Admits front back) (before after : List Char) :
    f.Admits (Text.lowerBetween [] front after) (Text.lowerAfter before back) := by
  cases f with
  | equals => exact ⟨by rw [h.1, Text.lowerBetween], by rw [h.2, Text.lowerAfter]⟩
  | contains => trivial
  | startsWith =>
      rw [show front = [] from h]
      exact rfl
  | endsWith =>
      rw [show back = [] from h]
      exact rfl
  | _ => exact h.elim

/-- A part that keeps its sigmas is found in the lowered text as it was in the text. -/
theorem test_lower_of_keepsSigmas (h : f.Admits front back)
    (hkeeps : Text.KeepsSigmas front part back) :
    f.test (Text.lower (front ++ part ++ back)) (Text.lower part) = true := by
  rw [Text.lower_append_append, Text.keepsSigmas_iff.mp hkeeps, test_eq_true_iff]
  exact ⟨_, _, h.lowered _ _, rfl⟩

/-- A part with a fixed place in a text keeps its sigmas when it is found in the lowered text. -/
theorem keepsSigmas_of_test_lower (h : f.Admits front back) (hf : f ≠ contains)
    (hlower : f.test (Text.lower (front ++ part ++ back)) (Text.lower part) = true) :
    Text.KeepsSigmas front part back := by
  rw [Text.lower_append_append, test_eq_true_iff] at hlower
  obtain ⟨front', back', hadmits, htext⟩ := hlower
  have hlength : (Text.lower part).length =
      (Text.lowerBetween front.reverse part back).length := by
    rw [Text.lower, ← Text.lowerBetween_nil_right]
    exact Text.length_lowerBetween part
  rw [Text.keepsSigmas_iff]
  cases f with
  | equals =>
      obtain ⟨rfl, rfl⟩ := h
      exact Text.keepsSigmas_iff.mp (Text.keepsSigmas_nil part)
  | contains => exact absurd rfl hf
  | startsWith =>
      obtain rfl : front = [] := h
      obtain rfl : front' = [] := hadmits
      exact (List.append_inj_left htext hlength).symm
  | endsWith =>
      obtain rfl : back = [] := h
      obtain rfl : back' = [] := hadmits
      simp only [Text.lowerAfter, List.append_nil] at htext ⊢
      exact (List.append_inj_right' htext hlength).symm
  | _ => exact h.elim

/--
Equal texts stay equal when case is ignored.  The three other functions hold where the part
stands in the text at a place that they admit.  Such a match stays one when case is ignored
if each capital sigma of the part ends a word in the part exactly when it does in the text,
and for a part with a fixed place only then.
-/
theorem match_ignoring_case (a b : String) :
    (equals.apply [.text a, .text b] = .bool true →
      equals.apply [.text a, .text b, .bool true] = .bool true) ∧
    ∀ f ∈ [contains, startsWith, endsWith],
      (f.apply [.text a, .text b] = .bool true ↔
        ∃ front back, f.Admits front back ∧ front ++ b.toList ++ back = a.toList) ∧
      ∀ front back, f.Admits front back → front ++ b.toList ++ back = a.toList →
        (Text.KeepsSigmas front b.toList back →
          f.apply [.text a, .text b, .bool true] = .bool true) ∧
        (f ≠ contains → f.apply [.text a, .text b, .bool true] = .bool true →
          Text.KeepsSigmas front b.toList back) := by
  have hplain {f} (hf : f ∈ [equals, contains, startsWith, endsWith]) :
      f.apply [.text a, .text b] = .bool (f.test a.toList b.toList) :=
    apply_texts hf a b []
  have hignoring {f} (hf : f ∈ [equals, contains, startsWith, endsWith]) :
      f.apply [.text a, .text b, .bool true] =
        .bool (f.test (Text.lower a.toList) (Text.lower b.toList)) :=
    apply_texts hf a b [.bool true]
  constructor
  · have hequals : equals ∈ [equals, contains, startsWith, endsWith] := List.mem_cons_self
    rw [hplain hequals, hignoring hequals, Value.bool.injEq, Value.bool.injEq]
    intro h
    rw [show a.toList = b.toList from beq_iff_eq.mp h]
    exact beq_self_eq_true _
  · intro f hf
    have hf : f ∈ [equals, contains, startsWith, endsWith] := List.mem_cons_of_mem _ hf
    rw [hplain hf, hignoring hf, Value.bool.injEq, Value.bool.injEq]
    refine ⟨f.test_eq_true_iff _ _, fun front back hadmits htext => ?_⟩
    rw [← htext]
    exact ⟨test_lower_of_keepsSigmas hadmits, keepsSigmas_of_test_lower hadmits⟩

/-- A name with two sigmas inside and one at its end is found in front of another word. -/
theorem match_ignoring_case_name :
    let a := "ΟΔΥΣΣΕΥΣ ΗΡΘΕ"
    let b := "ΟΔΥΣΣΕΥΣ"
    let back := " ΗΡΘΕ".toList
    equals.apply [.text b, .text b, .bool true] = .bool true ∧
      startsWith.Admits [] back ∧ [] ++ b.toList ++ back = a.toList ∧
      startsWith.apply [.text a, .text b] = .bool true ∧
      Text.KeepsSigmas [] b.toList back ∧
      startsWith.apply [.text a, .text b, .bool true] = .bool true := by
  intro a b back
  have hstarts : startsWith ∈ [contains, startsWith, endsWith] := by decide
  have hadmits : startsWith.Admits [] back := rfl
  have htext : [] ++ b.toList ++ back = a.toList := by decide
  have hkeeps : Text.KeepsSigmas [] b.toList back := by decide +kernel
  obtain ⟨-, hmatches⟩ := match_ignoring_case a b
  obtain ⟨hplaces, hignoring⟩ := hmatches startsWith hstarts
  refine ⟨(match_ignoring_case b b).1 (congrArg Value.bool (beq_self_eq_true _)), hadmits, htext,
    hplaces.mpr ⟨[], back, hadmits, htext⟩, hkeeps, ?_⟩
  exact (hignoring [] back hadmits htext).1 hkeeps

/-- A sigma that ends a word in the part alone, or in the text alone, loses a match. -/
theorem match_lost_ignoring_case :
    (startsWith.apply [.text "ΑΣΑ", .text "ΑΣ"] = .bool true ∧
      startsWith.apply [.text "ΑΣΑ", .text "ΑΣ", .bool true] = .bool false) ∧
    (contains.apply [.text "ΑΣΑ", .text "ΑΣ"] = .bool true ∧
      contains.apply [.text "ΑΣΑ", .text "ΑΣ", .bool true] = .bool false) ∧
    endsWith.apply [.text "ΑΣ", .text "Σ"] = .bool true ∧
      endsWith.apply [.text "ΑΣ", .text "Σ", .bool true] = .bool false := by
  have hlost {f} {a b : String} (hf : f ∈ [equals, contains, startsWith, endsWith])
      (hplain : f.test a.toList b.toList = true)
      (hlower : f.test (Text.lower a.toList) (Text.lower b.toList) = false) :
      f.apply [.text a, .text b] = .bool true ∧
        f.apply [.text a, .text b, .bool true] = .bool false :=
    ⟨(apply_texts hf a b []).trans (congrArg Value.bool hplain),
      (apply_texts hf a b [.bool true]).trans (congrArg Value.bool hlower)⟩
  refine ⟨hlost (by decide) ?_ ?_, hlost (by decide) ?_ ?_, hlost (by decide) ?_ ?_⟩
  all_goals decide +kernel

end TextFunction

end DocQuery
