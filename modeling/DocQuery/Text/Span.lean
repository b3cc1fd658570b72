/-!
# Spans of code points

Properties of characters are tabulated as inclusive ranges of code points.
-/

namespace DocQuery

namespace Text

/-- Inclusive ranges of code points. -/
abbrev Spans := List (Nat × Nat)

def Spans.holds (spans : Spans) (c : Char) : Bool :=
  spans.any fun span => decide (span.1 ≤ c.toNat) && decide (c.toNat ≤ span.2)

theorem Spans.holds_eq_true_iff {spans : Spans} {c : Char} :
    spans.holds c = true ↔ ∃ span ∈ spans, span.1 ≤ c.toNat ∧ c.toNat ≤ span.2 := by
  simp [Spans.holds]

end Text

end DocQuery
