import DocQuery.Function.Apply

/-!
# Slices of arrays

Two signed words say where a slice begins and how many elements it has.  Places outside the
array are moved to its ends, and the computation on words does not fail on the way.
-/

namespace DocQuery

namespace ArrayFunction

/-- How many of the remaining elements a slice takes; all of them when no length is given. -/
def taken (length : Option Int) (remaining : Nat) : Nat :=
  match length with
  | some length => min length.toNat remaining
  | none => remaining

theorem taken_le (length : Option Int) (remaining : Nat) : taken length remaining ≤ remaining := by
  cases length with
  | none => exact Nat.le_refl _
  | some length => exact Nat.min_le_right _ _

section

variable {size first start : Int}

theorem first_nonneg (size start : Int) :
    0 ≤ if start < 0 then max (size + start) 0 else start := by
  split <;> omega

/-- The only sum that is taken for the beginning is that of a size and a negative word. -/
theorem firstPlace?_eq (hsize : FitsSigned size) (hnonneg : 0 ≤ size) (hstart : FitsSigned start) :
    (start < 0 → FitsSigned (size + start)) ∧
      firstPlace? size start = some (if start < 0 then max (size + start) 0 else start) := by
  have hsum : start < 0 → FitsSigned (size + start) := by
    intro hneg
    unfold FitsSigned at hsize hstart ⊢
    omega
  refine ⟨hsum, ?_⟩
  unfold firstPlace? wordSum?
  by_cases hneg : start < 0
  · simp only [if_pos hneg, if_pos (hsum hneg), Option.map_some]
  · simp only [if_neg hneg]

/-- A slice that begins within the array ends as many places on as it takes elements. -/
theorem lastPlace_eq (hsize : FitsSigned size) (hfirst : 0 ≤ first) (hlt : first < size)
    (length : Option Int) :
    lastPlace size first length = first + taken length (size - first).toNat := by
  have hgreatest := hsize.2
  cases length with
  | none =>
      simp only [lastPlace, taken]
      omega
  | some length =>
      simp only [lastPlace, taken, heldSum]
      split <;> omega

/-- The two places of a slice that begins within the array are in order and in reach. -/
theorem places_in_order (hsize : FitsSigned size) (hfirst : 0 ≤ first) (hlt : first < size)
    (length : Option Int) :
    first ≤ lastPlace size first length ∧ lastPlace size first length ≤ size := by
  have hlast := lastPlace_eq hsize hfirst hlt length
  have hle := taken_le length (size - first).toNat
  omega

end

variable {α : Type} {elements : List α} {start : Int}

/-- A slice exists, and is cut off the elements that remain where it begins. -/
theorem segment?_eq (hsize : FitsSigned elements.length) (hstart : FitsSigned start)
    (length : Option Int) :
    let first : Int := if start < 0 then max (elements.length + start) 0 else start
    let remaining := elements.drop first.toNat
    segment? elements start length = some (remaining.take (taken length remaining.length)) := by
  intro first remaining
  have hfirst : 0 ≤ first := first_nonneg _ _
  have hplace : firstPlace? elements.length start = some first :=
    (firstPlace?_eq hsize (Int.natCast_nonneg _) hstart).2
  simp only [segment?, hplace, Option.bind_eq_bind, Option.bind_some]
  split
  · next hend =>
      have hnone : remaining = [] := List.drop_eq_nil_of_le (by omega)
      rw [hnone, List.take_nil]
  · next hlt =>
      have hlast := lastPlace_eq hsize hfirst (Int.not_le.mp hlt) length
      have horder := places_in_order hsize hfirst (Int.not_le.mp hlt) length
      have hcount : remaining.length = (elements.length - first).toNat := by
        rw [List.length_drop]
        omega
      rw [cut?, if_pos ⟨hfirst, horder⟩, hlast, ← hcount, List.drop_take]
      congr 2
      omega

end ArrayFunction

namespace Function

open ArrayFunction (firstPlace? lastPlace segment? taken)

variable {elements : List Value}

/-- A call for a slice, with its length or without, answers with the segment. -/
theorem apply_slice {start : Int} (hstart : FitsSigned start) (length : Option Int)
    (hlength : ∀ n ∈ length, FitsSigned n) {run : List Value}
    (hrun : segment? elements start length = some run) :
    (array .slice).apply [.array elements, .ofInt start, length.elim .null .ofInt] =
      .array run := by
  have happly : (array .slice).apply [.array elements, .ofInt start, length.elim .null .ofInt] =
      .array (ArrayFunction.sliceOf elements (.ofInt start) (length.elim .null .ofInt)) := rfl
  rw [happly, ArrayFunction.sliceOf, Value.toInt?_ofInt hstart]
  cases length with
  | none => simp only [Option.elim_none, hrun, Option.getD_some]
  | some n =>
      have hn : FitsSigned n := hlength n rfl
      have hne : Value.ofInt n ≠ .null := fun h => Value.ofInt_eq_null_iff.mp h hn
      simp only [Option.elim_some, Value.toInt?_ofInt hn, hrun, Option.getD_some]

/--
The slice of an array at a signed word, of a given length or of none, is a run of it.  The run
begins at `start`, counted from the end when negative but not from in front of the array, and
has as many elements as are wanted, as far as they remain.  No sum on the way leaves the words,
and the two places at which a slice is cut out are in order and within the array.  So what a
slice takes from the front and the slice behind it are the whole array.
-/
theorem slice_clamped (elements : List Value) (hsize : FitsSigned elements.length) :
    let slice (arguments : List Value) : Value :=
      (array .slice).apply (.array elements :: arguments)
    (∀ start : Value, slice [start] = slice [start, .null]) ∧
    (∀ (start : Int) (length : Option Int), FitsSigned start → (∀ n ∈ length, FitsSigned n) →
      let size : Int := elements.length
      let first : Int := if start < 0 then max (size + start) 0 else start
      let last : Int := lastPlace size first length
      let remaining := elements.drop first.toNat
      ((start < 0 → FitsSigned (size + start)) ∧ firstPlace? size start = some first) ∧
      (first < size → 0 ≤ first ∧ first ≤ last ∧ last ≤ size) ∧
      ∃ run, segment? elements start length = some run ∧
        slice [.ofInt start, length.elim .null .ofInt] = .array run ∧
        run <+: remaining ∧ run.length = taken length remaining.length) ∧
    (∀ k : Int, FitsSigned k → 0 ≤ k →
      (array .concat).apply [slice [.ofInt 0, .ofInt k], slice [.ofInt k]] = .array elements) := by
  intro slice
  refine ⟨fun _ => rfl, ?_, ?_⟩
  · intro start length hstart hlength size first last remaining
    have hrun := ArrayFunction.segment?_eq hsize hstart length
    refine ⟨ArrayFunction.firstPlace?_eq hsize (Int.natCast_nonneg _) hstart, ?_, _, hrun,
      apply_slice hstart length hlength hrun, List.take_prefix _ _, ?_⟩
    · intro hlt
      have hfirst : 0 ≤ first := ArrayFunction.first_nonneg size start
      exact ⟨hfirst, ArrayFunction.places_in_order hsize hfirst hlt length⟩
    · rw [List.length_take]
      exact Nat.min_eq_left (ArrayFunction.taken_le _ _)
  · intro k hk hnonneg
    have hzero : FitsSigned 0 := by decide
    have hfront : slice [.ofInt 0, .ofInt k] = .array (elements.take k.toNat) := by
      have hrun := ArrayFunction.segment?_eq hsize hzero (some k)
      refine apply_slice hzero (some k) (by simpa using hk) (hrun.trans ?_)
      simp [taken]
    have hback : slice [.ofInt k] = .array (elements.drop k.toNat) := by
      have hrun := ArrayFunction.segment?_eq hsize hk none
      refine apply_slice hk none (by simp) (hrun.trans ?_)
      simp only [taken, if_neg (Int.not_lt.mpr hnonneg), List.take_length]
    have hconcat : (array .concat).apply [slice [.ofInt 0, .ofInt k], slice [.ofInt k]] =
        .array ([slice [.ofInt 0, .ofInt k], slice [.ofInt k]].flatMap Value.elements) := rfl
    rw [hconcat, hfront, hback]
    simp [Value.elements]

/-- The least word begins a slice at the front, and the greatest takes all that there is. -/
theorem slice_clamped_extremes :
    let letters : List Value := [.text "a", .text "b"]
    let least : Int := -9223372036854775808
    let greatest : Int := 9223372036854775807
    let slice (arguments : List Value) : Value :=
      (array .slice).apply (.array letters :: arguments)
    FitsSigned letters.length ∧ FitsSigned least ∧ FitsSigned greatest ∧
      (∃ run, slice [.ofInt least, .ofInt greatest] = .array run ∧ run <+: letters ∧
        run.length = 2) ∧
      (array .concat).apply [slice [.ofInt 0, .ofInt greatest], slice [.ofInt greatest]] =
        .array letters := by
  intro letters least greatest slice
  have hsize : FitsSigned letters.length := by decide
  have hleast : FitsSigned least := by decide
  have hgreatest : FitsSigned greatest := by decide
  obtain ⟨-, hrun, hwhole⟩ := slice_clamped letters hsize
  obtain ⟨-, -, run, -, happly, hprefix, hlength⟩ :=
    hrun least (some greatest) hleast (by simpa using hgreatest)
  exact ⟨hsize, hleast, hgreatest, ⟨run, happly, hprefix, hlength⟩,
    hwhole greatest hgreatest (by decide)⟩

/-- An integer beyond the signed words bounds no slice: nothing is in front of it or behind. -/
theorem slice_beyond_words :
    let k : Integer := ⟨9223372036854775808, by decide, by decide⟩
    let slice (arguments : List Value) : Value :=
      (array .slice).apply (.array [.ofInt 1] :: arguments)
    let front := slice [.ofInt 0, .number (.integer k)]
    let rest := slice [.number (.integer k)]
    0 ≤ k.val ∧ (array .concat).apply [front, rest] = .array [] :=
  ⟨by decide, rfl⟩

end Function

end DocQuery
