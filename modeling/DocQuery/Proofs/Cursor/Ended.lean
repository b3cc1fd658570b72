import DocQuery.Proofs.Cursor.Requests

/-!
# Cursors that stay at their end

A state rests when a request gives nothing and leaves it as it is.  Fusing and gathering
lead to such a state when they first give nothing, whatever their sources would still give,
and stages and limits keep this.
-/

namespace DocQuery

namespace Cursor

variable {ε α β : Type}

/-- A request gives nothing and changes nothing. -/
def Rests (c : Cursor ε α) (s : c.State) : Prop :=
  c.pull s = (none, s)

theorem Rests.later_eq {c : Cursor ε α} {s : c.State} (h : c.Rests s) (n : Nat) :
    c.later n s = s := by
  induction n with
  | zero => rfl
  | succ n ih => rw [later, ih, h]

/-- A cursor that rests after a number of requests is the same after any further ones. -/
theorem Rests.after_eq {c : Cursor ε α} {n : Nat} (h : c.Rests (c.later n c.state)) {m : Nat}
    (hm : n ≤ m) : c.after m = c.after n := by
  obtain ⟨k, rfl⟩ := Nat.exists_eq_add_of_le hm
  rw [Cursor.after_eq, Cursor.after_eq, ← later_later, h.later_eq]

theorem Rests.next_after {c : Cursor ε α} {n : Nat} (h : c.Rests (c.later n c.state)) {m : Nat}
    (hm : n ≤ m) : (c.after m).next.1 = none := by
  rw [h.after_eq hm, Cursor.next_after, h]

/-- Once a request gives nothing the cursor rests. -/
def StaysEnded (c : Cursor ε α) : Prop :=
  ∀ ⦃s t : c.State⦄, c.pull s = (none, t) → c.Rests t

theorem StaysEnded.rests {c : Cursor ε α} (h : c.StaysEnded) {n : Nat}
    (hended : (c.after n).next.1 = none) : c.Rests (c.later (n + 1) c.state) := by
  rw [next_after] at hended
  exact h (Prod.ext hended rfl)

/-- Every request is answered with the item of its place, and with nothing beyond them. -/
theorem StaysEnded.next_after_eq {c : Cursor ε α} (h : c.StaysEnded) (n : Nat) :
    (c.after n).next.1 = c.items[n]? := by
  rcases Nat.lt_or_ge c.items.length n with hbeyond | hwithin
  · rw [List.getElem?_eq_none (Nat.le_of_lt hbeyond)]
    exact (h.rests c.next_after_length).next_after hbeyond
  · exact Cursor.next_after_eq c hwithin

/-! ## What brings it about -/

/-- A fused cursor rests at its end, also where its source would give items again. -/
theorem staysEnded_fused (c : Cursor ε α) : c.fused.StaysEnded := by
  rintro ⟨source, ended⟩ t h
  cases ended with
  | true =>
      cases h
      rfl
  | false =>
      simp only [fused, pullFused] at h
      split at h
      · cases h
      · cases h
        rfl

/-- A gathering that has given out its results has none left, and does not ask its source. -/
theorem rests_of_pullResults {c : Cursor ε α} {f : List α → List β} {source : c.State}
    {results : List β} {t : (c.gather f).State}
    (h : c.pullResults (ε := ε) source results = (none, t)) : (c.gather f).Rests t := by
  cases results with
  | nil =>
      cases h
      rfl
  | cons result rest => cases h

theorem staysEnded_gather (c : Cursor ε α) (f : List α → List β) : (c.gather f).StaysEnded := by
  rintro ⟨source, results⟩ t h
  cases results with
  | some results => exact rests_of_pullResults h
  | none =>
      simp only [gather, pullGathered] at h
      split at h
      · exact rests_of_pullResults h
      · cases h

/-- A gathering rests as soon as it has given a failure. -/
theorem rests_of_pull_gather {c : Cursor ε α} {f : List α → List β} {s t : (c.gather f).State}
    {failure : ε} (h : (c.gather f).pull s = (some (.error failure), t)) :
    (c.gather f).Rests t := by
  obtain ⟨source, results⟩ := s
  cases results with
  | some results => cases results <;> cases h
  | none =>
      simp only [gather, pullGathered] at h
      split at h
      · rename_i items after _
        cases hf : f items <;> rw [hf] at h <;> cases h
      · cases h
        rfl

/-! ## What keeps it -/

theorem pullStaged_of_none {c : Cursor ε α} {stage : Stage ε α β} {source : c.State}
    {ready : List (Except ε β)} {memory : stage.Memory} {t : Staged c stage}
    (h : c.pullStaged stage source ready memory = (none, t)) :
    t.ready = [] ∧ ∃ last, c.pull last = (none, t.source) := by
  fun_induction pullStaged c stage source ready memory with
  | case1 source first ready memory => cases h
  | case2 source memory moved hpull =>
      cases h
      exact ⟨rfl, source, hpull⟩
  | case3 source memory first moved hpull follows ih => exact ih h

theorem StaysEnded.through {c : Cursor ε α} (h : c.StaysEnded) (stage : Stage ε α β) :
    (c.through stage).StaysEnded := by
  rintro s ⟨source, ready, memory⟩ hpull
  obtain ⟨rfl, last, hlast⟩ := pullStaged_of_none hpull
  exact pullStaged_of_pull_none (h hlast) memory

theorem StaysEnded.limit {c : Cursor ε α} (h : c.StaysEnded) (n : Nat) :
    (c.limit n).StaysEnded := by
  rintro ⟨source, left⟩ t hpull
  cases left with
  | zero =>
      cases hpull
      rfl
  | succ left =>
      simp only [Cursor.limit, pullLimited] at hpull
      split at hpull
      · cases hpull
      · rename_i after hsource
        cases hpull
        have hrests : c.pull after = (none, after) := h hsource
        simp only [Rests, Cursor.limit, pullLimited, hrests]

end Cursor

end DocQuery
