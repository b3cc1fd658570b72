/-!
# Cursors

A cursor hands out items one at a time, and each request may give an item, a
failure, or nothing.  It is a state with a step, together with the fact that no
state can give items forever, so that everything a cursor still holds is a list.
A source that never ends is therefore no cursor, only what it answers up to some
request is.  The state also knows how much has been taken from the source so far.
-/

namespace DocQuery

/-- A state that hands out items on request, finitely many in a row. -/
structure Cursor (ε α : Type) where
  State : Type
  state : State
  /-- The answer to one request, and the state after it. -/
  pull : State → Option (Except ε α) × State
  /-- How many entries of the source have been taken. -/
  taken : State → Nat
  finite : WellFounded fun after before : State => ∃ item, pull before = (some item, after)

namespace Cursor

variable {ε α : Type}

def Follows (c : Cursor ε α) (after before : c.State) : Prop :=
  ∃ item, c.pull before = (some item, after)

instance instWellFounded (c : Cursor ε α) : WellFoundedRelation c.State :=
  ⟨c.Follows, c.finite⟩

def next (c : Cursor ε α) : Option (Except ε α) × Cursor ε α :=
  ((c.pull c.state).1, ⟨c.State, (c.pull c.state).2, c.pull, c.taken, c.finite⟩)

def takenSoFar (c : Cursor ε α) : Nat :=
  c.taken c.state

/-- The items that requests give from some state on, until one gives nothing. -/
def itemsFrom (c : Cursor ε α) (s : c.State) : List (Except ε α) :=
  match h : c.pull s with
  | (some item, after) =>
      have : c.Follows after s := ⟨item, h⟩
      item :: c.itemsFrom after
  | (none, _) => []
termination_by s

def items (c : Cursor ε α) : List (Except ε α) :=
  c.itemsFrom c.state

/-- Requests items from some state on, up to the first failure or the end. -/
def drainFrom (c : Cursor ε α) (s : c.State) : Except ε (List α) × c.State :=
  match h : c.pull s with
  | (some (.ok item), after) =>
      have : c.Follows after s := ⟨.ok item, h⟩
      let (others, last) := c.drainFrom after
      (others.map (item :: ·), last)
  | (some (.error failure), after) => (.error failure, after)
  | (none, after) => (.ok [], after)
termination_by s

/-- Requests come to an end when each item lowers a rank. -/
theorem finite_of_rank {σ : Type} {pull : σ → Option (Except ε α) × σ} (rank : σ → Nat)
    (lowers : ∀ before item after, pull before = (some item, after) → rank after < rank before) :
    WellFounded fun after before : σ => ∃ item, pull before = (some item, after) :=
  Subrelation.wf (fun {after before} h => h.elim fun item e => lowers before item after e)
    (measure rank).wf

/-- Step of a source that answers requests in a given way: a response is used once. -/
def pullResponses :
    List (Option (Except ε α)) × Nat → Option (Except ε α) × (List (Option (Except ε α)) × Nat)
  | ([], taken) => (none, ([], taken))
  | (none :: rest, taken) => (none, (rest, taken))
  | (some item :: rest, taken) => (some item, (rest, taken + 1))

/--
A source that answers requests with the given responses in order, and with nothing
once they are used up.  It may give items again after it gave nothing.
-/
def ofResponses (responses : List (Option (Except ε α))) : Cursor ε α where
  State := List (Option (Except ε α)) × Nat
  state := (responses, 0)
  pull := pullResponses
  taken := Prod.snd
  finite := finite_of_rank (fun s => s.1.length) fun before item after h => by
    obtain ⟨responses, taken⟩ := before
    cases responses with
    | nil => simp [pullResponses] at h
    | cons response rest =>
        cases response with
        | none => simp [pullResponses] at h
        | some entry =>
            simp only [pullResponses, Prod.mk.injEq] at h
            rw [← h.2]
            simp

def ofList (entries : List (Except ε α)) : Cursor ε α :=
  ofResponses (entries.map some)

theorem itemsFrom_of_pull_some {c : Cursor ε α} {s after : c.State} {item : Except ε α}
    (h : c.pull s = (some item, after)) : c.itemsFrom s = item :: c.itemsFrom after := by
  rw [itemsFrom]
  split
  · rename_i item' after' h'
    rw [h] at h'
    cases h'
    rfl
  · rename_i h'
    rw [h] at h'
    cases h'

theorem itemsFrom_of_pull_none {c : Cursor ε α} {s after : c.State}
    (h : c.pull s = (none, after)) : c.itemsFrom s = [] := by
  rw [itemsFrom]
  split
  · rename_i h'
    rw [h] at h'
    cases h'
  · rfl

end Cursor

end DocQuery
