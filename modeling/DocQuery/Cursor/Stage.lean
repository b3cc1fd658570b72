import DocQuery.Cursor.Basic

/-!
# Stages

Ways to turn one cursor into another: a stage gives out some items for each one
it takes, with a memory; a fused cursor stays at its end; a limit stops taking; a
gathering takes everything before it gives out its first item.  Nothing is taken
before it is needed.
-/

namespace DocQuery

/-- What is given out for each item taken, and how the memory changes. -/
structure Stage (ε α β : Type) where
  Memory : Type
  memory : Memory
  step : Memory → Except ε α → List (Except ε β) × Memory

namespace Stage

variable {ε α β : Type}

/-- Gives out a list of items for each item; failures pass through. -/
def expand (f : α → List β) : Stage ε α β where
  Memory := Unit
  memory := ()
  step
    | (), .ok item => ((f item).map .ok, ())
    | (), .error failure => ([.error failure], ())

def map (f : α → β) : Stage ε α β :=
  expand fun item => [f item]

/-- Gives out one item for each item, by its place among all entries. -/
def mapIdx (f : Nat → α → β) : Stage ε α β where
  Memory := Nat
  memory := 0
  step index entry := ([entry.map (f index)], index + 1)

def filter (p : α → Bool) : Stage ε α α :=
  expand fun item => if p item then [item] else []

def distinct (equal : α → α → Bool) : Stage ε α α where
  Memory := List α
  memory := []
  step
    | seen, .ok item =>
        if seen.any fun earlier => equal earlier item then ([], seen)
        else ([.ok item], seen ++ [item])
    | seen, .error failure => ([.error failure], seen)

/-- Leaves out a number of items, failures included. -/
def skip (n : Nat) : Stage ε α α where
  Memory := Nat
  memory := n
  step
    | 0, item => ([item], 0)
    | left + 1, _ => ([], left)

def run (stage : Stage ε α β) : stage.Memory → List (Except ε α) → List (Except ε β)
  | _, [] => []
  | memory, item :: rest => (stage.step memory item).1 ++ stage.run (stage.step memory item).2 rest

theorem run_mapIdx (f : Nat → α → β) (index : Nat) (entries : List (Except ε α)) :
    (mapIdx f).run index entries =
      (entries.zipIdx index).map fun (entry, index) => entry.map (f index) := by
  induction entries generalizing index with
  | nil => rfl
  | cons entry rest ih =>
      rw [List.zipIdx_cons, List.map_cons, ← ih]
      rfl

end Stage

namespace Cursor

variable {ε α β : Type}

structure Staged (c : Cursor ε α) (stage : Stage ε α β) where
  source : c.State
  ready : List (Except ε β)
  memory : stage.Memory

/-- Step of a staged cursor: it takes from its source while nothing is ready. -/
def pullStaged (c : Cursor ε α) (stage : Stage ε α β) (source : c.State) :
    List (Except ε β) → stage.Memory → Option (Except ε β) × Staged c stage
  | item :: ready, memory => (some item, ⟨source, ready, memory⟩)
  | [], memory =>
      match h : c.pull source with
      | (none, after) => (none, ⟨after, [], memory⟩)
      | (some item, after) =>
          have : c.Follows after source := ⟨item, h⟩
          c.pullStaged stage after (stage.step memory item).1 (stage.step memory item).2
termination_by source

/-- A staged cursor that gives an item has moved its source on, or has less ready. -/
theorem pullStaged_decreases {c : Cursor ε α} {stage : Stage ε α β} {source : c.State}
    {ready : List (Except ε β)} {memory : stage.Memory} {item : Except ε β}
    {after : Staged c stage} (h : c.pullStaged stage source ready memory = (some item, after)) :
    Relation.TransGen c.Follows after.source source ∨
      (after.source = source ∧ after.ready.length < ready.length) := by
  fun_induction pullStaged c stage source ready memory with
  | case1 source first ready memory =>
      cases h
      exact .inr ⟨rfl, Nat.lt_succ_self _⟩
  | case2 source memory moved hpull => cases h
  | case3 source memory first moved hpull follows ih =>
      rcases ih h with hmoved | ⟨hsame, _⟩
      · exact .inl (hmoved.tail follows)
      · exact .inl (hsame ▸ .single follows)

def through (c : Cursor ε α) (stage : Stage ε α β) : Cursor ε β where
  State := Staged c stage
  state := ⟨c.state, [], stage.memory⟩
  pull s := c.pullStaged stage s.source s.ready s.memory
  taken s := c.taken s.source
  finite :=
    Subrelation.wf
      (fun {after before} h =>
        h.elim fun _ e => by
          change Prod.Lex _ _ (after.source, _) (before.source, _)
          rcases pullStaged_decreases e with moved | ⟨same, less⟩
          · exact .left _ _ moved
          · rw [same]
            exact .right _ less)
      (InvImage.wf (fun s : Staged c stage => (s.source, s.ready.length))
        (Prod.lex ⟨_, c.finite.transGen⟩ Nat.lt_wfRel).wf)

def pullFused (c : Cursor ε α) : c.State × Bool → Option (Except ε α) × (c.State × Bool)
  | (source, true) => (none, (source, true))
  | (source, false) =>
      match c.pull source with
      | (some item, after) => (some item, (after, false))
      | (none, after) => (none, (after, true))

/-- A cursor that gives nothing more, and takes nothing more, once it gave nothing. -/
def fused (c : Cursor ε α) : Cursor ε α where
  State := c.State × Bool
  state := (c.state, false)
  pull := c.pullFused
  taken s := c.taken s.1
  finite :=
    Subrelation.wf
      (fun {after before} h =>
        h.elim fun item e => by
          obtain ⟨source, ended⟩ := before
          cases ended with
          | true => simp [pullFused] at e
          | false =>
              simp only [pullFused] at e
              split at e
              · rename_i hpull
                cases e
                exact ⟨_, hpull⟩
              · cases e)
      (InvImage.wf Prod.fst c.finite)

def pullLimited (c : Cursor ε α) : c.State × Nat → Option (Except ε α) × (c.State × Nat)
  | (source, 0) => (none, (source, 0))
  | (source, left + 1) =>
      match c.pull source with
      | (some item, after) => (some item, (after, left))
      | (none, after) => (none, (after, left + 1))

/-- A cursor that gives at most `n` items and then takes nothing more. -/
def limit (c : Cursor ε α) (n : Nat) : Cursor ε α where
  State := c.State × Nat
  state := (c.state, n)
  pull := c.pullLimited
  taken s := c.taken s.1
  finite := finite_of_rank Prod.snd fun before item after h => by
    obtain ⟨source, left⟩ := before
    cases left with
    | zero => simp [pullLimited] at h
    | succ left =>
        simp only [pullLimited] at h
        split at h
        · cases h
          exact Nat.lt_succ_self _
        · cases h

structure Gathered (c : Cursor ε α) (β : Type) where
  source : c.State
  results : Option (List β)

def pullResults (c : Cursor ε α) (source : c.State) :
    List β → Option (Except ε β) × Gathered c β
  | [] => (none, ⟨source, some []⟩)
  | result :: rest => (some (.ok result), ⟨source, some rest⟩)

/--
Step of a gathering cursor: the first request takes every item and gives out what
`f` makes of them, or the first failure and then nothing more.
-/
def pullGathered (c : Cursor ε α) (f : List α → List β) (s : Gathered c β) :
    Option (Except ε β) × Gathered c β :=
  match s.results with
  | some results => c.pullResults s.source results
  | none =>
      match c.drainFrom s.source with
      | (.ok items, after) => c.pullResults after (f items)
      | (.error failure, after) => (some (.error failure), ⟨after, some []⟩)

def gather (c : Cursor ε α) (f : List α → List β) : Cursor ε β where
  State := Gathered c β
  state := ⟨c.state, none⟩
  pull := c.pullGathered f
  taken s := c.taken s.source
  finite :=
    Subrelation.wf
      (fun {after before} h =>
        h.elim fun item e => by
          obtain ⟨source, results⟩ := before
          cases results with
          | none =>
              simp only [pullGathered] at e
              split at e
              · rename_i items moved _
                cases hf : f items <;> simp only [hf, pullResults] at e <;> cases e
                exact .left _ _ Nat.zero_lt_one
              · cases e
                exact .left _ _ Nat.zero_lt_one
          | some results =>
              cases results <;> simp only [pullGathered, pullResults] at e <;> cases e
              exact .right _ (Nat.lt_succ_self _))
      (InvImage.wf
        (fun s : Gathered c β => (s.results.isNone.toNat, (s.results.getD []).length))
        (Prod.lex Nat.lt_wfRel Nat.lt_wfRel).wf)

end Cursor

end DocQuery
