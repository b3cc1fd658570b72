import DocQuery.Cursor.Stage

/-!
# The items of a cursor

What each way of building a cursor does to the list of its items: a stage runs
over them, fusing keeps them, a limit takes the first ones, and gathering maps all
of them at once, or keeps the first failure alone.
-/

namespace DocQuery

namespace Cursor

variable {ε α β : Type}

/-- The responses up to the first request that gives nothing. -/
def given : List (Option (Except ε α)) → List (Except ε α)
  | some item :: rest => item :: given rest
  | _ => []

def collect : List (Except ε α) → Except ε (List α)
  | [] => .ok []
  | .ok item :: rest => (collect rest).map (item :: ·)
  | .error failure :: _ => .error failure

def gathered (f : List α → List β) (entries : List (Except ε α)) : List (Except ε β) :=
  match collect entries with
  | .ok items => (f items).map .ok
  | .error failure => [.error failure]

/-- Two states that answer the first request alike have the same items. -/
theorem itemsFrom_congr {c : Cursor ε α} {s t : c.State} (h : c.pull s = c.pull t) :
    c.itemsFrom s = c.itemsFrom t := by
  cases ht : c.pull t with
  | mk answer after =>
      cases answer with
      | none => rw [itemsFrom_of_pull_none (h.trans ht), itemsFrom_of_pull_none ht]
      | some item => rw [itemsFrom_of_pull_some (h.trans ht), itemsFrom_of_pull_some ht]

/-! ## Sources -/

theorem given_map_some (entries : List (Except ε α)) : given (entries.map some) = entries := by
  induction entries with
  | nil => rfl
  | cons entry rest ih => rw [List.map_cons, given, ih]

theorem itemsFrom_ofResponses (start responses : List (Option (Except ε α))) (taken : Nat) :
    (ofResponses start).itemsFrom (responses, taken) = given responses := by
  induction responses generalizing taken with
  | nil =>
      have h : (ofResponses start).pull ([], taken) = (none, ([], taken)) := rfl
      exact itemsFrom_of_pull_none h
  | cons response rest ih =>
      cases response with
      | none =>
          have h : (ofResponses start).pull (none :: rest, taken) = (none, (rest, taken)) := rfl
          exact itemsFrom_of_pull_none h
      | some item =>
          have h : (ofResponses start).pull (some item :: rest, taken) =
              (some item, (rest, taken + 1)) := rfl
          exact (itemsFrom_of_pull_some h).trans (congrArg (item :: ·) (ih (taken + 1)))

@[simp] theorem items_ofResponses (responses : List (Option (Except ε α))) :
    (ofResponses responses).items = given responses :=
  itemsFrom_ofResponses responses responses 0

@[simp] theorem items_ofList (entries : List (Except ε α)) : (ofList entries).items = entries :=
  (items_ofResponses _).trans (given_map_some entries)

/-! ## Stages -/

theorem pullStaged_cons (c : Cursor ε α) (stage : Stage ε α β) (source : c.State)
    (item : Except ε β) (ready : List (Except ε β)) (memory : stage.Memory) :
    c.pullStaged stage source (item :: ready) memory = (some item, ⟨source, ready, memory⟩) := by
  unfold pullStaged
  rfl

theorem pullStaged_of_pull_some {c : Cursor ε α} {stage : Stage ε α β} {source after : c.State}
    {item : Except ε α} (h : c.pull source = (some item, after)) (memory : stage.Memory) :
    c.pullStaged stage source [] memory =
      c.pullStaged stage after (stage.step memory item).1 (stage.step memory item).2 := by
  rw [pullStaged]
  split
  · rename_i h'
    rw [h] at h'
    cases h'
  · rename_i h'
    rw [h] at h'
    cases h'
    rfl

theorem pullStaged_of_pull_none {c : Cursor ε α} {stage : Stage ε α β} {source after : c.State}
    (h : c.pull source = (none, after)) (memory : stage.Memory) :
    c.pullStaged stage source [] memory = (none, ⟨after, [], memory⟩) := by
  rw [pullStaged]
  split
  · rename_i h'
    rw [h] at h'
    cases h'
    rfl
  · rename_i h'
    rw [h] at h'
    cases h'

theorem itemsFrom_through_ready (c : Cursor ε α) (stage : Stage ε α β) (source : c.State)
    (ready : List (Except ε β)) (memory : stage.Memory) :
    (c.through stage).itemsFrom ⟨source, ready, memory⟩ =
      ready ++ (c.through stage).itemsFrom ⟨source, [], memory⟩ := by
  induction ready with
  | nil => rfl
  | cons item rest ih =>
      have h : (c.through stage).pull ⟨source, item :: rest, memory⟩ =
          (some item, ⟨source, rest, memory⟩) := pullStaged_cons c stage source item rest memory
      exact (itemsFrom_of_pull_some h).trans (congrArg (item :: ·) ih)

theorem itemsFrom_through (c : Cursor ε α) (stage : Stage ε α β) (source : c.State)
    (memory : stage.Memory) :
    (c.through stage).itemsFrom ⟨source, [], memory⟩ = stage.run memory (c.itemsFrom source) := by
  fun_induction itemsFrom c source generalizing memory with
  | case1 source item after h follows ih =>
      have hpull : (c.through stage).pull ⟨source, [], memory⟩ = (c.through stage).pull
          ⟨after, (stage.step memory item).1, (stage.step memory item).2⟩ :=
        pullStaged_of_pull_some h memory
      rw [itemsFrom_congr hpull, itemsFrom_through_ready, ih, Stage.run]
  | case2 source after h =>
      have hpull : (c.through stage).pull ⟨source, [], memory⟩ = (none, ⟨after, [], memory⟩) :=
        pullStaged_of_pull_none h memory
      exact itemsFrom_of_pull_none hpull

/-- A stage runs over the items of its source. -/
@[simp] theorem items_through (c : Cursor ε α) (stage : Stage ε α β) :
    (c.through stage).items = stage.run stage.memory c.items :=
  itemsFrom_through c stage c.state stage.memory

/-! ## Fusing and limiting -/

theorem itemsFrom_fused (c : Cursor ε α) (source : c.State) :
    c.fused.itemsFrom (source, false) = c.itemsFrom source := by
  fun_induction itemsFrom c source with
  | case1 source item after h follows ih =>
      have hpull : c.fused.pull (source, false) = (some item, (after, false)) := by
        simp only [fused, pullFused, h]
      rw [itemsFrom_of_pull_some hpull, ih]
  | case2 source after h =>
      have hpull : c.fused.pull (source, false) = (none, (after, true)) := by
        simp only [fused, pullFused, h]
      exact itemsFrom_of_pull_none hpull

@[simp] theorem items_fused (c : Cursor ε α) : c.fused.items = c.items :=
  itemsFrom_fused c c.state

theorem itemsFrom_limit_zero (c : Cursor ε α) (start : Nat) (source : c.State) :
    (c.limit start).itemsFrom (source, 0) = [] := by
  have h : (c.limit start).pull (source, 0) = (none, (source, 0)) := rfl
  exact itemsFrom_of_pull_none h

theorem itemsFrom_limit (c : Cursor ε α) (start n : Nat) (source : c.State) :
    (c.limit start).itemsFrom (source, n) = (c.itemsFrom source).take n := by
  fun_induction itemsFrom c source generalizing n with
  | case1 source item after h follows ih =>
      cases n with
      | zero => rw [itemsFrom_limit_zero, List.take_zero]
      | succ n =>
          have hpull : (c.limit start).pull (source, n + 1) = (some item, (after, n)) := by
            simp only [limit, pullLimited, h]
          rw [itemsFrom_of_pull_some hpull, ih, List.take_succ_cons]
  | case2 source after h =>
      cases n with
      | zero => rw [itemsFrom_limit_zero, List.take_nil]
      | succ n =>
          have hpull : (c.limit start).pull (source, n + 1) = (none, (after, n + 1)) := by
            simp only [limit, pullLimited, h]
          rw [itemsFrom_of_pull_none hpull, List.take_nil]

@[simp] theorem items_limit (c : Cursor ε α) (n : Nat) : (c.limit n).items = c.items.take n :=
  itemsFrom_limit c n n c.state

/-! ## Gathering -/

theorem drainFrom_of_pull_none {c : Cursor ε α} {s after : c.State}
    (h : c.pull s = (none, after)) : c.drainFrom s = (.ok [], after) := by
  rw [drainFrom]
  split <;> rename_i h' <;> rw [h] at h' <;> cases h'
  rfl

theorem drainFrom_of_pull_error {c : Cursor ε α} {s after : c.State} {failure : ε}
    (h : c.pull s = (some (.error failure), after)) : c.drainFrom s = (.error failure, after) := by
  rw [drainFrom]
  split <;> rename_i h' <;> rw [h] at h' <;> cases h'
  rfl

theorem drainFrom_of_pull_ok {c : Cursor ε α} {s after : c.State} {item : α}
    (h : c.pull s = (some (.ok item), after)) :
    c.drainFrom s = ((c.drainFrom after).1.map (item :: ·), (c.drainFrom after).2) := by
  rw [drainFrom]
  split <;> rename_i h' <;> rw [h] at h' <;> cases h'
  rfl

/-- Draining gives all items, or the first failure among them. -/
theorem drainFrom_fst (c : Cursor ε α) (s : c.State) :
    (c.drainFrom s).1 = collect (c.itemsFrom s) := by
  fun_induction itemsFrom c s with
  | case1 s item after h follows ih =>
      cases item with
      | ok item => rw [drainFrom_of_pull_ok h, ih, collect]
      | error failure => rw [drainFrom_of_pull_error h, collect]
  | case2 s after h => rw [drainFrom_of_pull_none h, collect]

theorem itemsFrom_gather_results (c : Cursor ε α) (f : List α → List β) (source : c.State)
    (results : List β) :
    (c.gather f).itemsFrom ⟨source, some results⟩ = results.map .ok := by
  induction results with
  | nil =>
      have h : (c.gather f).pull ⟨source, some []⟩ = (none, ⟨source, some []⟩) := rfl
      exact itemsFrom_of_pull_none h
  | cons result rest ih =>
      have h : (c.gather f).pull ⟨source, some (result :: rest)⟩ =
          (some (.ok result), ⟨source, some rest⟩) := rfl
      exact (itemsFrom_of_pull_some h).trans (congrArg (.ok result :: ·) ih)

/-- Gathering maps all items at once. -/
@[simp] theorem items_gather (c : Cursor ε α) (f : List α → List β) :
    (c.gather f).items = gathered f c.items := by
  have hitems : collect c.items = (c.drainFrom c.state).1 := (drainFrom_fst c c.state).symm
  rw [gathered, hitems]
  change (c.gather f).itemsFrom ⟨c.state, none⟩ = _
  cases hd : c.drainFrom c.state with
  | mk outcome after =>
      cases outcome with
      | ok found =>
          have hpull : (c.gather f).pull ⟨c.state, none⟩ =
              (c.gather f).pull ⟨after, some (f found)⟩ := by
            simp only [gather, pullGathered, hd]
          rw [itemsFrom_congr hpull, itemsFrom_gather_results]
      | error failure =>
          have hpull : (c.gather f).pull ⟨c.state, none⟩ =
              (some (.error failure), ⟨after, some []⟩) := by
            simp only [gather, pullGathered, hd]
          rw [itemsFrom_of_pull_some hpull, itemsFrom_gather_results, List.map_nil]

end Cursor

end DocQuery
