import DocQuery.Cursor.Items
import DocQuery.Query.Execution

/-!
# Results as lists

A plan read as a computation on lists, item by item and stage by stage, without
cursors.  The items of a plan's cursor are what this reading gives for the items of
its source, so that a run can be evaluated and reasoned about on lists alone.
-/

namespace DocQuery

namespace Plan

variable {ε : Type}

def rowsOf (plan : Plan) (entries : List (Except ε Row)) : List (Except ε Row) :=
  let expanded := plan.expansions.foldl (fun rows f => (Stage.expand f).run () rows) entries
  let filtered :=
    match plan.filter with
    | some keep => (Stage.filter keep).run () expanded
    | none => expanded
  plan.gatherings.foldl (fun rows f => Cursor.gathered f rows) filtered

def resultsOf (plan : Plan) (entries : List (Except ε Row)) : List (Except ε Value) :=
  let projected := (Stage.map plan.project).run () (plan.rowsOf entries)
  let unique := if plan.distinct then distinctStage.run [] projected else projected
  let skipped := if 0 < plan.offset then (Stage.skip plan.offset).run plan.offset unique else unique
  match plan.count with
  | some n => skipped.take n
  | none => skipped

theorem items_foldl_expand (expansions : List (Row → List Row)) (source : Cursor ε Row) :
    (expansions.foldl (fun c f => c.through (Stage.expand f)) source).items =
      expansions.foldl (fun rows f => (Stage.expand f).run () rows) source.items := by
  induction expansions generalizing source with
  | nil => rfl
  | cons f rest ih =>
      rw [List.foldl_cons, ih, Cursor.items_through, List.foldl_cons]
      rfl

theorem items_foldl_gather (gatherings : List (List Row → List Row)) (source : Cursor ε Row) :
    (gatherings.foldl Cursor.gather source).items =
      gatherings.foldl (fun rows f => Cursor.gathered f rows) source.items := by
  induction gatherings generalizing source with
  | nil => rfl
  | cons f rest ih => rw [List.foldl_cons, ih, Cursor.items_gather, List.foldl_cons]

@[simp] theorem items_rows (plan : Plan) (source : Cursor ε Row) :
    (plan.rows source).items = plan.rowsOf source.items := by
  unfold rows rowsOf
  rw [items_foldl_gather]
  cases plan.filter with
  | none => simp only [items_foldl_expand]
  | some keep =>
      simp only [Cursor.items_through, items_foldl_expand]
      rfl

/-- The cursor of a plan gives the results of the listed computation. -/
@[simp] theorem items_results (plan : Plan) (source : Cursor ε Row) :
    (plan.results source).items = plan.resultsOf source.items := by
  have projected : ((plan.rows source).through (Stage.map plan.project)).items =
      (Stage.map plan.project).run () (plan.rowsOf source.items) := by
    rw [Cursor.items_through, items_rows]
    rfl
  have unique (c : Cursor ε Value) (wanted : Bool) :
      (if wanted then c.through distinctStage else c).items =
        if wanted then distinctStage.run [] c.items else c.items := by
    cases wanted with
    | false => rfl
    | true => exact Cursor.items_through c distinctStage
  have skipped (c : Cursor ε Value) (n : Nat) :
      (if 0 < n then c.through (Stage.skip n) else c).items =
        if 0 < n then (Stage.skip n).run n c.items else c.items := by
    split
    · exact Cursor.items_through c (Stage.skip n)
    · rfl
  unfold results resultsOf
  cases plan.count <;> simp only [Cursor.items_limit, skipped, unique, projected]

theorem values_eq (plan : Plan) (row : Row) :
    plan.values row = (plan.resultsOf [.ok row]).map certain := by
  simp only [values, once, items_results, Cursor.items_ofList]

end Plan

namespace Statement

def rowsOf {ε : Type} (s : Statement) (parameters : Parameters) (draws : Draws)
    (entries : List (Except ε Value)) : List (Except ε Row) :=
  entries.zipIdx.map fun (entry, index) => entry.map (s.documentRow parameters draws index)

def resultsOf {ε : Type} (s : Statement) (parameters : Parameters) (draws : Draws)
    (entries : List (Except ε Value)) : List (Except ε Value) :=
  (s.plan parameters).resultsOf (s.rowsOf parameters draws entries)

/-- Running a statement over a source gives the results for the list of its items. -/
theorem items_execute {ε : Type} (s : Statement) (parameters : Parameters) (draws : Draws)
    (documents : Cursor ε Value) :
    (s.execute parameters draws documents).items =
      s.resultsOf parameters draws documents.items := by
  rw [execute, Plan.items_results, Cursor.items_through, Cursor.items_fused, resultsOf, rowsOf]
  congr 1
  exact Stage.run_mapIdx _ _ _

theorem run_eq (s : Statement) (parameters : Parameters) (draws : Draws) (documents : List Value) :
    s.run parameters draws documents =
      (s.resultsOf parameters draws (documents.map .ok)).map Plan.certain := by
  rw [run, items_execute, Cursor.items_ofList]

end Statement

end DocQuery
