import DocQuery.Cursor.Stage
import DocQuery.Query.Grouping
import DocQuery.Query.Row
import DocQuery.Query.Sorting
import DocQuery.Value.Order

/-!
# Plans

What a statement does with its rows, in order: they are expanded, filtered,
gathered into groups or sorted, projected to values, freed of duplicates, and cut
to a window.  A plan is run by a cursor that takes no more rows than it needs.
-/

namespace DocQuery

structure Plan where
  /-- Each turns a row into the rows it is bound or joined to. -/
  expansions : List (Row → List Row)
  filter : Option (Row → Bool)
  /-- Each needs all rows at once: groups, an order, the reduction to one row. -/
  gatherings : List (List Row → List Row)
  project : Row → Value
  distinct : Bool
  offset : Nat
  count : Option Nat

namespace Plan

variable {ε : Type}

def filterStage (keep : Row → Bool) : Stage ε Row Row :=
  Stage.filter keep

def distinctStage : Stage ε Value Value :=
  Stage.distinct Value.equal

def rows (plan : Plan) (source : Cursor ε Row) : Cursor ε Row :=
  let expanded := plan.expansions.foldl (fun c expand => c.through (Stage.expand expand)) source
  let filtered :=
    match plan.filter with
    | some keep => expanded.through (filterStage keep)
    | none => expanded
  plan.gatherings.foldl Cursor.gather filtered

def results (plan : Plan) (source : Cursor ε Row) : Cursor ε Value :=
  let projected := (plan.rows source).through (Stage.map plan.project)
  let unique := if plan.distinct then projected.through distinctStage else projected
  let skipped := if 0 < plan.offset then unique.through (Stage.skip plan.offset) else unique
  match plan.count with
  | some n => skipped.limit n
  | none => skipped

/-- The value of an item of a source that cannot fail. -/
def certain {α : Type} : Except Empty α → α
  | .ok item => item

def once (row : Row) : Cursor Empty Row :=
  Cursor.ofList [.ok row]

def values (plan : Plan) (row : Row) : List Value :=
  (plan.results (once row)).items.map certain

/-- Whether a plan has a result for one row; only the first one is asked for. -/
def hasValue (plan : Plan) (row : Row) : Bool :=
  (plan.results (once row)).next.1.isSome

end Plan

/-! ## Rows that stand for several -/

namespace Row

/-- The row that stands for a group: its first member with all of them. -/
def representative? : List Row → Option Row
  | [] => none
  | first :: rest => some (first.standingFor (first :: rest))

def grouped (key : Row → List Char) (rows : List Row) : List Row :=
  (Grouping.groups key rows).filterMap representative?

/-- The row that stands for all rows, none when there are none. -/
def reduced (rows : List Row) : List Row :=
  (representative? rows).toList

/-- The order of two lists of keys: the first difference decides, in its direction. -/
def compareKeys : List Bool → List Value → List Value → Ordering
  | descending :: directions, a :: as, b :: bs =>
      match if descending then b.compare a else a.compare b with
      | .eq => compareKeys directions as bs
      | other => other
  | _, _, _ => .eq

/-- Rows in the order of their keys, each key list computed once. -/
def ordered (directions : List Bool) (keys : Row → List Value) (rows : List Row) : List Row :=
  (Sorting.sort (fun a b => compareKeys directions a.1 b.1)
    (rows.map fun row => (keys row, row))).map Prod.snd

end Row

end DocQuery
