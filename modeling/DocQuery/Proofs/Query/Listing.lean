import DocQuery.Query.Execution

/-!
# Statements read on lists

What a statement lists, written down without cursors: every clause is one function
of the whole list of entries that reaches it.  An entry is an item or a failure.
Subqueries are read in the same way, so that no part of this reading depends on
how results are handed out.  Rows, groups and the order of rows are written out
here once more.
-/

namespace DocQuery

namespace Listing

variable {ε α β : Type}

/-- Each item gives a list of items in its place; failures stay in place. -/
def expand (f : α → List β) (entries : List (Except ε α)) : List (Except ε β) :=
  entries.flatMap fun
    | .ok item => (f item).map .ok
    | .error failure => [.error failure]

def keep (p : α → Bool) (entries : List (Except ε α)) : List (Except ε α) :=
  entries.filter fun
    | .ok item => p item
    | .error _ => true

/-- What a function makes of all items at once, or the first failure alone. -/
def atOnce (f : List α → List β) (entries : List (Except ε α)) : List (Except ε β) :=
  match entries.mapM id with
  | .ok items => (f items).map .ok
  | .error failure => [.error failure]

def repeats (equal : α → α → Bool) (kept : List (Except ε α)) : Except ε α → Bool
  | .error _ => false
  | .ok item =>
      kept.any fun
        | .ok earlier => equal earlier item
        | .error _ => false

/-- The entries without the items that are equal to one kept before. -/
def withoutRepeats (equal : α → α → Bool) (entries : List (Except ε α)) : List (Except ε α) :=
  entries.foldl (fun kept entry => if repeats equal kept entry then kept else kept ++ [entry]) []

/-- The items of each key, keys in the order in which they appear first. -/
def groupsBy {κ : Type} [DecidableEq κ] (key : α → κ) (items : List α) : List (List α) :=
  (items.map key).eraseDups.map fun k => items.filter fun item => key item = k

/-- One row for all rows: the first of them, standing for all; none for no rows. -/
def standIn : List Row → List Row
  | [] => []
  | first :: rest => [{ first with members := first :: rest }]

/-- A row for each of several values, which is bound under a name. -/
def rowsFor (name : String) (row : Row) (values : List Value) : List Row :=
  values.zipIdx.map fun (value, index) =>
    { bindings := (name, value) :: row.bindings, members := [], draws := row.draws.part index }

/-- The first name of a path stands for the document unless something is bound under it. -/
def located (row : Row) : List String → Row
  | [] => row
  | first :: _ =>
      match row.bindings.lookup first, row.bindings.lookup "$root" with
      | none, some document => { row with bindings := (first, document) :: row.bindings }
      | _, _ => row

/-- Binds what a path leads to, unless the path is a name that is bound already. -/
def named (parameters : Parameters) (name : String) (segments : List String) (row : Row) : Row :=
  if segments = [name] ∧ (row.bindings.lookup name).isSome then row
  else
    let row := located row segments
    { row with bindings := (name, row.follow parameters segments) :: row.bindings }

/-- The order of two lists of keys: the first two that differ decide, in their direction. -/
def compareAll (descending : List Bool) (as bs : List Value) : Ordering :=
  (descending.zip (as.zip bs)).foldr
    (fun (descends, a, b) => (if descends then b.compare a else a.compare b).then) .eq

/--
Both halves are sorted apart and merged; of two heads the left one comes first unless the
right one is less.  Values of different kinds have no order, so that the way counts.
-/
def sorted (compare : α → α → Ordering) (items : List α) : List α :=
  if items.length ≤ 1 then items
  else
    (sorted compare (items.take (items.length / 2))).merge
      (sorted compare (items.drop (items.length / 2))) fun left right => compare right left != .lt
termination_by items.length
decreasing_by
  · simp only [List.length_take]
    omega
  · simp only [List.length_drop]
    omega

def onlyIf (asked : Bool) (step : List α → List α) (entries : List α) : List α :=
  if asked then step entries else entries

/-- The first entries up to a count, all of them when there is none. -/
def firstOf : Option Nat → List α → List α
  | some n, entries => entries.take n
  | none, entries => entries

def beginsWithItem : List (Except ε α) → Bool
  | .ok _ :: _ => true
  | _ => false

mutual

def term (ε : Type) (parameters : Parameters) : Term → Row → Value
  | ⟨_, negated, f⟩, row => (form ε parameters f row).negatedIf negated

def form (ε : Type) (parameters : Parameters) : Form → Row → Value
  | .path segments, row => row.follow parameters segments
  | .object members, row => .object (Members.ofList (columns ε parameters members 0 row))
  | .array elements, row => .array (terms ε parameters elements row)
  | .constant c, _ => c.value parameters
  | .call (.aggregate f) arguments, row =>
      f.apply (row.members.map fun member => first ε parameters arguments member)
  | .call (.random site) _, row => .ofFloat (row.draws.number site)
  | .call f arguments, row => f.apply (f.padded (terms ε parameters arguments row))
  | .arithmetic op left right, row =>
      op.apply (term ε parameters left row) (term ε parameters right row)
  | .condition c, row => .bool (condition ε parameters c row)
  | .subquery s, row => .array ((statement ε parameters s [.ok row]).filterMap Except.toOption)
  | .existence s, row => .bool (beginsWithItem (statement ε parameters s [.ok row]))

def terms (ε : Type) (parameters : Parameters) : List Term → Row → List Value
  | [], _ => []
  | t :: rest, row => term ε parameters t row :: terms ε parameters rest row

def first (ε : Type) (parameters : Parameters) : List Term → Row → Value
  | [], _ => .null
  | t :: _, row => term ε parameters t row

/-- The values of several terms in a row, each with its name, counted from some index. -/
def columns (ε : Type) (parameters : Parameters) : List Term → Nat → Row → List (String × Value)
  | [], _, _ => []
  | t :: rest, index, row =>
      (t.columnName parameters index, term ε parameters t row) ::
        columns ε parameters rest (index + 1) row

def condition (ε : Type) (parameters : Parameters) : Condition → Row → Bool
  | .compare op left right, row =>
      op.holds ((term ε parameters left row).compare (term ε parameters right row))
  | .all parts, row => (conditions ε parameters parts row).all id
  | .any parts, row => (conditions ε parameters parts row).any id
  | .constant c, _ => (c.value parameters).isTrue
  | .term t, row => (term ε parameters t row).isTrue

def conditions (ε : Type) (parameters : Parameters) : List Condition → Row → List Bool
  | [], _ => []
  | c :: rest, row => condition ε parameters c row :: conditions ε parameters rest row

def projection (ε : Type) (parameters : Parameters) : Projection → Row → Value
  | .columns ts, row => .object (Members.ofList (columns ε parameters ts 0 row))
  | .value t, row => term ε parameters t row

def source (ε : Type) (parameters : Parameters) :
    Source → List (Except ε Row) → List (Except ε Row)
  | .documents, rows => rows
  | .path segments label, rows =>
      let name := (Source.path segments label).rowName parameters
      rows.map (Except.map (named parameters name segments))
  | .each name segments, rows =>
      expand (fun row =>
        let row := located row segments
        rowsFor name row (row.follow parameters segments).elements) rows
  | .subquery s label, rows =>
      expand (fun row =>
        rowsFor label row ((statement ε parameters s [.ok row]).filterMap Except.toOption)) rows

def join (ε : Type) (parameters : Parameters) : Join → Row → List Row
  | .each name segments, row => rowsFor name row (row.follow parameters segments).elements
  | .subquery s label, row =>
      rowsFor label row ((statement ε parameters s [.ok row]).filterMap Except.toOption)

def joins (ε : Type) (parameters : Parameters) :
    List Join → List (Except ε Row) → List (Except ε Row)
  | [], rows => rows
  | j :: rest, rows => joins ε parameters rest (expand (fun row => join ε parameters j row) rows)

def filter (ε : Type) (parameters : Parameters) :
    Option Condition → List (Except ε Row) → List (Except ε Row)
  | none, rows => rows
  | some c, rows => keep (fun row => condition ε parameters c row) rows

def keys (ε : Type) (parameters : Parameters) : List SortKey → Row → List Value
  | [], _ => []
  | ⟨t, _⟩ :: rest, row => term ε parameters t row :: keys ε parameters rest row

def statement (ε : Type) (parameters : Parameters) :
    Statement → List (Except ε Row) → List (Except ε Value)
  | ⟨p, origin, js, test, grouping, ordering, distinct, offset, count⟩, rows =>
      let bound := source ε parameters origin rows
      let joined := joins ε parameters js bound
      let kept := filter ε parameters test joined
      let grouped := kept |> onlyIf (!grouping.isEmpty) (atOnce fun rows =>
        (groupsBy (fun row => Value.groupKey (terms ε parameters grouping row)) rows).flatMap
          standIn)
      let ordered := grouped |> onlyIf (!ordering.isEmpty) (atOnce (sorted fun a b =>
        compareAll (ordering.map SortKey.descends) (keys ε parameters ordering a)
          (keys ε parameters ordering b)))
      let reduced := ordered |> onlyIf (grouping.isEmpty && anyAggregates p.terms) (atOnce standIn)
      let projected := reduced.map (Except.map fun row => projection ε parameters p row)
      let unique := projected |> onlyIf distinct (withoutRepeats Value.equal)
      firstOf count (unique.drop offset)

end

end Listing

namespace Statement

/--
What a statement lists for a list of documents, each of which may be a failure.  A document
is bound under its name and under `$root`.
-/
def listed {ε : Type} (s : Statement) (parameters : Parameters) (draws : Draws)
    (entries : List (Except ε Value)) : List (Except ε Value) :=
  Listing.statement ε parameters s <| entries.zipIdx.map fun (entry, index) =>
    entry.map fun document =>
      { bindings := [("$root", document), (s.documentName parameters, document)]
        members := []
        draws := draws.part index }

end Statement

end DocQuery
