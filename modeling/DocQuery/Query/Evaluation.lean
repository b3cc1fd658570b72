import DocQuery.Function.Aggregate
import DocQuery.Function.Apply
import DocQuery.Query.Plan
import DocQuery.Statement.Basic

/-!
# Evaluation

The value of a term and the truth of a condition in a row, and the plan of a
statement.  Evaluation never fails: what cannot be evaluated is null.  A subquery
runs the plan of its statement for the current row.
-/

namespace DocQuery

namespace Constant

/-- The value of a literal or a parameter; an unbound parameter is null. -/
def value (parameters : Parameters) : Constant → Value
  | null => .null
  | bool b => .bool b
  | integer n => .ofInt n
  | float x => .ofFloat x
  | text s => .text s
  | parameter name => (parameters.get? name).getD .null

end Constant

namespace Arithmetic

/-- An operation on two doubles; there is no quotient by zero. -/
def compute? (op : Arithmetic) (x y : Float) : Option Float :=
  match op with
  | add => some (x + y)
  | subtract => some (x - y)
  | multiply => some (x * y)
  | divide => if y == 0.0 then none else some (x / y)

def apply (op : Arithmetic) (left right : Value) : Value :=
  match left.toFloat?, right.toFloat? with
  | some x, some y =>
      match op.compute? x y with
      | some z => .ofFloat z
      | none => .null
  | _, _ => .null

end Arithmetic

namespace Comparison

def holds : Comparison → Ordering → Bool
  | equal, order => order == .eq
  | notEqual, order => order != .eq
  | less, order => order == .lt
  | greater, order => order == .gt
  | lessOrEqual, order => order != .gt
  | greaterOrEqual, order => order != .lt

end Comparison

namespace Value

/-- A value, or its opposite when it is a boolean that is to be negated. -/
def negatedIf (negated : Bool) : Value → Value
  | bool b => bool (b != negated)
  | other => other

@[simp] theorem negatedIf_bool (negated b : Bool) :
    (bool b).negatedIf negated = bool (b != negated) := rfl

@[simp] theorem negatedIf_false (value : Value) : value.negatedIf false = value := by
  cases value with
  | bool b => cases b <;> rfl
  | _ => rfl

end Value

/--
The name of a result: the label, else the last segment of a path, else the
position counted from one.  A parameter bound to a text is replaced by it.
-/
def columnName (parameters : Parameters) (label lastSegment : Option String) (index : Nat) :
    String :=
  parameters.name ((label <|> lastSegment).getD ("$" ++ toString (index + 1)))

namespace Term

def columnName (parameters : Parameters) (term : Term) (index : Nat) : String :=
  DocQuery.columnName parameters term.label (lastSegment? term.form) index

end Term

namespace Source

def rowName (parameters : Parameters) : Source → String
  | documents => columnName parameters none none 0
  | path _ (some label) => label
  | path segments none => columnName parameters none segments.getLast? 0
  | each name _ => name
  | subquery _ label => label

end Source

namespace Row

/-- Binds the document under the first segment of a path when nothing else is. -/
def withRootFor (row : Row) (segments : List String) : Row :=
  match segments with
  | first :: _ => row.withRootAs first
  | [] => row

/--
Binds the value of a path under a name.  A path that is just that name, already
bound, leaves the row as it is.
-/
def bindPath (parameters : Parameters) (name : String) (segments : List String) (row : Row) : Row :=
  if segments = [name] ∧ (row.value? name).isSome then row
  else
    let row := row.withRootFor segments
    row.bind name (row.follow parameters segments)

/-- A row for each element of the array at a path. -/
def eachOfPath (parameters : Parameters) (name : String) (segments : List String) (row : Row) :
    List Row :=
  let row := row.withRootFor segments
  row.deriveEach name (row.follow parameters segments)

end Row

def SortKey.descends (key : SortKey) : Bool :=
  key.direction = .descending

mutual

def Term.resolve (parameters : Parameters) : Term → Row → Value
  | ⟨_, negated, form⟩, row => (form.resolve parameters row).negatedIf negated

def Form.resolve (parameters : Parameters) : Form → Row → Value
  | .path segments, row => row.follow parameters segments
  | .object members, row => .object (Members.ofList (resolveColumns parameters members 0 row))
  | .array elements, row => .array (resolveAll parameters elements row)
  | .constant c, _ => c.value parameters
  | .call (.aggregate f) arguments, row =>
      f.apply (row.members.map fun member => resolveFirst parameters arguments member)
  | .call (.random site) _, row => .ofFloat (row.draws.number site)
  | .call f arguments, row => f.apply (f.padded (resolveAll parameters arguments row))
  | .arithmetic op left right, row =>
      op.apply (left.resolve parameters row) (right.resolve parameters row)
  | .condition c, row => .bool (c.holds parameters row)
  | .subquery s, row => .array ((s.plan parameters).values row)
  | .existence s, row => .bool ((s.plan parameters).hasValue row)

def resolveAll (parameters : Parameters) : List Term → Row → List Value
  | [], _ => []
  | term :: rest, row => term.resolve parameters row :: resolveAll parameters rest row

/-- The value of the first of several terms in a row, null when there is none. -/
def resolveFirst (parameters : Parameters) : List Term → Row → Value
  | [], _ => .null
  | term :: _, row => term.resolve parameters row

/-- The values of several terms in a row, each with its name, counted from some index. -/
def resolveColumns (parameters : Parameters) : List Term → Nat → Row → List (String × Value)
  | [], _, _ => []
  | term :: rest, index, row =>
      (term.columnName parameters index, term.resolve parameters row) ::
        resolveColumns parameters rest (index + 1) row

def Condition.holds (parameters : Parameters) : Condition → Row → Bool
  | .compare op left right, row =>
      op.holds ((left.resolve parameters row).compare (right.resolve parameters row))
  | .all parts, row => allHold parameters parts row
  | .any parts, row => anyHolds parameters parts row
  | .constant c, _ => (c.value parameters).isTrue
  | .term t, row => (t.resolve parameters row).isTrue

def allHold (parameters : Parameters) : List Condition → Row → Bool
  | [], _ => true
  | part :: rest, row => part.holds parameters row && allHold parameters rest row

def anyHolds (parameters : Parameters) : List Condition → Row → Bool
  | [], _ => false
  | part :: rest, row => part.holds parameters row || anyHolds parameters rest row

def Projection.resolve (parameters : Parameters) : Projection → Row → Value
  | .columns terms, row => .object (Members.ofList (resolveColumns parameters terms 0 row))
  | .value term, row => term.resolve parameters row

/-- The rows that a source makes of a row, if it changes rows at all. -/
def Source.expansions (parameters : Parameters) : Source → List (Row → List Row)
  | .documents => []
  | .path segments label =>
      let name := (Source.path segments label).rowName parameters
      [fun row => [row.bindPath parameters name segments]]
  | .each name segments => [fun row => row.eachOfPath parameters name segments]
  | .subquery s label => [fun row => row.deriveEach label (.array ((s.plan parameters).values row))]

def Join.expand (parameters : Parameters) : Join → Row → List Row
  | .each name segments, row => row.deriveEach name (row.follow parameters segments)
  | .subquery s label, row => row.deriveEach label (.array ((s.plan parameters).values row))

def joinExpansions (parameters : Parameters) : List Join → List (Row → List Row)
  | [] => []
  | join :: rest => (fun row => join.expand parameters row) :: joinExpansions parameters rest

def resolveKeys (parameters : Parameters) : List SortKey → Row → List Value
  | [], _ => []
  | ⟨term, _⟩ :: rest, row => term.resolve parameters row :: resolveKeys parameters rest row

def filterTest (parameters : Parameters) : Option Condition → Option (Row → Bool)
  | none => none
  | some condition => some fun row => condition.holds parameters row

def Statement.plan (parameters : Parameters) : Statement → Plan
  | ⟨projection, source, joins, filter, grouping, ordering, distinct, offset, count⟩ =>
      let group :=
        if grouping.isEmpty then []
        else [Row.grouped fun row => Value.groupKey (resolveAll parameters grouping row)]
      let order :=
        if ordering.isEmpty then []
        else [Row.ordered (ordering.map SortKey.descends) (resolveKeys parameters ordering)]
      let reduce :=
        if grouping.isEmpty && anyAggregates projection.terms then [Row.reduced] else []
      { expansions := source.expansions parameters ++ joinExpansions parameters joins
        filter := filterTest parameters filter
        gatherings := group ++ order ++ reduce
        project := projection.resolve parameters
        distinct := distinct
        offset := offset
        count := count }

end

end DocQuery
