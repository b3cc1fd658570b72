import DocQuery.Function.Basic

/-!
# Statements

The form of a query after reading: what it projects, from where, under which
condition, in which groups and order, and how many results it skips and keeps.
-/

namespace DocQuery

inductive Constant where
  | null
  | bool (b : Bool)
  | integer (n : Int)
  | float (x : Float)
  | text (s : String)
  /-- A parameter, whose name begins with `@`. -/
  | parameter (name : String)

inductive Comparison where
  | equal | notEqual | less | greater | lessOrEqual | greaterOrEqual
deriving DecidableEq, Repr

inductive Arithmetic where
  | add | subtract | multiply | divide
deriving DecidableEq, Repr

inductive Direction where
  | ascending | descending
deriving DecidableEq, Repr

mutual

/-- A form to be evaluated, with the name of its result and a possible negation. -/
structure Term where
  label : Option String
  negated : Bool
  form : Form

inductive Form where
  /-- A path: a bound name and the members below it. -/
  | path (segments : List String)
  | object (members : List Term)
  | array (elements : List Term)
  | constant (c : Constant)
  | call (f : Function) (arguments : List Term)
  | arithmetic (op : Arithmetic) (left right : Term)
  | condition (c : Condition)
  /-- The results of a statement, run for the current row. -/
  | subquery (s : Statement)
  /-- Whether a statement, run for the current row, has a result. -/
  | existence (s : Statement)

inductive Condition where
  | compare (op : Comparison) (left right : Term)
  | all (parts : List Condition)
  | any (parts : List Condition)
  | constant (c : Constant)
  | term (t : Term)

/-- What a statement makes of a row: an object with a member per term, or one value. -/
inductive Projection where
  | columns (terms : List Term)
  | value (term : Term)

inductive Source where
  /-- The documents as they are. -/
  | documents
  /-- The value of a path, bound under its label. -/
  | path (segments : List String) (label : Option String)
  /-- Each element of the array at a path. -/
  | each (name : String) (segments : List String)
  /-- Each result of a statement. -/
  | subquery (s : Statement) (label : String)

inductive Join where
  | each (name : String) (segments : List String)
  | subquery (s : Statement) (label : String)

structure SortKey where
  term : Term
  direction : Direction

structure Statement where
  projection : Projection
  source : Source
  joins : List Join
  filter : Option Condition
  grouping : List Term
  ordering : List SortKey
  distinct : Bool
  offset : Nat
  count : Option Nat

end

namespace Term

def plain (form : Form) : Term :=
  ⟨none, false, form⟩

def withLabel (term : Term) (label : String) : Term :=
  ⟨some label, term.negated, term.form⟩

/-- A condition as a term; one that is a term already stays as it is. -/
def ofCondition : Condition → Term
  | .term t => t
  | .constant c => plain (.constant c)
  | other => plain (.condition other)

def lastSegment? : Form → Option String
  | .path segments => segments.getLast?
  | _ => none

end Term

namespace Condition

def negate : Condition → Condition
  | term t => term ⟨t.label, !t.negated, t.form⟩
  | other => term ⟨none, true, .condition other⟩

/-- A condition as a filter: a bare literal is a constant condition. -/
def asFilter : Condition → Condition
  | term ⟨none, false, .constant c⟩ => constant c
  | other => other

end Condition

namespace Source

/-- The name under which a source is bound, as far as its text tells. -/
def bindingName? : Source → Option String
  | documents => none
  | path segments label => label <|> segments.getLast?
  | each name _ => some name
  | subquery _ label => some label

end Source

mutual

/-- Whether a term is an aggregate call, or an object or array that holds one. -/
def Term.aggregates : Term → Bool
  | ⟨_, _, form⟩ => form.aggregates

def Form.aggregates : Form → Bool
  | .object members => anyAggregates members
  | .array elements => anyAggregates elements
  | .call f _ => f.isAggregate
  | _ => false

def anyAggregates : List Term → Bool
  | [] => false
  | term :: rest => term.aggregates || anyAggregates rest

end

def Projection.terms : Projection → List Term
  | columns terms => terms
  | value term => [term]

/-- Whether a statement reduces all its rows to one: it aggregates without groups. -/
def Statement.reduces (s : Statement) : Bool :=
  s.grouping.isEmpty && anyAggregates s.projection.terms

end DocQuery
