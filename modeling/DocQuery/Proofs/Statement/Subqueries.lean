import DocQuery.Statement.Basic

/-!
# Subqueries

The statements that a statement runs for its rows: for the value of a term or the truth of a
condition, and as the source of its rows or of a join.  A subquery has its own subqueries,
which are not those of the statement around it.
-/

namespace DocQuery

mutual

/-- The statements that are run for the value of a term. -/
def Term.subqueries : Term → List Statement
  | ⟨_, _, form⟩ => form.subqueries

def Form.subqueries : Form → List Statement
  | .path _ | .constant _ => []
  | .object members => termSubqueries members
  | .array elements => termSubqueries elements
  | .call _ arguments => termSubqueries arguments
  | .arithmetic _ left right => left.subqueries ++ right.subqueries
  | .condition c => c.subqueries
  | .subquery s | .existence s => [s]

def termSubqueries : List Term → List Statement
  | [] => []
  | t :: rest => t.subqueries ++ termSubqueries rest

def Condition.subqueries : Condition → List Statement
  | .compare _ left right => left.subqueries ++ right.subqueries
  | .all parts => conditionSubqueries parts
  | .any parts => conditionSubqueries parts
  | .constant _ => []
  | .term t => t.subqueries

def conditionSubqueries : List Condition → List Statement
  | [] => []
  | c :: rest => c.subqueries ++ conditionSubqueries rest

end

def Source.subqueries : Source → List Statement
  | .subquery s _ => [s]
  | .documents | .path .. | .each .. => []

def Join.subqueries : Join → List Statement
  | .subquery s _ => [s]
  | .each .. => []

def Statement.subqueries (s : Statement) : List Statement :=
  s.source.subqueries ++ s.joins.flatMap Join.subqueries ++
    s.filter.toList.flatMap Condition.subqueries ++ termSubqueries s.grouping ++
    s.ordering.flatMap (fun key => key.term.subqueries) ++ termSubqueries s.projection.terms

end DocQuery
