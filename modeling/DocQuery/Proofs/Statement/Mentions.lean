import DocQuery.Statement.Basic

/-!
# What is mentioned

A path begins with the name of a binding, and a call of `RAND` draws a number.  What is
mentioned by a term, a condition or a statement is what its paths begin with and its calls
draw, at any depth of its subqueries and in each of their clauses; the names under which a
statement binds values are not among it.
-/

namespace DocQuery

/-- What a value in a row may depend on: a binding, or the numbers that are drawn. -/
inductive Subject
  | binding (name : String)
  | draws
  deriving DecidableEq

def pathMentions (subjects : List Subject) (segments : List String) : Bool :=
  segments.head?.any fun first => subjects.contains (.binding first)

def Function.mentions (subjects : List Subject) : Function → Bool
  | random _ => subjects.contains .draws
  | _ => false

mutual

/-- Whether one of some subjects is mentioned in a term, or in a subquery in it. -/
def Term.mentions (subjects : List Subject) : Term → Bool
  | ⟨_, _, form⟩ => form.mentions subjects

def Form.mentions (subjects : List Subject) : Form → Bool
  | .path segments => pathMentions subjects segments
  | .object members => anyTermMentions subjects members
  | .array elements => anyTermMentions subjects elements
  | .constant _ => false
  | .call f arguments => f.mentions subjects || anyTermMentions subjects arguments
  | .arithmetic _ left right => left.mentions subjects || right.mentions subjects
  | .condition c => c.mentions subjects
  | .subquery s => s.mentions subjects
  | .existence s => s.mentions subjects

def anyTermMentions (subjects : List Subject) : List Term → Bool
  | [] => false
  | t :: rest => t.mentions subjects || anyTermMentions subjects rest

def Condition.mentions (subjects : List Subject) : Condition → Bool
  | .compare _ left right => left.mentions subjects || right.mentions subjects
  | .all parts => anyConditionMentions subjects parts
  | .any parts => anyConditionMentions subjects parts
  | .constant _ => false
  | .term t => t.mentions subjects

def anyConditionMentions (subjects : List Subject) : List Condition → Bool
  | [] => false
  | c :: rest => c.mentions subjects || anyConditionMentions subjects rest

def Projection.mentions (subjects : List Subject) : Projection → Bool
  | .columns terms => anyTermMentions subjects terms
  | .value t => t.mentions subjects

def Source.mentions (subjects : List Subject) : Source → Bool
  | .documents => false
  | .path segments _ => pathMentions subjects segments
  | .each _ segments => pathMentions subjects segments
  | .subquery s _ => s.mentions subjects

def Join.mentions (subjects : List Subject) : Join → Bool
  | .each _ segments => pathMentions subjects segments
  | .subquery s _ => s.mentions subjects

def anyJoinMentions (subjects : List Subject) : List Join → Bool
  | [] => false
  | j :: rest => j.mentions subjects || anyJoinMentions subjects rest

def anyKeyMentions (subjects : List Subject) : List SortKey → Bool
  | [] => false
  | ⟨t, _⟩ :: rest => t.mentions subjects || anyKeyMentions subjects rest

def filterMentions (subjects : List Subject) : Option Condition → Bool
  | none => false
  | some c => c.mentions subjects

def Statement.mentions (subjects : List Subject) : Statement → Bool
  | ⟨projection, source, joins, filter, grouping, ordering, _, _, _⟩ =>
      projection.mentions subjects || source.mentions subjects || anyJoinMentions subjects joins ||
        filterMentions subjects filter || anyTermMentions subjects grouping ||
        anyKeyMentions subjects ordering

end

def Join.bindingName : Join → String
  | .each name _ => name
  | .subquery _ label => label

/-- What the rows of a join have of their own: a binding, and numbers that are drawn. -/
def Join.added (j : Join) : List Subject :=
  [.binding j.bindingName, .draws]

end DocQuery
