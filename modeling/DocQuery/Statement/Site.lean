import DocQuery.Statement.Basic

/-!
# Sites

Each call of `RAND` draws a number of its own.  The calls of a statement are told apart by
their sites, the steps that lead to a call from the top of the statement.
-/

namespace DocQuery

def Function.sited (site : List Nat) : Function → Function
  | random _ => random site
  | other => other

mutual

/-- A term whose calls of `RAND` have sites below a given one. -/
def Term.sited (site : List Nat) : Term → Term
  | ⟨label, negated, form⟩ => ⟨label, negated, form.sited site⟩

def Form.sited (site : List Nat) : Form → Form
  | .path segments => .path segments
  | .object members => .object (sitedTerms site members)
  | .array elements => .array (sitedTerms site elements)
  | .constant c => .constant c
  | .call f arguments => .call (f.sited site) (sitedTerms site arguments)
  | .arithmetic op left right =>
      .arithmetic op (left.sited (0 :: site)) (right.sited (1 :: site))
  | .condition c => .condition (c.sited site)
  | .subquery s => .subquery (s.sited site)
  | .existence s => .existence (s.sited site)

def sitedTerms (site : List Nat) : List Term → List Term
  | [] => []
  | t :: rest => t.sited (0 :: site) :: sitedTerms (1 :: site) rest

def Condition.sited (site : List Nat) : Condition → Condition
  | .compare op left right => .compare op (left.sited (0 :: site)) (right.sited (1 :: site))
  | .all parts => .all (sitedConditions site parts)
  | .any parts => .any (sitedConditions site parts)
  | .constant c => .constant c
  | .term t => .term (t.sited site)

def sitedConditions (site : List Nat) : List Condition → List Condition
  | [] => []
  | c :: rest => c.sited (0 :: site) :: sitedConditions (1 :: site) rest

def Projection.sited (site : List Nat) : Projection → Projection
  | .columns terms => .columns (sitedTerms site terms)
  | .value t => .value (t.sited site)

def Source.sited (site : List Nat) : Source → Source
  | .documents => .documents
  | .path segments label => .path segments label
  | .each name segments => .each name segments
  | .subquery s label => .subquery (s.sited site) label

def Join.sited (site : List Nat) : Join → Join
  | .each name segments => .each name segments
  | .subquery s label => .subquery (s.sited site) label

def sitedJoins (site : List Nat) : List Join → List Join
  | [] => []
  | j :: rest => j.sited (0 :: site) :: sitedJoins (1 :: site) rest

def sitedKeys (site : List Nat) : List SortKey → List SortKey
  | [] => []
  | ⟨t, direction⟩ :: rest => ⟨t.sited (0 :: site), direction⟩ :: sitedKeys (1 :: site) rest

def sitedFilter (site : List Nat) : Option Condition → Option Condition
  | none => none
  | some c => some (c.sited site)

/-- A statement whose calls of `RAND` have sites below a given one, a step for each clause. -/
def Statement.sited (site : List Nat) : Statement → Statement
  | ⟨projection, source, joins, filter, grouping, ordering, distinct, offset, count⟩ =>
      ⟨projection.sited (0 :: site), source.sited (1 :: site), sitedJoins (2 :: site) joins,
        sitedFilter (3 :: site) filter, sitedTerms (4 :: site) grouping,
        sitedKeys (5 :: site) ordering, distinct, offset, count⟩

end

@[simp] theorem Condition.sited_negate (c : Condition) (site : List Nat) :
    c.negate.sited site = (c.sited site).negate := by
  cases c with
  | term t =>
      obtain ⟨label, negated, form⟩ := t
      simp only [negate, Condition.sited, Term.sited]
  | _ => simp only [negate, Condition.sited, Term.sited, Form.sited]

@[simp] theorem Condition.sited_ofCondition (c : Condition) (site : List Nat) :
    (Condition.term (Term.ofCondition c)).sited site = .term (Term.ofCondition (c.sited site)) := by
  cases c <;> simp only [Term.ofCondition, Term.plain, Condition.sited, Term.sited, Form.sited]

@[simp] theorem Condition.sited_asFilter (c : Condition) (site : List Nat) :
    c.asFilter.sited site = (c.sited site).asFilter := by
  cases c with
  | term t =>
      obtain ⟨label, negated, form⟩ := t
      cases label <;> cases negated <;> cases form <;>
        simp only [asFilter, Condition.sited, Term.sited, Form.sited]
  | _ => simp only [asFilter, Condition.sited]

theorem Source.bindingName?_sited (source : Source) (site : List Nat) :
    (source.sited site).bindingName? = source.bindingName? := by
  cases source <;> simp only [Source.sited, Source.bindingName?]

theorem Statement.sited_source (s : Statement) (site : List Nat) :
    (s.sited site).source = s.source.sited (1 :: site) := by
  cases s
  rw [Statement.sited]

theorem Statement.sited_projection (s : Statement) (site : List Nat) :
    (s.sited site).projection = s.projection.sited (0 :: site) := by
  cases s
  rw [Statement.sited]

end DocQuery
