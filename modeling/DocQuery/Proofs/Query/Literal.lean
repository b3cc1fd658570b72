import DocQuery.Query.Execution

/-!
# Parameters and literals

A parameter that is bound to null, a boolean, a text, a signed word or a double means
what the literal means that is written in its place.  A statement with the literal in
every place of the parameter has the same plan, at any depth of its subqueries.
-/

namespace DocQuery

namespace Constant

def ofValue? : Value → Option Constant
  | .null => some null
  | .bool b => some (bool b)
  | .number (.integer n) => if FitsSigned n.val then some (integer n.val) else none
  | .number (.float x) => some (float x.val)
  | .text s => some (text s)
  | .array _ => none
  | .object _ => none

end Constant

/-! ## A literal in the place of a parameter -/

def constantWithLiteral (name : String) (literal : Constant) : Constant → Constant
  | .parameter other => if other = name then literal else .parameter other
  | other => other

/--
A path segment with a text in the place of the parameter that is bound to it.  A text
that is itself a parameter's name would be looked up again, and is not written.
-/
def segmentWithLiteral (name : String) (literal : Constant) (segment : String) : String :=
  match literal with
  | .text s => if segment = name ∧ Parameters.isName s = false then s else segment
  | _ => segment

/-- A path with a text in the place of a parameter; its first segment names a binding. -/
def pathWithLiteral (name : String) (literal : Constant) : List String → List String
  | [] => []
  | first :: rest => first :: rest.map (segmentWithLiteral name literal)

mutual

def Term.withLiteral (name : String) (literal : Constant) : Term → Term
  | ⟨label, negated, form⟩ => ⟨label, negated, form.withLiteral name literal⟩

def Form.withLiteral (name : String) (literal : Constant) : Form → Form
  | .path segments => .path (pathWithLiteral name literal segments)
  | .object members => .object (termsWithLiteral name literal members)
  | .array elements => .array (termsWithLiteral name literal elements)
  | .constant c => .constant (constantWithLiteral name literal c)
  | .call f arguments => .call f (termsWithLiteral name literal arguments)
  | .arithmetic op left right =>
      .arithmetic op (left.withLiteral name literal) (right.withLiteral name literal)
  | .condition c => .condition (c.withLiteral name literal)
  | .subquery s => .subquery (s.withLiteral name literal)
  | .existence s => .existence (s.withLiteral name literal)

def termsWithLiteral (name : String) (literal : Constant) : List Term → List Term
  | [] => []
  | t :: rest => t.withLiteral name literal :: termsWithLiteral name literal rest

def Condition.withLiteral (name : String) (literal : Constant) : Condition → Condition
  | .compare op left right =>
      .compare op (left.withLiteral name literal) (right.withLiteral name literal)
  | .all parts => .all (conditionsWithLiteral name literal parts)
  | .any parts => .any (conditionsWithLiteral name literal parts)
  | .constant c => .constant (constantWithLiteral name literal c)
  | .term t => .term (t.withLiteral name literal)

def conditionsWithLiteral (name : String) (literal : Constant) : List Condition → List Condition
  | [] => []
  | c :: rest => c.withLiteral name literal :: conditionsWithLiteral name literal rest

def Projection.withLiteral (name : String) (literal : Constant) : Projection → Projection
  | .columns terms => .columns (termsWithLiteral name literal terms)
  | .value t => .value (t.withLiteral name literal)

def Source.withLiteral (name : String) (literal : Constant) : Source → Source
  | .documents => .documents
  | .path segments label => .path (pathWithLiteral name literal segments) label
  | .each binding segments => .each binding (pathWithLiteral name literal segments)
  | .subquery s label => .subquery (s.withLiteral name literal) label

def Join.withLiteral (name : String) (literal : Constant) : Join → Join
  | .each binding segments => .each binding (pathWithLiteral name literal segments)
  | .subquery s label => .subquery (s.withLiteral name literal) label

def joinsWithLiteral (name : String) (literal : Constant) : List Join → List Join
  | [] => []
  | join :: rest => join.withLiteral name literal :: joinsWithLiteral name literal rest

def keysWithLiteral (name : String) (literal : Constant) : List SortKey → List SortKey
  | [] => []
  | ⟨t, direction⟩ :: rest =>
      ⟨t.withLiteral name literal, direction⟩ :: keysWithLiteral name literal rest

def filterWithLiteral (name : String) (literal : Constant) : Option Condition → Option Condition
  | none => none
  | some c => some (c.withLiteral name literal)

/-- A statement with a literal in the place of a parameter, in its subqueries too. -/
def Statement.withLiteral (name : String) (literal : Constant) : Statement → Statement
  | ⟨projection, source, joins, filter, grouping, ordering, distinct, offset, count⟩ =>
      ⟨projection.withLiteral name literal, source.withLiteral name literal,
        joinsWithLiteral name literal joins, filterWithLiteral name literal filter,
        termsWithLiteral name literal grouping, keysWithLiteral name literal ordering,
        distinct, offset, count⟩

end

/-! ## What the literal means -/

namespace Constant

theorem value_of_ofValue? {value : Value} {literal : Constant}
    (h : ofValue? value = some literal) (parameters : Parameters) :
    literal.value parameters = value := by
  cases value with
  | number n =>
      cases n with
      | integer n =>
          by_cases hfits : FitsSigned n.val
          · obtain rfl : integer n.val = literal := by simpa [ofValue?, hfits] using h
            simp [Constant.value, Value.ofInt, hfits]
          · simp [ofValue?, hfits] at h
      | float x =>
          obtain rfl : float x.val = literal := by simpa [ofValue?] using h
          simp [Constant.value, Value.ofFloat, x.isFinite]
  | array elements => cases h
  | object members => cases h
  | _ =>
      cases h
      rfl

end Constant

namespace Parameters

structure Binds (parameters : Parameters) (name : String) (literal : Constant) : Prop where
  isName : Parameters.isName name = true
  get? : parameters.get? name = some (literal.value parameters)

variable {parameters : Parameters} {parameter : String} {literal : Constant}

theorem Binds.segment? (h : parameters.Binds parameter literal) (segment : String) :
    parameters.segment? (segmentWithLiteral parameter literal segment) =
      parameters.segment? segment := by
  cases literal with
  | text s =>
      by_cases hseg : segment = parameter ∧ Parameters.isName s = false
      · obtain ⟨rfl, hs⟩ := hseg
        have hget := h.get?
        simp only [Constant.value] at hget
        simp [segmentWithLiteral, hs, Parameters.segment?, h.isName, hget]
      · simp [segmentWithLiteral, hseg]
  | _ => rfl

theorem Binds.name (h : parameters.Binds parameter literal) (segment : String) :
    parameters.name (segmentWithLiteral parameter literal segment) = parameters.name segment := by
  cases literal with
  | text s =>
      by_cases hseg : segment = parameter ∧ Parameters.isName s = false
      · obtain ⟨rfl, hs⟩ := hseg
        have hget := h.get?
        simp only [Constant.value] at hget
        simp [segmentWithLiteral, hs, Parameters.name, h.isName, hget]
      · simp [segmentWithLiteral, hseg]
  | _ => rfl

theorem Binds.value (h : parameters.Binds parameter literal) (c : Constant) :
    (constantWithLiteral parameter literal c).value parameters = c.value parameters := by
  cases c with
  | parameter other =>
      by_cases hother : other = parameter
      · subst hother
        simp [constantWithLiteral, Constant.value, h.get?]
      · simp [constantWithLiteral, hother]
  | _ => rfl

theorem Binds.of_ofValue? {value : Value} (hname : Parameters.isName parameter = true)
    (hbound : parameters.get? parameter = some value)
    (hliteral : Constant.ofValue? value = some literal) : parameters.Binds parameter literal :=
  ⟨hname, by rw [Constant.value_of_ofValue? hliteral, hbound]⟩

end Parameters

/-! ## Paths and names -/

section Paths

variable {parameters : Parameters} {parameter : String} {literal : Constant}

theorem Value.follow_withLiteral (h : parameters.Binds parameter literal)
    (segments : List String) (value : Value) :
    value.follow parameters (segments.map (segmentWithLiteral parameter literal)) =
      value.follow parameters segments := by
  induction segments generalizing value with
  | nil => rfl
  | cons segment rest ih => simp only [List.map_cons, Value.follow, h.segment?, ih]

theorem Row.follow_withLiteral (h : parameters.Binds parameter literal) (row : Row)
    (segments : List String) :
    row.follow parameters (pathWithLiteral parameter literal segments) =
      row.follow parameters segments := by
  cases segments with
  | nil => rfl
  | cons first rest => simp only [pathWithLiteral, Row.follow, Value.follow_withLiteral h]

theorem columnName_withLiteral (h : parameters.Binds parameter literal) (label : Option String)
    (segments : List String) (index : Nat) :
    columnName parameters label (pathWithLiteral parameter literal segments).getLast? index =
      columnName parameters label segments.getLast? index := by
  cases label with
  | some label => rfl
  | none =>
      cases segments with
      | nil => rfl
      | cons first rest =>
          rw [pathWithLiteral, List.getLast?_cons, List.getLast?_cons, List.getLast?_map]
          cases rest.getLast? with
          | none => rfl
          | some last => simp [columnName, h.name]

theorem Term.columnName_withLiteral (h : parameters.Binds parameter literal) (t : Term)
    (index : Nat) :
    (t.withLiteral parameter literal).columnName parameters index =
      t.columnName parameters index := by
  obtain ⟨label, negated, form⟩ := t
  cases form with
  | path segments =>
      simp only [Term.withLiteral, Form.withLiteral]
      exact DocQuery.columnName_withLiteral h label segments index
  | _ => simp only [Term.withLiteral, Form.withLiteral, Term.columnName, lastSegment?]

theorem Source.rowName_withLiteral (h : parameters.Binds parameter literal) (source : Source) :
    (source.withLiteral parameter literal).rowName parameters = source.rowName parameters := by
  cases source with
  | path segments label =>
      cases label with
      | some label => simp only [Source.withLiteral, rowName]
      | none =>
          simp only [Source.withLiteral]
          exact columnName_withLiteral h none segments 0
  | _ => simp only [Source.withLiteral, rowName]

theorem Statement.documentName_withLiteral (h : parameters.Binds parameter literal)
    (s : Statement) :
    (s.withLiteral parameter literal).documentName parameters = s.documentName parameters := by
  obtain ⟨projection, source, joins, filter, grouping, ordering, distinct, offset, count⟩ := s
  cases source with
  | subquery inner label =>
      obtain ⟨_, source, _, _, _, _, _, _, _⟩ := inner
      simp only [Statement.withLiteral, Source.withLiteral, documentName]
      exact source.rowName_withLiteral h
  | path segments label =>
      have hname := Source.rowName_withLiteral h (.path segments label)
      simp only [Source.withLiteral] at hname
      simp only [Statement.withLiteral, Source.withLiteral, documentName, hname]
  | _ => simp only [Statement.withLiteral, Source.withLiteral, documentName, Source.rowName]

theorem Row.withRootFor_withLiteral (row : Row) (segments : List String) :
    row.withRootFor (pathWithLiteral parameter literal segments) = row.withRootFor segments := by
  cases segments <;> rfl

theorem Row.eachOfPath_withLiteral (h : parameters.Binds parameter literal) (name : String)
    (segments : List String) (row : Row) :
    row.eachOfPath parameters name (pathWithLiteral parameter literal segments) =
      row.eachOfPath parameters name segments := by
  simp only [Row.eachOfPath, Row.withRootFor_withLiteral, Row.follow_withLiteral h]

theorem pathWithLiteral_eq_singleton {segments : List String} {name : String} :
    pathWithLiteral parameter literal segments = [name] ↔ segments = [name] := by
  cases segments with
  | nil => rfl
  | cons first rest => simp [pathWithLiteral]

theorem Row.bindPath_withLiteral (h : parameters.Binds parameter literal) (name : String)
    (segments : List String) (row : Row) :
    row.bindPath parameters name (pathWithLiteral parameter literal segments) =
      row.bindPath parameters name segments := by
  simp only [Row.bindPath, pathWithLiteral_eq_singleton, Row.withRootFor_withLiteral,
    Row.follow_withLiteral h]

end Paths

/-! ## What stays as it is -/

theorem termsWithLiteral_eq_map (name : String) (literal : Constant) (ts : List Term) :
    termsWithLiteral name literal ts = ts.map (Term.withLiteral name literal) := by
  induction ts with
  | nil => rw [termsWithLiteral, List.map_nil]
  | cons t rest ih => rw [termsWithLiteral, List.map_cons, ih]

theorem keysWithLiteral_descends (name : String) (literal : Constant) (ordering : List SortKey) :
    (keysWithLiteral name literal ordering).map SortKey.descends =
      ordering.map SortKey.descends := by
  induction ordering with
  | nil => rw [keysWithLiteral]
  | cons key rest ih =>
      obtain ⟨t, direction⟩ := key
      rw [keysWithLiteral, List.map_cons, ih, List.map_cons]
      rfl

mutual

theorem Term.aggregates_withLiteral (name : String) (literal : Constant) :
    ∀ t : Term, (t.withLiteral name literal).aggregates = t.aggregates
  | ⟨label, negated, f⟩ => by
      rw [Term.withLiteral, Term.aggregates, Form.aggregates_withLiteral name literal f,
        Term.aggregates]

theorem Form.aggregates_withLiteral (name : String) (literal : Constant) :
    ∀ f : Form, (f.withLiteral name literal).aggregates = f.aggregates
  | .object members => by
      rw [Form.withLiteral, Form.aggregates, anyAggregates_withLiteral name literal members,
        Form.aggregates]
  | .array elements => by
      rw [Form.withLiteral, Form.aggregates, anyAggregates_withLiteral name literal elements,
        Form.aggregates]
  | .path _ | .constant _ | .call _ _ | .arithmetic _ _ _ | .condition _ | .subquery _
  | .existence _ => by simp only [Form.withLiteral, Form.aggregates]

theorem anyAggregates_withLiteral (name : String) (literal : Constant) :
    ∀ ts : List Term, anyAggregates (termsWithLiteral name literal ts) = anyAggregates ts
  | [] => by rw [termsWithLiteral]
  | t :: rest => by
      rw [termsWithLiteral, anyAggregates, Term.aggregates_withLiteral name literal t,
        anyAggregates_withLiteral name literal rest, anyAggregates]

end

theorem Projection.anyAggregates_withLiteral (name : String) (literal : Constant)
    (p : Projection) :
    anyAggregates (p.withLiteral name literal).terms = anyAggregates p.terms := by
  cases p with
  | columns ts =>
      rw [Projection.withLiteral]
      exact DocQuery.anyAggregates_withLiteral name literal ts
  | value t =>
      have ht := DocQuery.anyAggregates_withLiteral name literal [t]
      simp only [termsWithLiteral] at ht
      simpa only [Projection.withLiteral, Projection.terms] using ht

/-! ## The same plan -/

section Plan

variable {parameters : Parameters} {name : String} {literal : Constant}

mutual

theorem Term.resolve_withLiteral (h : parameters.Binds name literal) :
    ∀ t : Term, (t.withLiteral name literal).resolve parameters = t.resolve parameters
  | ⟨label, negated, f⟩ => by
      funext row
      rw [Term.withLiteral, Term.resolve, Form.resolve_withLiteral h f, Term.resolve]

theorem Form.resolve_withLiteral (h : parameters.Binds name literal) :
    ∀ f : Form, (f.withLiteral name literal).resolve parameters = f.resolve parameters
  | .path segments => by
      funext row
      rw [Form.withLiteral, Form.resolve, Row.follow_withLiteral h, Form.resolve]
  | .object members => by
      funext row
      rw [Form.withLiteral, Form.resolve, resolveColumns_withLiteral h members, Form.resolve]
  | .array elements => by
      funext row
      rw [Form.withLiteral, Form.resolve, resolveAll_withLiteral h elements, Form.resolve]
  | .constant c => by
      funext row
      rw [Form.withLiteral, Form.resolve, h.value, Form.resolve]
  | .call f arguments => by
      funext row
      cases f with
      | aggregate f =>
          rw [Form.withLiteral, Form.resolve, resolveFirst_withLiteral h arguments, Form.resolve]
      | random site => rw [Form.withLiteral, Form.resolve, Form.resolve]
      | _ => simp only [Form.withLiteral, Form.resolve, resolveAll_withLiteral h arguments]
  | .arithmetic op left right => by
      funext row
      rw [Form.withLiteral, Form.resolve, Term.resolve_withLiteral h left,
        Term.resolve_withLiteral h right, Form.resolve]
  | .condition c => by
      funext row
      rw [Form.withLiteral, Form.resolve, Condition.holds_withLiteral h c, Form.resolve]
  | .subquery s => by
      funext row
      rw [Form.withLiteral, Form.resolve, Statement.plan_withLiteral h s, Form.resolve]
  | .existence s => by
      funext row
      rw [Form.withLiteral, Form.resolve, Statement.plan_withLiteral h s, Form.resolve]

theorem resolveAll_withLiteral (h : parameters.Binds name literal) :
    ∀ ts : List Term, resolveAll parameters (termsWithLiteral name literal ts) =
      resolveAll parameters ts
  | [] => by rw [termsWithLiteral]
  | t :: rest => by
      funext row
      rw [termsWithLiteral, resolveAll, Term.resolve_withLiteral h t, resolveAll_withLiteral h rest,
        resolveAll]

theorem resolveFirst_withLiteral (h : parameters.Binds name literal) :
    ∀ ts : List Term, resolveFirst parameters (termsWithLiteral name literal ts) =
      resolveFirst parameters ts
  | [] => by rw [termsWithLiteral]
  | t :: _ => by
      funext row
      rw [termsWithLiteral, resolveFirst, Term.resolve_withLiteral h t, resolveFirst]

theorem resolveColumns_withLiteral (h : parameters.Binds name literal) :
    ∀ ts : List Term, resolveColumns parameters (termsWithLiteral name literal ts) =
      resolveColumns parameters ts
  | [] => by rw [termsWithLiteral]
  | t :: rest => by
      funext index row
      rw [termsWithLiteral, resolveColumns, Term.columnName_withLiteral h,
        Term.resolve_withLiteral h t, resolveColumns_withLiteral h rest, resolveColumns]

theorem Condition.holds_withLiteral (h : parameters.Binds name literal) :
    ∀ c : Condition, (c.withLiteral name literal).holds parameters = c.holds parameters
  | .compare op left right => by
      funext row
      rw [Condition.withLiteral, Condition.holds, Term.resolve_withLiteral h left,
        Term.resolve_withLiteral h right, Condition.holds]
  | .all parts => by
      funext row
      rw [Condition.withLiteral, Condition.holds, allHold_withLiteral h parts, Condition.holds]
  | .any parts => by
      funext row
      rw [Condition.withLiteral, Condition.holds, anyHolds_withLiteral h parts, Condition.holds]
  | .constant c => by
      funext row
      rw [Condition.withLiteral, Condition.holds, h.value, Condition.holds]
  | .term t => by
      funext row
      rw [Condition.withLiteral, Condition.holds, Term.resolve_withLiteral h t, Condition.holds]

theorem allHold_withLiteral (h : parameters.Binds name literal) :
    ∀ cs : List Condition, allHold parameters (conditionsWithLiteral name literal cs) =
      allHold parameters cs
  | [] => by rw [conditionsWithLiteral]
  | c :: rest => by
      funext row
      rw [conditionsWithLiteral, allHold, Condition.holds_withLiteral h c,
        allHold_withLiteral h rest, allHold]

theorem anyHolds_withLiteral (h : parameters.Binds name literal) :
    ∀ cs : List Condition, anyHolds parameters (conditionsWithLiteral name literal cs) =
      anyHolds parameters cs
  | [] => by rw [conditionsWithLiteral]
  | c :: rest => by
      funext row
      rw [conditionsWithLiteral, anyHolds, Condition.holds_withLiteral h c,
        anyHolds_withLiteral h rest, anyHolds]

theorem Projection.resolve_withLiteral (h : parameters.Binds name literal) :
    ∀ p : Projection, (p.withLiteral name literal).resolve parameters = p.resolve parameters
  | .columns ts => by
      funext row
      rw [Projection.withLiteral, Projection.resolve, resolveColumns_withLiteral h ts,
        Projection.resolve]
  | .value t => by
      funext row
      rw [Projection.withLiteral, Projection.resolve, Term.resolve_withLiteral h t,
        Projection.resolve]

theorem Source.expansions_withLiteral (h : parameters.Binds name literal) :
    ∀ s : Source, (s.withLiteral name literal).expansions parameters = s.expansions parameters
  | .documents => by rw [Source.withLiteral]
  | .path segments label => by
      have hname := Source.rowName_withLiteral h (.path segments label)
      rw [Source.withLiteral] at hname ⊢
      simp only [Source.expansions, hname, Row.bindPath_withLiteral h]
  | .each binding segments => by
      rw [Source.withLiteral]
      simp only [Source.expansions, Row.eachOfPath_withLiteral h]
  | .subquery s label => by
      rw [Source.withLiteral, Source.expansions, Statement.plan_withLiteral h s, Source.expansions]

theorem Join.expand_withLiteral (h : parameters.Binds name literal) :
    ∀ j : Join, (j.withLiteral name literal).expand parameters = j.expand parameters
  | .each binding segments => by
      funext row
      rw [Join.withLiteral, Join.expand, Row.follow_withLiteral h, Join.expand]
  | .subquery s label => by
      funext row
      rw [Join.withLiteral, Join.expand, Statement.plan_withLiteral h s, Join.expand]

theorem joinExpansions_withLiteral (h : parameters.Binds name literal) :
    ∀ js : List Join, joinExpansions parameters (joinsWithLiteral name literal js) =
      joinExpansions parameters js
  | [] => by rw [joinsWithLiteral]
  | j :: rest => by
      rw [joinsWithLiteral, joinExpansions, Join.expand_withLiteral h j,
        joinExpansions_withLiteral h rest, joinExpansions]

theorem resolveKeys_withLiteral (h : parameters.Binds name literal) :
    ∀ ordering : List SortKey, resolveKeys parameters (keysWithLiteral name literal ordering) =
      resolveKeys parameters ordering
  | [] => by rw [keysWithLiteral]
  | ⟨t, direction⟩ :: rest => by
      funext row
      rw [keysWithLiteral, resolveKeys, Term.resolve_withLiteral h t,
        resolveKeys_withLiteral h rest, resolveKeys]

theorem filterTest_withLiteral (h : parameters.Binds name literal) :
    ∀ test : Option Condition, filterTest parameters (filterWithLiteral name literal test) =
      filterTest parameters test
  | none => by rw [filterWithLiteral]
  | some c => by
      rw [filterWithLiteral, filterTest, Condition.holds_withLiteral h c, filterTest]

/-- A statement plans the same with the literal as with the parameter. -/
theorem Statement.plan_withLiteral (h : parameters.Binds name literal) :
    ∀ s : Statement, (s.withLiteral name literal).plan parameters = s.plan parameters
  | ⟨p, origin, js, test, grouping, ordering, distinct, offset, count⟩ => by
      have hgrouping : (termsWithLiteral name literal grouping).isEmpty = grouping.isEmpty := by
        rw [termsWithLiteral_eq_map, List.isEmpty_map]
      have hordering : (keysWithLiteral name literal ordering).isEmpty = ordering.isEmpty := by
        rw [← List.isEmpty_map, keysWithLiteral_descends, List.isEmpty_map]
      rw [Statement.withLiteral, Statement.plan, Statement.plan, hgrouping, hordering,
        Projection.anyAggregates_withLiteral, keysWithLiteral_descends,
        resolveAll_withLiteral h grouping, resolveKeys_withLiteral h ordering,
        Source.expansions_withLiteral h origin, joinExpansions_withLiteral h js,
        filterTest_withLiteral h test, Projection.resolve_withLiteral h p]

end

end Plan

namespace Statement

/--
Over every source, a statement with a literal in the place of a parameter hands out
what it hands out with the parameter bound to that value, the names of columns included,
where both draw the same numbers.
-/
theorem execute_withLiteral {ε : Type} (s : Statement) {parameters : Parameters} {name : String}
    {value : Value} {literal : Constant} (hname : Parameters.isName name = true)
    (hbound : parameters.get? name = some value)
    (hliteral : Constant.ofValue? value = some literal) (draws : Draws)
    (documents : Cursor ε Value) :
    (s.withLiteral name literal).execute parameters draws documents =
      s.execute parameters draws documents := by
  have hbinds := Parameters.Binds.of_ofValue? hname hbound hliteral
  have hrow : (s.withLiteral name literal).documentRow parameters draws =
      s.documentRow parameters draws := by
    funext index document
    rw [documentRow, documentRow, documentName_withLiteral hbinds]
  rw [execute, execute, plan_withLiteral hbinds, hrow]

theorem execute_withLiteral_text :
    let draws : Draws := fun _ _ => 0.5
    Parameters.isName "@key" = true ∧
      Parameters.get? [("@key", .text "name")] "@key" = some (.text "name") ∧
      Constant.ofValue? (.text "name") = some (.text "name") ∧
      (Statement.withLiteral "@key" (.text "name")
          ⟨.columns [Term.plain (.path ["c", "@key"]), Term.plain (.constant (.parameter "@key"))],
            .path ["c"] none, [], none, [], [], false, 0, none⟩).execute
          [("@key", .text "name")] draws
          (Cursor.ofList [(.ok (.object [("name", .text "a")]) : Except Empty Value)]) =
        Statement.execute
          ⟨.columns [Term.plain (.path ["c", "@key"]), Term.plain (.constant (.parameter "@key"))],
            .path ["c"] none, [], none, [], [], false, 0, none⟩
          [("@key", .text "name")] draws
          (Cursor.ofList [(.ok (.object [("name", .text "a")]) : Except Empty Value)]) :=
  ⟨by decide, rfl, rfl, execute_withLiteral _ (by decide) rfl rfl _ _⟩

end Statement

end DocQuery
