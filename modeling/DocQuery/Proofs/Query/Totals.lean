import DocQuery.Proofs.Query.Demand
import DocQuery.Proofs.Query.Sorted
import DocQuery.Proofs.Statement.Mentions

/-!
# Rows reduced to one

A statement whose projection is seen to call an aggregate makes one row of all rows that
pass its filter, and every aggregate call of the projection is taken over these rows.  A
call is seen as a term of the projection and inside objects and arrays.  Inside another
call, an operation or a condition it is not seen: then there is a row for each row that
passes, and the call is taken over no rows.
-/

namespace DocQuery

variable {ε : Type}

/-! ## Aggregate calls -/

mutual

/-- Whether a term calls an aggregate anywhere outside a subquery. -/
def Term.callsAggregate : Term → Bool
  | ⟨_, _, form⟩ => form.callsAggregate

def Form.callsAggregate : Form → Bool
  | .object members => anyCallsAggregate members
  | .array elements => anyCallsAggregate elements
  | .call f arguments => f.isAggregate || anyCallsAggregate arguments
  | .arithmetic _ left right => left.callsAggregate || right.callsAggregate
  | .condition c => c.callsAggregate
  | .path _ | .constant _ | .subquery _ | .existence _ => false

def anyCallsAggregate : List Term → Bool
  | [] => false
  | term :: rest => term.callsAggregate || anyCallsAggregate rest

def Condition.callsAggregate : Condition → Bool
  | .compare _ left right => left.callsAggregate || right.callsAggregate
  | .all parts => anyConditionCalls parts
  | .any parts => anyConditionCalls parts
  | .constant _ => false
  | .term t => t.callsAggregate

def anyConditionCalls : List Condition → Bool
  | [] => false
  | part :: rest => part.callsAggregate || anyConditionCalls rest

end

mutual

/-- An aggregate call that is seen is one that is called. -/
theorem Term.callsAggregate_of_aggregates : ∀ t : Term, t.aggregates → t.callsAggregate
  | ⟨_, _, form⟩ => by
      rw [Term.aggregates, Term.callsAggregate]
      exact form.callsAggregate_of_aggregates

theorem Form.callsAggregate_of_aggregates : ∀ f : Form, f.aggregates → f.callsAggregate
  | .object members => by
      rw [Form.aggregates, Form.callsAggregate]
      exact anyCallsAggregate_of_anyAggregates members
  | .array elements => by
      rw [Form.aggregates, Form.callsAggregate]
      exact anyCallsAggregate_of_anyAggregates elements
  | .call f arguments => by
      rw [Form.aggregates, Form.callsAggregate, Bool.or_eq_true]
      exact .inl
  | .path _ | .constant _ | .arithmetic .. | .condition _ | .subquery _ | .existence _ => by
      simp [Form.aggregates]

theorem anyCallsAggregate_of_anyAggregates :
    ∀ ts : List Term, anyAggregates ts → anyCallsAggregate ts
  | [] => by simp [anyAggregates]
  | t :: rest => by
      rw [anyAggregates, anyCallsAggregate, Bool.or_eq_true, Bool.or_eq_true]
      exact Or.imp t.callsAggregate_of_aggregates (anyCallsAggregate_of_anyAggregates rest)

end

/-! ## Aggregates over given rows -/

mutual

/-- Whether an aggregate is called in an argument of another one, outside a subquery. -/
def Term.nestsAggregates : Term → Bool
  | ⟨_, _, form⟩ => form.nestsAggregates

def Form.nestsAggregates : Form → Bool
  | .object members => anyNestsAggregates members
  | .array elements => anyNestsAggregates elements
  | .call f arguments =>
      f.isAggregate && anyCallsAggregate arguments || anyNestsAggregates arguments
  | .arithmetic _ left right => left.nestsAggregates || right.nestsAggregates
  | .condition c => c.nestsAggregates
  | .path _ | .constant _ | .subquery _ | .existence _ => false

def anyNestsAggregates : List Term → Bool
  | [] => false
  | term :: rest => term.nestsAggregates || anyNestsAggregates rest

def Condition.nestsAggregates : Condition → Bool
  | .compare _ left right => left.nestsAggregates || right.nestsAggregates
  | .all parts => anyConditionNests parts
  | .any parts => anyConditionNests parts
  | .constant _ => false
  | .term t => t.nestsAggregates

def anyConditionNests : List Condition → Bool
  | [] => false
  | part :: rest => part.nestsAggregates || anyConditionNests rest

end

mutual

/--
The value of a term in a row, with every aggregate call outside a subquery taken over given
rows, also one in an argument of another.
-/
def Term.resolveOver (parameters : Parameters) (rows : List Row) : Term → Row → Value
  | ⟨_, negated, form⟩, row => (form.resolveOver parameters rows row).negatedIf negated

def Form.resolveOver (parameters : Parameters) (rows : List Row) : Form → Row → Value
  | .path segments, row => row.follow parameters segments
  | .object members, row =>
      .object (Members.ofList (resolveColumnsOver parameters rows members 0 row))
  | .array elements, row => .array (resolveAllOver parameters rows elements row)
  | .constant c, _ => c.value parameters
  | .call (.aggregate f) arguments, _ =>
      f.apply (rows.map fun member => resolveFirstOver parameters rows arguments member)
  | .call (.random site) _, row => .ofFloat (row.draws.number site)
  | .call f arguments, row => f.apply (f.padded (resolveAllOver parameters rows arguments row))
  | .arithmetic op left right, row =>
      op.apply (left.resolveOver parameters rows row) (right.resolveOver parameters rows row)
  | .condition c, row => .bool (c.holdsOver parameters rows row)
  | .subquery s, row => .array ((s.plan parameters).values row)
  | .existence s, row => .bool ((s.plan parameters).hasValue row)

def resolveAllOver (parameters : Parameters) (rows : List Row) : List Term → Row → List Value
  | [], _ => []
  | term :: rest, row =>
      term.resolveOver parameters rows row :: resolveAllOver parameters rows rest row

def resolveFirstOver (parameters : Parameters) (rows : List Row) : List Term → Row → Value
  | [], _ => .null
  | term :: _, row => term.resolveOver parameters rows row

def resolveColumnsOver (parameters : Parameters) (rows : List Row) :
    List Term → Nat → Row → List (String × Value)
  | [], _, _ => []
  | term :: rest, index, row =>
      (term.columnName parameters index, term.resolveOver parameters rows row) ::
        resolveColumnsOver parameters rows rest (index + 1) row

def Condition.holdsOver (parameters : Parameters) (rows : List Row) : Condition → Row → Bool
  | .compare op left right, row =>
      op.holds ((left.resolveOver parameters rows row).compare
        (right.resolveOver parameters rows row))
  | .all parts, row => allHoldOver parameters rows parts row
  | .any parts, row => anyHoldsOver parameters rows parts row
  | .constant c, _ => (c.value parameters).isTrue
  | .term t, row => (t.resolveOver parameters rows row).isTrue

def allHoldOver (parameters : Parameters) (rows : List Row) : List Condition → Row → Bool
  | [], _ => true
  | part :: rest, row =>
      part.holdsOver parameters rows row && allHoldOver parameters rows rest row

def anyHoldsOver (parameters : Parameters) (rows : List Row) : List Condition → Row → Bool
  | [], _ => false
  | part :: rest, row =>
      part.holdsOver parameters rows row || anyHoldsOver parameters rows rest row

end

def Projection.resolveOver (parameters : Parameters) (rows : List Row) : Projection → Row → Value
  | .columns terms, row =>
      .object (Members.ofList (resolveColumnsOver parameters rows terms 0 row))
  | .value term, row => term.resolveOver parameters rows row

/--
What makes a value the same when its aggregate calls are taken over given rows: these are the
members of the row, unless nothing is called, and no aggregate is called in an argument of
another, unless there are no rows to take the other over.
-/
structure TakenOver (row : Row) (rows : List Row) (calls nests : Bool) : Prop where
  members : calls → row.members = rows
  nesting : rows ≠ [] → nests = false

namespace TakenOver

variable {row : Row} {rows : List Row} {calls nests calls' nests' : Bool}

theorem left (h : TakenOver row rows (calls || calls') (nests || nests')) :
    TakenOver row rows calls nests where
  members hcalls := h.members (by rw [hcalls, Bool.true_or])
  nesting hrows := (Bool.or_eq_false_iff.mp (h.nesting hrows)).1

theorem right (h : TakenOver row rows (calls || calls') (nests || nests')) :
    TakenOver row rows calls' nests' where
  members hcalls := h.members (by rw [hcalls, Bool.or_true])
  nesting hrows := (Bool.or_eq_false_iff.mp (h.nesting hrows)).2

/-- The arguments of an aggregate that is taken over some rows call none themselves. -/
theorem argument {arguments : List Term}
    (h : TakenOver row rows true (anyCallsAggregate arguments || anyNestsAggregates arguments))
    {member : Row} (hmember : member ∈ rows) :
    TakenOver member rows (anyCallsAggregate arguments) (anyNestsAggregates arguments) := by
  have hnone := h.nesting (List.ne_nil_of_mem hmember)
  rw [Bool.or_eq_false_iff] at hnone
  exact ⟨fun hcalls => absurd hcalls (by simp [hnone.1]), fun _ => hnone.2⟩

end TakenOver

mutual

/-- Aggregate calls that are not in one another are taken over the members of a row. -/
theorem Term.resolve_eq (parameters : Parameters) {rows : List Row} {row : Row} :
    ∀ t : Term, TakenOver row rows t.callsAggregate t.nestsAggregates →
      t.resolve parameters row = t.resolveOver parameters rows row
  | ⟨_, _, form⟩, h => by
      rw [Term.callsAggregate, Term.nestsAggregates] at h
      rw [Term.resolve, Term.resolveOver, form.resolve_eq parameters h]

theorem Form.resolve_eq (parameters : Parameters) {rows : List Row} {row : Row} :
    ∀ f : Form, TakenOver row rows f.callsAggregate f.nestsAggregates →
      f.resolve parameters row = f.resolveOver parameters rows row
  | .path segments, _ => by rw [Form.resolve, Form.resolveOver]
  | .object members, h => by
      rw [Form.callsAggregate, Form.nestsAggregates] at h
      rw [Form.resolve, Form.resolveOver, resolveColumns_eq parameters members 0 h]
  | .array elements, h => by
      rw [Form.callsAggregate, Form.nestsAggregates] at h
      rw [Form.resolve, Form.resolveOver, resolveAll_eq parameters elements h]
  | .constant c, _ => by rw [Form.resolve, Form.resolveOver]
  | .call f arguments, h => by
      rw [Form.callsAggregate, Form.nestsAggregates] at h
      cases f with
      | aggregate f =>
          rw [Function.isAggregate, Bool.true_or, Bool.true_and] at h
          rw [Form.resolve, Form.resolveOver, h.members rfl]
          exact congrArg f.apply (List.map_congr_left fun member hmember =>
            resolveFirst_eq parameters arguments (h.argument hmember))
      | random site => rw [Form.resolve, Form.resolveOver]
      | _ => simp only [Form.resolve, Form.resolveOver, resolveAll_eq parameters arguments h.right]
  | .arithmetic op left right, h => by
      rw [Form.callsAggregate, Form.nestsAggregates] at h
      rw [Form.resolve, Form.resolveOver, left.resolve_eq parameters h.left,
        right.resolve_eq parameters h.right]
  | .condition c, h => by
      rw [Form.callsAggregate, Form.nestsAggregates] at h
      rw [Form.resolve, Form.resolveOver, c.holds_eq parameters h]
  | .subquery s, _ => by rw [Form.resolve, Form.resolveOver]
  | .existence s, _ => by rw [Form.resolve, Form.resolveOver]

theorem resolveAll_eq (parameters : Parameters) {rows : List Row} {row : Row} :
    ∀ ts : List Term, TakenOver row rows (anyCallsAggregate ts) (anyNestsAggregates ts) →
      resolveAll parameters ts row = resolveAllOver parameters rows ts row
  | [], _ => by rw [resolveAll, resolveAllOver]
  | t :: rest, h => by
      rw [anyCallsAggregate, anyNestsAggregates] at h
      rw [resolveAll, resolveAllOver, t.resolve_eq parameters h.left,
        resolveAll_eq parameters rest h.right]

theorem resolveFirst_eq (parameters : Parameters) {rows : List Row} {row : Row} :
    ∀ ts : List Term, TakenOver row rows (anyCallsAggregate ts) (anyNestsAggregates ts) →
      resolveFirst parameters ts row = resolveFirstOver parameters rows ts row
  | [], _ => by rw [resolveFirst, resolveFirstOver]
  | t :: rest, h => by
      rw [anyCallsAggregate, anyNestsAggregates] at h
      rw [resolveFirst, resolveFirstOver, t.resolve_eq parameters h.left]

theorem resolveColumns_eq (parameters : Parameters) {rows : List Row} {row : Row} :
    ∀ (ts : List Term) (index : Nat),
      TakenOver row rows (anyCallsAggregate ts) (anyNestsAggregates ts) →
        resolveColumns parameters ts index row = resolveColumnsOver parameters rows ts index row
  | [], _, _ => by rw [resolveColumns, resolveColumnsOver]
  | t :: rest, index, h => by
      rw [anyCallsAggregate, anyNestsAggregates] at h
      rw [resolveColumns, resolveColumnsOver, t.resolve_eq parameters h.left,
        resolveColumns_eq parameters rest (index + 1) h.right]

theorem Condition.holds_eq (parameters : Parameters) {rows : List Row} {row : Row} :
    ∀ c : Condition, TakenOver row rows c.callsAggregate c.nestsAggregates →
      c.holds parameters row = c.holdsOver parameters rows row
  | .compare op left right, h => by
      rw [Condition.callsAggregate, Condition.nestsAggregates] at h
      rw [Condition.holds, Condition.holdsOver, left.resolve_eq parameters h.left,
        right.resolve_eq parameters h.right]
  | .all parts, h => by
      rw [Condition.callsAggregate, Condition.nestsAggregates] at h
      rw [Condition.holds, Condition.holdsOver, allHold_eq parameters parts h]
  | .any parts, h => by
      rw [Condition.callsAggregate, Condition.nestsAggregates] at h
      rw [Condition.holds, Condition.holdsOver, anyHolds_eq parameters parts h]
  | .constant c, _ => by rw [Condition.holds, Condition.holdsOver]
  | .term t, h => by
      rw [Condition.callsAggregate, Condition.nestsAggregates] at h
      rw [Condition.holds, Condition.holdsOver, t.resolve_eq parameters h]

theorem allHold_eq (parameters : Parameters) {rows : List Row} {row : Row} :
    ∀ cs : List Condition, TakenOver row rows (anyConditionCalls cs) (anyConditionNests cs) →
      allHold parameters cs row = allHoldOver parameters rows cs row
  | [], _ => by rw [allHold, allHoldOver]
  | c :: rest, h => by
      rw [anyConditionCalls, anyConditionNests] at h
      rw [allHold, allHoldOver, c.holds_eq parameters h.left, allHold_eq parameters rest h.right]

theorem anyHolds_eq (parameters : Parameters) {rows : List Row} {row : Row} :
    ∀ cs : List Condition, TakenOver row rows (anyConditionCalls cs) (anyConditionNests cs) →
      anyHolds parameters cs row = anyHoldsOver parameters rows cs row
  | [], _ => by rw [anyHolds, anyHoldsOver]
  | c :: rest, h => by
      rw [anyConditionCalls, anyConditionNests] at h
      rw [anyHolds, anyHoldsOver, c.holds_eq parameters h.left, anyHolds_eq parameters rest h.right]

end

theorem Projection.resolve_eq (parameters : Parameters) {rows : List Row} {row : Row}
    (p : Projection)
    (h : TakenOver row rows (anyCallsAggregate p.terms) (anyNestsAggregates p.terms)) :
    p.resolve parameters row = p.resolveOver parameters rows row := by
  cases p with
  | columns ts =>
      rw [Projection.resolve, Projection.resolveOver, resolveColumns_eq parameters ts 0 h]
  | value t =>
      rw [Projection.terms, anyCallsAggregate, anyNestsAggregates] at h
      rw [Projection.resolve, Projection.resolveOver, t.resolve_eq parameters h.left]

/-- Of rows outside any group, an aggregate call in an argument of another is over no rows. -/
theorem Form.resolve_nested (parameters : Parameters) {rows : List Row}
    (hrows : ∀ member ∈ rows, member.members = []) (row : Row) (f : Aggregate) (t : Term)
    (others : List Term) :
    (Form.call (.aggregate f) (t :: others)).resolve parameters (row.standingFor rows) =
      f.apply (rows.map (t.resolveOver parameters [])) := by
  rw [Form.resolve]
  refine congrArg f.apply (List.map_congr_left fun member hmember => ?_)
  rw [resolveFirst]
  exact t.resolve_eq parameters ⟨fun _ => hrows member hmember, fun hnone => absurd rfl hnone⟩

/-! ## Plans -/

theorem Row.ordered_perm (directions : List Bool) (keys : Row → List Value) (rows : List Row) :
    (Row.ordered directions keys rows).Perm rows := by
  rw [ordered_eq_sort]
  exact Sorting.sort_perm _ rows

namespace Plan

/-- The rows that are expanded and pass the filter. -/
def passing (plan : Plan) (rows : List Row) : List Row :=
  let expanded := plan.expansions.foldl (fun rows f => rows.flatMap f) rows
  match plan.filter with
  | some keep => expanded.filter keep
  | none => expanded

theorem keptOf_ok (plan : Plan) (rows : List Row) :
    plan.keptOf (rows.map (Except.ok (ε := ε))) = (plan.passing rows).map .ok := by
  unfold keptOf passing
  rw [foldl_expand_ok]
  cases plan.filter with
  | none => rfl
  | some keep => exact (Stage.run_filter keep _).trans (Listing.keep_ok keep _)

theorem rowsOf_map_ok (plan : Plan) (rows : List Row) :
    plan.rowsOf (rows.map (Except.ok (ε := ε))) =
      (plan.gatherings.foldl (fun rows f => f rows) (plan.passing rows)).map .ok := by
  rw [rowsOf_eq, keptOf_ok, foldl_gathered_ok]

/-- Expansions that keep rows outside any group. -/
theorem members_passing {plan : Plan}
    (hexpansions : ∀ f ∈ plan.expansions, ∀ row : Row, row.members = [] →
      ∀ made ∈ f row, made.members = [])
    {rows : List Row} (hrows : ∀ row ∈ rows, row.members = []) :
    ∀ row ∈ plan.passing rows, row.members = [] := by
  have hexpanded (expansions : List (Row → List Row))
      (h : ∀ f ∈ expansions, ∀ row : Row, row.members = [] → ∀ made ∈ f row, made.members = []) :
      ∀ row ∈ expansions.foldl (fun rows f => rows.flatMap f) rows, row.members = [] := by
    induction expansions generalizing rows with
    | nil => exact hrows
    | cons f rest ih =>
        refine ih (fun made hmade => ?_) fun g hg => h g (List.mem_cons_of_mem _ hg)
        obtain ⟨row, hrow, hmade⟩ := List.mem_flatMap.mp hmade
        exact h f List.mem_cons_self row (hrows row hrow) made hmade
  have hall := hexpanded plan.expansions hexpansions
  intro row hrow
  unfold passing at hrow
  cases hfilter : plan.filter with
  | none =>
      rw [hfilter] at hrow
      exact hall row hrow
  | some keep =>
      rw [hfilter] at hrow
      exact hall row (List.mem_filter.mp hrow).1

end Plan

/-! ## Statements -/

namespace Row

theorem members_bindPath (parameters : Parameters) (name : String) (segments : List String)
    (row : Row) : (row.bindPath parameters name segments).members = row.members := by
  have hroot : (row.withRootFor segments).members = row.members := by
    cases segments with
    | nil => rfl
    | cons first rest =>
        rw [withRootFor, withRootAs]
        split <;> rfl
  rw [bindPath]
  split
  · rfl
  · exact hroot

theorem members_of_mem_deriveEach {row made : Row} {name : String} {value : Value}
    (h : made ∈ row.deriveEach name value) : made.members = [] := by
  obtain ⟨element, -, rfl⟩ := List.mem_map.mp h
  rfl

end Row

theorem Source.members_of_mem_expansion (source : Source) {parameters : Parameters}
    {f : Row → List Row} (hf : f ∈ source.expansions parameters) {row made : Row}
    (hrow : row.members = []) (hmade : made ∈ f row) : made.members = [] := by
  cases source <;> simp only [Source.expansions, List.mem_singleton, List.not_mem_nil] at hf
  · subst hf
    rw [List.mem_singleton] at hmade
    rw [hmade, Row.members_bindPath, hrow]
  · subst hf
    exact Row.members_of_mem_deriveEach hmade
  · subst hf
    exact Row.members_of_mem_deriveEach hmade

/-- A join makes of a row a row for each element of some value, under its name. -/
theorem Join.exists_mem_deriveEach (join : Join) {parameters : Parameters} {row made : Row}
    (hmade : made ∈ join.expand parameters row) :
    ∃ value, made ∈ row.deriveEach join.bindingName value := by
  cases join with
  | each name segments =>
      rw [Join.expand] at hmade
      exact ⟨_, hmade⟩
  | subquery s label =>
      rw [Join.expand] at hmade
      exact ⟨_, hmade⟩

theorem mem_joinExpansions {parameters : Parameters} {joins : List Join} {f : Row → List Row}
    (hf : f ∈ joinExpansions parameters joins) :
    ∃ join ∈ joins, f = join.expand parameters := by
  induction joins with
  | nil =>
      rw [joinExpansions] at hf
      cases hf
  | cons join rest ih =>
      rw [joinExpansions, List.mem_cons] at hf
      rcases hf with rfl | hf
      · exact ⟨join, List.mem_cons_self, rfl⟩
      · obtain ⟨other, hother, rfl⟩ := ih hf
        exact ⟨other, List.mem_cons_of_mem _ hother, rfl⟩

theorem members_of_mem_joinExpansion {parameters : Parameters} (joins : List Join)
    {f : Row → List Row} (hf : f ∈ joinExpansions parameters joins) {row made : Row}
    (hmade : made ∈ f row) : made.members = [] := by
  obtain ⟨join, -, rfl⟩ := mem_joinExpansions hf
  obtain ⟨value, hmade⟩ := join.exists_mem_deriveEach hmade
  exact Row.members_of_mem_deriveEach hmade

namespace Statement

def rows (s : Statement) (parameters : Parameters) (draws : Draws) (documents : List Value) :
    List Row :=
  documents.zipIdx.map fun (document, index) => s.documentRow parameters draws index document

theorem rowsOf_ok (s : Statement) (parameters : Parameters) (draws : Draws)
    (documents : List Value) :
    s.rowsOf parameters draws (documents.map (Except.ok (ε := ε))) =
      (s.rows parameters draws documents).map .ok := by
  rw [rowsOf, rows, List.zipIdx_map, List.map_map, List.map_map]
  rfl

/-- The rows of some documents that pass the source, the joins and the filter. -/
def passing (s : Statement) (parameters : Parameters) (draws : Draws) (documents : List Value) :
    List Row :=
  (s.plan parameters).passing (s.rows parameters draws documents)

/-- The rows of some documents that pass, in the order that is asked for. -/
def arranged (s : Statement) (parameters : Parameters) (draws : Draws) (documents : List Value) :
    List Row :=
  if s.ordering.isEmpty then s.passing parameters draws documents
  else Row.ordered (s.ordering.map SortKey.descends) (resolveKeys parameters s.ordering)
    (s.passing parameters draws documents)

theorem arranged_perm (s : Statement) (parameters : Parameters) (draws : Draws)
    (documents : List Value) :
    (s.arranged parameters draws documents).Perm (s.passing parameters draws documents) := by
  unfold arranged
  split
  · exact .refl _
  · exact Row.ordered_perm _ _ _

theorem members_of_mem_arranged (s : Statement) (parameters : Parameters) (draws : Draws)
    (documents : List Value) {row : Row} (h : row ∈ s.arranged parameters draws documents) :
    row.members = [] := by
  refine Plan.members_passing ?_ ?_ row
    ((s.arranged_perm parameters draws documents).mem_iff.mp h)
  · obtain ⟨projection, source, joins, filter, grouping, ordering, distinct, offset, count⟩ := s
    simp only [Statement.plan, List.mem_append]
    rintro f (hf | hf) row hrow made hmade
    · exact source.members_of_mem_expansion hf hrow hmade
    · exact members_of_mem_joinExpansion joins hf hmade
  · intro row hrow
    obtain ⟨document, -, rfl⟩ := List.mem_map.mp hrow
    rfl

/-- Without groups the rows are put in order and, where an aggregate is seen, made one. -/
theorem gathered_eq (s : Statement) (parameters : Parameters) (draws : Draws)
    (hgrouping : s.grouping = []) (documents : List Value) :
    (s.plan parameters).gatherings.foldl (fun rows f => f rows)
        (s.passing parameters draws documents) =
      if s.reduces then Listing.standIn (s.arranged parameters draws documents)
      else s.arranged parameters draws documents := by
  have hreduced : Row.reduced = Listing.standIn := funext Row.reduced_eq_standIn
  unfold arranged
  rw [s.plan_gatherings, hgrouping, hreduced]
  cases s.ordering.isEmpty <;> cases s.reduces <;> simp

/-- The results of a statement without groups and without a window, on lists. -/
theorem resultsOf_ok (s : Statement) (parameters : Parameters) (draws : Draws)
    (hgrouping : s.grouping = []) (hoffset : s.offset = 0) (hcount : s.count = none)
    (documents : List Value) :
    s.resultsOf parameters draws (documents.map (Except.ok (ε := ε))) =
      Listing.onlyIf s.distinct (Listing.withoutRepeats Value.equal)
        ((if s.reduces then Listing.standIn (s.arranged parameters draws documents)
          else s.arranged parameters draws documents).map
            fun row => .ok (s.projection.resolve parameters row)) := by
  have hproject : (s.plan parameters).project = s.projection.resolve parameters := by
    cases s
    simp only [Statement.plan]
  have hdistinct : (s.plan parameters).distinct = s.distinct := by
    cases s
    simp only [Statement.plan]
  rw [resultsOf, rowsOf_ok, Plan.resultsOf_eq, Plan.rowsOf_map_ok, hproject, hdistinct,
    s.plan_offset, s.plan_count, hoffset, hcount, List.drop_zero, Listing.firstOf, List.map_map]
  congr 2
  exact s.gathered_eq parameters draws hgrouping documents

/--
A statement that is seen to call an aggregate gives one row if any row passes, and no row
otherwise.  All aggregate calls of its projection are taken over all rows that pass, if none
is in an argument of another.  One in an argument is taken over the members of a single row,
of which there are none.
-/
theorem items_execute_of_reduces (s : Statement) (parameters : Parameters) (draws : Draws)
    (hreduces : s.reduces) (hoffset : s.offset = 0) (hcount : s.count = none)
    {documents : Cursor ε Value} {found : List Value} (hfound : documents.items = found.map .ok) :
    (s.arranged parameters draws found).Perm (s.passing parameters draws found) ∧
      (s.passing parameters draws found = [] → (s.execute parameters draws documents).items = []) ∧
      ∀ first rest, s.arranged parameters draws found = first :: rest →
        ∃ total, (s.execute parameters draws documents).items = [.ok total] ∧
          (anyNestsAggregates s.projection.terms = false →
            total = s.projection.resolveOver parameters (first :: rest)
              (first.standingFor (first :: rest))) := by
  have hgrouping : s.grouping = [] := by
    rw [reduces, Bool.and_eq_true] at hreduces
    exact List.isEmpty_iff.mp hreduces.1
  have hperm := s.arranged_perm parameters draws found
  rw [items_execute, hfound, s.resultsOf_ok parameters draws hgrouping hoffset hcount,
    if_pos hreduces]
  refine ⟨hperm, fun hnone => ?_, fun first rest harranged => ?_⟩
  · rw [hnone] at hperm
    rw [hperm.eq_nil]
    cases s.distinct <;> rfl
  · rw [harranged, Listing.standIn, List.map_singleton]
    refine ⟨_, by cases s.distinct <;> rfl, fun hnests => ?_⟩
    exact s.projection.resolve_eq parameters ⟨fun _ => rfl, fun _ => hnests⟩

theorem items_execute_of_reduces_count :
    let draws : Draws := fun _ _ => 0.5
    let s : Statement :=
      ⟨.columns [.plain (.call (.aggregate .count) [.plain (.path ["c", "v"])])],
        .path ["c"] none, [], none, [], [], false, 0, none⟩
    let documents : Cursor Empty Value :=
      Cursor.ofList [.ok (.object [("v", .null)]), .ok (.object [("v", .bool true)])]
    s.reduces ∧ s.offset = 0 ∧ s.count = none ∧ anyNestsAggregates s.projection.terms = false ∧
      (s.execute [] draws documents).items = [.ok (.object [("$1", .ofNat 1)])] := by
  intro draws s documents
  have hfound : documents.items =
      [Value.object [("v", .null)], .object [("v", .bool true)]].map .ok :=
    Cursor.items_ofList _
  obtain ⟨-, -, htotal⟩ := s.items_execute_of_reduces [] draws rfl rfl rfl hfound
  obtain ⟨total, hitems, hvalue⟩ := htotal _ _ rfl
  exact ⟨rfl, rfl, rfl, rfl, by rw [hitems, hvalue rfl]; rfl⟩

/--
A statement without groups that is not seen to call an aggregate gives a row for each row
that passes.  The aggregate calls of its projection are taken over no rows.
-/
theorem items_execute_of_not_reduces (s : Statement) (parameters : Parameters) (draws : Draws)
    (hreduces : ¬s.reduces) (hgrouping : s.grouping = []) (hoffset : s.offset = 0)
    (hcount : s.count = none) {documents : Cursor ε Value} {found : List Value}
    (hfound : documents.items = found.map .ok) :
    (s.execute parameters draws documents).items =
      Listing.onlyIf s.distinct (Listing.withoutRepeats Value.equal)
        ((s.arranged parameters draws found).map fun row =>
          .ok (s.projection.resolveOver parameters [] row)) := by
  rw [items_execute, hfound, s.resultsOf_ok parameters draws hgrouping hoffset hcount,
    if_neg hreduces]
  congr 1
  refine List.map_congr_left fun row hrow => ?_
  rw [s.projection.resolve_eq parameters
    ⟨fun _ => s.members_of_mem_arranged parameters draws found hrow, fun hnone => absurd rfl hnone⟩]

/-- An aggregate call inside another call is not seen, and gives a row for each document. -/
theorem not_one_row_of_callsAggregate :
    ¬ ∀ (s : Statement) (parameters : Parameters) (draws : Draws) (found : List Value),
      s.grouping = [] → s.offset = 0 → s.count = none →
      anyCallsAggregate s.projection.terms →
      (s.execute parameters draws
        (Cursor.ofList (found.map (Except.ok (ε := Empty))))).items.length ≤ 1 := by
  intro h
  let draws : Draws := fun _ _ => 0.5
  let s : Statement :=
    ⟨.value (.plain (.call (.math .abs)
        [.plain (.call (.aggregate .sum) [.plain (.path ["c", "v"])])])),
      .path ["c"] none, [], none, [], [], false, 0, none⟩
  have hone := h s [] draws [.object [("v", .ofInt 1)], .object [("v", .ofInt 2)]] rfl rfl rfl rfl
  rw [items_execute, Cursor.items_ofList] at hone
  exact absurd hone (by decide)

end Statement

end DocQuery
