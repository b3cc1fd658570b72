import DocQuery.Proofs.Query.Groups
import DocQuery.Proofs.Query.Sorted
import DocQuery.Proofs.Query.Stages
import DocQuery.Query.Results

/-!
# Cursors hand out what statements list

The results that a statement hands out on request, one at a time, are those that it
lists when every clause is computed for all rows before the next one.  A plan is first
read as list functions; a statement with all its subqueries then follows by recursion
on its form.
-/

namespace DocQuery

variable {ε α : Type}

/-! ## Plans -/

namespace Plan

theorem foldl_expand_ok (expansions : List (Row → List Row)) (rows : List Row) :
    expansions.foldl (fun rows f => (Stage.expand f).run () rows) (rows.map (Except.ok (ε := ε))) =
      (expansions.foldl (fun rows f => rows.flatMap f) rows).map .ok := by
  induction expansions generalizing rows with
  | nil => rfl
  | cons f rest ih =>
      rw [List.foldl_cons, Stage.run_expand, Listing.expand_ok, ih, List.foldl_cons]

theorem foldl_gathered_ok (gatherings : List (List Row → List Row)) (rows : List Row) :
    gatherings.foldl (fun rows f => Cursor.gathered f rows) (rows.map (Except.ok (ε := ε))) =
      (gatherings.foldl (fun rows f => f rows) rows).map .ok := by
  induction gatherings generalizing rows with
  | nil => rfl
  | cons f rest ih =>
      rw [List.foldl_cons, Cursor.gathered_eq_atOnce, Listing.atOnce_ok, ih, List.foldl_cons]

theorem rowsOf_ok (plan : Plan) (rows : List Row) :
    ∃ projected : List Row, ∀ ε : Type,
      plan.rowsOf (rows.map (Except.ok (ε := ε))) = projected.map .ok := by
  let expanded := plan.expansions.foldl (fun rows f => rows.flatMap f) rows
  let filtered := plan.filter.elim expanded fun keep => expanded.filter keep
  refine ⟨plan.gatherings.foldl (fun rows f => f rows) filtered, fun ε => ?_⟩
  unfold rowsOf
  cases h : plan.filter with
  | none => simp [foldl_expand_ok, foldl_gathered_ok, filtered, expanded, h]
  | some p =>
      simp [foldl_expand_ok, Stage.run_filter, Listing.keep_ok, foldl_gathered_ok, filtered,
        expanded, h]

/-- The results of a plan, one list function after the other. -/
theorem resultsOf_eq (plan : Plan) (entries : List (Except ε Row)) :
    plan.resultsOf entries =
      Listing.firstOf plan.count
        ((Listing.onlyIf plan.distinct (Listing.withoutRepeats Value.equal)
          ((plan.rowsOf entries).map (Except.map plan.project))).drop plan.offset) := by
  have hdrop (results : List (Except ε Value)) :
      (if 0 < plan.offset then (Stage.skip plan.offset).run plan.offset results else results) =
        results.drop plan.offset := by
    split
    · exact Stage.run_skip _ _ _
    · rename_i h
      rw [Nat.eq_zero_of_not_pos h, List.drop_zero]
  have hunique (results : List (Except ε Value)) :
      (if plan.distinct then distinctStage.run [] results else results) =
        Listing.onlyIf plan.distinct (Listing.withoutRepeats Value.equal) results := by
    cases plan.distinct with
    | false => rfl
    | true => exact Stage.run_distinct Value.equal results
  unfold resultsOf
  simp only [hdrop, hunique, Stage.run_map]
  cases plan.count <;> rfl

/-- What a plan makes of rows without failures does not depend on what failures are. -/
theorem resultsOf_ok (plan : Plan) (rows : List Row) :
    ∃ results : List Value, ∀ ε : Type,
      plan.resultsOf (rows.map (Except.ok (ε := ε))) = results.map .ok := by
  obtain ⟨projected, hprojected⟩ := rowsOf_ok plan rows
  let values := projected.map plan.project
  let unique := if plan.distinct then Listing.unrepeated Value.equal [] values else values
  refine ⟨Listing.firstOf plan.count (unique.drop plan.offset), fun ε => ?_⟩
  have hmap : (plan.rowsOf (rows.map (Except.ok (ε := ε)))).map (Except.map plan.project) =
      values.map .ok := by
    simp [hprojected, Except.map, values]
  have hunique : Listing.onlyIf plan.distinct (Listing.withoutRepeats Value.equal)
      (values.map (Except.ok (ε := ε))) = unique.map .ok := by
    cases h : plan.distinct with
    | false => simp [Listing.onlyIf, unique, h]
    | true => simp [Listing.onlyIf, unique, h, Listing.withoutRepeats_ok]
  rw [resultsOf_eq, hmap, hunique, ← List.map_drop]
  cases plan.count with
  | none => rfl
  | some n => exact List.map_take.symm

theorem resultsOf_single (ε : Type) (plan : Plan) (row : Row) :
    plan.resultsOf [Except.ok (ε := ε) row] = (plan.values row).map .ok := by
  obtain ⟨results, hresults⟩ := resultsOf_ok plan [row]
  have hvalues : plan.values row = results := by
    have hcertain : (results.map Except.ok).map certain = results := by
      rw [List.map_map]
      exact List.map_id results
    rw [values_eq, ← hcertain, ← hresults Empty]
    rfl
  rw [hvalues]
  exact hresults ε

end Plan

/-! ## Statements -/

/-- The answer to the first request is the first item. -/
theorem Cursor.next_fst (c : Cursor ε α) : c.next.1 = c.items.head? := by
  change (c.pull c.state).1 = (c.itemsFrom c.state).head?
  cases h : c.pull c.state with
  | mk answer after =>
      cases answer with
      | none => rw [itemsFrom_of_pull_none h, List.head?_nil]
      | some item => rw [itemsFrom_of_pull_some h, List.head?_cons]

theorem Plan.hasValue_eq (plan : Plan) (row : Row) :
    plan.hasValue row = !(plan.values row).isEmpty := by
  rw [hasValue, values, Cursor.next_fst]
  cases (plan.results (once row)).items <;> rfl

namespace Listing

theorem sorted_eq_sort (compare : α → α → Ordering) (items : List α) :
    sorted compare items = Sorting.sort compare items := by
  fun_induction sorted compare items with
  | case1 items hlength => exact (Sorting.sort_of_length_le_one hlength).symm
  | case2 items hlength ihLeft ihRight =>
      rw [ihLeft, ihRight, Sorting.sort.eq_1 compare items, if_neg hlength, Sorting.merge_eq]
      rfl

theorem compareAll_cons (descends : Bool) (descending : List Bool) (a b : Value)
    (as bs : List Value) :
    compareAll (descends :: descending) (a :: as) (b :: bs) =
      (if descends then b.compare a else a.compare b).then (compareAll descending as bs) :=
  rfl

theorem compareAll_eq (descending : List Bool) (as bs : List Value) :
    compareAll descending as bs = Row.compareKeys descending as bs := by
  induction descending generalizing as bs with
  | nil => rfl
  | cons descends rest ih =>
      cases as with
      | nil => rfl
      | cons a as =>
          cases bs with
          | nil => rfl
          | cons b bs =>
              rw [compareAll_cons, Row.compareKeys, ih]
              generalize (if descends then b.compare a else a.compare b : Ordering) = order
              cases order <;> rfl

theorem sorted_compareAll (descending : List Bool) (keys : Row → List Value) :
    sorted (fun a b => compareAll descending (keys a) (keys b)) = Row.ordered descending keys := by
  funext rows
  simp only [sorted_eq_sort, compareAll_eq, Row.ordered_eq_sort]

theorem located_eq (row : Row) (segments : List String) :
    located row segments = row.withRootFor segments := by
  cases segments <;> rfl

theorem named_eq (parameters : Parameters) (name : String) (segments : List String) :
    named parameters name segments = Row.bindPath parameters name segments := by
  funext row
  rw [named, located_eq]
  rfl

theorem beginsWithItem_ok (items : List α) :
    beginsWithItem (items.map (Except.ok (ε := ε))) = !items.isEmpty := by
  cases items <;> rfl

theorem filterMap_toOption_ok (items : List α) :
    (items.map (Except.ok (ε := ε))).filterMap Except.toOption = items := by
  rw [List.filterMap_map]
  exact List.filterMap_some

/-- A gathering that a plan holds only when it is asked for. -/
theorem foldl_gathered_if (asked : Bool) (f : List α → List α) (entries : List (Except ε α)) :
    (if asked then [f] else []).foldl (fun rows f => Cursor.gathered f rows) entries =
      onlyIf asked (atOnce f) entries := by
  cases asked with
  | false => rfl
  | true => exact Cursor.gathered_eq_atOnce f entries

theorem foldl_gathered_unless (absent : Bool) (f : List α → List α) (entries : List (Except ε α)) :
    (if absent then [] else [f]).foldl (fun rows f => Cursor.gathered f rows) entries =
      onlyIf (!absent) (atOnce f) entries := by
  cases absent with
  | false => exact Cursor.gathered_eq_atOnce f entries
  | true => rfl

mutual

theorem term_eq (ε : Type) (parameters : Parameters) :
    ∀ t : Term, term ε parameters t = t.resolve parameters
  | ⟨label, negated, f⟩ => by
      funext row
      rw [term, Term.resolve, form_eq ε parameters f]

theorem form_eq (ε : Type) (parameters : Parameters) :
    ∀ f : Form, form ε parameters f = f.resolve parameters
  | .path segments => by
      funext row
      rw [form, Form.resolve]
  | .object members => by
      funext row
      rw [form, Form.resolve, columns_eq ε parameters members]
  | .array elements => by
      funext row
      rw [form, Form.resolve, terms_eq ε parameters elements]
  | .constant c => by
      funext row
      rw [form, Form.resolve]
  | .call f arguments => by
      funext row
      cases f with
      | aggregate f => rw [form, Form.resolve, first_eq ε parameters arguments]
      | random site => rw [form, Form.resolve]
      | _ => simp only [form, Form.resolve, terms_eq ε parameters arguments]
  | .arithmetic op left right => by
      funext row
      rw [form, Form.resolve, term_eq ε parameters left, term_eq ε parameters right]
  | .condition c => by
      funext row
      rw [form, Form.resolve, condition_eq ε parameters c]
  | .subquery s => by
      funext row
      rw [form, Form.resolve, statement_eq ε parameters s, Plan.resultsOf_single,
        filterMap_toOption_ok]
  | .existence s => by
      funext row
      rw [form, Form.resolve, statement_eq ε parameters s, Plan.resultsOf_single,
        beginsWithItem_ok, Plan.hasValue_eq]

theorem terms_eq (ε : Type) (parameters : Parameters) :
    ∀ ts : List Term, terms ε parameters ts = resolveAll parameters ts
  | [] => by
      funext row
      rw [terms, resolveAll]
  | t :: rest => by
      funext row
      rw [terms, resolveAll, term_eq ε parameters t, terms_eq ε parameters rest]

theorem first_eq (ε : Type) (parameters : Parameters) :
    ∀ ts : List Term, first ε parameters ts = resolveFirst parameters ts
  | [] => by
      funext row
      rw [first, resolveFirst]
  | t :: rest => by
      funext row
      rw [first, resolveFirst, term_eq ε parameters t]

theorem columns_eq (ε : Type) (parameters : Parameters) :
    ∀ ts : List Term, columns ε parameters ts = resolveColumns parameters ts
  | [] => by
      funext index row
      rw [columns, resolveColumns]
  | t :: rest => by
      funext index row
      rw [columns, resolveColumns, term_eq ε parameters t, columns_eq ε parameters rest]

theorem condition_eq (ε : Type) (parameters : Parameters) :
    ∀ c : Condition, condition ε parameters c = c.holds parameters
  | .compare op left right => by
      funext row
      rw [condition, Condition.holds, term_eq ε parameters left, term_eq ε parameters right]
  | .all parts => by
      funext row
      rw [condition, Condition.holds, conditions_all ε parameters parts]
  | .any parts => by
      funext row
      rw [condition, Condition.holds, conditions_any ε parameters parts]
  | .constant c => by
      funext row
      rw [condition, Condition.holds]
  | .term t => by
      funext row
      rw [condition, Condition.holds, term_eq ε parameters t]

theorem conditions_all (ε : Type) (parameters : Parameters) :
    ∀ (cs : List Condition) (row : Row),
      (conditions ε parameters cs row).all id = allHold parameters cs row
  | [], row => by rw [conditions, allHold, List.all_nil]
  | c :: rest, row => by
      rw [conditions, allHold, List.all_cons, condition_eq ε parameters c,
        conditions_all ε parameters rest, id]

theorem conditions_any (ε : Type) (parameters : Parameters) :
    ∀ (cs : List Condition) (row : Row),
      (conditions ε parameters cs row).any id = anyHolds parameters cs row
  | [], row => by rw [conditions, anyHolds, List.any_nil]
  | c :: rest, row => by
      rw [conditions, anyHolds, List.any_cons, condition_eq ε parameters c,
        conditions_any ε parameters rest, id]

theorem projection_eq (ε : Type) (parameters : Parameters) :
    ∀ p : Projection, projection ε parameters p = p.resolve parameters
  | .columns ts => by
      funext row
      rw [projection, Projection.resolve, columns_eq ε parameters ts]
  | .value t => by
      funext row
      rw [projection, Projection.resolve, term_eq ε parameters t]

theorem source_eq (ε : Type) (parameters : Parameters) :
    ∀ (s : Source) (rows : List (Except ε Row)),
      source ε parameters s rows =
        (s.expansions parameters).foldl (fun rows f => (Stage.expand f).run () rows) rows
  | .documents, rows => by rw [source, Source.expansions, List.foldl_nil]
  | .path segments label, rows => by
      rw [source, Source.expansions, List.foldl_cons, List.foldl_nil, named_eq]
      exact (Stage.run_map _ rows).symm
  | .each name segments, rows => by
      rw [source, Source.expansions, List.foldl_cons, List.foldl_nil, Stage.run_expand]
      congr 1
      funext row
      rw [located_eq]
      rfl
  | .subquery s label, rows => by
      rw [source, Source.expansions, List.foldl_cons, List.foldl_nil, Stage.run_expand]
      congr 1
      funext row
      rw [statement_eq ε parameters s, Plan.resultsOf_single, filterMap_toOption_ok]
      rfl

theorem join_eq (ε : Type) (parameters : Parameters) :
    ∀ j : Join, join ε parameters j = j.expand parameters
  | .each name segments => by
      funext row
      rw [join, Join.expand]
      rfl
  | .subquery s label => by
      funext row
      rw [join, Join.expand, statement_eq ε parameters s, Plan.resultsOf_single,
        filterMap_toOption_ok]
      rfl

theorem joins_eq (ε : Type) (parameters : Parameters) :
    ∀ (js : List Join) (rows : List (Except ε Row)),
      joins ε parameters js rows =
        (joinExpansions parameters js).foldl (fun rows f => (Stage.expand f).run () rows) rows
  | [], rows => by rw [joins, joinExpansions, List.foldl_nil]
  | j :: rest, rows => by
      rw [joins, joinExpansions, List.foldl_cons, Stage.run_expand, joins_eq ε parameters rest,
        join_eq ε parameters j]

theorem filter_eq (ε : Type) (parameters : Parameters) :
    ∀ (test : Option Condition) (rows : List (Except ε Row)),
      filter ε parameters test rows =
        match filterTest parameters test with
        | some keep => (Stage.filter keep).run () rows
        | none => rows
  | none, rows => by rw [filter, filterTest]
  | some c, rows => by
      rw [filter, filterTest, condition_eq ε parameters c]
      exact (Stage.run_filter _ rows).symm

theorem keys_eq (ε : Type) (parameters : Parameters) :
    ∀ ordering : List SortKey, keys ε parameters ordering = resolveKeys parameters ordering
  | [] => by
      funext row
      rw [keys, resolveKeys]
  | ⟨t, direction⟩ :: rest => by
      funext row
      rw [keys, resolveKeys, term_eq ε parameters t, keys_eq ε parameters rest]

/-- The results of the plan of a statement are what it lists. -/
theorem statement_eq (ε : Type) (parameters : Parameters) :
    ∀ (s : Statement) (rows : List (Except ε Row)),
      statement ε parameters s rows = (s.plan parameters).resultsOf rows
  | ⟨p, origin, js, test, grouping, ordering, distinct, offset, count⟩, rows => by
      have hgroups : (fun rows => (groupsBy (fun row =>
          Value.groupKey (terms ε parameters grouping row)) rows).flatMap standIn) =
          Row.grouped fun row => Value.groupKey (resolveAll parameters grouping row) := by
        funext rows
        rw [Row.grouped_eq, terms_eq ε parameters grouping]
      have hreduced : standIn = Row.reduced := by
        funext rows
        exact (Row.reduced_eq_standIn rows).symm
      rw [statement, Statement.plan, Plan.resultsOf_eq]
      simp only [Plan.rowsOf, List.foldl_append, foldl_gathered_if, foldl_gathered_unless,
        ← source_eq ε parameters origin, ← joins_eq ε parameters js]
      rw [filter_eq ε parameters test]
      cases filterTest parameters test with
      | none =>
          rw [hgroups, hreduced, sorted_compareAll, keys_eq ε parameters ordering,
            projection_eq ε parameters p]
      | some keep =>
          rw [hgroups, hreduced, sorted_compareAll, keys_eq ε parameters ordering,
            projection_eq ε parameters p]

end

end Listing

namespace Statement

/-- A statement hands out what it lists for the entries of its source. -/
theorem items_execute_eq_listed (s : Statement) (parameters : Parameters) (draws : Draws)
    (documents : Cursor ε Value) :
    (s.execute parameters draws documents).items = s.listed parameters draws documents.items := by
  rw [items_execute, resultsOf, listed, Listing.statement_eq]
  rfl

/--
Whatever numbers are drawn, the results handed out one after the other, until there is none,
are the list that is computed clause by clause for these numbers, with every failure of the
source where that list has it.
-/
theorem items_execute_ofList (s : Statement) (parameters : Parameters) (draws : Draws)
    (entries : List (Except ε Value)) :
    (s.execute parameters draws (Cursor.ofList entries)).items =
      s.listed parameters draws entries := by
  rw [items_execute_eq_listed, Cursor.items_ofList]

end Statement

end DocQuery
