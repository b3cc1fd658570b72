import DocQuery.Proofs.Query.Binding
import DocQuery.Proofs.Statement.LocalClauses

/-!
# Filters and their truth

A comparison, a membership or an existence test has a truth value, and so has a condition
made of such tests; `NOT`, which only toggles a flag, negates it.  A statement that filters
the documents and does nothing else is read from whatever is read as a condition, and a
test that is its whole filter is read alike in any other condition.
-/

namespace DocQuery

open DocQuery.Parser Grammar

/-! ## Conditions that are truth values -/

namespace Condition

variable {c : Condition}

/-- As a term, a condition is never anything but its truth value. -/
def Boolean (c : Condition) : Prop :=
  ∀ parameters row, (Term.ofCondition c).resolve parameters row = .bool (c.holds parameters row)

/-- A condition in brackets holds when it does without them. -/
theorem holds_ofCondition (c : Condition) (parameters : Parameters) (row : Row) :
    (term (Term.ofCondition c)).holds parameters row = c.holds parameters row := by
  cases c <;> simp [Term.ofCondition, Term.plain, holds, Term.resolve, Form.resolve]

theorem holds_asFilter (c : Condition) (parameters : Parameters) (row : Row) :
    c.asFilter.holds parameters row = c.holds parameters row := by
  unfold asFilter
  split
  · simp [holds, Term.resolve, Form.resolve]
  · rfl

theorem Boolean.ofCondition (h : c.Boolean) : (term (Term.ofCondition c)).Boolean := by
  intro parameters row
  rw [holds_ofCondition]
  exact h parameters row

/-- A condition that is a term only by being put into one. -/
theorem boolean_of_ofCondition (h : Term.ofCondition c = .plain (.condition c)) : c.Boolean := by
  intro parameters row
  rw [h, Term.plain, Term.resolve, Form.resolve, Value.negatedIf_false]

/-- A term is a truth value when its form is, negated or not. -/
theorem boolean_term {label : Option String} {negated : Bool} {form : Form}
    (h : ∀ parameters row, ∃ b, form.resolve parameters row = .bool b) :
    (term ⟨label, negated, form⟩).Boolean := by
  intro parameters row
  obtain ⟨b, hb⟩ := h parameters row
  simp [Term.ofCondition, holds, Term.resolve, hb]

/-- What is a truth value after a possible negation was one before. -/
theorem exists_bool_of_negatedIf {value : Value} {negated b : Bool}
    (h : value.negatedIf negated = .bool b) : ∃ b', value = .bool b' := by
  cases value with
  | bool b' => exact ⟨b', rfl⟩
  | _ => cases h

theorem Boolean.exists_bool {label : Option String} {negated : Bool} {form : Form}
    (h : (term ⟨label, negated, form⟩).Boolean) (parameters : Parameters) (row : Row) :
    ∃ b, form.resolve parameters row = .bool b := by
  have hresolve := h parameters row
  rw [Term.ofCondition, Term.resolve] at hresolve
  exact exists_bool_of_negatedIf hresolve

theorem Boolean.negate (h : c.Boolean) : c.negate.Boolean := by
  cases c with
  | term t =>
      obtain ⟨label, negated, form⟩ := t
      exact boolean_term h.exists_bool
  | _ =>
      exact boolean_term fun parameters row => ⟨_, by rw [Form.resolve]⟩

/-- Negation toggles a flag, which only a truth value heeds. -/
theorem Boolean.holds_negate (h : c.Boolean) (parameters : Parameters) (row : Row) :
    c.negate.holds parameters row = !c.holds parameters row := by
  cases c with
  | term t =>
      obtain ⟨label, negated, form⟩ := t
      obtain ⟨b, hb⟩ := h.exists_bool parameters row
      cases negated <;> simp [Condition.negate, holds, Term.resolve, hb]
  | _ => simp [Condition.negate, holds, Term.resolve, Form.resolve]

theorem allHold_eq_all (parameters : Parameters) (cs : List Condition) (row : Row) :
    allHold parameters cs row = cs.all fun c => c.holds parameters row := by
  induction cs with
  | nil => rw [allHold, List.all_nil]
  | cons c rest ih => rw [allHold, ih, List.all_cons]

theorem anyHolds_eq_any (parameters : Parameters) (cs : List Condition) (row : Row) :
    anyHolds parameters cs row = cs.any fun c => c.holds parameters row := by
  induction cs with
  | nil => rw [anyHolds, List.any_nil]
  | cons c rest ih => rw [anyHolds, ih, List.any_cons]

theorem holds_joined_all (cs : List Condition) (parameters : Parameters) (row : Row) :
    (joined all cs).holds parameters row = cs.all fun c => c.holds parameters row := by
  unfold joined
  split
  · simp
  · rw [holds, allHold_eq_all]

theorem holds_joined_any (cs : List Condition) (parameters : Parameters) (row : Row) :
    (joined any cs).holds parameters row = cs.any fun c => c.holds parameters row := by
  unfold joined
  split
  · simp
  · rw [holds, anyHolds_eq_any]

/-- Conditions that are joined have sites as each of them has, from some site or other on. -/
theorem exists_sited_joined (join : List Condition → Condition)
    (hjoin : ∀ cs site, (join cs).sited site = join (sitedConditions site cs))
    (cs : List Condition) (site : List Nat) :
    ∃ site', joined join (sitedConditions site cs) = (joined join cs).sited site' := by
  match cs with
  | [] =>
      refine ⟨site, ?_⟩
      rw [sitedConditions, joined, hjoin, sitedConditions]
      simp
  | [c] =>
      refine ⟨0 :: site, ?_⟩
      rw [sitedConditions, sitedConditions, joined, joined]
  | c :: d :: rest =>
      have hjoined : joined join (c :: d :: rest) = join (c :: d :: rest) := rfl
      refine ⟨site, ?_⟩
      rw [hjoined, hjoin, sitedConditions, sitedConditions]
      rfl

theorem exists_sitedConditions_append (cs : List Condition) (site : List Nat) :
    ∃ site', ∀ ds, sitedConditions site (cs ++ ds) =
      sitedConditions site cs ++ sitedConditions site' ds := by
  induction cs generalizing site with
  | nil => exact ⟨site, fun ds => by rw [sitedConditions, List.nil_append, List.nil_append]⟩
  | cons c rest ih =>
      obtain ⟨site', h⟩ := ih (1 :: site)
      exact ⟨site', fun ds => by
        rw [List.cons_append, sitedConditions, h, sitedConditions, List.cons_append]⟩

/-- Joining two lists leaves at least two conditions. -/
theorem joined_append (join : List Condition → Condition) (c d : Condition)
    (cs ds : List Condition) :
    joined join ((c :: cs) ++ (d :: ds)) = join ((c :: cs) ++ (d :: ds)) := by
  cases cs <;> rfl

end Condition

/-! ## Statements that only filter -/

def filteringTokens (xs : List Token) : List Token :=
  [.keyword .select, .mark .star, .keyword .from, .identifier "c", .keyword .where] ++
    (xs ++ [.finish])

namespace Statement

def filtering (c : Condition) : Statement :=
  ⟨.value (.plain (.path ["c"])), .path ["c"] none, [], some c, [], [], false, 0, none⟩

theorem keeps_filtering (c : Condition) (parameters : Parameters) (row : Row) :
    (filtering c).keeps parameters row = c.holds parameters row := by
  rw [keeps_eq]
  rfl

theorem sited_filtering (c : Condition) (site : List Nat) :
    (filtering c).sited site = filtering (c.sited (3 :: site)) := by
  simp only [filtering, Statement.sited, Projection.sited, Term.plain, Term.sited, Form.sited,
    Source.sited, sitedJoins, sitedFilter, sitedTerms, sitedKeys]

/-- Its results are the documents whose rows it keeps. -/
theorem run_filtering (c : Condition) (parameters : Parameters) (draws : Draws)
    (documents : List Value) :
    (filtering c).run parameters draws documents =
      (documents.zipIdx.filter fun (document, index) => (filtering c).keeps parameters
        (Row.ofDocument (draws.part index) "c" document)).map Prod.fst := by
  have hresolve (draws : Draws) (document : Value) :
      (Term.plain (.path ["c"])).resolve parameters (Row.ofDocument draws "c" document) =
        document := by
    rw [Term.resolve_name]
    rfl
  have hname : ¬Parameters.isName "c" := by decide
  have hbound := bound_name (s := filtering c) rfl hname parameters draws documents
  refine (run_value rfl _ (some c) parameters draws documents).trans ?_
  rw [← filtering, hbound, List.filter_map, List.map_map]
  exact List.map_congr_left fun (document, index) _ => hresolve _ document

end Statement

/-- Whatever is read as a condition makes the filter of a statement. -/
theorem Reads.filtering {xs : List Token} {c : Condition}
    (h : Reads (Looser 1) Grammar.disjunction xs c) {placed : List Placed}
    (hplaced : placed.map Placed.token = filteringTokens xs) :
    Statement.ofTokens placed = .ok (.filtering c.asFilter) := by
  have hsource := (reads_sourceOfPath "c" GoesOn.nil ReadsLabel.none).sourceClause
  have hnoJoins := readsClause_joins (List.forall_mem_nil _)
  have hquery := reads_query (Modifies.nil _).reads reads_star (fun ts => rfl) hsource hnoJoins
    h.filterClause readsClause_noGrouping readsClause_noOrdering (readsClause_noWindow none)
  refine Statement.ofTokens_of_reads hquery (hplaced.trans ?_)
  simp [filteringTokens, spellParts]

/-! ## Tests -/

inductive Condition.IsTest : Condition → Prop where
  | compare (op : Comparison) (left right : Term) : IsTest (.compare op left right)
  | membership (negated : Bool) (terms : List Term) :
      IsTest (.term ⟨none, negated, .call .membership terms⟩)
  | existence (negated : Bool) (s : Statement) : IsTest (.term ⟨none, negated, .existence s⟩)

theorem Condition.IsTest.sited {c : Condition} (h : c.IsTest) (site : List Nat) :
    (c.sited site).IsTest := by
  cases h with
  | compare op left right =>
      rw [Condition.sited]
      exact .compare op _ _
  | membership negated terms =>
      rw [Condition.sited, Term.sited, Form.sited]
      exact .membership negated _
  | existence negated s =>
      rw [Condition.sited, Term.sited, Form.sited]
      exact .existence negated _

theorem Condition.IsTest.boolean {c : Condition} (h : c.IsTest) : c.Boolean := by
  cases h with
  | compare op left right => exact boolean_of_ofCondition rfl
  | membership negated terms =>
      exact boolean_term fun parameters row => by simp [Form.resolve, Function.apply]
  | existence negated s =>
      exact boolean_term fun parameters row => ⟨_, by rw [Form.resolve]⟩

/-! ## What a filter alone was read from -/

/-- A test that was read as a condition was read as one without `AND` and `OR`. -/
theorem Condition.IsTest.negation {c : Condition} (hc : c.IsTest) {inner : Grammar}
    {ts rest : List Placed} (h : disjunction inner ts = .ok (c, rest)) :
    Grammar.negation inner ts = .ok (c, rest) := by
  simp only [disjunction, bind_eq_ok, Except.ok.injEq, Prod.mk.injEq] at h
  obtain ⟨⟨disjuncts, last⟩, hdisjuncts, hjoined, rfl⟩ := h
  dsimp only at hjoined
  rcases eq_of_joined hjoined with rfl | rfl
  · have hconjunction := item_of_separated hdisjuncts
    simp only [conjunction, bind_eq_ok, Except.ok.injEq, Prod.mk.injEq] at hconjunction
    obtain ⟨⟨conjuncts, last⟩, hconjuncts, hjoined, rfl⟩ := hconjunction
    dsimp only at hjoined
    rcases eq_of_joined hjoined with rfl | rfl
    · exact item_of_separated hconjuncts
    · cases hc
  · cases hc

theorem eq_of_groupingClause_nil {inner : Grammar} {ts rest : List Placed}
    (h : groupingClause inner ts = .ok ([], rest)) : rest = ts := by
  unfold groupingClause at h
  split at h
  · simp only [bind_eq_ok] at h
    obtain ⟨_, -, h⟩ := h
    exact absurd h separated_ne_nil
  · cases h
    rfl

theorem eq_of_orderingClause_nil {inner : Grammar} {ts rest : List Placed}
    (h : orderingClause inner ts = .ok ([], rest)) : rest = ts := by
  unfold orderingClause at h
  split at h
  · simp only [bind_eq_ok] at h
    obtain ⟨_, -, h⟩ := h
    exact absurd h separated_ne_nil
  · cases h
    rfl

theorem eq_of_window_none {top : Option Nat} {offset : Nat} {ts rest : List Placed}
    (h : window top ts = .ok ((offset, none), rest)) : rest = ts := by
  unfold window at h
  split at h
  · simp only [bind_eq_ok] at h
    obtain ⟨_, -, _, -, _, -, h⟩ := h
    cases h
  · simp only [bind_eq_ok] at h
    obtain ⟨_, -, h⟩ := h
    cases h
  · cases h
    rfl

/-- Behind `WHERE` a statement of a star goes on with its filter. -/
theorem query_where (inner : Grammar) (o₁ o₂ o₃ o₄ o₅ : Nat) (after : List Placed) :
    query inner (⟨.keyword .select, o₁⟩ :: ⟨.mark .star, o₂⟩ :: ⟨.keyword .from, o₃⟩ ::
      ⟨.identifier "c", o₄⟩ :: ⟨.keyword .where, o₅⟩ :: after) = (do
        let (c, rest) ← disjunction inner after
        let (grouping, rest) ← groupingClause inner rest
        let (ordering, rest) ← orderingClause inner rest
        let ((offset, count), rest) ← window none rest
        .ok (⟨.value (.plain (.path ["c"])), .path ["c"] none, [], some c.asFilter, grouping,
          ordering, false, offset, count⟩, rest)) := by
  simp [query, modifiers, modifiersFrom, projection?, sourceClause, source, beginsSubquery, name,
    pathFrom, segmentsFrom, label?, starred, Source.bindingName?, joinClauses, separatedFrom,
    filterClause]

theorem disjunction_of_query {inner : Grammar} {c : Condition} {placed after rest : List Placed}
    (hplaced : Spells [.keyword .select, .mark .star, .keyword .from, .identifier "c",
      .keyword .where] placed after)
    (h : query inner placed = .ok (.filtering c, rest)) :
    ∃ c', disjunction inner after = .ok (c', rest) ∧ c'.asFilter = c := by
  obtain ⟨o₁, o₂, o₃, o₄, o₅, rfl⟩ : ∃ o₁ o₂ o₃ o₄ o₅, placed = ⟨.keyword .select, o₁⟩ ::
      ⟨.mark .star, o₂⟩ :: ⟨.keyword .from, o₃⟩ :: ⟨.identifier "c", o₄⟩ ::
        ⟨.keyword .where, o₅⟩ :: after := by
    rcases hplaced with _ | ⟨_, _ | ⟨_, _ | ⟨_, _ | ⟨_, _ | ⟨_, _ | _⟩⟩⟩⟩⟩
    exact ⟨_, _, _, _, _, rfl⟩
  rw [query_where] at h
  simp only [bind_eq_ok, Except.ok.injEq, Prod.mk.injEq, Statement.filtering,
    Statement.mk.injEq] at h
  obtain ⟨⟨c', m₁⟩, hcondition, ⟨grouping, m₂⟩, hgrouping, ⟨ordering, m₃⟩, hordering,
    ⟨⟨offset, count⟩, m₄⟩, hwindow, ⟨-, -, -, hfilter, rfl, rfl, -, -, rfl⟩, rfl⟩ := h
  obtain rfl := eq_of_groupingClause_nil hgrouping
  obtain rfl := eq_of_orderingClause_nil hordering
  obtain rfl := eq_of_window_none hwindow
  exact ⟨c', hcondition, Option.some.inj hfilter⟩

theorem Condition.IsTest.of_asFilter {c : Condition} (h : c.asFilter.IsTest) : c.asFilter = c := by
  unfold asFilter at h ⊢
  split at h
  · cases h
  · rfl

end DocQuery
