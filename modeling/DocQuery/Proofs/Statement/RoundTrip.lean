import DocQuery.Proofs.Statement.Clauses

/-!
# Reading what was written

Every statement that the grammar yields is read back from its tokens.  Its clauses are
read one after the other; that its parts are read back is carried along the grammar, in
brackets by induction on the depth.
-/

namespace DocQuery

open DocQuery.Parser Grammar

/-! ## Projections -/

inductive Projection.ReadBack : Projection → Prop where
  | columns {first : Term} {rest : List Term} (h : ∀ t ∈ first :: rest, t.form.ReadBack) :
      ReadBack (.columns (first :: rest))
  | value {t : Term} (h : t.form.ReadBack) : ReadBack (.value t)

/-- A projection where a source is read after it. -/
def projectionTokens (source : Source) (p : Projection) : List Token :=
  if p.isStar source then [.mark .star] else p.tokens

theorem Projection.eq_of_isStar {source : Source} {p : Projection} (h : p.isStar source = true) :
    ∃ name, source.bindingName? = some name ∧ p = .value (Term.plain (.path [name])) := by
  unfold Projection.isStar at h
  split at h
  · rename_i name
    exact ⟨name, by simpa using h, rfl⟩
  · cases h

theorem reads_columns {first : Term} {rest : List Term}
    (h : ∀ t ∈ first :: rest, t.form.ReadBack) :
    Reads (Beyond 0) (fun inner => separated (.mark .comma) (column inner))
      (columnTokens (first :: rest)).tail (first :: rest) := by
  rw [columnTokens_eq]
  exact (Reads.separated EndsItem (.mark .comma) spellColumn (.inl rfl)
    fun t ht => reads_column (h t ht)).mono
    fun token hstop => ⟨hstop.endsItem, ne_of_stops hstop _ (by decide)⟩

def modifierTokens (distinct valueOnly : Bool) : List Token :=
  (if distinct then [.keyword .distinct] else []) ++ (if valueOnly then [.keyword .value] else [])

theorem reads_modifiers (distinct valueOnly : Bool) :
    Reads OpensProjection (fun _ => modifiers) (modifierTokens distinct valueOnly)
      ⟨distinct, none, valueOnly⟩ := by
  have hvalue (found : Modifiers) (hfound : found.value = false) :
      Modifies (if valueOnly then [.keyword .value] else []) found
        ⟨found.distinct, found.count, valueOnly⟩ := by
    cases valueOnly with
    | false =>
        obtain ⟨distinct, count, value⟩ := found
        obtain rfl : value = false := hfound
        exact .nil _
    | true => exact .value found
  cases distinct with
  | false => exact (hvalue _ rfl).reads
  | true => exact (hvalue _ rfl).distinct.reads

/-- What stands between `SELECT` and the source is read back, a star together with it. -/
theorem projection_spelled (source : Source) {p : Projection} (h : p.ReadBack) :
    ∃ valueOnly ps projected,
      (∀ distinct, (if distinct then [.keyword .distinct] else []) ++ projectionTokens source p =
        modifierTokens distinct valueOnly ++ ps) ∧
      Reads (Beyond 0) (fun inner => projection? inner valueOnly) ps projected ∧
      ∀ ts, starred source projected ts = .ok (p, ts) := by
  by_cases hstar : p.isStar source = true
  · obtain ⟨name, hname, rfl⟩ := Projection.eq_of_isStar hstar
    exact ⟨false, _, none, by simp [projectionTokens, hstar, modifierTokens], reads_star,
      fun ts => by simp [starred, hname]⟩
  · cases h with
    | columns h =>
        exact ⟨false, _, _, by simp [projectionTokens, hstar, modifierTokens, Projection.tokens],
          (reads_columns h).columns, fun ts => rfl⟩
    | @value t h =>
        obtain ⟨label, negated, f⟩ := t
        have hlist : ∀ t ∈ [Term.mk label negated f], t.form.ReadBack := by simpa using h
        refine ⟨true, _, _, fun distinct => ?_, (reads_columns hlist).onlyValue, fun ts => rfl⟩
        simp [projectionTokens, hstar, modifierTokens, Projection.tokens, columnTokens]

/-! ## Statements -/

/-- A statement is read back when its clauses are. -/
theorem Statement.ReadBack.of_clauses {projection : Projection} {source : Source}
    {joins : List Join} {filter : Option Condition} {grouping : List Term}
    {ordering : List SortKey} {distinct : Bool} {offset : Nat} {count : Option Nat}
    (hprojection : projection.ReadBack) (hsource : source.ReadBack)
    (hjoins : ∀ j ∈ joins, j.ReadBack) (hfilter : ∀ c ∈ filter, c.FilterReadBack)
    (hgrouping : ∀ t ∈ grouping, t.ReadBack) (hordering : ∀ key ∈ ordering, key.term.ReadBack)
    (hwindow : count = none → offset = 0) :
    Statement.ReadBack
      ⟨projection, source, joins, filter, grouping, ordering, distinct, offset, count⟩ := by
  obtain ⟨valueOnly, ps, projected, hps, hreadProjection, hstarred⟩ :=
    projection_spelled source hprojection
  have htokens : Statement.tokens
      ⟨projection, source, joins, filter, grouping, ordering, distinct, offset, count⟩ =
      .keyword .select :: (modifierTokens distinct valueOnly ++ (ps ++ (source.tokens ++
        (joinTokens joins ++ (filterTokens filter ++ (groupingTokens grouping ++
          (orderingTokens ordering ++ windowTokens offset count))))))) := by
    rw [← List.append_assoc (modifierTokens distinct valueOnly), ← hps, Statement.tokens]
    simp [projectionTokens, groupingTokens, orderingTokens]
  rw [Statement.ReadBack, htokens]
  exact reads_query (reads_modifiers distinct valueOnly) hreadProjection hstarred hsource
    (reads_joins hjoins) (reads_filter hfilter) (reads_grouping hgrouping)
    (reads_ordering hordering) (reads_window hwindow)

/-! ## What the grammar yields -/

/-- What stands in the brackets of a grammar is read back. -/
structure Grammar.Faithful (inner : Grammar) : Prop where
  condition : Yields inner.condition Condition.ReadBack
  statement : Yields inner.statement Statement.ReadBack

theorem ne_membership_of_ofName? {name : String} {f : Function}
    (h : Function.ofName? name = some f) : f ≠ .membership := by
  have hnone : ∀ entry ∈ Function.names, entry.2 ≠ .membership := by decide
  exact hnone _ (Function.mem_names h)

theorem yields_pathFrom (first : String) :
    Yields (pathFrom first) fun segments => ∃ others, segments = first :: others := by
  intro ts segments rest h
  simp only [pathFrom, bind_eq_ok] at h
  obtain ⟨⟨others, _⟩, -, h⟩ := h
  cases h
  exact ⟨others, rfl⟩

theorem yields_path : Yields path fun segments => ∃ first others, segments = first :: others := by
  intro ts segments rest h
  simp only [path, bind_eq_ok] at h
  obtain ⟨⟨first, middle⟩, -, h⟩ := h
  exact ⟨first, yields_pathFrom first _ _ _ h⟩

section Yields

variable {inner : Grammar}

theorem yields_term (h : inner.Faithful) : Yields (term inner) Term.ReadBack := by
  intro ts t rest hread
  simp only [term, bind_eq_ok] at hread
  obtain ⟨⟨c, _⟩, hc, hread⟩ := hread
  cases hread
  exact (h.condition _ _ _ hc).term

theorem yields_closedStatement (h : inner.Faithful) :
    Yields (closedStatement inner) Statement.ReadBack := by
  intro ts s rest hread
  simp only [closedStatement, bind_eq_ok] at hread
  obtain ⟨⟨s', _⟩, hs, _, -, hread⟩ := hread
  cases hread
  exact h.statement _ _ _ hs

theorem yields_member (h : inner.Faithful) :
    Yields (member inner) fun t => (∃ key, t.label = some key) ∧ t.form.ReadBack := by
  intro ts t rest hread
  simp only [member, bind_eq_ok] at hread
  obtain ⟨⟨key, _⟩, -, _, -, ⟨value, _⟩, hvalue, hread⟩ := hread
  cases hread
  exact ⟨⟨key, rfl⟩, (yields_term h _ _ _ hvalue).form⟩

theorem yields_arguments (h : inner.Faithful) :
    Yields (arguments inner) fun ts => ∀ t ∈ ts, t.ReadBack := by
  intro placed ts rest hread
  simp only [arguments, bind_eq_ok] at hread
  obtain ⟨_, -, hread⟩ := hread
  exact yields_closedBy (yields_term h) _ _ _ hread

theorem yields_call (h : inner.Faithful) (name : String) :
    Yields (call inner name) Term.ReadBack := by
  intro ts t rest hread
  unfold call at hread
  split at hread
  · cases hread
  · rename_i f hname
    simp only [bind_eq_ok] at hread
    obtain ⟨⟨arguments, _⟩, harguments, hread⟩ := hread
    cases hread
    exact ⟨rfl, .call (Function.ofName?_callName hname) (ne_membership_of_ofName? hname)
      (yields_arguments h _ _ _ harguments)⟩

theorem yields_compound (h : inner.Faithful) : Yields (compound inner) Term.ReadBack := by
  intro ts t rest hread
  unfold compound at hread
  split at hread
  · split at hread
    · simp only [bind_eq_ok] at hread
      obtain ⟨⟨s, _⟩, hs, hread⟩ := hread
      cases hread
      exact ⟨rfl, .subquery (yields_closedStatement h _ _ _ hs)⟩
    · simp only [bind_eq_ok] at hread
      obtain ⟨⟨value, _⟩, hvalue, _, -, hread⟩ := hread
      cases hread
      exact yields_term h _ _ _ hvalue
  · simp only [bind_eq_ok] at hread
    obtain ⟨_, -, ⟨s, _⟩, hs, hread⟩ := hread
    cases hread
    exact ⟨rfl, .existence (yields_closedStatement h _ _ _ hs)⟩
  · simp only [bind_eq_ok] at hread
    obtain ⟨⟨members, _⟩, hmembers, hread⟩ := hread
    cases hread
    exact ⟨rfl, .object (yields_closedBy (yields_member h) _ _ _ hmembers)⟩
  · simp only [bind_eq_ok] at hread
    obtain ⟨⟨elements, _⟩, helements, hread⟩ := hread
    cases hread
    exact ⟨rfl, .array (yields_closedBy (yields_term h) _ _ _ helements)⟩
  · rename_i name _
    split at hread
    · exact yields_call h name _ _ _ hread
    · simp only [bind_eq_ok] at hread
      obtain ⟨⟨segments, _⟩, hsegments, hread⟩ := hread
      obtain ⟨others, rfl⟩ := yields_pathFrom name _ _ _ hsegments
      cases hread
      exact ⟨rfl, .path name others⟩
  · cases hread

theorem readBack_combine {op : Arithmetic} {left right : Term} (hleft : left.ReadBack)
    (hright : right.ReadBack) : (combine op left right).ReadBack :=
  ⟨rfl, .arithmetic hleft hright⟩

theorem readBack_constant (c : Constant) : (Term.plain (.constant c)).ReadBack :=
  ⟨rfl, .constant c⟩

theorem yields_operand (h : inner.Faithful) : Yields (operand inner) Term.ReadBack := by
  intro ts
  induction ts with
  | nil => exact fun t rest hread => yields_compound h _ _ _ hread
  | cons first others ih =>
      intro t rest hread
      rw [operand] at hread
      split at hread
      · cases hread
        exact readBack_constant _
      · split at hread
        · split at hread
          · cases hread
            exact readBack_constant _
          · simp only [bind_eq_ok] at hread
            obtain ⟨⟨value, _⟩, hvalue, hread⟩ := hread
            cases hread
            exact readBack_combine (readBack_constant _) (ih _ _ hvalue)
        · exact yields_compound h _ _ _ hread

theorem yields_sum (h : inner.Faithful) : Yields (sum inner) Term.ReadBack :=
  yields_chain (yields_chain (yields_operand h) fun _ _ _ => readBack_combine)
    fun _ _ _ => readBack_combine

theorem yields_membership (h : inner.Faithful) (negated : Bool) {needle : Term}
    (hneedle : needle.ReadBack) : Yields (membership inner negated needle) Condition.Simple := by
  intro ts c rest hread
  simp only [membership, bind_eq_ok] at hread
  obtain ⟨⟨candidates, _⟩, hcandidates, hread⟩ := hread
  cases hread
  exact .term ⟨rfl, .membership hneedle (yields_arguments h _ _ _ hcandidates)⟩

theorem yields_comparison (h : inner.Faithful) :
    Yields (comparison inner) Condition.Simple := by
  intro ts c rest hread
  simp only [comparison, bind_eq_ok] at hread
  obtain ⟨⟨left, middle⟩, hleft, hread⟩ := hread
  have hterm := yields_sum h _ _ _ hleft
  dsimp only at hread
  split at hread
  · exact yields_membership h false hterm _ _ _ hread
  · split at hread
    · exact yields_membership h true hterm _ _ _ hread
    · cases hread
      exact .term hterm
  · split at hread
    · simp only [bind_eq_ok] at hread
      obtain ⟨⟨right, _⟩, hright, hread⟩ := hread
      cases hread
      exact .compare _ hterm (yields_sum h _ _ _ hright)
    · cases hread
      exact .term hterm

theorem yields_negation (h : inner.Faithful) : Yields (negation inner) Condition.Simple := by
  intro ts
  induction ts with
  | nil => exact fun c rest hread => yields_comparison h _ _ _ hread
  | cons first others ih =>
      intro c rest hread
      rw [negation] at hread
      split at hread
      · simp only [bind_eq_ok] at hread
        obtain ⟨⟨c', _⟩, hc, hread⟩ := hread
        cases hread
        exact (ih _ _ hc).negate
      · exact yields_comparison h _ _ _ hread

theorem yields_conjunction (h : inner.Faithful) : Yields (conjunction inner) Condition.Joint := by
  intro ts c rest hread
  simp only [conjunction, bind_eq_ok] at hread
  obtain ⟨⟨parts, _⟩, hparts, hread⟩ := hread
  cases hread
  obtain ⟨hne, hsimple⟩ := yields_separated (yields_negation h) _ _ _ hparts
  cases parts with
  | nil => exact absurd rfl hne
  | cons first others =>
      cases others with
      | nil => exact .simple (hsimple first List.mem_cons_self)
      | cons second others => exact .all hsimple

theorem yields_disjunction (h : inner.Faithful) :
    Yields (disjunction inner) Condition.ReadBack := by
  intro ts c rest hread
  simp only [disjunction, bind_eq_ok] at hread
  obtain ⟨⟨parts, _⟩, hparts, hread⟩ := hread
  cases hread
  obtain ⟨hne, hjoint⟩ := yields_separated (yields_conjunction h) _ _ _ hparts
  cases parts with
  | nil => exact absurd rfl hne
  | cons first others =>
      cases others with
      | nil => exact .joint (hjoint first List.mem_cons_self)
      | cons second others => exact .any hjoint

theorem yields_value (h : inner.Faithful) : Yields (value inner) Term.ReadBack := by
  intro ts t rest hread
  simp only [value, bind_eq_ok] at hread
  obtain ⟨⟨c, _⟩, hc, hread⟩ := hread
  cases hread
  exact (yields_disjunction h _ _ _ hc).term

theorem yields_column (h : inner.Faithful) :
    Yields (column inner) fun t => t.form.ReadBack := by
  intro ts t rest hread
  simp only [column, bind_eq_ok] at hread
  obtain ⟨⟨t', _⟩, hvalue, ⟨label, _⟩, -, hread⟩ := hread
  have hform := (yields_value h _ _ _ hvalue).form
  cases label <;> cases hread <;> exact hform

theorem yields_columns (h : inner.Faithful) :
    Yields (separated (.mark .comma) (column inner)) fun ts =>
      ts ≠ [] ∧ ∀ t ∈ ts, t.form.ReadBack :=
  yields_separated (yields_column h)

theorem yields_projection? (h : inner.Faithful) (valueOnly : Bool) :
    Yields (projection? inner valueOnly) fun found => ∀ p ∈ found, p.ReadBack := by
  intro ts found rest hread
  unfold projection? at hread
  split at hread
  · simp only [bind_eq_ok] at hread
    obtain ⟨⟨terms, _⟩, hterms, hread⟩ := hread
    obtain ⟨-, hforms⟩ := yields_columns h _ _ _ hterms
    dsimp only at hread
    split at hread
    · rename_i t
      cases hread
      simpa using Projection.ReadBack.value (hforms t (by simp))
    · cases hread
  · split at hread
    · cases hread
      simp
    · simp only [bind_eq_ok] at hread
      obtain ⟨⟨terms, _⟩, hterms, hread⟩ := hread
      obtain ⟨hne, hforms⟩ := yields_columns h _ _ _ hterms
      cases hread
      cases terms with
      | nil => exact absurd rfl hne
      | cons first others => simpa using Projection.ReadBack.columns hforms

theorem yields_labelledSubquery (h : inner.Faithful) :
    Yields (labelledSubquery inner) fun found => found.1.ReadBack := by
  intro ts found rest hread
  simp only [labelledSubquery, bind_eq_ok] at hread
  obtain ⟨⟨s, _⟩, hs, _, -, hread⟩ := hread
  cases hread
  exact yields_closedStatement h _ _ _ hs

theorem yields_source (h : inner.Faithful) : Yields (source inner) Source.ReadBack := by
  intro ts found rest hread
  unfold source at hread
  split at hread
  · simp only [bind_eq_ok] at hread
    obtain ⟨⟨⟨s, label⟩, _⟩, hs, hread⟩ := hread
    cases hread
    exact .subquery (yields_labelledSubquery h _ _ _ hs) label
  · simp only [bind_eq_ok] at hread
    obtain ⟨⟨first, middle⟩, -, hread⟩ := hread
    split at hread
    · simp only [bind_eq_ok] at hread
      obtain ⟨⟨segments, _⟩, hsegments, hread⟩ := hread
      obtain ⟨head, others, rfl⟩ := yields_path _ _ _ hsegments
      cases hread
      exact .each first head others
    · simp only [bind_eq_ok] at hread
      obtain ⟨⟨segments, _⟩, hsegments, ⟨label, _⟩, -, hread⟩ := hread
      obtain ⟨others, rfl⟩ := yields_pathFrom first _ _ _ hsegments
      cases hread
      exact .path first others label

theorem yields_sourceClause (h : inner.Faithful) :
    Yields (sourceClause inner) Source.ReadBack := by
  intro ts found rest hread
  unfold sourceClause at hread
  split at hread
  · exact yields_source h _ _ _ hread
  · cases hread
    exact .documents

theorem yields_join (h : inner.Faithful) : Yields (join inner) Join.ReadBack := by
  intro ts found rest hread
  unfold join at hread
  split at hread
  · simp only [bind_eq_ok] at hread
    obtain ⟨⟨⟨s, label⟩, _⟩, hs, hread⟩ := hread
    cases hread
    exact .subquery (yields_labelledSubquery h _ _ _ hs) label
  · simp only [bind_eq_ok] at hread
    obtain ⟨⟨first, _⟩, -, _, -, ⟨segments, _⟩, hsegments, hread⟩ := hread
    obtain ⟨head, others, rfl⟩ := yields_path _ _ _ hsegments
    cases hread
    exact .each first head others

theorem yields_joinClauses (h : inner.Faithful) :
    Yields (joinClauses inner) fun js => ∀ j ∈ js, j.ReadBack :=
  fun ts => yields_separatedFrom (yields_join h) ts.length ts

theorem yields_filterClause (h : inner.Faithful) :
    Yields (filterClause inner) fun filter => ∀ c ∈ filter, c.FilterReadBack := by
  intro ts filter rest hread
  unfold filterClause at hread
  split at hread
  · simp only [bind_eq_ok] at hread
    obtain ⟨⟨c, _⟩, hc, hread⟩ := hread
    cases hread
    intro c' hc'
    cases hc'
    exact ⟨c, yields_disjunction h _ _ _ hc, rfl⟩
  · cases hread
    simp

theorem yields_groupingClause (h : inner.Faithful) :
    Yields (groupingClause inner) fun ts => ∀ t ∈ ts, t.ReadBack := by
  intro placed ts rest hread
  unfold groupingClause at hread
  split at hread
  · simp only [bind_eq_ok] at hread
    obtain ⟨_, -, hterms⟩ := hread
    exact (yields_separated (yields_value h) _ _ _ hterms).2
  · cases hread
    simp

theorem yields_sortKey (h : inner.Faithful) :
    Yields (sortKey inner) fun key => key.term.ReadBack := by
  intro ts key rest hread
  simp only [sortKey, bind_eq_ok] at hread
  obtain ⟨⟨t, middle⟩, ht, hread⟩ := hread
  have hterm := yields_sum h _ _ _ ht
  dsimp only at hread
  split at hread <;> cases hread <;> exact hterm

theorem yields_orderingClause (h : inner.Faithful) :
    Yields (orderingClause inner) fun keys => ∀ key ∈ keys, key.term.ReadBack := by
  intro ts keys rest hread
  unfold orderingClause at hread
  split at hread
  · simp only [bind_eq_ok] at hread
    obtain ⟨_, -, hkeys⟩ := hread
    exact (yields_separated (yields_sortKey h) _ _ _ hkeys).2
  · cases hread
    simp

theorem yields_window (top : Option Nat) :
    Yields (window top) fun found => found.2 = none → found.1 = 0 := by
  intro ts found rest hread hnone
  unfold window at hread
  split at hread
  · simp only [bind_eq_ok] at hread
    obtain ⟨_, -, _, -, _, -, hread⟩ := hread
    cases hread
    cases hnone
  · simp only [bind_eq_ok] at hread
    obtain ⟨_, -, hread⟩ := hread
    cases hread
    rfl
  · cases hread
    rfl

theorem yields_starred (source : Source) {found : Option Projection}
    (hfound : ∀ p ∈ found, p.ReadBack) : Yields (starred source found) Projection.ReadBack := by
  intro ts p rest hread
  unfold starred at hread
  split at hread
  · cases hread
    exact hfound _ rfl
  · split at hread
    · rename_i name _
      cases hread
      exact .value (.path name [])
    · cases hread

theorem yields_query (h : inner.Faithful) : Yields (query inner) Statement.ReadBack := by
  intro ts s rest hread
  simp only [query, bind_eq_ok] at hread
  obtain ⟨_, -, ⟨found, _⟩, -, ⟨projection, _⟩, hprojection, ⟨source, _⟩, hsource, ⟨starred, _⟩,
    hstarred, ⟨joins, _⟩, hjoins, ⟨filter, _⟩, hfilter, ⟨grouping, _⟩, hgrouping, ⟨ordering, _⟩,
    hordering, ⟨⟨offset, count⟩, _⟩, hwindow, hread⟩ := hread
  cases hread
  have hfound := yields_projection? h _ _ _ _ hprojection
  exact .of_clauses (yields_starred source hfound _ _ _ hstarred)
    (yields_sourceClause h _ _ _ hsource) (yields_joinClauses h _ _ _ hjoins)
    (yields_filterClause h _ _ _ hfilter) (yields_groupingClause h _ _ _ hgrouping)
    (yields_orderingClause h _ _ _ hordering) (yields_window _ _ _ _ hwindow)

end Yields

/-- What stands in brackets is read back, however deep brackets nest. -/
theorem Grammar.ofDepth_faithful (depth : Nat) : (ofDepth depth).Faithful := by
  induction depth with
  | zero =>
      -- Nothing is read where no bracket can reach.
      constructor <;> intro ts found rest hread <;> cases hread
  | succ depth ih => exact ⟨yields_disjunction ih, yields_query ih⟩

/--
Reading a statement inverts writing it: whatever tokens a statement was read from, its
own tokens give the same statement.
-/
theorem Statement.ofTokens_tokens {ts again : List Placed} {s : Statement}
    (h : ofTokens ts = .ok s) (hagain : again.map Placed.token = s.tokens ++ [.finish]) :
    ofTokens again = .ok s := by
  have hs : s.ReadBack := by
    simp only [ofTokens, bind_eq_ok] at h
    obtain ⟨⟨s', rest⟩, hread, h⟩ := h
    dsimp only at h
    split at h
    · cases h
      exact yields_query (ofDepth_faithful _) _ _ _ hread
    · cases h
  exact ofTokens_of_reads hs hagain

/-- Of the brackets in `(a * 2) - (b - -1)` the second ones are written again. -/
theorem Statement.ofTokens_tokens_subtract :
    let ts : List Placed := [⟨.keyword .select, 0⟩, ⟨.mark .leftParen, 7⟩, ⟨.identifier "a", 8⟩,
      ⟨.mark .star, 10⟩, ⟨.integer 2, 12⟩, ⟨.mark .rightParen, 13⟩, ⟨.mark .minus, 15⟩,
      ⟨.mark .leftParen, 17⟩, ⟨.identifier "b", 18⟩, ⟨.mark .minus, 20⟩, ⟨.mark .minus, 22⟩,
      ⟨.integer 1, 23⟩, ⟨.mark .rightParen, 24⟩, ⟨.finish, 25⟩]
    let again : List Placed := [⟨.keyword .select, 0⟩, ⟨.identifier "a", 7⟩, ⟨.mark .star, 9⟩,
      ⟨.integer 2, 11⟩, ⟨.mark .minus, 13⟩, ⟨.mark .leftParen, 15⟩, ⟨.identifier "b", 16⟩,
      ⟨.mark .minus, 18⟩, ⟨.mark .minus, 20⟩, ⟨.integer 1, 21⟩, ⟨.mark .rightParen, 22⟩,
      ⟨.finish, 23⟩]
    ∃ s, ofTokens ts = .ok s ∧ again.map Placed.token = s.tokens ++ [.finish] ∧
      ofTokens again = .ok s := by
  intro ts again
  have hread : ofTokens ts = .ok _ := rfl
  exact ⟨_, hread, rfl, ofTokens_tokens hread rfl⟩

end DocQuery
