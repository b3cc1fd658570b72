import DocQuery.Proofs.Statement.Locality

/-!
# Reading the same statements elsewhere

The clauses of a statement are read alike wherever their tokens stand, and so are whole
statements; by induction on the depth so is what stands in brackets.
-/

namespace DocQuery

open DocQuery.Parser Grammar

/-! ## Labels -/

theorem readsLabel_single {tokens : List Token} {token : Token} {label : String}
    (hopens : OpensLabel token)
    (h : ∀ ts rest, Spells (token :: tokens) ts rest → label? ts = .ok (some label, rest)) :
    ReadsLabel (token :: tokens) (some label) :=
  ⟨by simpa using hopens, fun _ ts rest _ hts _ => h ts rest hts⟩

theorem local_label? {ts rest : List Placed} {label : Option String}
    (h : label? ts = .ok (label, rest)) : ∃ xs, Takes xs ts rest ∧ ReadsLabel xs label := by
  unfold label? at h
  split at h
  · rename_i has
    split at h
    · rename_i word hword
      cases h
      refine ⟨_, .cons (by simp) has (.single (by simp) hword),
        readsLabel_single (.inl rfl) fun ts rest hts => ?_⟩
      cases hts with
      | cons _ hts =>
          cases hts with
          | cons _ hts =>
              cases hts
              simp [label?]
    · simp only [bind_eq_ok] at h
      obtain ⟨⟨label, last⟩, hlabel, h⟩ := h
      cases h
      obtain ⟨hname, rfl⟩ := name_eq_ok hlabel
      refine ⟨_, .cons (by simp) has (.single (by simp) hname),
        readsLabel_single (.inl rfl) fun ts rest hts => ?_⟩
      cases hts with
      | cons _ hts =>
          cases hts with
          | cons _ hts =>
              cases hts
              simp [label?, name]
  · rename_i hname
    cases h
    refine ⟨_, .single (by simp) hname, readsLabel_single (.inr ⟨_, rfl⟩) fun ts rest hts => ?_⟩
    cases hts with
    | cons _ hts =>
        cases hts
        simp [label?]
  · cases h
    exact ⟨[], .nil ts, .none⟩

theorem local_label : Local EndsItem Parser.label (fun _ => Parser.label) := by
  intro ts found rest h
  simp only [Parser.label, bind_eq_ok] at h
  obtain ⟨⟨label, last⟩, hlabel, h⟩ := h
  cases label with
  | none => cases h
  | some label =>
      cases h
      obtain ⟨xs, htakes, hreads⟩ := local_label? hlabel
      exact ⟨xs, htakes, hreads.some⟩

/-! ## Modifiers -/

theorem count_eq_ok {n : Nat} {ts rest : List Placed} (h : count ts = .ok (n, rest)) :
    peek ts = .integer n ∧ rest = ts.tail := by
  unfold count at h
  split at h
  · cases h
    exact ⟨by assumption, rfl⟩
  · cases h

theorem local_modifiersFrom (budget : Nat) {found result : Modifiers} {ts rest : List Placed}
    (h : modifiersFrom budget found ts = .ok (result, rest)) :
    ∃ xs, Takes xs ts rest ∧ Modifies xs found result := by
  induction budget generalizing found ts with
  | zero =>
      cases h
      exact ⟨[], .nil _, .nil _⟩
  | succ budget ih =>
      rw [modifiersFrom] at h
      split at h
      · rename_i hpeek
        obtain ⟨xs, htakes, hmodifies⟩ := ih h
        exact ⟨_, .cons (by simp) hpeek htakes, hmodifies.distinct⟩
      · rename_i hpeek
        simp only [bind_eq_ok] at h
        obtain ⟨⟨n, middle⟩, hcount, h⟩ := h
        obtain ⟨hn, rfl⟩ := count_eq_ok hcount
        obtain ⟨xs, htakes, hmodifies⟩ := ih h
        exact ⟨_, .cons (by simp) hpeek (.cons (by simp) hn htakes), hmodifies.top n⟩
      · rename_i hpeek
        cases h
        exact ⟨_, .single (by simp) hpeek, .value found⟩
      · cases h
        exact ⟨[], .nil _, .nil _⟩

/-! ## Projections -/

section Statements

variable {inner : Grammar} (h : inner.Consistent)
include h

theorem local_column : Local EndsItem (column inner) column := by
  intro ts t rest hread
  simp only [column, bind_eq_ok] at hread
  obtain ⟨⟨value, middle⟩, hvalue, ⟨label, last⟩, hlabel, hread⟩ := hread
  obtain ⟨xs, hxs, hreads⟩ := local_value h _ _ _ hvalue
  obtain ⟨ys, hys, hreadsLabel⟩ := local_label? hlabel
  have hcolumn := hreads.column hreadsLabel
  cases label <;> cases hread <;> exact ⟨_, hxs.append hys, hcolumn⟩

theorem local_columns : Local (Beyond 0) (separated (.mark .comma) (column inner))
    (fun inner => separated (.mark .comma) (column inner)) :=
  ((local_column h).separated (.inl rfl) (by simp)).mono
    fun token hstop => ⟨hstop.endsItem, ne_of_stops hstop _ (by decide)⟩

theorem local_projection? (valueOnly : Bool) :
    Local (Beyond 0) (projection? inner valueOnly) (fun inner => projection? inner valueOnly) := by
  intro ts found rest hread
  cases valueOnly with
  | true =>
      simp only [projection?, if_true, bind_eq_ok] at hread
      obtain ⟨⟨terms, last⟩, hterms, hread⟩ := hread
      obtain ⟨xs, htakes, hreads⟩ := local_columns h _ _ _ hterms
      dsimp only at hread
      split at hread
      · cases hread
        exact ⟨xs, htakes, hreads.onlyValue⟩
      · cases hread
  | false =>
      simp only [projection?, Bool.false_eq_true, if_false] at hread
      split at hread
      · rename_i hstar
        cases hread
        exact ⟨_, .single (by simp) hstar, reads_star⟩
      · simp only [bind_eq_ok] at hread
        obtain ⟨⟨terms, last⟩, hterms, hread⟩ := hread
        cases hread
        obtain ⟨xs, htakes, hreads⟩ := local_columns h _ _ _ hterms
        exact ⟨xs, htakes, hreads.columns⟩

/-! ## Sources and joins -/

theorem local_labelledSubquery {ts rest : List Placed} {s : Statement} {label : String}
    (hbegins : beginsSubquery ts = true)
    (hread : labelledSubquery inner ts = .ok ((s, label), rest)) :
    ∃ xs ys, Takes (inParens xs ++ ys) ts rest ∧ Reads (Beyond 6) query xs s ∧
      Reads EndsItem (fun _ => Parser.label) ys label := by
  simp only [labelledSubquery, bind_eq_ok] at hread
  obtain ⟨⟨s, middle⟩, hstatement, ⟨label, last⟩, hlabel, hread⟩ := hread
  cases hread
  have hopen : peek ts = .mark .leftParen := by
    simp only [beginsSubquery, Bool.and_eq_true, decide_eq_true_eq] at hbegins
    exact hbegins.1
  obtain ⟨xs, hxs, hreads⟩ := local_closedStatement h hstatement
  obtain ⟨ys, hys, hreadsLabel⟩ := local_label _ _ _ hlabel
  exact ⟨xs, ys, (Takes.cons (by simp) hopen hxs).append hys, hreads, hreadsLabel⟩

omit h in
theorem local_path {ts rest : List Placed} {segments : List String}
    (hread : path ts = .ok (segments, rest)) :
    ∃ first xs others, segments = first :: others ∧ Takes (.identifier first :: xs) ts rest ∧
      GoesOn xs others := by
  simp only [path, bind_eq_ok] at hread
  obtain ⟨⟨first, middle⟩, hfirst, hread⟩ := hread
  obtain ⟨hname, rfl⟩ := name_eq_ok hfirst
  obtain ⟨xs, others, rfl, htakes, hgoesOn⟩ := local_pathFrom hread
  exact ⟨first, xs, others, rfl, .cons (by simp) hname htakes, hgoesOn⟩

theorem local_source : Local (Beyond 1) (source inner) source := by
  intro ts found rest hread
  unfold source at hread
  split at hread
  · rename_i hbegins
    simp only [bind_eq_ok] at hread
    obtain ⟨⟨⟨s, label⟩, last⟩, hsubquery, hread⟩ := hread
    cases hread
    obtain ⟨xs, ys, htakes, hreads, hlabel⟩ := local_labelledSubquery h hbegins hsubquery
    exact ⟨_, htakes, hreads.sourceOfSubquery hlabel⟩
  · simp only [bind_eq_ok] at hread
    obtain ⟨⟨first, middle⟩, hfirst, hread⟩ := hread
    obtain ⟨hname, rfl⟩ := name_eq_ok hfirst
    split at hread
    · rename_i hin
      simp only [bind_eq_ok] at hread
      obtain ⟨⟨segments, last⟩, hpath, hread⟩ := hread
      cases hread
      obtain ⟨head, xs, others, rfl, htakes, hgoesOn⟩ := local_path hpath
      exact ⟨_, .cons (by simp) hname (.cons (by simp) hin htakes),
        reads_sourceOfEach first head hgoesOn⟩
    · simp only [bind_eq_ok] at hread
      obtain ⟨⟨segments, middle⟩, hpath, ⟨label, last⟩, hlabel, hread⟩ := hread
      cases hread
      obtain ⟨xs, others, rfl, hxs, hgoesOn⟩ := local_pathFrom hpath
      obtain ⟨ys, hys, hreadsLabel⟩ := local_label? hlabel
      exact ⟨_, .cons (by simp) hname (hxs.append hys),
        reads_sourceOfPath first hgoesOn hreadsLabel⟩

theorem local_join : Local (Beyond 1) (join inner) join := by
  intro ts found rest hread
  unfold join at hread
  split at hread
  · rename_i hbegins
    simp only [bind_eq_ok] at hread
    obtain ⟨⟨⟨s, label⟩, last⟩, hsubquery, hread⟩ := hread
    cases hread
    obtain ⟨xs, ys, htakes, hreads, hlabel⟩ := local_labelledSubquery h hbegins hsubquery
    exact ⟨_, htakes, hreads.joinOfSubquery hlabel⟩
  · simp only [bind_eq_ok] at hread
    obtain ⟨⟨first, middle⟩, hfirst, ⟨_, last⟩, hin, ⟨segments, final⟩, hpath, hread⟩ := hread
    cases hread
    obtain ⟨hname, rfl⟩ := name_eq_ok hfirst
    obtain ⟨hpeekIn, rfl⟩ := expect_eq_ok hin
    obtain ⟨head, xs, others, rfl, htakes, hgoesOn⟩ := local_path hpath
    exact ⟨_, .cons (by simp) hname (.cons (by simp) hpeekIn htakes),
      reads_joinOfEach first head hgoesOn⟩

/-! ## Clauses -/

theorem local_sourceClause {ts rest : List Placed} {found : Source}
    (hread : sourceClause inner ts = .ok (found, rest)) :
    ∃ xs, Takes xs ts rest ∧ ReadsClause 0 sourceClause xs found := by
  unfold sourceClause at hread
  split at hread
  · rename_i hfrom
    obtain ⟨xs, htakes, hreads⟩ := local_source h _ _ _ hread
    exact ⟨_, .cons (by simp) hfrom htakes, hreads.sourceClause⟩
  · cases hread
    exact ⟨[], .nil ts, readsClause_documents⟩

theorem local_joinClauses {ts rest : List Placed} {joins : List Join}
    (hread : joinClauses inner ts = .ok (joins, rest)) :
    ∃ xs, Takes xs ts rest ∧ ReadsClause 1 joinClauses xs joins := by
  obtain ⟨parts, rfl, htakes, hreads⟩ := local_separatedFrom (local_join h) (by simp) _ hread
  exact ⟨_, htakes, readsClause_joins hreads⟩

theorem local_filterClause {ts rest : List Placed} {filter : Option Condition}
    (hread : filterClause inner ts = .ok (filter, rest)) :
    ∃ xs, Takes xs ts rest ∧ ReadsClause 2 filterClause xs filter := by
  unfold filterClause at hread
  split at hread
  · rename_i hwhere
    simp only [bind_eq_ok] at hread
    obtain ⟨⟨c, last⟩, hcondition, hread⟩ := hread
    cases hread
    obtain ⟨xs, htakes, hreads⟩ := local_disjunction h _ _ _ hcondition
    exact ⟨_, .cons (by simp) hwhere htakes, hreads.filterClause⟩
  · cases hread
    exact ⟨[], .nil ts, readsClause_noFilter⟩

theorem local_groupingClause {ts rest : List Placed} {terms : List Term}
    (hread : groupingClause inner ts = .ok (terms, rest)) :
    ∃ xs, Takes xs ts rest ∧ ReadsClause 3 groupingClause xs terms := by
  unfold groupingClause at hread
  split at hread
  · rename_i hgroup
    simp only [bind_eq_ok] at hread
    obtain ⟨⟨_, middle⟩, hby, hread⟩ := hread
    obtain ⟨hpeekBy, rfl⟩ := expect_eq_ok hby
    obtain ⟨xs, htakes, hreads⟩ := (local_value h).separated (by decide) (by simp) _ _ _ hread
    exact ⟨_, .cons (by simp) hgroup (.cons (by simp) hpeekBy htakes), hreads.groupingClause⟩
  · cases hread
    exact ⟨[], .nil ts, readsClause_noGrouping⟩

theorem local_sortKey : Local EndsItem (sortKey inner) sortKey := by
  intro ts key rest hread
  simp only [sortKey, bind_eq_ok] at hread
  obtain ⟨⟨t, middle⟩, hterm, hread⟩ := hread
  obtain ⟨xs, htakes, hreads⟩ := local_sum h _ _ _ hterm
  dsimp only at hread
  split at hread
  · rename_i hdesc
    cases hread
    exact ⟨_, htakes.append (.single (by simp) hdesc), hreads.descending⟩
  · rename_i hasc
    cases hread
    exact ⟨_, htakes.append (.single (by simp) hasc), hreads.ascending⟩
  · cases hread
    exact ⟨xs, htakes, hreads.undirected⟩

theorem local_orderingClause {ts rest : List Placed} {keys : List SortKey}
    (hread : orderingClause inner ts = .ok (keys, rest)) :
    ∃ xs, Takes xs ts rest ∧ ReadsClause 4 orderingClause xs keys := by
  unfold orderingClause at hread
  split at hread
  · rename_i horder
    simp only [bind_eq_ok] at hread
    obtain ⟨⟨_, middle⟩, hby, hread⟩ := hread
    obtain ⟨hpeekBy, rfl⟩ := expect_eq_ok hby
    obtain ⟨xs, htakes, hreads⟩ := (local_sortKey h).separated (.inl rfl) (by simp) _ _ _ hread
    exact ⟨_, .cons (by simp) horder (.cons (by simp) hpeekBy htakes), hreads.orderingClause⟩
  · cases hread
    exact ⟨[], .nil ts, readsClause_noOrdering⟩

omit h in
theorem local_window (top : Option Nat) {ts rest : List Placed} {found : Nat × Option Nat}
    (hread : window top ts = .ok (found, rest)) :
    ∃ xs, Takes xs ts rest ∧ ReadsClause 5 (fun _ => window top) xs found := by
  unfold window at hread
  split at hread
  · rename_i hoffset
    simp only [bind_eq_ok] at hread
    obtain ⟨⟨offset, middle⟩, hcount, ⟨_, last⟩, hlimit, ⟨n, final⟩, hlast, hread⟩ := hread
    cases hread
    obtain ⟨hfirst, rfl⟩ := count_eq_ok hcount
    obtain ⟨hpeekLimit, rfl⟩ := expect_eq_ok hlimit
    obtain ⟨hsecond, rfl⟩ := count_eq_ok hlast
    exact ⟨_, .cons (by simp) hoffset (.cons (by simp) hfirst (.cons (by simp) hpeekLimit
      (.single (by simp) hsecond))), readsClause_offset top offset n⟩
  · rename_i hlimit
    simp only [bind_eq_ok] at hread
    obtain ⟨⟨n, last⟩, hcount, hread⟩ := hread
    cases hread
    obtain ⟨hn, rfl⟩ := count_eq_ok hcount
    exact ⟨_, .cons (by simp) hlimit (.single (by simp) hn), readsClause_limit top n⟩
  · cases hread
    exact ⟨[], .nil ts, readsClause_noWindow top⟩

/-! ## Statements -/

omit h in
/-- What a star stands for depends on the source alone. -/
theorem starred_eq_ok {found : Source} {projected : Option Projection} {projection : Projection}
    {ts rest : List Placed} (hread : starred found projected ts = .ok (projection, rest)) :
    rest = ts ∧ ∀ ts', starred found projected ts' = .ok (projection, ts') := by
  unfold starred at hread
  split at hread
  · cases hread
    exact ⟨rfl, fun ts' => rfl⟩
  · split at hread
    · rename_i hname
      cases hread
      exact ⟨rfl, fun ts' => by simp [starred, hname]⟩
    · cases hread

theorem local_query : Local (Beyond 6) (query inner) query := by
  intro ts s rest hread
  simp only [query, bind_eq_ok] at hread
  obtain ⟨⟨_, _⟩, hselect, ⟨found, _⟩, hmodifiers, ⟨projected, _⟩, hprojection,
    ⟨source, _⟩, hsource, ⟨projection, _⟩, hstarred, ⟨joins, _⟩, hjoins, ⟨filter, _⟩, hfilter,
    ⟨grouping, _⟩, hgrouping, ⟨ordering, _⟩, hordering, ⟨⟨offset, count⟩, _⟩, hwindow,
    hread⟩ := hread
  cases hread
  obtain ⟨hpeek, rfl⟩ := expect_eq_ok hselect
  obtain ⟨rfl, hstarred⟩ := starred_eq_ok hstarred
  obtain ⟨ms, hms, hmodifies⟩ := local_modifiersFrom _ hmodifiers
  obtain ⟨ps, hps, hreadsProjection⟩ := local_projection? h _ _ _ _ hprojection
  obtain ⟨ss, hss, hreadsSource⟩ := local_sourceClause h hsource
  obtain ⟨js, hjs, hreadsJoins⟩ := local_joinClauses h hjoins
  obtain ⟨fs, hfs, hreadsFilter⟩ := local_filterClause h hfilter
  obtain ⟨gs, hgs, hreadsGrouping⟩ := local_groupingClause h hgrouping
  obtain ⟨os, hos, hreadsOrdering⟩ := local_orderingClause h hordering
  obtain ⟨ws, hws, hreadsWindow⟩ := local_window _ hwindow
  have htakes := hms.append (hps.append (hss.append (hjs.append (hfs.append (hgs.append
    (hos.append hws))))))
  exact ⟨_, .cons (by simp) hpeek htakes, reads_query hmodifies.reads hreadsProjection hstarred
    hreadsSource hreadsJoins hreadsFilter hreadsGrouping hreadsOrdering hreadsWindow⟩

end Statements

/-- What stands in brackets is read alike elsewhere, however deep brackets nest. -/
theorem Grammar.ofDepth_consistent (depth : Nat) : (ofDepth depth).Consistent := by
  induction depth with
  | zero =>
      -- Nothing is read where no bracket can reach.
      constructor <;> intro ts found rest hread <;> cases hread
  | succ depth ih => exact ⟨local_disjunction ih, local_query ih⟩

end DocQuery
