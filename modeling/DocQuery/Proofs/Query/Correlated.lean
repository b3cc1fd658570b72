import DocQuery.Proofs.Query.Naming

/-!
# Subqueries in place

A subquery runs for a single row that is bound already, a row that cannot fail.  So the array
that it stands for holds all its results, and asking for the first one settles whether there is
any.  A join over a path is the join over the subquery for the elements at that path.
-/

namespace DocQuery

variable {ε : Type}

/-! ## Whether there is a result -/

namespace Plan

/-- All requests for one row are answered with results, whatever failures there could be. -/
theorem items_results_single (plan : Plan) (row : Row) :
    (plan.results (Cursor.ofList [Except.ok (ε := ε) row])).items = (plan.values row).map .ok := by
  rw [items_results, Cursor.items_ofList, resultsOf_single]

/-- The first request for one row is answered with the first result. -/
theorem next_results_single (plan : Plan) (row : Row) :
    (plan.results (Cursor.ofList [Except.ok (ε := ε) row])).next.1 =
      (plan.values row).head?.map .ok := by
  rw [Cursor.next_fst, items_results_single, List.head?_map]

end Plan

/--
A subquery stands for the array of its results and its existence for whether that array has an
element, in every row.  The run behind both never fails, and its first request is answered with
nothing exactly when no result is to come.
-/
theorem Form.existence_of_subquery (parameters : Parameters) (s : Statement) (row : Row) :
    ∃ found : List Value,
      (Form.subquery s).resolve parameters row = .array found ∧
      (Form.existence s).resolve parameters row = .bool (!found.isEmpty) ∧
      ∀ ε : Type,
        let run := (s.plan parameters).results (Cursor.ofList [Except.ok (ε := ε) row])
        run.items = found.map .ok ∧ run.next.1 = found.head?.map .ok := by
  refine ⟨(s.plan parameters).values row, ?_, ?_, fun ε => ⟨?_, ?_⟩⟩
  · rw [Form.resolve]
  · rw [Form.resolve, Plan.hasValue_eq]
  · exact Plan.items_results_single _ row
  · exact Plan.next_results_single _ row

/-! ## Joins over a path -/

namespace Row

variable {parameters : Parameters} {row : Row} {first : String} {rest : List String}

/-- Where the first name of a path is bound, the document need not be bound under it. -/
theorem follow_withRootFor_of_isSome (h : (row.value? first).isSome) :
    (row.withRootFor (first :: rest)).follow parameters (first :: rest) =
      row.follow parameters (first :: rest) := by
  have hfirst : (row.value? first).or (row.value? rootName) = row.value? first := by
    obtain ⟨value, hvalue⟩ := Option.isSome_iff_exists.mp h
    rw [hvalue, Option.some_or]
  rw [follow, value?_withRootFor, hfirst]
  rfl

end Row

namespace Statement

/-- A statement that gives the value of a term, run for one row. -/
theorem values_selecting {t : Term} (ht : t.aggregates = false) (source : Source)
    (parameters : Parameters) (row : Row) :
    ((selecting t source).plan parameters).values row =
      (source.rows parameters row).map (t.resolve parameters) := by
  let plan := (selecting t source).plan parameters
  have hgatherings : plan.gatherings = [] := by
    simp [plan, selecting, plan_gatherings, reduces, Projection.terms, anyAggregates, ht]
  have hpassing : plan.passing [row] = source.rows parameters row := by
    simp [plan, selecting, Plan.passing, Statement.plan, filterTest, joinExpansions, Source.rows]
  have hrows : plan.rowsOf [Except.ok (ε := Empty) row] =
      (source.rows parameters row).map .ok := by
    rw [← List.map_singleton, Plan.rowsOf_map_ok, hgatherings, hpassing, List.foldl_nil]
  rw [Plan.values_eq, Plan.resultsOf_eq, hrows]
  simp [selecting, Statement.plan, Listing.firstOf, Listing.onlyIf, Projection.resolve,
    Except.map, Plan.certain]

/-- The results of the subquery for the elements at a path are those elements. -/
theorem values_elementsOf (name : String) (segments : List String) (parameters : Parameters)
    (row : Row) :
    ((elementsOf name segments).plan parameters).values row =
      ((row.withRootFor segments).follow parameters segments).elements := by
  rw [elementsOf, naming, values_selecting rfl, Source.rows_each, Row.eachOfPath,
    Row.map_resolve_deriveEach]

end Statement

/--
A join over a path and the join over the subquery for the elements at that path make the same
rows of a row in which the first name of the path is bound.
-/
theorem Join.expand_subquery_elementsOf (parameters : Parameters) (name : String)
    {first : String} {rest : List String} {row : Row} (h : (row.value? first).isSome) :
    (Join.subquery (.elementsOf name (first :: rest)) name).expand parameters row =
      (Join.each name (first :: rest)).expand parameters row := by
  rw [Join.expand, Join.expand, Statement.values_elementsOf, Row.follow_withRootFor_of_isSome h]
  rfl

theorem Listing.expand_congr {α β : Type} {f g : α → List β} {entries : List (Except ε α)}
    (h : ∀ item, .ok item ∈ entries → f item = g item) : expand f entries = expand g entries := by
  refine List.flatMap_congr fun entry hentry => ?_
  cases entry with
  | ok item => exact congrArg (List.map Except.ok) (h item hentry)
  | error failure => rfl

/--
Joining a path and joining the subquery for the elements at that path give the same rows in the
same order, over rows in which the first name of the path is bound.  Each row gives its elements
there under the name of the join, none where there is no array, and a failure stays in place.
-/
theorem Cursor.items_join_elementsOf (parameters : Parameters) (name first : String)
    (rest : List String) {rows : Cursor ε Row}
    (hrows : ∀ row, .ok row ∈ rows.items → (row.value? first).isSome) :
    let path := first :: rest
    let byPath : Join := .each name path
    let bySubquery : Join := .subquery (.elementsOf name path) name
    (rows.through (Stage.expand (bySubquery.expand parameters))).items =
        (rows.through (Stage.expand (byPath.expand parameters))).items ∧
      (rows.through (Stage.expand (byPath.expand parameters))).items =
        Listing.expand
          (fun row => (row.follow parameters path).elements.zipIdx.map fun (element, index) =>
            row.derive name element index) rows.items := by
  intro path byPath bySubquery
  have hpath : byPath.expand parameters = fun row =>
      (row.follow parameters path).elements.zipIdx.map fun (element, index) =>
        row.derive name element index := by
    funext row
    rw [Join.expand, Row.deriveEach]
  have hsame : Listing.expand (bySubquery.expand parameters) rows.items =
      Listing.expand (byPath.expand parameters) rows.items :=
    Listing.expand_congr fun row hrow => Join.expand_subquery_elementsOf parameters name
      (hrows row hrow)
  rw [Cursor.items_through_expand, Cursor.items_through_expand, hsame, hpath]
  exact ⟨rfl, rfl⟩

/-- The name of the join hides the first name of its path, which goes on by a parameter. -/
theorem Cursor.items_join_elementsOf_hidden :
    let draws : Draws := fun _ _ => 0.5
    let parameters : Parameters := [("@key", .text "tags")]
    let tagged := Row.ofDocument (draws.part 0) "c" (.object [("tags", .array [.text "a", .null])])
    let untagged := Row.ofDocument (draws.part 2) "c" (.object [("tags", .bool true)])
    let rows : Cursor String Row :=
      Cursor.ofList [.ok tagged, .error "disk on fire", .ok untagged]
    let join : Join := .subquery (.elementsOf "c" ["c", "@key"]) "c"
    let tokens : List Token := [.keyword .select, .keyword .value, .identifier "c",
      .keyword .from, .identifier "c", .keyword .join, .mark .leftParen, .keyword .select,
      .keyword .value, .identifier "c", .keyword .from, .identifier "c", .keyword .in,
      .identifier "c", .mark .leftBracket, .parameter "@key", .mark .rightBracket,
      .mark .rightParen, .keyword .as, .identifier "c", .finish]
    (Statement.read (tokens.map fun token => ⟨token, 0⟩)).map Statement.joins = .ok [join] ∧
      (∀ row, .ok row ∈ rows.items → (row.value? "c").isSome) ∧
      (rows.through (Stage.expand (join.expand parameters))).items =
        [.ok (tagged.derive "c" (.text "a") 0), .ok (tagged.derive "c" .null 1),
          .error "disk on fire"] := by
  intro draws parameters tagged untagged rows join tokens
  have hitems : rows.items = [.ok tagged, .error "disk on fire", .ok untagged] :=
    Cursor.items_ofList _
  have hbound : ∀ row, .ok row ∈ rows.items → (row.value? "c").isSome := by
    intro row hrow
    rw [hitems] at hrow
    obtain rfl | rfl : row = tagged ∨ row = untagged := by simpa using hrow
    all_goals rfl
  obtain ⟨hsame, hrows⟩ := Cursor.items_join_elementsOf parameters "c" "c" ["@key"] hbound
  refine ⟨rfl, hbound, hsame.trans (hrows.trans ?_)⟩
  rw [hitems]
  rfl

end DocQuery
