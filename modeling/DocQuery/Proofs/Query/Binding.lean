import DocQuery.Proofs.Query.Totals
import DocQuery.Proofs.Statement.Spelling

/-!
# What a source binds

A star stands for the value that the source binds.  The name of that value is chosen twice,
when a statement is read and when it is run.  The two agree unless a path without a label
ends in a parameter that is bound to some other text: then the star asks for a name that
nothing is bound to.
-/

namespace DocQuery

open DocQuery.Parser

variable {parameters : Parameters}

/-! ## Names bound in rows -/

namespace Row

variable {row : Row} {name other : String}

theorem value?_bind_of_ne (h : other ≠ name) (value : Value) :
    (row.bind name value).value? other = row.value? other := by
  rw [bind, value?, List.lookup_cons, beq_eq_false_iff_ne.mpr h]
  rfl

theorem value?_withRootFor_of_ne {segments : List String} (h : segments.head? ≠ some other) :
    (row.withRootFor segments).value? other = row.value? other := by
  cases segments with
  | nil => rfl
  | cons first rest =>
      have hne : other ≠ first := fun e => h (e ▸ rfl)
      rw [withRootFor, withRootAs]
      split
      · exact value?_bind_of_ne hne _
      · rfl

/-- A name that is neither bound nor the first of a path stays unbound. -/
theorem value?_bindPath_of_ne {segments : List String} (h : other ≠ name)
    (hfirst : segments.head? ≠ some other) :
    (row.bindPath parameters name segments).value? other = row.value? other := by
  unfold bindPath
  split
  · rfl
  · exact (value?_bind_of_ne h _).trans (value?_withRootFor_of_ne hfirst)

/-- In the row of a document each name that is bound stands for it. -/
theorem value?_ofDocument (draws : Draws) (name other : String) (document : Value) :
    (ofDocument draws name document).value? other =
      if other = rootName ∨ other = name then some document else none := by
  by_cases hroot : other = rootName
  · simp [ofDocument, value?, hroot]
  · by_cases hname : other = name
    · rw [hname] at hroot ⊢
      simp [ofDocument, value?, List.lookup_cons, beq_eq_false_iff_ne.mpr hroot]
    · simp [ofDocument, value?, List.lookup_cons, beq_eq_false_iff_ne.mpr hroot,
        beq_eq_false_iff_ne.mpr hname, hroot, hname]

theorem value?_ofDocument_of_ne (h : other ≠ name) (hroot : other ≠ rootName) (draws : Draws)
    (document : Value) : (ofDocument draws name document).value? other = none := by
  rw [value?_ofDocument, if_neg (not_or.mpr ⟨hroot, h⟩)]

theorem isSome_value?_bindPath (name : String) (segments : List String) (row : Row) :
    ((row.bindPath parameters name segments).value? name).isSome := by
  unfold bindPath
  split
  · rename_i h
    exact h.2
  · rw [value?_bind_self]
    rfl

theorem isSome_value?_of_mem_deriveEach {value : Value} {made : Row}
    (h : made ∈ row.deriveEach name value) : (made.value? name).isSome := by
  obtain ⟨element, -, rfl⟩ := List.mem_map.mp h
  simp [derive, value?]

end Row

/-! ## Rows of a source -/

namespace Source

def rows (parameters : Parameters) (source : Source) (row : Row) : List Row :=
  (source.expansions parameters).foldl (fun rows f => rows.flatMap f) [row]

theorem foldl_expansions (source : Source) (given : List Row) :
    (source.expansions parameters).foldl (fun rows f => rows.flatMap f) given =
      given.flatMap (source.rows parameters) := by
  unfold rows
  cases source <;> simp [expansions]

/-- A path gives one row for each row. -/
theorem rows_path (segments : List String) (label : Option String) (row : Row) :
    (Source.path segments label).rows parameters row =
      [row.bindPath parameters ((Source.path segments label).rowName parameters) segments] := by
  simp [rows, expansions]

/-- A source binds a value under its name in each of its rows. -/
theorem isSome_value?_of_mem_rows {source : Source} {name : String}
    (hsource : source.bindingName? = some name) {row made : Row}
    (h : made ∈ source.rows parameters row) :
    (made.value? (source.rowName parameters)).isSome := by
  cases source with
  | documents => cases hsource
  | path segments label =>
      rw [rows_path, List.mem_singleton] at h
      exact h ▸ Row.isSome_value?_bindPath _ segments row
  | each name segments =>
      simp only [rows, expansions, List.foldl_cons, List.foldl_nil, List.flatMap_singleton] at h
      exact Row.isSome_value?_of_mem_deriveEach h
  | subquery s label =>
      simp only [rows, expansions, List.foldl_cons, List.foldl_nil, List.flatMap_singleton] at h
      exact Row.isSome_value?_of_mem_deriveEach h

/-- The name of a source when it is run is the one it is written with, parameters apart. -/
theorem rowName_eq {source : Source} {name : String} (hname : source.bindingName? = some name)
    (hlast : ∀ segments last, source = .path segments none → segments.getLast? = some last →
      parameters.name last = last) :
    source.rowName parameters = name := by
  cases source with
  | documents => cases hname
  | path segments label =>
      cases label with
      | none =>
          have hsegments : segments.getLast? = some name := by simpa [bindingName?] using hname
          rw [rowName, columnName, hsegments]
          exact hlast segments name rfl hsegments
      | some label => exact Option.some.inj hname
  | each other segments => exact Option.some.inj hname
  | subquery s label => exact Option.some.inj hname

end Source

/-! ## Statements that only project a value -/

namespace Statement

/-- The rows that the source of a statement makes of some documents. -/
def bound (s : Statement) (parameters : Parameters) (draws : Draws) (documents : List Value) :
    List Row :=
  (s.rows parameters draws documents).flatMap (s.source.rows parameters)

/-- The statement that gives the value of a term for each row of a source. -/
def selecting (t : Term) (source : Source) : Statement :=
  ⟨.value t, source, [], none, [], [], false, 0, none⟩

/-- Whether a statement keeps a row: its filter, if it has one, holds there. -/
def keeps (parameters : Parameters) (s : Statement) (row : Row) : Bool :=
  (s.plan parameters).filter.all fun keep => keep row

theorem keeps_eq (parameters : Parameters) (s : Statement) :
    s.keeps parameters = fun row => s.filter.all fun c => c.holds parameters row := by
  funext row
  obtain ⟨projection, source, joins, filter, grouping, ordering, distinct, offset, count⟩ := s
  rw [keeps, plan]
  cases filter <;> rw [filterTest] <;> rfl

/-- Without joins and an order, the rows are those that the source makes and the filter keeps. -/
theorem arranged_eq_kept {s : Statement} (hjoins : s.joins = []) (hordering : s.ordering = [])
    (parameters : Parameters) (draws : Draws) (documents : List Value) :
    s.arranged parameters draws documents =
      (s.bound parameters draws documents).filter (s.keeps parameters) := by
  obtain ⟨projection, source, joins, filter, grouping, ordering, distinct, offset, count⟩ := s
  subst hjoins hordering
  rw [bound, ← Source.foldl_expansions, keeps_eq]
  cases filter <;>
    simp [arranged, passing, Plan.passing, Statement.plan, joinExpansions, filterTest]

theorem arranged_eq_bound {s : Statement} (hjoins : s.joins = []) (hfilter : s.filter = none)
    (hordering : s.ordering = []) (parameters : Parameters) (draws : Draws)
    (documents : List Value) :
    s.arranged parameters draws documents = s.bound parameters draws documents := by
  rw [arranged_eq_kept hjoins hordering, keeps_eq, hfilter]
  exact List.filter_true _

/-- A statement that gives the value of a term for each row it keeps. -/
theorem run_value {t : Term} (ht : t.aggregates = false) (source : Source)
    (filter : Option Condition) (parameters : Parameters) (draws : Draws)
    (documents : List Value) :
    let s : Statement := ⟨.value t, source, [], filter, [], [], false, 0, none⟩
    s.run parameters draws documents =
      ((s.bound parameters draws documents).filter (s.keeps parameters)).map
        (t.resolve parameters) := by
  intro s
  have hreduces : ¬s.reduces := by
    simp [s, reduces, Projection.terms, anyAggregates, ht]
  rw [run_eq, resultsOf_ok _ parameters draws rfl rfl rfl, if_neg hreduces,
    arranged_eq_kept rfl rfl]
  simp [s, Listing.onlyIf, Projection.resolve, Plan.certain]

theorem run_selecting {t : Term} (ht : t.aggregates = false) (source : Source)
    (parameters : Parameters) (draws : Draws) (documents : List Value) :
    (selecting t source).run parameters draws documents =
      ((selecting t source).bound parameters draws documents).map (t.resolve parameters) := by
  rw [← arranged_eq_bound rfl rfl rfl, arranged_eq_kept rfl rfl]
  exact run_value ht source none parameters draws documents

/-- A path gives one row for each document. -/
theorem bound_path {s : Statement} {segments : List String} {label : Option String}
    (hs : s.source = .path segments label) (parameters : Parameters) (draws : Draws)
    (documents : List Value) :
    let name := (Source.path segments label).rowName parameters
    s.bound parameters draws documents =
      documents.zipIdx.map fun (document, index) =>
        (Row.ofDocument (draws.part index) name document).bindPath parameters name segments := by
  intro name
  have hrows : Source.rows parameters (.path segments label) =
      fun row => [row.bindPath parameters name segments] :=
    funext (Source.rows_path segments label)
  have hname : s.documentName parameters = name := by rw [documentName, hs]
  rw [bound, rows, hs, hrows, List.flatMap_map, List.map_eq_flatMap]
  simp only [documentRow, hname]

/-- A path of one name that stands for itself binds each document under it. -/
theorem bound_name {s : Statement} {name : String} (hs : s.source = .path [name] none)
    (hname : ¬Parameters.isName name) (parameters : Parameters) (draws : Draws)
    (documents : List Value) :
    s.bound parameters draws documents =
      documents.zipIdx.map fun (document, index) =>
        Row.ofDocument (draws.part index) name document := by
  have hrowName : (Source.path [name] none).rowName parameters = name := if_neg hname
  have hvalue (draws : Draws) (document : Value) :
      ((Row.ofDocument draws name document).value? name).isSome := by
    rw [Row.value?_ofDocument, if_pos (.inr rfl)]
    rfl
  rw [bound_path hs, hrowName]
  exact List.map_congr_left fun (document, index) _ => if_pos ⟨rfl, hvalue _ document⟩

end Statement

theorem Term.resolve_path (segments : List String) (row : Row) :
    (Term.plain (.path segments)).resolve parameters row = row.follow parameters segments := by
  rw [Term.plain, Term.resolve, Form.resolve, Value.negatedIf_false]

/-- A path of one segment is what is bound under it. -/
theorem Term.resolve_name (name : String) (row : Row) :
    (Term.plain (.path [name])).resolve parameters row = (row.value? name).getD .null := by
  rw [Term.resolve_path, Row.follow]
  cases row.value? name <;> rfl

/-! ## Stars -/

theorem Grammar.projection_of_starred {source : Source} {ts rest : List Placed}
    {projection : Projection} (h : starred source none ts = .ok (projection, rest)) :
    ∃ name, source.bindingName? = some name ∧
      projection = .value (Term.plain (.path [name])) := by
  unfold starred at h
  cases hname : source.bindingName? with
  | none =>
      rw [hname] at h
      cases h
  | some name =>
      rw [hname] at h
      cases h
      exact ⟨name, rfl, rfl⟩

theorem Grammar.projection_of_query {inner : Grammar} {ts clause rest : List Placed} {s : Statement}
    (hts : Spells [.keyword .select, .mark .star, .keyword .from] ts clause)
    (h : query inner ts = .ok (s, rest)) :
    ∃ name, s.source.bindingName? = some name ∧
      s.projection = .value (Term.plain (.path [name])) := by
  obtain _ | ⟨i, hts⟩ := hts
  obtain _ | ⟨j, hts⟩ := hts
  obtain _ | ⟨k, hts⟩ := hts
  cases hts
  let fromStar : List Placed := ⟨.mark .star, j⟩ :: ⟨.keyword .from, k⟩ :: clause
  have hmodifiers : modifiers fromStar = .ok (⟨false, none, false⟩, fromStar) := rfl
  have hstar : projection? inner false fromStar = .ok (none, fromStar.tail) := rfl
  simp only [query, expect_cons, ok_bind] at h
  rw [hmodifiers, ok_bind, hstar, ok_bind] at h
  simp only [bind_eq_ok] at h
  obtain ⟨⟨source, _⟩, -, ⟨projection, _⟩, hstarred, h⟩ := h
  obtain ⟨_, -, _, -, _, -, _, -, _, -, h⟩ := h
  cases h
  exact projection_of_starred hstarred

namespace Statement

/-- A star is read as the name of the source as it is written. -/
theorem projection_of_star {ts clause : List Placed} {s : Statement}
    (hts : Spells [.keyword .select, .mark .star, .keyword .from] ts clause)
    (hparse : read ts = .ok s) :
    ∃ name, s.source.bindingName? = some name ∧
      s.projection = .value (Term.plain (.path [name])) := by
  obtain ⟨t, ht, rfl⟩ := read_eq_ok.mp hparse
  simp only [ofTokens, bind_eq_ok] at ht
  obtain ⟨⟨t', rest⟩, hread, hend⟩ := ht
  dsimp only at hend
  split at hend
  · cases hend
    obtain ⟨name, hname, hprojection⟩ := Grammar.projection_of_query hts hread
    refine ⟨name, ?_, ?_⟩
    · rw [sited_source, Source.bindingName?_sited, hname]
    · rw [sited_projection, hprojection, Projection.sited, Term.plain, Term.sited, Form.sited]
  · cases hend

def OnlyProjects (s : Statement) : Prop :=
  s = ⟨s.projection, s.source, [], none, [], [], false, 0, none⟩

theorem OnlyProjects.eq_selecting {s : Statement} {t : Term} (h : s.OnlyProjects)
    (hprojection : s.projection = .value t) : s = selecting t s.source := by
  rw [selecting, ← hprojection]
  exact h

variable {s : Statement} {ts clause : List Placed}

/--
A star over a source, and nothing else, gives what the source binds for each document, unless
the source is named by a parameter that stands for another text.
-/
theorem run_star (hts : Spells [.keyword .select, .mark .star, .keyword .from] ts clause)
    (hparse : read ts = .ok s) (hs : s.OnlyProjects) (parameters : Parameters) (draws : Draws)
    (hlast : ∀ segments last, s.source = .path segments none → segments.getLast? = some last →
      parameters.name last = last)
    (documents : List Value) :
    (s.run parameters draws documents).map some =
      (s.bound parameters draws documents).map fun row =>
        row.value? (s.source.rowName parameters) := by
  obtain ⟨name, hname, hprojection⟩ := projection_of_star hts hparse
  have hagree : s.source.rowName parameters = name := Source.rowName_eq hname hlast
  have hrun : s.run parameters draws documents =
      (s.bound parameters draws documents).map
        ((Term.plain (.path [name])).resolve parameters) := by
    rw [hs.eq_selecting hprojection, run_selecting rfl]
  rw [hrun, List.map_map]
  refine List.map_congr_left fun row hrow => ?_
  obtain ⟨given, -, hmade⟩ := List.mem_flatMap.mp hrow
  have hbound := Source.isSome_value?_of_mem_rows hname hmade
  obtain ⟨value, hvalue⟩ := Option.isSome_iff_exists.mp hbound
  rw [Function.comp_apply, Term.resolve_name, ← hagree, hvalue]
  rfl

/-- A parameter for a number does not rename the path that it ends. -/
theorem run_star_of_number :
    let draws : Draws := fun _ _ => 0.5
    let clause : List Placed := [⟨.identifier "c", 14⟩, ⟨.mark .leftBracket, 15⟩,
      ⟨.parameter "@n", 16⟩, ⟨.mark .rightBracket, 18⟩, ⟨.finish, 19⟩]
    let ts : List Placed :=
      ⟨.keyword .select, 0⟩ :: ⟨.mark .star, 7⟩ :: ⟨.keyword .from, 9⟩ :: clause
    let s := selecting (.plain (.path ["@n"])) (.path ["c", "@n"] none)
    let parameters : Parameters := [("@n", .ofInt 1)]
    Spells [.keyword .select, .mark .star, .keyword .from] ts clause ∧ read ts = .ok s ∧
      s.OnlyProjects ∧
      (∀ segments last, s.source = .path segments none → segments.getLast? = some last →
        parameters.name last = last) ∧
      (s.run parameters draws [.object [("1", .text "a")], .object []]).map some =
        [some (.text "a"), some .null] := by
  intro draws clause ts s parameters
  have hts : Spells [.keyword .select, .mark .star, .keyword .from] ts clause :=
    .cons 0 (.cons 7 (.cons 9 (.nil clause)))
  have hparse : read ts = .ok s := rfl
  have hlast : ∀ segments last, s.source = .path segments none → segments.getLast? = some last →
      parameters.name last = last := by
    intro segments last hsource hend
    cases hsource
    cases hend
    rfl
  exact ⟨hts, hparse, rfl, hlast, (run_star hts hparse rfl parameters draws hlast _).trans rfl⟩

/--
A star over a path that ends in a parameter for another text is null for every document.
-/
theorem run_star_of_renamed
    (hts : Spells [.keyword .select, .mark .star, .keyword .from] ts clause)
    (hparse : read ts = .ok s) (hs : s.OnlyProjects) {segments : List String} {last : String}
    (hsource : s.source = .path segments none) (hlast : segments.getLast? = some last)
    (hfirst : segments.head? ≠ some last) (parameters : Parameters)
    (hrenamed : parameters.name last ≠ last) (draws : Draws) (documents : List Value) :
    s.run parameters draws documents = documents.map fun _ => .null := by
  obtain ⟨name, hname, hprojection⟩ := projection_of_star hts hparse
  have hsame : name = last := by
    rw [hsource, Source.bindingName?, hlast] at hname
    exact (Option.some.inj hname).symm
  subst hsame
  have hrowName : (Source.path segments none).rowName parameters = parameters.name name := by
    rw [Source.rowName, columnName, hlast]
    rfl
  have hroot : name ≠ Row.rootName := by
    rintro rfl
    exact hrenamed rfl
  rw [hs.eq_selecting hprojection, hsource, run_selecting rfl, bound_path rfl, hrowName,
    List.map_map]
  have hnull (document : Value) (index : Nat) : (Term.plain (.path [name])).resolve parameters
      ((Row.ofDocument (draws.part index) (parameters.name name) document).bindPath parameters
        (parameters.name name) segments) = .null := by
    rw [Term.resolve_name, Row.value?_bindPath_of_ne (Ne.symm hrenamed) hfirst,
      Row.value?_ofDocument_of_ne (Ne.symm hrenamed) hroot]
    rfl
  have hnulls : documents.map (fun _ => Value.null) = documents.zipIdx.map fun _ => .null := by
    rw [List.map_const', List.map_const', List.length_zipIdx]
  rw [hnulls]
  exact List.map_congr_left fun place _ => hnull place.1 place.2

/-- What a path that ends in a parameter binds is not found by a star. -/
theorem not_run_star_of_renamed :
    ¬ ∀ (ts clause : List Placed) (s : Statement) (parameters : Parameters) (draws : Draws)
        (documents : List Value),
      Spells [.keyword .select, .mark .star, .keyword .from] ts clause →
      read ts = .ok s → s.OnlyProjects →
      (s.run parameters draws documents).map some =
        (s.bound parameters draws documents).map fun row =>
          row.value? (s.source.rowName parameters) := by
  intro h
  let draws : Draws := fun _ _ => 0.5
  let clause : List Placed := [⟨.identifier "c", 14⟩, ⟨.mark .leftBracket, 15⟩,
    ⟨.parameter "@p", 16⟩, ⟨.mark .rightBracket, 18⟩, ⟨.finish, 19⟩]
  let ts : List Placed :=
    ⟨.keyword .select, 0⟩ :: ⟨.mark .star, 7⟩ :: ⟨.keyword .from, 9⟩ :: clause
  let s := selecting (.plain (.path ["@p"])) (.path ["c", "@p"] none)
  let parameters : Parameters := [("@p", .text "a")]
  let documents : List Value := [.object [("a", .bool true)]]
  have hts : Spells [.keyword .select, .mark .star, .keyword .from] ts clause :=
    .cons 0 (.cons 7 (.cons 9 (.nil clause)))
  have hparse : read ts = .ok s := rfl
  have hnull : s.run parameters draws documents = [.null] :=
    run_star_of_renamed hts hparse rfl rfl rfl (by decide) parameters (by decide) draws documents
  have hstar := h ts clause s parameters draws documents hts hparse rfl
  rw [hnull] at hstar
  have hbound : some Value.null = some (.bool true) := (List.cons.inj hstar).1
  cases hbound

end Statement

end DocQuery
