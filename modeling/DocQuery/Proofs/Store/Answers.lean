import DocQuery.Proofs.Query.Brackets
import DocQuery.Proofs.Query.Frame
import DocQuery.Service

/-!
# Answers of the query service

Which queries over a stored collection are answered and which fail.  A query that is read
never fails over documents that are there, so that only a name that is not found, or a text
that is no query, is left as a reason.
-/

namespace DocQuery

variable {ε : Type}

/-! ## Results over documents without failures -/

theorem Cursor.collect_ok {α : Type} (items : List α) :
    collect (items.map (Except.ok (ε := ε))) = .ok items := by
  induction items with
  | nil => rfl
  | cons item rest ih =>
      rw [List.map_cons, collect, ih]
      rfl

/-- No stage, and no subquery in one, makes a failure where the source has none. -/
theorem Statement.collect_execute (ε : Type) (s : Statement) (parameters : Parameters)
    (draws : Draws) (documents : List Value) :
    Cursor.collect
        (s.execute parameters draws (Cursor.ofList (documents.map (Except.ok (ε := ε))))).items =
      .ok (s.run parameters draws documents) := by
  obtain ⟨results, hresults⟩ :=
    (s.plan parameters).resultsOf_ok (s.rows parameters draws documents)
  have hlisted (ε : Type) :
      s.resultsOf parameters draws (documents.map (Except.ok (ε := ε))) = results.map .ok := by
    rw [resultsOf, rowsOf_ok, ← hresults ε]
  have hrun : s.run parameters draws documents = results := by
    rw [run_eq, hlisted Empty, List.map_map]
    exact List.map_id results
  rw [items_execute, Cursor.items_ofList, hlisted ε, hrun, Cursor.collect_ok]

/-! ## Names that are found -/

namespace Store

variable {store : Store} {database collection : String}

def HasCollection (store : Store) (database collection : String) : Prop :=
  ∃ db, store.databases.find? (isDatabase database) = some db ∧
    ∃ c ∈ db.collections, c.info.header.id = collection

/-- A collection is looked up in vain exactly when it is not there. -/
theorem hasCollection_iff :
    store.HasCollection database collection ↔
      ∃ c, store.collection database collection = .ok c := by
  unfold HasCollection Store.collection Store.database
  cases hdb : store.databases.find? (isDatabase database) with
  | none => simp [bind, Except.bind]
  | some db =>
      have hfound : (∃ c ∈ db.collections, c.info.header.id = collection) ↔
          (db.collections.find? (isCollection collection)).isSome := by
        rw [List.find?_isSome]
        simp only [isCollection, beq_iff_eq]
      simp only [Option.some.injEq, exists_eq_left', hfound, ok_bind]
      cases db.collections.find? (isCollection collection) <;> simp

theorem not_hasCollection_iff :
    ¬store.HasCollection database collection ↔
      ∃ failure, store.collection database collection = .error failure := by
  rw [hasCollection_iff]
  cases store.collection database collection <;> simp

/-- Looking up a collection fails for a name, never for a query. -/
theorem collection_ne_query (text : List Char) (error : ParseError) :
    store.collection database collection ≠ .error (.query text error) := by
  unfold Store.collection Store.database
  cases store.databases.find? (isDatabase database) with
  | none => exact fun h => by cases h
  | some db =>
      rw [ok_bind]
      cases db.collections.find? (isCollection collection) <;> exact fun h => by cases h

theorem listDocuments_eq :
    store.listDocuments database collection =
      (store.collection database collection).map Collection.documents := by
  unfold listDocuments
  cases store.collection database collection <;> rfl

/-! ## Answers -/

variable {query : List Char} {error : ParseError} {s : Statement}

theorem runQuery_of_error (h : Statement.parse query = .error error) (fallback : Bool)
    (parameters : Parameters) (draws : Draws) :
    store.runQuery fallback database collection query parameters draws =
      if fallback then (store.collection database collection).map Collection.documents
      else .error (.query query error) := by
  rw [runQuery, h, ← listDocuments_eq]

theorem runQuery_of_ok (h : Statement.parse query = .ok s) (fallback : Bool)
    (parameters : Parameters) (draws : Draws) :
    store.runQuery fallback database collection query parameters draws =
      (store.collection database collection).map fun c =>
        s.run parameters draws c.documents := by
  simp only [runQuery, h, listDocuments_eq]
  cases store.collection database collection <;> rfl

/-- What is made of a collection fails with the lookup of it. -/
theorem map_collection_eq_error_iff {α : Type} (f : Collection → α) (failure : Failure) :
    (store.collection database collection).map f = .error failure ↔
      store.collection database collection = .error failure := by
  cases store.collection database collection <;> simp [Except.map]

theorem map_collection_fails_iff {α : Type} (f : Collection → α) :
    (∃ failure, (store.collection database collection).map f = .error failure) ↔
      ¬store.HasCollection database collection := by
  simp only [map_collection_eq_error_iff, not_hasCollection_iff]

/-- Without the fallback a text that is no query is the only failure that names a query. -/
theorem runQuery_eq_query_iff {parameters : Parameters} {draws : Draws} {text : List Char} :
    store.runQuery false database collection query parameters draws = .error (.query text error) ↔
      text = query ∧ Statement.parse query = .error error := by
  cases hparse : Statement.parse query with
  | error e =>
      rw [runQuery_of_error hparse]
      constructor
      · intro h
        cases h
        exact ⟨rfl, rfl⟩
      · rintro ⟨rfl, h⟩
        cases h
        rfl
  | ok s =>
      rw [runQuery_of_ok hparse, map_collection_eq_error_iff]
      constructor
      · intro h
        exact absurd h (collection_ne_query text error)
      · rintro ⟨-, h⟩
        cases h

/--
With the fallback a query fails exactly when its collection is not there, and a text that is
no query answers with all documents as they are stored.  Without it such a text is the failure,
whatever the names are.  A query that is read answers alike with and without it when it draws
the same numbers, or none: it fails only when its collection is not there, and else hands out
its results without a failure.
-/
theorem runQuery_answers (store : Store) (database collection : String) (query : List Char)
    (parameters : Parameters) :
    let answer (fallback : Bool) (draws : Draws) :=
      store.runQuery fallback database collection query parameters draws
    (∀ draws, (∃ failure, answer true draws = .error failure) ↔
      ¬store.HasCollection database collection) ∧
    (∀ draws text error, answer false draws = .error (.query text error) ↔
      text = query ∧ Statement.parse query = .error error) ∧
    (∀ error, Statement.parse query = .error error →
      ∀ draws c, store.collection database collection = .ok c →
        answer true draws = .ok c.documents) ∧
    (∀ s, Statement.parse query = .ok s →
      (∀ draws, (∃ failure, answer false draws = .error failure) ↔
        ¬store.HasCollection database collection) ∧
      (∀ draws, answer true draws = answer false draws) ∧
      (s.mentions [.draws] = false → ∀ draws others, answer true draws = answer false others) ∧
      ∀ draws c, store.collection database collection = .ok c →
        ∃ results, answer false draws = .ok results ∧
          ∀ ε : Type, Cursor.collect (s.execute parameters draws
            (Cursor.ofList (c.documents.map (Except.ok (ε := ε))))).items = .ok results) := by
  intro answer
  have hunread {error : ParseError} (h : Statement.parse query = .error error) (draws : Draws) :
      answer true draws = (store.collection database collection).map Collection.documents :=
    runQuery_of_error h true parameters draws
  have hread {s : Statement} (h : Statement.parse query = .ok s) (fallback : Bool)
      (draws : Draws) :
      answer fallback draws = (store.collection database collection).map fun c =>
        s.run parameters draws c.documents :=
    runQuery_of_ok h fallback parameters draws
  refine ⟨fun draws => ?_, fun draws text error => runQuery_eq_query_iff, ?_, ?_⟩
  · cases hparse : Statement.parse query with
    | error e => rw [hunread hparse, map_collection_fails_iff]
    | ok s => rw [hread hparse, map_collection_fails_iff]
  · intro error hparse draws c hc
    rw [hunread hparse, hc]
    rfl
  · intro s hparse
    refine ⟨fun draws => ?_, fun draws => ?_, fun hdraws draws others => ?_,
      fun draws c hc => ⟨s.run parameters draws c.documents, ?_, fun ε => ?_⟩⟩
    · rw [hread hparse, map_collection_fails_iff]
    · rw [hread hparse, hread hparse]
    · rw [hread hparse, hread hparse]
      simp only [s.run_of_unmentioned hdraws parameters draws others]
    · rw [hread hparse, hc]
      rfl
    · exact s.collect_execute ε parameters draws c.documents

/-- A stored document is found by a text that is no query, and by one that asks for its name. -/
theorem runQuery_answers_stored :
    let draws : Draws := fun _ _ => 0.5
    let stamp : Stamp := ⟨"", 0, ""⟩
    let c := Collection.ofDocuments ⟨⟨"c", stamp⟩, none⟩ [.object [("id", .text "a")]]
    let store : Store := ⟨[⟨⟨"db", stamp⟩, [c]⟩]⟩
    let query := bracketQuery (.enclosing '"' (.inr rfl)) "id"
    (∃ error, Statement.parse [] = .error error) ∧ store.collection "db" "c" = .ok c ∧
      store.runQuery true "db" "c" [] [] draws = .ok [.object [("id", .text "a")]] ∧
      Statement.parse query = .ok (bracketStatement "id") ∧
      (∃ results, store.runQuery false "db" "c" query [] draws = .ok results) ∧
      ∃ failure, store.runQuery true "db" "d" query [] draws = .error failure := by
  intro draws stamp c store query
  have hunread : Statement.parse [] = .error _ := rfl
  have hfound : store.collection "db" "c" = .ok c := rfl
  have hread : Statement.parse query = .ok (bracketStatement "id") :=
    Statement.parse_bracketQuery _ "id"
  have hmissing : ¬store.HasCollection "db" "d" := by
    rw [not_hasCollection_iff]
    exact ⟨.collectionNotFound "d", rfl⟩
  obtain ⟨-, -, hall, -⟩ := runQuery_answers store "db" "c" [] []
  obtain ⟨-, -, -, hok⟩ := runQuery_answers store "db" "c" query []
  obtain ⟨results, hresults, -⟩ := (hok _ hread).2.2.2 draws c hfound
  exact ⟨⟨_, hunread⟩, hfound, hall _ hunread draws c hfound, hread, ⟨results, hresults⟩,
    ((runQuery_answers store "db" "d" query []).1 draws).mpr hmissing⟩

end Store

end DocQuery
