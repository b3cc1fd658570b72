import DocQuery.Proofs.Query.Binding

/-!
# Names over a path

A source over a path binds what the path leads to in each document, whatever names are chosen.
The name of the binding, the names in the path and `$root` may all be the same: until the path
has been followed, each name that a row of a document knows stands for the document itself.
-/

namespace DocQuery

/-! ## Paths of keys -/

namespace Parameters

variable {text : String}

theorem segment?_of_not_isName (h : ¬isName text) (parameters : Parameters) :
    parameters.segment? text = some text :=
  if_neg h

theorem name_of_not_isName (h : ¬isName text) (parameters : Parameters) :
    parameters.name text = text :=
  if_neg h

end Parameters

/-- What keys lead to, one after the other; nothing when one of them is missing. -/
def Value.descend? (value : Value) (keys : List String) : Option Value :=
  keys.foldlM (fun value key => value.child? key) value

/-- A path without parameters leads where its keys lead, and to null when it breaks off. -/
theorem Value.follow_eq_descend? {keys : List String}
    (hkeys : ∀ key ∈ keys, ¬Parameters.isName key) (parameters : Parameters) (value : Value) :
    value.follow parameters keys = (value.descend? keys).getD .null := by
  induction keys generalizing value with
  | nil => rfl
  | cons key rest ih =>
      obtain ⟨hkey, hrest⟩ := List.forall_mem_cons.mp hkeys
      rw [follow, Parameters.segment?_of_not_isName hkey, Option.bind_some, descend?,
        List.foldlM_cons]
      cases value.child? key with
      | none => rfl
      | some next => exact ih hrest next

/-! ## Rows -/

namespace Row

variable {parameters : Parameters} {draws : Draws} {name first : String} {rest : List String}
variable {document : Value}

/-- The first name of a path stands for what is bound under it, else for the document. -/
theorem value?_withRootFor (row : Row) (first : String) (rest : List String) :
    (row.withRootFor (first :: rest)).value? first =
      (row.value? first).or (row.value? rootName) := by
  rw [withRootFor, withRootAs]
  cases hfirst : row.value? first with
  | some value => exact hfirst
  | none =>
      cases row.value? rootName with
      | some document => exact value?_bind_self row first document
      | none => exact hfirst

/-- Rows for the elements of an array, each read by the name it is bound under. -/
theorem map_resolve_deriveEach (row : Row) (name : String) (value : Value) :
    (row.deriveEach name value).map ((Term.plain (.path [name])).resolve parameters) =
      value.elements := by
  have hresolve (element : Value) (index : Nat) :
      (Term.plain (.path [name])).resolve parameters (row.derive name element index) =
        element := by
    rw [Term.resolve_name]
    simp [derive, value?]
  rw [deriveEach, List.map_map]
  exact (List.map_congr_left fun place _ => hresolve place.1 place.2).trans
    (List.zipIdx_map_fst 0 _)

/-! ## Rows of a document -/

/-- The first name of a path stands for the document, whether it was bound before or not. -/
theorem value?_withRootFor_ofDocument :
    ((ofDocument draws name document).withRootFor (first :: rest)).value? first =
      some document := by
  have hroot : (ofDocument draws name document).value? rootName = some document := by
    rw [value?_ofDocument, if_pos (.inl rfl)]
  rw [value?_withRootFor, hroot, value?_ofDocument]
  split <;> rfl

theorem follow_withRootFor_ofDocument :
    ((ofDocument draws name document).withRootFor (first :: rest)).follow parameters
      (first :: rest) = document.follow parameters rest := by
  rw [follow, value?_withRootFor_ofDocument]

/-- A path binds what it leads to in the document under a name of its own choice. -/
theorem value?_bindPath_ofDocument :
    ((ofDocument draws name document).bindPath parameters name (first :: rest)).value? name =
      some (document.follow parameters rest) := by
  unfold bindPath
  split
  · rename_i h
    obtain ⟨hpath, -⟩ := h
    obtain ⟨rfl, rfl⟩ := List.cons.inj hpath
    rw [value?_ofDocument, if_pos (.inr rfl)]
    rfl
  · rw [value?_bind_self, follow_withRootFor_ofDocument]

/-- A path of one name binds the document under it, also where it is bound under another name. -/
theorem value?_bindPath_singleton_ofDocument :
    ((ofDocument draws name document).bindPath parameters name [first]).value? first =
      some document := by
  by_cases h : first = name
  · rw [h]
    exact value?_bindPath_ofDocument
  · have hpath : ¬([first] = [name] ∧ ((ofDocument draws name document).value? name).isSome) := by
      simp [h]
    rw [bindPath, if_neg hpath, value?_bind_of_ne h, value?_withRootFor_ofDocument]

end Row

/-! ## Statements over a path -/

namespace Source

variable {parameters : Parameters} {first : String} {rest : List String} {label : Option String}

/-- Elements at a path give a row each. -/
theorem rows_each (name : String) (segments : List String) (row : Row) :
    (Source.each name segments).rows parameters row = row.eachOfPath parameters name segments := by
  simp [rows, expansions]

theorem bindingName?_path (first : String) (rest : List String) (label : Option String) :
    (Source.path (first :: rest) label).bindingName? = some (label.getD (rest.getLastD first)) := by
  cases label with
  | some label => rfl
  | none => simp [bindingName?, List.getLast?_cons, List.getLastD_eq_getLast?]

/-- The name that a path is written to bind stands for what it leads to in the document. -/
theorem value?_of_path (hrest : ∀ key ∈ rest, ¬Parameters.isName key) (draws : Draws)
    (document : Value) :
    let name := (Source.path (first :: rest) label).rowName parameters
    ((Row.ofDocument draws name document).bindPath parameters name (first :: rest)).value?
        (label.getD (rest.getLastD first)) =
      some (document.follow parameters rest) := by
  intro name
  cases rest with
  | nil =>
      cases label with
      | some label => exact Row.value?_bindPath_ofDocument
      | none => exact Row.value?_bindPath_singleton_ofDocument
  | cons key rest =>
      -- The last segment is a key and no parameter, so it names the rows as it is written.
      have hname : name = label.getD ((key :: rest).getLastD first) := by
        refine rowName_eq (bindingName?_path first (key :: rest) label) ?_
        intro segments last h hlast
        cases h
        rw [List.getLast?_cons_cons] at hlast
        exact Parameters.name_of_not_isName (hrest last (List.mem_of_getLast? hlast)) parameters
      rw [← hname]
      exact Row.value?_bindPath_ofDocument

end Source

namespace Statement

variable {parameters : Parameters} {first : String} {rest : List String}

def naming (name : String) (source : Source) : Statement :=
  selecting (.plain (.path [name])) source

/-- The elements of the array at a path, each bound under a name and given as it is. -/
def elementsOf (name : String) (segments : List String) : Statement :=
  naming name (.each name segments)

/-- What a path is written to bind is what it leads to in each document. -/
theorem run_naming_path (hrest : ∀ key ∈ rest, ¬Parameters.isName key) (label : Option String)
    (draws : Draws) (documents : List Value) :
    (naming (label.getD (rest.getLastD first)) (.path (first :: rest) label)).run parameters draws
        documents =
      documents.map fun document => document.follow parameters rest := by
  have hresolve (draws : Draws) (document : Value) :
      let name := (Source.path (first :: rest) label).rowName parameters
      (Term.plain (.path [label.getD (rest.getLastD first)])).resolve parameters
          ((Row.ofDocument draws name document).bindPath parameters name (first :: rest)) =
        document.follow parameters rest := by
    intro name
    rw [Term.resolve_name, Source.value?_of_path hrest, Option.getD_some]
  rw [naming, run_selecting rfl, bound_path rfl, List.map_map]
  conv_rhs => rw [← List.zipIdx_map_fst 0 documents, List.map_map]
  exact List.map_congr_left fun (document, index) _ => hresolve _ document

theorem bound_elementsOf (name : String) (segments : List String) (draws : Draws)
    (documents : List Value) :
    (elementsOf name segments).bound parameters draws documents =
      documents.zipIdx.flatMap fun (document, index) =>
        (Row.ofDocument (draws.part index) name document).eachOfPath parameters name
          segments := by
  have hrows : Source.rows parameters (.each name segments) =
      fun row => row.eachOfPath parameters name segments :=
    funext (Source.rows_each name segments)
  have hsource : (elementsOf name segments).source = .each name segments := rfl
  have hname : (elementsOf name segments).documentName parameters = name := rfl
  rw [bound, rows, hsource, hrows, List.flatMap_map]
  simp only [documentRow, hname]

/-- The elements at a path are those of the array that it leads to in each document. -/
theorem run_elementsOf (name : String) (draws : Draws) (documents : List Value) :
    (elementsOf name (first :: rest)).run parameters draws documents =
      documents.flatMap fun document => (document.follow parameters rest).elements := by
  have hrun : (elementsOf name (first :: rest)).run parameters draws documents =
      ((elementsOf name (first :: rest)).bound parameters draws documents).map
        ((Term.plain (.path [name])).resolve parameters) :=
    run_selecting rfl _ parameters draws documents
  have helements (draws : Draws) (document : Value) :
      ((Row.ofDocument draws name document).eachOfPath parameters name (first :: rest)).map
          ((Term.plain (.path [name])).resolve parameters) =
        (document.follow parameters rest).elements := by
    rw [Row.eachOfPath, Row.map_resolve_deriveEach, Row.follow_withRootFor_ofDocument]
  rw [hrun, bound_elementsOf, List.map_flatMap]
  conv_rhs => rw [← List.zipIdx_map_fst 0 documents, List.flatMap_map]
  simp only [helements]

/--
Over a path, the value of the name that it binds is what the path leads to in each document, or
null.  Over the elements at a path, their name gives the elements of that array in order, and
nothing where no array is found.  The names may coincide with each other and with `$root`.
-/
theorem run_over_path (first : String) {rest : List String}
    (hrest : ∀ key ∈ rest, ¬Parameters.isName key) (parameters : Parameters) (draws : Draws)
    (documents : List Value) :
    (∀ label : Option String,
      (naming (label.getD (rest.getLastD first)) (.path (first :: rest) label)).run parameters
          draws documents =
        documents.map fun document => (document.descend? rest).getD .null) ∧
    ∀ name : String,
      (naming name (.each name (first :: rest))).run parameters draws documents =
        documents.flatMap fun document => ((document.descend? rest).getD .null).elements := by
  have hfollow (document : Value) := Value.follow_eq_descend? hrest parameters document
  simp only [← hfollow]
  exact ⟨fun label => run_naming_path hrest label draws documents,
    fun name => run_elementsOf name draws documents⟩

/-- The name of the document is the only name, or the one that a label replaces. -/
theorem run_over_path_root :
    let draws : Draws := fun _ _ => 0.5
    let document : Value :=
      .object [("$root", .array [.null, .object [("$root", .text "a")]])]
    (∀ key ∈ ["$root"], ¬Parameters.isName key) ∧
      (naming "$root" (.path ["$root", "$root"] none)).run [] draws [document] =
        [.array [.null, .object [("$root", .text "a")]]] ∧
      (naming "c" (.path ["$root"] (some "c"))).run [] draws [document] = [document] ∧
      (naming "$root" (.each "$root" ["$root", "$root"])).run [] draws [document] =
        [.null, .object [("$root", .text "a")]] := by
  intro draws document
  have hkeys : ∀ key ∈ ["$root"], ¬Parameters.isName key := by decide
  obtain ⟨hpath, heach⟩ := run_over_path "$root" hkeys [] draws [document]
  obtain ⟨hname, -⟩ := run_over_path "$root" (List.forall_mem_nil _) [] draws [document]
  exact ⟨hkeys, (hpath none).trans rfl, (hname (some "c")).trans rfl, (heach "$root").trans rfl⟩

end Statement

end DocQuery
