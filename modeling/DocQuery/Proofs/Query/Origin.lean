import DocQuery.Proofs.Query.Binding
import DocQuery.Proofs.Query.Failures
import DocQuery.Proofs.Statement.Subqueries

/-!
# The document of a row

Every row that comes up while a statement runs stems from the row of one document, to whose
bindings others are added.  So `$root` is bound in each of them.  It stands for the document
unless the source or a join of the statement or of one of its subqueries binds that name
itself, which no rule of the language keeps them from.
-/

namespace DocQuery

variable {ε : Type} {parameters : Parameters}

/-! ## The rows of a run -/

/-- A plan that does the first stages of another one and stops there. -/
inductive Plan.IsFront (plan : Plan) : Plan → Prop where
  /-- Some of the expansions by the source and the joins. -/
  | expanding {done : List (Row → List Row)} : done <+: plan.expansions →
      IsFront plan { plan with expansions := done, filter := none, gatherings := [] }
  /-- The expansions and the filter, and some of the stages that need all rows. -/
  | gathering {done : List (List Row → List Row)} : done <+: plan.gatherings →
      IsFront plan { plan with gatherings := done }

/--
The rows that a statement makes of the rows of a source: those that any stage of its plan
hands on, the members of the groups that rows stand for, and what the subqueries make of one
of these rows.
-/
inductive Statement.Makes (parameters : Parameters) :
    {ε : Type} → Statement → Cursor ε Row → Row → Prop where
  | stage {ε : Type} {s : Statement} {source : Cursor ε Row} {front : Plan} {row : Row} :
      (s.plan parameters).IsFront front → .ok row ∈ (front.rows source).items →
      Makes parameters s source row
  | member {ε : Type} {s : Statement} {source : Cursor ε Row} {row member : Row} :
      Makes parameters s source row → member ∈ row.members → Makes parameters s source member
  | nested {ε : Type} {s inner : Statement} {source : Cursor ε Row} {row made : Row} :
      Makes parameters s source row → inner ∈ s.subqueries →
      Makes parameters inner (Plan.once row) made → Makes parameters s source made

namespace Plan.IsFront

variable {plan front : Plan}

theorem expansions_subset (h : plan.IsFront front) : front.expansions ⊆ plan.expansions := by
  cases h with
  | expanding hdone => exact hdone.subset
  | gathering hdone => exact List.Subset.refl _

theorem gatherings_subset (h : plan.IsFront front) : front.gatherings ⊆ plan.gatherings := by
  cases h with
  | expanding hdone => exact List.nil_subset _
  | gathering hdone => exact hdone.subset

end Plan.IsFront

/-! ## What the stages of a plan keep -/

namespace Listing

variable {α β : Type}

/-- A function of all items at once gives an item only when none of the entries is a failure. -/
theorem ok_mem_atOnce {f : List α → List β} {entries : List (Except ε α)} {made : β}
    (h : .ok made ∈ atOnce f entries) :
    ∃ items : List α, entries = items.map .ok ∧ made ∈ f items := by
  rcases Cursor.ok_or_failure entries with ⟨items, rfl⟩ | ⟨items, failure, rest, rfl⟩
  · rw [atOnce_ok] at h
    obtain ⟨other, hother, heq⟩ := List.mem_map.mp h
    cases heq
    exact ⟨items, rfl, hother⟩
  · rw [← Cursor.gathered_eq_atOnce, Cursor.gathered_failure] at h
    cases List.mem_singleton.mp h

end Listing

namespace Plan

variable {plan : Plan} {P : Row → Prop} {entries : List (Except ε Row)}

/-- What the source and the joins keep holds of the rows that are left by the filter. -/
theorem keptOf_keeps
    (hexpansions : ∀ f ∈ plan.expansions, ∀ row, P row → ∀ made ∈ f row, P made)
    (hentries : Listing.EachItem P entries) : Listing.EachItem P (plan.keptOf entries) := by
  have hexpanded := hentries.foldl_expand hexpansions
  unfold keptOf
  cases plan.filter with
  | none => exact hexpanded
  | some keep => exact (congrArg (Listing.EachItem P) (Stage.run_filter keep _)).mpr hexpanded.keep

/-- What each stage of a plan keeps holds of all rows that the plan hands on. -/
theorem rowsOf_keeps
    (hexpansions : ∀ f ∈ plan.expansions, ∀ row, P row → ∀ made ∈ f row, P made)
    (hgatherings : ∀ f ∈ plan.gatherings, ∀ rows : List Row, (∀ row ∈ rows, P row) →
      ∀ made ∈ f rows, P made)
    (hentries : Listing.EachItem P entries) : Listing.EachItem P (plan.rowsOf entries) := by
  rw [rowsOf_eq]
  refine List.foldlRecOn (motive := Listing.EachItem P) _ _ (keptOf_keeps hexpansions hentries) ?_
  intro entries hentries f hf made hmade
  rw [Cursor.gathered_eq_atOnce] at hmade
  obtain ⟨rows, rfl, hmember⟩ := Listing.ok_mem_atOnce hmade
  refine hgatherings f hf rows (fun row hrow => hentries row ?_) made hmember
  exact List.mem_map_of_mem hrow

end Plan

/-! ## Rows that stem from another one -/

namespace Row

/--
A row stems from another one when bindings are added to those of the other one; when the name
of the document is kept, it still stands for the same value.
-/
structure StemsFrom (kept : Prop) (origin row : Row) : Prop where
  bindings : origin.bindings <:+ row.bindings
  root : kept → row.value? rootName = origin.value? rootName

namespace StemsFrom

variable {kept : Prop} {origin row made : Row}

theorem refl (kept : Prop) (row : Row) : StemsFrom kept row row :=
  ⟨List.suffix_refl _, fun _ => rfl⟩

theorem trans (h : StemsFrom kept origin row) (hmade : StemsFrom kept row made) :
    StemsFrom kept origin made :=
  ⟨h.bindings.trans hmade.bindings, fun k => (hmade.root k).trans (h.root k)⟩

theorem mono {wider : Prop} (hkept : kept → wider) (h : StemsFrom wider origin row) :
    StemsFrom kept origin row :=
  ⟨h.bindings, fun k => h.root (hkept k)⟩

theorem bind {name : String} (hname : kept → name ≠ rootName) (row : Row) (value : Value) :
    StemsFrom kept row (row.bind name value) :=
  ⟨List.suffix_cons _ _, fun k => value?_bind_of_ne (hname k).symm value⟩

theorem standingFor (row : Row) (members : List Row) :
    StemsFrom kept row (row.standingFor members) :=
  ⟨List.suffix_refl _, fun _ => rfl⟩

/-- The name that is bound to the document for a path is one that nothing is bound to. -/
theorem withRootFor (hroot : (row.value? rootName).isSome) (segments : List String) :
    StemsFrom kept row (row.withRootFor segments) := by
  cases segments with
  | nil => exact refl kept row
  | cons first rest =>
      rw [Row.withRootFor, withRootAs]
      split
      · next hfirst _ =>
          refine bind (fun _ hname => ?_) row _
          rw [← hname, hfirst] at hroot
          cases hroot
      · exact refl kept row

theorem bindPath {name : String} {segments : List String}
    (hname : kept → name = rootName → segments = [rootName])
    (hroot : (row.value? rootName).isSome) :
    StemsFrom kept row (row.bindPath parameters name segments) := by
  unfold Row.bindPath
  split
  · exact refl kept row
  · next hbound =>
      refine (withRootFor hroot segments).trans (bind (fun k heq => hbound ?_) _ _)
      exact ⟨heq ▸ hname k heq, heq ▸ hroot⟩

/-- A row for an element stems from the row with the array, but stands for no others. -/
theorem of_mem_deriveEach {name : String} (hname : kept → name ≠ rootName) {value : Value}
    (hmade : made ∈ row.deriveEach name value) : StemsFrom kept row made := by
  obtain ⟨⟨element, index⟩, -, rfl⟩ := List.mem_map.mp hmade
  exact ⟨(bind hname row element).bindings, (bind hname row element).root⟩

end StemsFrom

end Row

/-! ## Names that hide the document -/

/-- Whether a source binds something else under the name of the document. -/
def Source.hidesRoot (parameters : Parameters) : Source → Bool
  | .documents => false
  | .path segments label =>
      (Source.path segments label).rowName parameters == Row.rootName &&
        segments != [Row.rootName]
  | .each name _ => name == Row.rootName
  | .subquery _ label => label == Row.rootName

def Statement.hidesRoot (parameters : Parameters) (s : Statement) : Bool :=
  s.source.hidesRoot parameters || s.joins.any fun join => join.bindingName == Row.rootName

/-- Neither a statement nor a subquery of it, at any depth, hides the document. -/
inductive Statement.LeavesRoot (parameters : Parameters) : Statement → Prop where
  | intro {s : Statement} : s.hidesRoot parameters = false →
      (∀ inner ∈ s.subqueries, LeavesRoot parameters inner) → LeavesRoot parameters s

namespace Statement.LeavesRoot

variable {s : Statement}

theorem here (h : s.LeavesRoot parameters) : s.hidesRoot parameters = false := by
  cases h with
  | intro hleaves _ => exact hleaves

theorem inner (h : s.LeavesRoot parameters) :
    ∀ inner ∈ s.subqueries, inner.LeavesRoot parameters := by
  cases h with
  | intro _ hinner => exact hinner

end Statement.LeavesRoot

namespace Source

variable {f : Row → List Row} {row made : Row}

/-- The rows of a source stem from the one it makes them of, and stand for no more than it. -/
theorem stemsFrom_of_mem_expansion {source : Source} (hf : f ∈ source.expansions parameters)
    (hroot : (row.value? Row.rootName).isSome) (hmade : made ∈ f row) :
    Row.StemsFrom (source.hidesRoot parameters = false) row made ∧
      made.members ⊆ row.members := by
  cases source with
  | documents =>
      rw [expansions] at hf
      cases hf
  | path segments label =>
      rw [expansions, List.mem_singleton] at hf
      subst hf
      rw [List.mem_singleton.mp hmade]
      refine ⟨.bindPath (fun hleaves hname => ?_) hroot, ?_⟩
      · simpa [hidesRoot, hname] using hleaves
      · rw [Row.members_bindPath]
        exact List.Subset.refl _
  | each name segments =>
      rw [expansions, List.mem_singleton] at hf
      subst hf
      refine ⟨(Row.StemsFrom.withRootFor hroot segments).trans ?_, ?_⟩
      · refine .of_mem_deriveEach (fun hleaves => ?_) hmade
        simpa [hidesRoot] using hleaves
      · rw [Row.members_of_mem_deriveEach hmade]
        exact List.nil_subset _
  | subquery s label =>
      rw [expansions, List.mem_singleton] at hf
      subst hf
      refine ⟨.of_mem_deriveEach (fun hleaves => ?_) hmade, ?_⟩
      · simpa [hidesRoot] using hleaves
      · rw [Row.members_of_mem_deriveEach hmade]
        exact List.nil_subset _

end Source

theorem Join.stemsFrom_of_mem_expand {join : Join} {row made : Row}
    (hmade : made ∈ join.expand parameters row) :
    Row.StemsFrom (join.bindingName ≠ Row.rootName) row made ∧ made.members ⊆ row.members := by
  obtain ⟨value, hmade⟩ := join.exists_mem_deriveEach hmade
  refine ⟨.of_mem_deriveEach id hmade, ?_⟩
  rw [Row.members_of_mem_deriveEach hmade]
  exact List.nil_subset _

theorem Statement.stemsFrom_of_mem_expansion {s : Statement} {f : Row → List Row} {row made : Row}
    (hf : f ∈ (s.plan parameters).expansions) (hroot : (row.value? Row.rootName).isSome)
    (hmade : made ∈ f row) :
    Row.StemsFrom (s.hidesRoot parameters = false) row made ∧ made.members ⊆ row.members := by
  have hleaves : s.hidesRoot parameters = false → s.source.hidesRoot parameters = false ∧
      ∀ join ∈ s.joins, join.bindingName ≠ Row.rootName := by
    simp [hidesRoot]
  rw [plan_expansions, List.mem_append] at hf
  rcases hf with hf | hf
  · obtain ⟨hstems, hmembers⟩ := Source.stemsFrom_of_mem_expansion hf hroot hmade
    exact ⟨hstems.mono fun h => (hleaves h).1, hmembers⟩
  · obtain ⟨join, hjoin, rfl⟩ := mem_joinExpansions hf
    obtain ⟨hstems, hmembers⟩ := Join.stemsFrom_of_mem_expand hmade
    exact ⟨hstems.mono fun h => (hleaves h).2 join hjoin, hmembers⟩

/-! ## Rows that stand for others -/

namespace Listing

theorem exists_of_mem_standIn {rows : List Row} {made : Row} (h : made ∈ standIn rows) :
    ∃ first ∈ rows, made = first.standingFor rows := by
  cases rows with
  | nil => cases h
  | cons first rest => exact ⟨first, List.mem_cons_self, List.mem_singleton.mp h⟩

theorem mem_of_mem_groupsBy {α κ : Type} [DecidableEq κ] {key : α → κ} {items members : List α}
    (h : members ∈ groupsBy key items) {item : α} (hitem : item ∈ members) : item ∈ items := by
  obtain ⟨k, -, rfl⟩ := List.mem_map.mp h
  exact (List.mem_filter.mp hitem).1

end Listing

/-- A row that a gathering gives is one of its rows, or one that stands for some of them. -/
theorem Statement.exists_of_mem_gathering {s : Statement} {f : List Row → List Row}
    (hf : f ∈ (s.plan parameters).gatherings) {rows : List Row} {made : Row}
    (hmade : made ∈ f rows) :
    made ∈ rows ∨
      ∃ members ⊆ rows, ∃ first ∈ members, made = first.standingFor members := by
  rw [plan_gatherings, List.mem_append, List.mem_append] at hf
  rcases hf with (hf | hf) | hf
  · split at hf
    · cases hf
    · rw [List.mem_singleton.mp hf, Row.grouped_eq] at hmade
      obtain ⟨members, hmembers, hmade⟩ := List.mem_flatMap.mp hmade
      exact .inr ⟨members, fun _ => Listing.mem_of_mem_groupsBy hmembers,
        Listing.exists_of_mem_standIn hmade⟩
  · split at hf
    · cases hf
    · rw [List.mem_singleton.mp hf] at hmade
      exact .inl ((Row.ordered_perm _ _ rows).mem_iff.mp hmade)
  · split at hf
    · rw [List.mem_singleton.mp hf, Row.reduced_eq_standIn] at hmade
      exact .inr ⟨rows, List.Subset.refl _, Listing.exists_of_mem_standIn hmade⟩
    · cases hf

inductive Row.Throughout (P : Row → Prop) : Row → Prop where
  | intro {row : Row} : P row → (∀ member ∈ row.members, Throughout P member) → Throughout P row

namespace Row.Throughout

variable {P : Row → Prop} {row made : Row}

theorem here (h : row.Throughout P) : P row := by
  cases h with
  | intro hrow _ => exact hrow

theorem members (h : row.Throughout P) : ∀ member ∈ row.members, member.Throughout P := by
  cases h with
  | intro _ hmembers => exact hmembers

end Row.Throughout

/-! ## Runs -/

section

variable {kept : Prop} {P : Row → Prop}
  (hbound : ∀ row, P row → (row.value? Row.rootName).isSome)
  (hstems : ∀ row made, P row → Row.StemsFrom kept row made → P made)

include hbound hstems in
theorem Statement.throughout_of_mem_expansion {s : Statement}
    (hkept : kept → s.hidesRoot parameters = false) {f : Row → List Row}
    (hf : f ∈ (s.plan parameters).expansions) {row made : Row} (hrow : row.Throughout P)
    (hmade : made ∈ f row) : made.Throughout P := by
  obtain ⟨hstem, hmembers⟩ := stemsFrom_of_mem_expansion hf (hbound row hrow.here) hmade
  exact ⟨hstems row made hrow.here (hstem.mono hkept),
    fun member hmember => hrow.members member (hmembers hmember)⟩

include hstems in
theorem Statement.throughout_of_mem_gathering {s : Statement} {f : List Row → List Row}
    (hf : f ∈ (s.plan parameters).gatherings) {rows : List Row}
    (hrows : ∀ row ∈ rows, row.Throughout P) {made : Row} (hmade : made ∈ f rows) :
    made.Throughout P := by
  rcases exists_of_mem_gathering hf hmade with hmade | ⟨members, hsubset, first, hfirst, rfl⟩
  · exact hrows made hmade
  · have hbindings : Row.StemsFrom kept first (first.standingFor members) :=
      .standingFor first members
    exact ⟨hstems first _ (hrows first (hsubset hfirst)).here hbindings,
      fun member hmember => hrows member (hsubset hmember)⟩

include hbound hstems in
/--
A property that carries over to the rows that stem from a row holds of all rows that a
statement makes.
-/
theorem Statement.Makes.throughout {s : Statement} {source : Cursor ε Row} {row : Row}
    (h : s.Makes parameters source row) (hkept : kept → s.LeavesRoot parameters)
    (hsource : Listing.EachItem (Row.Throughout P) source.items) : row.Throughout P := by
  induction h with
  | stage hfront hrow =>
      have hleaves : kept → Statement.hidesRoot parameters _ = false := fun k => (hkept k).here
      rw [Plan.items_rows] at hrow
      refine Plan.rowsOf_keeps ?_ ?_ hsource _ hrow
      · intro f hf row hrow made hmade
        have hexpansion := hfront.expansions_subset hf
        exact throughout_of_mem_expansion hbound hstems hleaves hexpansion hrow hmade
      · intro f hf rows hrows made hmade
        exact throughout_of_mem_gathering hstems (hfront.gatherings_subset hf) hrows hmade
  | member _ hmember ih => exact (ih hkept hsource).members _ hmember
  | nested _ hinner _ ihrow ihmade =>
      refine ihmade (fun k => (hkept k).inner _ hinner) ?_
      intro origin horigin
      rw [Plan.once, Cursor.items_ofList, List.mem_singleton] at horigin
      cases horigin
      exact ihrow hkept hsource

end

/-! ## The document -/

theorem Row.isSome_value?_of_suffix {origin row : Row} (h : origin.bindings <:+ row.bindings)
    {name : String} (hname : (origin.value? name).isSome) : (row.value? name).isSome := by
  obtain ⟨front, hfront⟩ := h
  rw [value?, ← hfront, List.lookup_append, Option.isSome_or, Bool.or_eq_true]
  exact .inr hname

namespace Statement

/--
Every row that a statement makes of the documents of a source stems from the row of one of
them, and `$root` is bound in it.  When neither the statement nor a subquery in it, at any
depth, has a source or a join that binds `$root` itself, it stands for that document.
-/
theorem root_of_makes (s : Statement) (parameters : Parameters) (draws : Draws)
    (documents : Cursor ε Value) {row : Row}
    (h : s.Makes parameters (s.documentRows parameters draws documents) row) :
    ∃ document, .ok document ∈ documents.items ∧
      (Row.ofDocument draws (s.documentName parameters) document).bindings <:+ row.bindings ∧
      (row.value? Row.rootName).isSome ∧
      (s.LeavesRoot parameters → row.value? Row.rootName = some document) := by
  let start (document : Value) : Row :=
    Row.ofDocument draws (s.documentName parameters) document
  let fromDocument (row : Row) : Prop := ∃ document, .ok document ∈ documents.items ∧
    Row.StemsFrom (s.LeavesRoot parameters) (start document) row
  have hstart (document : Value) : (start document).value? Row.rootName = some document := by
    rw [Row.value?_ofDocument, if_pos (.inl rfl)]
  have hroot {document : Value} {row : Row} (hsuffix : (start document).bindings <:+ row.bindings) :
      (row.value? Row.rootName).isSome :=
    Row.isSome_value?_of_suffix hsuffix (by rw [hstart]; rfl)
  have hsource : Listing.EachItem (Row.Throughout fromDocument)
      (s.documentRows parameters draws documents).items := by
    intro row hrow
    rw [items_documentRows] at hrow
    obtain ⟨⟨entry, index⟩, hplace, hmade⟩ := List.mem_map.mp hrow
    have hentry : entry ∈ documents.items := List.fst_mem_of_mem_zipIdx hplace
    cases entry with
    | error failure => cases hmade
    | ok document =>
        cases hmade
        -- Only the numbers that are drawn tell the row from that of another place.
        have hstems : Row.StemsFrom (s.LeavesRoot parameters) (start document)
            (s.documentRow parameters draws index document) := ⟨List.suffix_refl _, fun _ => rfl⟩
        exact ⟨⟨document, hentry, hstems⟩, fun member hmember => absurd hmember List.not_mem_nil⟩
  have hthroughout : row.Throughout fromDocument := by
    refine h.throughout ?_ ?_ id hsource
    · rintro row ⟨document, -, hstems⟩
      exact hroot hstems.bindings
    · rintro row made ⟨document, hdocument, hstems⟩ hmade
      exact ⟨document, hdocument, hstems.trans hmade⟩
  obtain ⟨document, hdocument, hstems⟩ := hthroughout.here
  exact ⟨document, hdocument, hstems.bindings, hroot hstems.bindings,
    fun hleaves => (hstems.root hleaves).trans (hstart document)⟩

/-- A subquery run for a member of a group goes back to the document for its own elements. -/
theorem root_of_makes_nested :
    let draws : Draws := fun _ _ => 0.5
    let inner : Statement :=
      ⟨.value (.plain (.path ["t"])), .each "t" ["$root", "tags"], [], none, [], [], false, 0, none⟩
    let s : Statement :=
      ⟨.value (.plain (.subquery inner)), .path ["c"] none, [.each "t" ["c", "tags"]], none,
        [.plain (.path ["t"])], [], false, 0, none⟩
    let document : Value := .object [("tags", .array [.text "a"])]
    let source : Cursor Empty Row := s.documentRows [] draws (Cursor.ofList [.ok document])
    let joined : Row := (s.documentRow [] draws 0 document).derive "t" (.text "a") 0
    let made : Row := joined.derive "t" (.text "a") 0
    s.Makes [] source made ∧ s.LeavesRoot [] ∧
      made.value? Row.rootName = some document := by
  intro draws inner s document source joined made
  have hdocuments : source.items = [.ok (s.documentRow [] draws 0 document)] := by
    rw [items_documentRows, Cursor.items_ofList]
    rfl
  have hgroup : s.Makes [] source (joined.standingFor [joined]) := by
    refine .stage (.gathering (List.prefix_refl _)) ?_
    rw [Plan.items_rows, hdocuments]
    exact List.mem_singleton_self _
  have hmade : s.Makes [] source made := by
    refine .nested (.member hgroup List.mem_cons_self) List.mem_cons_self ?_
    refine .stage (.expanding (List.prefix_refl _)) ?_
    rw [Plan.items_rows, Plan.once, Cursor.items_ofList]
    exact List.mem_singleton_self _
  have hleaves : s.LeavesRoot [] := by
    refine .intro (by decide) fun other hother => ?_
    cases List.mem_singleton.mp hother
    exact .intro (by decide) fun _ hnone => absurd hnone List.not_mem_nil
  obtain ⟨other, hother, -, -, hroot⟩ := s.root_of_makes [] draws _ hmade
  rw [Cursor.items_ofList] at hother
  cases List.mem_singleton.mp hother
  exact ⟨hmade, hleaves, hroot hleaves⟩

/-- A join that binds `$root` hides the document from the rows it makes and from their results. -/
theorem root_hidden_by_join :
    let draws : Draws := fun _ _ => 0.5
    let s : Statement :=
      ⟨.value (.plain (.path ["$root"])), .path ["c"] none, [.each "$root" ["c", "tags"]], none, [],
        [], false, 0, none⟩
    let document : Value := .object [("tags", .array [.ofInt 1])]
    let made : Row := (s.documentRow [] draws 0 document).derive "$root" (.ofInt 1) 0
    s.Makes [] (s.documentRows [] draws (Cursor.ofList [Except.ok (ε := Empty) document])) made ∧
      made.value? Row.rootName = some (.ofInt 1) ∧ s.run [] draws [document] = [.ofInt 1] := by
  intro draws s document made
  refine ⟨.stage (.expanding (List.prefix_refl _)) ?_, rfl, ?_⟩
  · rw [Plan.items_rows, items_documentRows, Cursor.items_ofList]
    exact List.mem_singleton_self _
  · rw [run_eq]
    rfl

end Statement

end DocQuery
