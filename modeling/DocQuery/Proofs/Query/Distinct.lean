import DocQuery.Proofs.Query.Brackets
import DocQuery.Proofs.Value.Equality
import Mathlib.Data.List.Pairwise

/-!
# Results without repeats

What `DISTINCT` leaves of a list: no two kept items are equal, and each item is equal to a
kept one.
-/

namespace DocQuery

namespace Listing

variable {α β : Type} {equal : α → α → Bool}

/-- Nothing that is kept is equal to something seen before. -/
theorem equal_eq_false_of_mem_unrepeated {seen items : List α} {item earlier : α}
    (h : item ∈ unrepeated equal seen items) (hearlier : earlier ∈ seen) :
    equal earlier item = false := by
  induction items generalizing seen with
  | nil => cases h
  | cons first rest ih =>
      rw [unrepeated] at h
      split at h
      · exact ih h hearlier
      · rename_i hnew
        rcases List.mem_cons.mp h with rfl | h
        · rw [Bool.not_eq_true, List.any_eq_false] at hnew
          simpa using hnew earlier hearlier
        · exact ih h (List.mem_append_left _ hearlier)

theorem pairwise_unrepeated (equal : α → α → Bool) (seen items : List α) :
    (unrepeated equal seen items).Pairwise fun a b => equal a b = false := by
  induction items generalizing seen with
  | nil => exact .nil
  | cons first rest ih =>
      rw [unrepeated]
      split
      · exact ih seen
      · refine .cons (fun item h => ?_) (ih _)
        have hlast : first ∈ seen ++ [first] := List.mem_append_right _ (List.mem_singleton_self _)
        exact equal_eq_false_of_mem_unrepeated h hlast

/-- Each item is equal to one that was seen before or is kept. -/
theorem exists_equal_of_mem (hrefl : ∀ a, equal a a = true) (seen : List α) {items : List α}
    {item : α} (h : item ∈ items) :
    ∃ kept ∈ seen ++ unrepeated equal seen items, equal kept item = true := by
  induction items generalizing seen with
  | nil => cases h
  | cons first rest ih =>
      rw [unrepeated]
      split
      · rename_i hold
        rcases List.mem_cons.mp h with rfl | h
        · obtain ⟨earlier, hearlier, hequal⟩ := List.any_eq_true.mp hold
          exact ⟨earlier, List.mem_append_left _ hearlier, hequal⟩
        · exact ih seen h
      · rcases List.mem_cons.mp h with rfl | h
        · exact ⟨item, by simp, hrefl item⟩
        · obtain ⟨kept, hkept, hequal⟩ := ih (seen ++ [first]) h
          exact ⟨kept, by simpa [or_assoc] using hkept, hequal⟩

theorem unrepeated_map (equal : α → α → Bool) (f : β → α) (seen items : List β) :
    unrepeated equal (seen.map f) (items.map f) =
      (unrepeated (fun a b => equal (f a) (f b)) seen items).map f := by
  induction items generalizing seen with
  | nil => rfl
  | cons first rest ih =>
      rw [List.map_cons, unrepeated, unrepeated, List.any_map]
      split
      · rename_i h
        rw [ih seen]
        simp only [Function.comp_def] at h
        rw [if_pos h]
      · rename_i h
        simp only [Function.comp_def] at h
        rw [if_neg h, List.map_cons, ← ih (seen ++ [first]), List.map_append]
        rfl

theorem unrepeated_congr {other : α → α → Bool} {seen items : List α}
    (h : ∀ a ∈ seen ++ items, ∀ b ∈ items, equal a b = other a b) :
    unrepeated equal seen items = unrepeated other seen items := by
  induction items generalizing seen with
  | nil => rfl
  | cons first rest ih =>
      have hany : (seen.any fun earlier => equal earlier first) =
          seen.any fun earlier => other earlier first := by
        rw [Bool.eq_iff_iff, List.any_eq_true, List.any_eq_true]
        exact exists_congr fun a => and_congr_right fun ha => by
          rw [h a (List.mem_append_left _ ha) first List.mem_cons_self]
      rw [unrepeated, unrepeated, hany, ih, ih]
      · intro a ha b hb
        refine h a ?_ b (List.mem_cons_of_mem _ hb)
        simpa [or_assoc] using ha
      · intro a ha b hb
        refine h a ?_ b (List.mem_cons_of_mem _ hb)
        rcases List.mem_append.mp ha with ha | ha
        · exact List.mem_append_left _ ha
        · exact List.mem_append_right _ (List.mem_cons_of_mem _ ha)

/--
Two notions of equality, the kernels of two maps, keep the same items exactly when they agree
on all items.
-/
theorem unrepeated_eq_iff {γ δ : Type} {finer coarser : α → α → Bool} {f : α → γ} {g : α → δ}
    (hf : ∀ a b, finer a b = true ↔ f a = f b) (hg : ∀ a b, coarser a b = true ↔ g a = g b)
    (hfiner : ∀ a b, finer a b = true → coarser a b = true) (items : List α) :
    unrepeated finer [] items = unrepeated coarser [] items ↔
      ∀ a ∈ items, ∀ b ∈ items, coarser a b = true → finer a b = true := by
  constructor
  · intro hkept a ha b hb hab
    have hrefl (x : α) : finer x x = true := (hf x x).mpr rfl
    obtain ⟨k, hk, hka⟩ := exists_equal_of_mem hrefl [] ha
    obtain ⟨l, hl, hlb⟩ := exists_equal_of_mem hrefl [] hb
    rw [List.nil_append, hkept] at hk hl
    have hkl : g k = g l :=
      ((hg k a).mp (hfiner k a hka)).trans
        (((hg a b).mp hab).trans ((hg l b).mp (hfiner l b hlb)).symm)
    have hapart := pairwise_unrepeated coarser [] items
    have hsymm : Std.Symm fun x y => coarser x y = false := by
      constructor
      intro x y hxy
      rw [← Bool.not_eq_true, hg] at hxy ⊢
      exact fun h => hxy h.symm
    have hsame : k = l := by
      by_contra hne
      have hfalse := hapart.forall hk hl hne
      rw [(hg k l).mpr hkl] at hfalse
      cases hfalse
    subst hsame
    exact (hf a b).mpr (((hf k a).mp hka).symm.trans ((hf k b).mp hlb))
  · intro h
    refine unrepeated_congr fun a ha b hb => ?_
    rw [List.nil_append] at ha
    exact Bool.eq_iff_iff.mpr ⟨hfiner a b, h a ha b hb⟩

end Listing

namespace Statement

/-! ## The results of a projection, each once -/

/-- The statement that gives each result of a projection over a source once. -/
def distinctly (p : Projection) (source : Source) : Statement :=
  ⟨p, source, [], none, [], [], true, 0, none⟩

theorem run_distinctly {p : Projection} (hp : anyAggregates p.terms = false) (source : Source)
    (parameters : Parameters) (draws : Draws) (documents : List Value) :
    (distinctly p source).run parameters draws documents =
      Listing.unrepeated Value.equal []
        (((distinctly p source).bound parameters draws documents).map (p.resolve parameters)) := by
  have hreduces : ¬(distinctly p source).reduces := by
    simp [reduces, distinctly, hp]
  have hresults (rows : List Row) :
      rows.map (fun row => Except.ok (ε := Empty) (p.resolve parameters row)) =
        (rows.map (p.resolve parameters)).map .ok := by
    rw [List.map_map]
    rfl
  rw [run_eq, resultsOf_ok _ parameters draws rfl rfl rfl, if_neg hreduces,
    arranged_eq_bound rfl rfl rfl, Listing.onlyIf, distinctly, if_pos rfl, hresults,
    Listing.withoutRepeats_ok, List.map_map]
  exact List.map_id _

/-! ## A member of each document, bare and under its name -/

def memberTerm : Term :=
  .plain (.path ["c", "n"])

/-- The statement for the different values of the member. -/
def bareMembers : Statement :=
  distinctly (.value memberTerm) (.path ["c"] none)

/-- The statement for the different objects that hold the member alone. -/
def namedMembers : Statement :=
  distinctly (.columns [memberTerm]) (.path ["c"] none)

def held (document : Value) : Value :=
  (document.child? "n").getD .null

def named (value : Value) : Value :=
  .object [("n", value)]

theorem resolve_memberTerm (parameters : Parameters) (draws : Draws) (document : Value) :
    memberTerm.resolve parameters (Row.ofDocument draws "c" document) = held document := by
  have hfollow : (Row.ofDocument draws "c" document).follow parameters ["c", "n"] =
      document.follow parameters ["n"] := rfl
  have hsegment : parameters.segment? "n" = some "n" := rfl
  rw [memberTerm, Term.resolve_path, hfollow, Value.follow, hsegment, held, Option.bind_some]
  cases document.child? "n" <;> rfl

theorem run_bareMembers (parameters : Parameters) (draws : Draws) (documents : List Value) :
    bareMembers.run parameters draws documents =
      Listing.unrepeated Value.equal [] (documents.map held) := by
  have hbound := bound_name (s := bareMembers) rfl (by decide) parameters draws documents
  have hrun := run_distinctly (p := .value memberTerm) rfl (.path ["c"] none) parameters draws
    documents
  rw [bareMembers, hrun, ← bareMembers, hbound, List.map_map]
  congr 1
  conv_rhs => rw [← List.zipIdx_map_fst 0 documents, List.map_map]
  exact List.map_congr_left fun (document, index) _ => resolve_memberTerm parameters _ document

/-- Values under a name are equal only when they are identical. -/
theorem equal_named (a b : Value) : (named a).equal (named b) = a.same b := by
  simp [named, Value.equal_object, Value.sameMembers]

theorem run_namedMembers (parameters : Parameters) (draws : Draws) (documents : List Value) :
    namedMembers.run parameters draws documents =
      (Listing.unrepeated Value.same [] (documents.map held)).map named := by
  have hbound := bound_name (s := namedMembers) rfl (by decide) parameters draws documents
  have hrun := run_distinctly (p := .columns [memberTerm]) rfl (.path ["c"] none) parameters
    draws documents
  have hresolve (draws : Draws) (document : Value) :
      (Projection.columns [memberTerm]).resolve parameters (Row.ofDocument draws "c" document) =
        named (held document) := by
    rw [Projection.resolve, resolveColumns, resolve_memberTerm]
    rfl
  have hmap : (namedMembers.bound parameters draws documents).map
      ((Projection.columns [memberTerm]).resolve parameters) = (documents.map held).map named := by
    rw [hbound, List.map_map, List.map_map]
    conv_rhs => rw [← List.zipIdx_map_fst 0 documents, List.map_map]
    exact List.map_congr_left fun (document, index) _ => hresolve _ document
  rw [namedMembers, hrun, ← namedMembers, hmap]
  exact (Listing.unrepeated_map Value.equal named [] (documents.map held)).trans (by
    simp only [equal_named])

theorem named_injective : Function.Injective named := by
  intro a b h
  simpa [named] using h

/--
The different objects are the different values, each under its name, exactly when no two
different numbers that compare as equal are found under that name.
-/
theorem run_namedMembers_eq_iff (parameters : Parameters) (draws others : Draws)
    (documents : List Value) :
    namedMembers.run parameters draws documents =
        (bareMembers.run parameters others documents).map named ↔
      ∀ d ∈ documents, ∀ e ∈ documents,
        (held d).equal (held e) → (held d).FacesAlike (held e) := by
  rw [run_namedMembers, run_bareMembers, (List.map_injective_iff.mpr named_injective).eq_iff,
    Listing.unrepeated_eq_iff Value.same_iff_shape_eq Value.equal_iff_face_eq
      fun _ _ => Value.equal_of_same]
  simp only [List.forall_mem_map, Value.same_iff]
  constructor
  · intro h d hd e he hequal
    exact (h d hd e he hequal).2
  · intro h d hd e he hequal
    exact ⟨hequal, h d hd e he hequal⟩

/-! ## Their texts -/

theorem parse_namedMembers : parse "SELECT DISTINCT c.n FROM c".toList = .ok namedMembers := by
  have htokens : tokensOf? "SELECT DISTINCT c.n FROM c".toList =
      some [.keyword .select, .keyword .distinct, .identifier "c", .mark .dot, .identifier "n",
        .keyword .from, .identifier "c", .finish] := by
    decide +kernel
  refine parse_of_tokensOf? htokens fun placed hplaced => ?_
  obtain _ | ⟨_, _ | ⟨_, _ | ⟨_, _ | ⟨_, _ | ⟨_, _ | ⟨_, _ | ⟨_, _ | ⟨_, _ | _⟩⟩⟩⟩⟩⟩⟩⟩ :=
    Spells.of_map_token hplaced
  rfl

theorem parse_bareMembers : parse "SELECT DISTINCT VALUE c.n FROM c".toList = .ok bareMembers := by
  have htokens : tokensOf? "SELECT DISTINCT VALUE c.n FROM c".toList =
      some [.keyword .select, .keyword .distinct, .keyword .value, .identifier "c", .mark .dot,
        .identifier "n", .keyword .from, .identifier "c", .finish] := by
    decide +kernel
  refine parse_of_tokensOf? htokens fun placed hplaced => ?_
  obtain _ | ⟨_, _ | ⟨_, _ | ⟨_, _ | ⟨_, _ | ⟨_, _ | ⟨_, _ | ⟨_, _ | ⟨_, _ | ⟨_, _ | _⟩⟩⟩⟩⟩⟩⟩⟩⟩ :=
    Spells.of_map_token hplaced
  rfl

/--
Arrays of equal elements, and objects of equal members, are equal exactly when wherever two
numbers face each other they are of one kind and value.  So the different objects that hold a
member alone are the different values of the member, each under its name, exactly when no two
documents hold numbers under it that are equal but of another kind or value.
-/
theorem equal_of_parts_and_distinct :
    (∀ as bs : List Value, List.Forall₂ (fun a b => a.equal b = true) as bs →
      ((Value.array as).equal (.array bs) = true ↔ List.Forall₂ Value.FacesAlike as bs)) ∧
    (∀ ms ns : Members, List.Forall₂ (fun m n => m.1 = n.1 ∧ m.2.equal n.2 = true) ms ns →
      ((Value.object ms).equal (.object ns) = true ↔
        List.Forall₂ (fun m n => m.2.FacesAlike n.2) ms ns)) ∧
    ∃ wrapped bare, parse "SELECT DISTINCT c.n FROM c".toList = .ok wrapped ∧
      parse "SELECT DISTINCT VALUE c.n FROM c".toList = .ok bare ∧
      ∀ (parameters : Parameters) (draws others : Draws) (documents : List Value),
        wrapped.run parameters draws documents =
            (bare.run parameters others documents).map named ↔
          ∀ d ∈ documents, ∀ e ∈ documents,
            (held d).equal (held e) → (held d).FacesAlike (held e) := by
  refine ⟨?_, ?_, namedMembers, bareMembers, parse_namedMembers, parse_bareMembers, ?_⟩
  · intro as bs h
    exact Value.equal_array_iff h
  · intro ms ns h
    exact Value.equal_object_iff h
  · intro parameters draws others documents
    exact run_namedMembers_eq_iff parameters draws others documents

/--
Two integers above the precision of doubles are equal, and not so inside an array.  Documents
with one of them only have as many different objects as values.
-/
theorem equal_of_parts_and_distinct_large :
    let draws : Draws := fun _ _ => 0.5
    let large : Value := .number (.integer ⟨9007199254740993, by decide, by decide⟩)
    let other : Value := .number (.integer ⟨9007199254740992, by decide, by decide⟩)
    let documents := [named large, named (.text "1"), named large]
    List.Forall₂ (fun a b => Value.equal a b = true) [large] [other] ∧
      (Value.array [large]).equal (.array [other]) = false ∧
      ∃ wrapped bare, parse "SELECT DISTINCT c.n FROM c".toList = .ok wrapped ∧
        parse "SELECT DISTINCT VALUE c.n FROM c".toList = .ok bare ∧
        wrapped.run [] draws documents = (bare.run [] draws documents).map named := by
  intro draws large other documents
  have hparts : List.Forall₂ (fun a b => Value.equal a b = true) [large] [other] :=
    .cons rfl .nil
  have hfaces : ¬List.Forall₂ Value.FacesAlike [large] [other] := by
    intro h
    cases h with
    | cons hfirst _ => exact absurd (hfirst _ _ rfl rfl) (by decide)
  obtain ⟨harrays, -, wrapped, bare, hwrapped, hbare, hdistinct⟩ := equal_of_parts_and_distinct
  refine ⟨hparts, ?_, wrapped, bare, hwrapped, hbare, (hdistinct [] draws draws documents).mpr ?_⟩
  · exact Bool.eq_false_iff.mpr fun h => hfaces ((harrays _ _ hparts).mp h)
  · intro d hd e he _ m n hm hn
    simp only [documents, List.mem_cons, List.not_mem_nil, or_false] at hd he
    rcases hd with rfl | rfl | rfl <;> rcases he with rfl | rfl | rfl <;> cases hm <;> cases hn <;>
      rfl

/-- The integer `1` and the double `1.0` are equal, and not so inside an array or an object. -/
theorem not_equal_of_equal_parts :
    let draws : Draws := fun _ _ => 0.5
    let one : Value := .number (.integer ⟨1, by decide, by decide⟩)
    let alike : Value := .number (.float ⟨1.0, by decide⟩)
    one.equal alike = true ∧ (Value.array [one]).equal (.array [alike]) = false ∧
      (named one).equal (named alike) = false ∧
      namedMembers.run [] draws [named one, named alike] ≠
        (bareMembers.run [] draws [named one, named alike]).map named := by
  intro draws one alike
  have hequal : one.equal alike = true := rfl
  have hapart : one.same alike = false := rfl
  refine ⟨hequal, rfl, ?_, ?_⟩
  · rw [equal_named, hapart]
  · intro h
    have hfaces := (run_namedMembers_eq_iff [] draws draws [named one, named alike]).mp h
      (named one) (by simp) (named alike) (by simp) hequal
    have hsame : one.same alike = true := (Value.same_iff one alike).mpr ⟨hequal, hfaces⟩
    rw [hapart] at hsame
    cases hsame

end Statement

end DocQuery
