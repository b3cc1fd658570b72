import DocQuery.Proofs.Query.Binding
import DocQuery.Proofs.Query.Related
import DocQuery.Proofs.Statement.Mentions

/-!
# What does not matter

What is bound under a name, or drawn, matters only to what mentions it.  Two rows that agree
but for some subjects give the same value for a term without them, at any depth of its
subqueries: the rows that a subquery makes of them agree in the same way, clause by clause.
So a filter that draws nothing may go before a join whose name it does not mention.
-/

namespace DocQuery

open List (Forall₂)

variable {ε : Type} {parameters : Parameters} {subjects : List Subject}

namespace Row

/--
Two rows bind the same under every name, and have the same numbers drawn, apart from some
subjects, and so do the rows they stand for.
-/
inductive AgreesExcept (subjects : List Subject) : Row → Row → Prop where
  | intro {row other : Row}
      (values : ∀ bound, .binding bound ∉ subjects → row.value? bound = other.value? bound)
      (draws : .draws ∉ subjects → row.draws = other.draws)
      (members : Forall₂ (AgreesExcept subjects) row.members other.members) :
      AgreesExcept subjects row other

namespace AgreesExcept

variable {row other : Row}

theorem values (h : AgreesExcept subjects row other) {bound : String}
    (hbound : .binding bound ∉ subjects) : row.value? bound = other.value? bound := by
  obtain ⟨hvalues, -, -⟩ := h
  exact hvalues bound hbound

theorem draws (h : AgreesExcept subjects row other) (hdraws : .draws ∉ subjects) :
    row.draws = other.draws := by
  obtain ⟨-, hsame, -⟩ := h
  exact hsame hdraws

theorem members (h : AgreesExcept subjects row other) :
    Forall₂ (AgreesExcept subjects) row.members other.members := by
  obtain ⟨-, -, hmembers⟩ := h
  exact hmembers

mutual

theorem refl (subjects : List Subject) : ∀ row : Row, AgreesExcept subjects row row
  | ⟨_, members, _⟩ => .intro (fun _ _ => rfl) (fun _ => rfl) (forall₂_refl subjects members)

theorem forall₂_refl (subjects : List Subject) :
    ∀ rows : List Row, Forall₂ (AgreesExcept subjects) rows rows
  | [] => .nil
  | row :: rest => .cons (refl subjects row) (forall₂_refl subjects rest)

end

theorem bind (h : AgreesExcept subjects row other) (bound : String) (value : Value) :
    AgreesExcept subjects (row.bind bound value) (other.bind bound value) := by
  refine .intro (fun asked hasked => ?_) h.draws h.members
  by_cases hbound : asked = bound
  · rw [hbound, value?_bind_self, value?_bind_self]
  · rw [value?_bind_of_ne hbound, value?_bind_of_ne hbound, h.values hasked]

theorem standingFor (h : AgreesExcept subjects row other) {members members' : List Row}
    (hmembers : Forall₂ (AgreesExcept subjects) members members') :
    AgreesExcept subjects (row.standingFor members) (other.standingFor members') :=
  .intro (fun _ hbound => h.values hbound) h.draws hmembers

theorem derive (h : AgreesExcept subjects row other) (bound : String) (value : Value)
    (index : Nat) :
    AgreesExcept subjects (row.derive bound value index) (other.derive bound value index) :=
  .intro (fun _ hasked => (h.bind bound value).values hasked)
    (fun hdraws => congrArg (fun draws => draws.part index) (h.draws hdraws)) .nil

theorem deriveEach (h : AgreesExcept subjects row other) (bound : String) (value : Value) :
    Forall₂ (AgreesExcept subjects) (row.deriveEach bound value)
      (other.deriveEach bound value) := by
  rw [Row.deriveEach, Row.deriveEach, List.forall₂_map_left_iff, List.forall₂_map_right_iff,
    List.forall₂_same]
  exact fun (element, index) _ => h.derive bound element index

variable {segments : List String}

theorem binding_not_mem {first : String} {rest : List String}
    (hpath : pathMentions subjects (first :: rest) = false) : .binding first ∉ subjects := by
  simpa [pathMentions] using hpath

/-- A path that begins with another name ends at the same value. -/
theorem follow (h : AgreesExcept subjects row other)
    (hpath : pathMentions subjects segments = false) :
    row.follow parameters segments = other.follow parameters segments := by
  cases segments with
  | nil => rfl
  | cons first rest =>
      rw [Row.follow, Row.follow, h.values (binding_not_mem hpath)]

/-- Whether the document is bound in place of an unknown name is decided alike. -/
theorem withRootFor (h : AgreesExcept subjects row other) (hroot : .binding rootName ∉ subjects)
    (hpath : pathMentions subjects segments = false) :
    AgreesExcept subjects (row.withRootFor segments) (other.withRootFor segments) := by
  cases segments with
  | nil => exact h
  | cons first rest =>
      rw [Row.withRootFor, Row.withRootFor, withRootAs, withRootAs,
        h.values (binding_not_mem hpath), h.values hroot]
      split
      · exact h.bind first _
      · exact h

theorem bindPath (h : AgreesExcept subjects row other) (hroot : .binding rootName ∉ subjects)
    (hpath : pathMentions subjects segments = false) (bound : String) :
    AgreesExcept subjects (row.bindPath parameters bound segments)
      (other.bindPath parameters bound segments) := by
  have hbound : (segments = [bound] ∧ (row.value? bound).isSome) ↔
      (segments = [bound] ∧ (other.value? bound).isSome) :=
    and_congr_right fun hsegments => by
      rw [hsegments] at hpath
      rw [h.values (binding_not_mem hpath)]
  have hwith := h.withRootFor hroot hpath
  simp only [Row.bindPath, hbound]
  split
  · exact h
  · rw [hwith.follow hpath]
    exact hwith.bind bound _

theorem eachOfPath (h : AgreesExcept subjects row other) (hroot : .binding rootName ∉ subjects)
    (hpath : pathMentions subjects segments = false) (bound : String) :
    Forall₂ (AgreesExcept subjects) (row.eachOfPath parameters bound segments)
      (other.eachOfPath parameters bound segments) := by
  have hwith := h.withRootFor hroot hpath
  rw [Row.eachOfPath, Row.eachOfPath, hwith.follow hpath]
  exact hwith.deriveEach bound _

end AgreesExcept

end Row

/-! ## Terms and statements that do not mention some subjects -/

section Unmentioned

open Row (AgreesExcept)

mutual

theorem Term.resolve_unmentioned (hroot : .binding Row.rootName ∉ subjects) :
    ∀ t : Term, t.mentions subjects = false → ∀ row other, AgreesExcept subjects row other →
      t.resolve parameters row = t.resolve parameters other
  | ⟨label, negated, f⟩, ht, row, other, h => by
      rw [Term.mentions] at ht
      rw [Term.resolve, Term.resolve, Form.resolve_unmentioned hroot f ht row other h]

theorem Form.resolve_unmentioned (hroot : .binding Row.rootName ∉ subjects) :
    ∀ f : Form, f.mentions subjects = false → ∀ row other, AgreesExcept subjects row other →
      f.resolve parameters row = f.resolve parameters other
  | .path segments, hf, row, other, h => by
      rw [Form.mentions] at hf
      rw [Form.resolve, Form.resolve, h.follow hf]
  | .object members, hf, row, other, h => by
      rw [Form.mentions] at hf
      rw [Form.resolve, Form.resolve, resolveColumns_unmentioned hroot members hf 0 row other h]
  | .array elements, hf, row, other, h => by
      rw [Form.mentions] at hf
      rw [Form.resolve, Form.resolve, resolveAll_unmentioned hroot elements hf row other h]
  | .constant c, _, row, other, _ => by
      rw [Form.resolve, Form.resolve]
  | .call f arguments, hf, row, other, h => by
      rw [Form.mentions, Bool.or_eq_false_iff] at hf
      cases f with
      | aggregate f =>
          rw [Form.resolve, Form.resolve,
            map_eq_of_related (resolveFirst_unmentioned hroot arguments hf.2) h.members]
      | random site =>
          have hdraws : .draws ∉ subjects := by simpa [Function.mentions] using hf.1
          rw [Form.resolve, Form.resolve, h.draws hdraws]
      | _ =>
          simp only [Form.resolve, resolveAll_unmentioned hroot arguments hf.2 row other h]
  | .arithmetic op left right, hf, row, other, h => by
      rw [Form.mentions, Bool.or_eq_false_iff] at hf
      rw [Form.resolve, Form.resolve, Term.resolve_unmentioned hroot left hf.1 row other h,
        Term.resolve_unmentioned hroot right hf.2 row other h]
  | .condition c, hf, row, other, h => by
      rw [Form.mentions] at hf
      rw [Form.resolve, Form.resolve, Condition.holds_unmentioned hroot c hf row other h]
  | .subquery s, hf, row, other, h => by
      rw [Form.mentions] at hf
      rw [Form.resolve, Form.resolve, (Statement.respects_unmentioned hroot s hf).values h]
  | .existence s, hf, row, other, h => by
      rw [Form.mentions] at hf
      rw [Form.resolve, Form.resolve, Plan.hasValue_eq, Plan.hasValue_eq,
        (Statement.respects_unmentioned hroot s hf).values h]

theorem resolveAll_unmentioned (hroot : .binding Row.rootName ∉ subjects) :
    ∀ ts : List Term, anyTermMentions subjects ts = false → ∀ row other,
      AgreesExcept subjects row other →
        resolveAll parameters ts row = resolveAll parameters ts other
  | [], _, row, other, _ => by rw [resolveAll, resolveAll]
  | t :: rest, hts, row, other, h => by
      rw [anyTermMentions, Bool.or_eq_false_iff] at hts
      rw [resolveAll, resolveAll, Term.resolve_unmentioned hroot t hts.1 row other h,
        resolveAll_unmentioned hroot rest hts.2 row other h]

theorem resolveFirst_unmentioned (hroot : .binding Row.rootName ∉ subjects) :
    ∀ ts : List Term, anyTermMentions subjects ts = false → ∀ row other,
      AgreesExcept subjects row other →
        resolveFirst parameters ts row = resolveFirst parameters ts other
  | [], _, row, other, _ => by rw [resolveFirst, resolveFirst]
  | t :: rest, hts, row, other, h => by
      rw [anyTermMentions, Bool.or_eq_false_iff] at hts
      rw [resolveFirst, resolveFirst, Term.resolve_unmentioned hroot t hts.1 row other h]

theorem resolveColumns_unmentioned (hroot : .binding Row.rootName ∉ subjects) :
    ∀ ts : List Term, anyTermMentions subjects ts = false → ∀ index row other,
      AgreesExcept subjects row other →
        resolveColumns parameters ts index row = resolveColumns parameters ts index other
  | [], _, index, row, other, _ => by rw [resolveColumns, resolveColumns]
  | t :: rest, hts, index, row, other, h => by
      rw [anyTermMentions, Bool.or_eq_false_iff] at hts
      rw [resolveColumns, resolveColumns, Term.resolve_unmentioned hroot t hts.1 row other h,
        resolveColumns_unmentioned hroot rest hts.2 (index + 1) row other h]

theorem Condition.holds_unmentioned (hroot : .binding Row.rootName ∉ subjects) :
    ∀ c : Condition, c.mentions subjects = false → ∀ row other, AgreesExcept subjects row other →
      c.holds parameters row = c.holds parameters other
  | .compare op left right, hc, row, other, h => by
      rw [Condition.mentions, Bool.or_eq_false_iff] at hc
      rw [Condition.holds, Condition.holds, Term.resolve_unmentioned hroot left hc.1 row other h,
        Term.resolve_unmentioned hroot right hc.2 row other h]
  | .all parts, hc, row, other, h => by
      rw [Condition.mentions] at hc
      rw [Condition.holds, Condition.holds, allHold_unmentioned hroot parts hc row other h]
  | .any parts, hc, row, other, h => by
      rw [Condition.mentions] at hc
      rw [Condition.holds, Condition.holds, anyHolds_unmentioned hroot parts hc row other h]
  | .constant c, _, row, other, _ => by
      rw [Condition.holds, Condition.holds]
  | .term t, hc, row, other, h => by
      rw [Condition.mentions] at hc
      rw [Condition.holds, Condition.holds, Term.resolve_unmentioned hroot t hc row other h]

theorem allHold_unmentioned (hroot : .binding Row.rootName ∉ subjects) :
    ∀ cs : List Condition, anyConditionMentions subjects cs = false → ∀ row other,
      AgreesExcept subjects row other → allHold parameters cs row = allHold parameters cs other
  | [], _, row, other, _ => by rw [allHold, allHold]
  | c :: rest, hcs, row, other, h => by
      rw [anyConditionMentions, Bool.or_eq_false_iff] at hcs
      rw [allHold, allHold, Condition.holds_unmentioned hroot c hcs.1 row other h,
        allHold_unmentioned hroot rest hcs.2 row other h]

theorem anyHolds_unmentioned (hroot : .binding Row.rootName ∉ subjects) :
    ∀ cs : List Condition, anyConditionMentions subjects cs = false → ∀ row other,
      AgreesExcept subjects row other → anyHolds parameters cs row = anyHolds parameters cs other
  | [], _, row, other, _ => by rw [anyHolds, anyHolds]
  | c :: rest, hcs, row, other, h => by
      rw [anyConditionMentions, Bool.or_eq_false_iff] at hcs
      rw [anyHolds, anyHolds, Condition.holds_unmentioned hroot c hcs.1 row other h,
        anyHolds_unmentioned hroot rest hcs.2 row other h]

theorem Projection.resolve_unmentioned (hroot : .binding Row.rootName ∉ subjects) :
    ∀ p : Projection, p.mentions subjects = false → ∀ row other, AgreesExcept subjects row other →
      p.resolve parameters row = p.resolve parameters other
  | .columns ts, hp, row, other, h => by
      rw [Projection.mentions] at hp
      rw [Projection.resolve, Projection.resolve,
        resolveColumns_unmentioned hroot ts hp 0 row other h]
  | .value t, hp, row, other, h => by
      rw [Projection.mentions] at hp
      rw [Projection.resolve, Projection.resolve, Term.resolve_unmentioned hroot t hp row other h]

theorem Source.expansions_unmentioned (hroot : .binding Row.rootName ∉ subjects) :
    ∀ s : Source, s.mentions subjects = false → ∀ f ∈ s.expansions parameters, ∀ row other,
      AgreesExcept subjects row other → Forall₂ (AgreesExcept subjects) (f row) (f other)
  | .documents, _, f, hf, _, _, _ => by
      rw [Source.expansions] at hf
      exact absurd hf List.not_mem_nil
  | .path segments label, hs, f, hf, row, other, h => by
      rw [Source.mentions] at hs
      rw [Source.expansions, List.mem_singleton] at hf
      rw [hf]
      exact .cons (h.bindPath hroot hs _) .nil
  | .each bound segments, hs, f, hf, row, other, h => by
      rw [Source.mentions] at hs
      rw [Source.expansions, List.mem_singleton] at hf
      rw [hf]
      exact h.eachOfPath hroot hs bound
  | .subquery s label, hs, f, hf, row, other, h => by
      rw [Source.mentions] at hs
      rw [Source.expansions, List.mem_singleton] at hf
      have hvalues : (s.plan parameters).values row = (s.plan parameters).values other :=
        (Statement.respects_unmentioned hroot s hs).values h
      rw [hf]
      beta_reduce
      rw [hvalues]
      exact h.deriveEach label _

theorem Join.expand_unmentioned (hroot : .binding Row.rootName ∉ subjects) :
    ∀ j : Join, j.mentions subjects = false → ∀ row other, AgreesExcept subjects row other →
      Forall₂ (AgreesExcept subjects) (j.expand parameters row) (j.expand parameters other)
  | .each bound segments, hj, row, other, h => by
      rw [Join.mentions] at hj
      rw [Join.expand, Join.expand, h.follow hj]
      exact h.deriveEach bound _
  | .subquery s label, hj, row, other, h => by
      rw [Join.mentions] at hj
      rw [Join.expand, Join.expand, (Statement.respects_unmentioned hroot s hj).values h]
      exact h.deriveEach label _

theorem joinExpansions_unmentioned (hroot : .binding Row.rootName ∉ subjects) :
    ∀ js : List Join, anyJoinMentions subjects js = false → ∀ f ∈ joinExpansions parameters js,
      ∀ row other, AgreesExcept subjects row other →
        Forall₂ (AgreesExcept subjects) (f row) (f other)
  | [], _, f, hf, _, _, _ => by
      rw [joinExpansions] at hf
      exact absurd hf List.not_mem_nil
  | j :: rest, hjs, f, hf, row, other, h => by
      rw [anyJoinMentions, Bool.or_eq_false_iff] at hjs
      rw [joinExpansions, List.mem_cons] at hf
      rcases hf with rfl | hf
      · exact Join.expand_unmentioned hroot j hjs.1 row other h
      · exact joinExpansions_unmentioned hroot rest hjs.2 f hf row other h

theorem resolveKeys_unmentioned (hroot : .binding Row.rootName ∉ subjects) :
    ∀ ordering : List SortKey, anyKeyMentions subjects ordering = false → ∀ row other,
      AgreesExcept subjects row other →
        resolveKeys parameters ordering row = resolveKeys parameters ordering other
  | [], _, row, other, _ => by rw [resolveKeys, resolveKeys]
  | ⟨t, direction⟩ :: rest, hkeys, row, other, h => by
      rw [anyKeyMentions, Bool.or_eq_false_iff] at hkeys
      rw [resolveKeys, resolveKeys, Term.resolve_unmentioned hroot t hkeys.1 row other h,
        resolveKeys_unmentioned hroot rest hkeys.2 row other h]

theorem filterTest_unmentioned (hroot : .binding Row.rootName ∉ subjects) :
    ∀ test : Option Condition, filterMentions subjects test = false →
      ∀ keep ∈ filterTest parameters test, ∀ row other, AgreesExcept subjects row other →
        keep row = keep other
  | none, _, keep, hkeep, _, _, _ => by
      rw [filterTest] at hkeep
      cases hkeep
  | some c, hc, keep, hkeep, row, other, h => by
      rw [filterMentions] at hc
      rw [filterTest] at hkeep
      cases hkeep
      exact Condition.holds_unmentioned hroot c hc row other h

/-- The plan of a statement treats rows alike that agree but for subjects it does not mention. -/
theorem Statement.respects_unmentioned (hroot : .binding Row.rootName ∉ subjects) :
    ∀ s : Statement, s.mentions subjects = false →
      (s.plan parameters).Respects (AgreesExcept subjects)
  | ⟨p, origin, js, test, grouping, ordering, distinct, offset, count⟩, hs => by
      simp only [Statement.mentions, Bool.or_eq_false_iff] at hs
      obtain ⟨⟨⟨⟨⟨hp, horigin⟩, hjs⟩, htest⟩, hgrouping⟩, hordering⟩ := hs
      have hstanding : ∀ row other, AgreesExcept subjects row other → ∀ members members',
          Forall₂ (AgreesExcept subjects) members members' →
            AgreesExcept subjects (row.standingFor members) (other.standingFor members') :=
        fun _ _ h _ _ => h.standingFor
      rw [Statement.plan]
      refine ⟨fun f hf => ?_, filterTest_unmentioned hroot test htest, fun f hf rows others h => ?_,
        Projection.resolve_unmentioned hroot p hp⟩
      · rcases List.mem_append.mp hf with hf | hf
        · exact Source.expansions_unmentioned hroot origin horigin f hf
        · exact joinExpansions_unmentioned hroot js hjs f hf
      · simp only [List.mem_append, List.mem_ite_nil_left, List.mem_ite_nil_right,
          List.mem_singleton] at hf
        rcases hf with (⟨-, rfl⟩ | ⟨-, rfl⟩) | ⟨-, rfl⟩
        · refine grouped_related (fun row other hrow => ?_) hstanding h
          rw [resolveAll_unmentioned hroot grouping hgrouping row other hrow]
        · exact ordered_related _ (resolveKeys_unmentioned hroot ordering hordering) h
        · rw [Row.reduced_eq_standIn, Row.reduced_eq_standIn]
          exact standIn_related hstanding h

end

end Unmentioned

/-! ## Statements that draw nothing -/

/-- A statement that does not call `RAND` has the same results whatever is drawn. -/
theorem Statement.run_of_unmentioned (s : Statement) (hs : s.mentions [.draws] = false)
    (parameters : Parameters) (draws others : Draws) (documents : List Value) :
    s.run parameters draws documents = s.run parameters others documents := by
  have hroot : Subject.binding Row.rootName ∉ [Subject.draws] := by simp
  have hrows : Forall₂ (Row.AgreesExcept [.draws]) (s.rows parameters draws documents)
      (s.rows parameters others documents) := by
    rw [rows, rows, List.forall₂_map_left_iff, List.forall₂_map_right_iff, List.forall₂_same]
    exact fun place _ =>
      .intro (fun _ _ => rfl) (fun hdraws => absurd (List.mem_singleton_self _) hdraws) .nil
  rw [run_eq, run_eq, resultsOf, resultsOf, rowsOf_ok, rowsOf_ok,
    (respects_unmentioned hroot s hs).resultsOf_ok hrows]

/-! ## Filters before joins -/

/-- Items that pass a test just when all that they expand to does can be tested first. -/
theorem Listing.keep_expand {α β : Type} {f : α → List β} {p : α → Bool} {q : β → Bool}
    {entries : List (Except ε α)}
    (h : ∀ item, .ok item ∈ entries → ∀ made ∈ f item, q made = p item) :
    keep q (expand f entries) = expand f (keep p entries) := by
  induction entries with
  | nil => rfl
  | cons entry rest ih =>
      have hrest := ih fun item hitem => h item (List.mem_cons_of_mem entry hitem)
      cases entry with
      | error failure => exact congrArg (Except.error failure :: ·) hrest
      | ok item =>
          have hmade : (f item).filter q = if p item then f item else [] := by
            rw [List.filter_congr (h item List.mem_cons_self)]
            cases p item <;> simp
          have hkeep : keep p (.ok item :: rest) =
              if p item then .ok item :: keep p rest else keep p rest := List.filter_cons
          calc keep q (expand f (.ok item :: rest))
              = keep q ((f item).map .ok) ++ keep q (expand f rest) := List.filter_append ..
            _ = ((f item).filter q).map .ok ++ expand f (keep p rest) := by rw [keep_ok, hrest]
            _ = expand f (keep p (.ok item :: rest)) := by
                rw [hmade, hkeep]
                split <;> rfl

/-- A join gives rows that agree with the one they are made of, but for what is their own. -/
theorem Join.agreesExcept_of_mem_expand {j : Join} {row made : Row} (hrow : row.members = [])
    (hmade : made ∈ j.expand parameters row) : Row.AgreesExcept j.added row made := by
  obtain ⟨value, hmade⟩ := j.exists_mem_deriveEach hmade
  obtain ⟨⟨element, index⟩, -, rfl⟩ := List.mem_map.mp hmade
  refine .intro (fun bound hbound => ?_) (fun hdraws => absurd ?_ hdraws) (hrow ▸ .nil)
  · have hne : bound ≠ j.bindingName := fun hsame => hbound (by simp [Join.added, hsame])
    exact (Row.value?_bind_of_ne hne element).symm
  · simp [Join.added]

theorem Join.root_not_mem_added {j : Join} (hroot : j.bindingName ≠ Row.rootName) :
    .binding Row.rootName ∉ j.added := by
  simpa [Join.added] using hroot.symm

/-- The rows of a join that pass a filter without what is their own are made of rows that do. -/
theorem Join.keep_expand {j : Join} {c : Condition} (hroot : j.bindingName ≠ Row.rootName)
    (hc : c.mentions j.added = false) {entries : List (Except ε Row)}
    (hrows : ∀ row, .ok row ∈ entries → row.members = []) :
    Listing.keep (c.holds parameters) (Listing.expand (j.expand parameters) entries) =
      Listing.expand (j.expand parameters) (Listing.keep (c.holds parameters) entries) :=
  Listing.keep_expand fun row hrow made hmade =>
    (Condition.holds_unmentioned (Join.root_not_mem_added hroot) c hc row made
      (agreesExcept_of_mem_expand (hrows row hrow) hmade)).symm

/-! ### Over documents -/

theorem joinExpansions_append (before after : List Join) :
    joinExpansions parameters (before ++ after) =
      joinExpansions parameters before ++ joinExpansions parameters after := by
  induction before with
  | nil => rw [joinExpansions, List.nil_append, List.nil_append]
  | cons j rest ih => rw [List.cons_append, joinExpansions, ih, joinExpansions, List.cons_append]

section Documents

variable {entries : List (Except ε Row)}

/-- A filter that mentions nothing of what several joins add may go before all of them. -/
theorem keep_foldl_joinExpansions {c : Condition} {js : List Join}
    (hjs : ∀ j ∈ js, j.bindingName ≠ Row.rootName ∧ c.mentions j.added = false)
    (hrows : ∀ row, .ok row ∈ entries → row.members = []) :
    Listing.keep (c.holds parameters)
        ((joinExpansions parameters js).foldl (fun rows f => (Stage.expand f).run () rows)
          entries) =
      (joinExpansions parameters js).foldl (fun rows f => (Stage.expand f).run () rows)
        (Listing.keep (c.holds parameters) entries) := by
  induction js generalizing entries with
  | nil => rw [joinExpansions, List.foldl_nil, List.foldl_nil]
  | cons j rest ih =>
      obtain ⟨⟨hroot, hc⟩, hrest⟩ := List.forall_mem_cons.mp hjs
      have hmade : ∀ row : Row, row.members = [] → ∀ made ∈ j.expand parameters row,
          made.members = [] := fun row _ made =>
        members_of_mem_joinExpansion [j] (by rw [joinExpansions]; exact List.mem_cons_self)
      have hkeep : Listing.keep (c.holds parameters)
            (Listing.expand (fun row => j.expand parameters row) entries) =
          Listing.expand (fun row => j.expand parameters row)
            (Listing.keep (c.holds parameters) entries) :=
        Join.keep_expand hroot hc hrows
      rw [joinExpansions, List.foldl_cons, List.foldl_cons, Stage.run_expand, Stage.run_expand,
        ih hrest (Listing.EachItem.expand hmade hrows), hkeep]

end Documents

/--
Over documents, the rows that pass a filter behind some joins are made by these joins of the
rows that pass it before them, if it mentions none of their names and draws nothing.
-/
theorem Statement.keptOf_filter_first {s : Statement} {before after : List Join} {c : Condition}
    (hjoins : s.joins = before ++ after) (hfilter : s.filter = some c)
    (hafter : ∀ j ∈ after, j.bindingName ≠ Row.rootName ∧ c.mentions j.added = false)
    (draws : Draws) (documents : List (Except ε Value)) :
    let rows := s.rowsOf parameters draws documents
    let first : Statement := { s with joins := before }
    (s.plan parameters).keptOf rows =
      (joinExpansions parameters after).foldl (fun rows f => (Stage.expand f).run () rows)
        ((first.plan parameters).keptOf rows) := by
  intro rows first
  obtain ⟨projection, source, joins, filter, grouping, ordering, distinct, offset, count⟩ := s
  obtain rfl : joins = before ++ after := hjoins
  obtain rfl : filter = some c := hfilter
  have hrows : ∀ row, .ok row ∈ rows → row.members = [] := by
    intro row hrow
    obtain ⟨⟨entry, index⟩, -, hentry⟩ := List.mem_map.mp hrow
    cases entry with
    | error failure => cases hentry
    | ok document =>
        cases hentry
        rfl
  have hbefore : ∀ f ∈ source.expansions parameters ++ joinExpansions parameters before,
      ∀ row : Row, row.members = [] → ∀ made ∈ f row, made.members = [] := by
    intro f hf row hrow made hmade
    rcases List.mem_append.mp hf with hf | hf
    · exact source.members_of_mem_expansion hf hrow hmade
    · exact members_of_mem_joinExpansion before hf hmade
  simp only [first, Plan.keptOf, Statement.plan, filterTest, Stage.run_filter,
    joinExpansions_append, ← List.append_assoc]
  rw [List.foldl_append]
  exact keep_foldl_joinExpansions hafter (Listing.EachItem.foldl_expand hbefore hrows)

/-! ### Names apart from that of the document -/

/--
A name other than that of the document does not matter to what does not mention it.  In two
rows with the same numbers drawn that stand for the same rows, or for rows that agree likewise,
and bind the same under every other name, a term without the name has one value and a condition
without it holds in both or in neither.  A filter without the name of a join, which draws
nothing, gives the same rows in the same order before the join as after it, when the rows stand
for no others.
-/
theorem unmentioned_irrelevant (parameters : Parameters) {name : String}
    (hroot : name ≠ Row.rootName) :
    (∀ row other : Row, (∀ bound, bound ≠ name → row.value? bound = other.value? bound) →
      row.draws = other.draws →
      Forall₂ (Row.AgreesExcept [.binding name]) row.members other.members →
      (∀ t : Term, t.mentions [.binding name] = false →
        t.resolve parameters row = t.resolve parameters other) ∧
      ∀ c : Condition, c.mentions [.binding name] = false →
        c.holds parameters row = c.holds parameters other) ∧
    ∀ (ε : Type) (j : Join) (c : Condition), j.bindingName = name →
      c.mentions [.binding name, .draws] = false →
      ∀ rows : Cursor ε Row, (∀ row, .ok row ∈ rows.items → row.members = []) →
        let join := Stage.expand (j.expand parameters)
        let filter := Plan.filterStage (c.holds parameters)
        ((rows.through join).through filter).items =
          ((rows.through filter).through join).items := by
  constructor
  · intro row other hvalues hdraws hmembers
    have hroot' : Subject.binding Row.rootName ∉ [Subject.binding name] := by
      simpa using hroot.symm
    have hagrees : Row.AgreesExcept [.binding name] row other :=
      .intro (fun bound hbound => hvalues bound fun hsame => hbound (by simp [hsame]))
        (fun _ => hdraws) hmembers
    exact ⟨fun t ht => Term.resolve_unmentioned hroot' t ht row other hagrees,
      fun c hc => Condition.holds_unmentioned hroot' c hc row other hagrees⟩
  · rintro ε j c rfl hc rows hrows join filter
    have hjoin (source : Cursor ε Row) : (source.through join).items =
        Listing.expand (j.expand parameters) source.items :=
      (Cursor.items_through source join).trans (Stage.run_expand _ _)
    have hfilter (source : Cursor ε Row) : (source.through filter).items =
        Listing.keep (c.holds parameters) source.items :=
      (Cursor.items_through source filter).trans (Stage.run_filter _ _)
    rw [hfilter, hjoin, hjoin, hfilter, Join.keep_expand hroot hc hrows]

/-- A name bound in one of two rows, beside a subquery over an array of the document. -/
theorem unmentioned_irrelevant_subquery :
    let draws : Draws := fun _ _ => 0.5
    let row := Row.ofDocument draws "c" (.object [("tags", .array [.text "a", .text "b"])])
    let other := row.bind "t" (.text "a")
    let tags : Statement :=
      ⟨.value (.plain (.path ["x"])), .each "x" ["c", "tags"], [], none, [], [], false, 0, none⟩
    let listed : Term := .plain (.subquery tags)
    let tagged : Condition := .term (.plain (.existence tags))
    let rows : Cursor String Row := Cursor.ofList [.ok row, .error "disk on fire"]
    let join := Stage.expand ((Join.each "t" ["c", "tags"]).expand [])
    let filter := Plan.filterStage (tagged.holds [])
    row.value? "t" = none ∧ other.value? "t" = some (.text "a") ∧
      listed.mentions [.binding "t"] = false ∧ listed.resolve [] row = listed.resolve [] other ∧
      ((rows.through join).through filter).items =
        ((rows.through filter).through join).items := by
  intro draws row other tags listed tagged rows join filter
  have hroot : "t" ≠ Row.rootName := by decide
  have hlisted : listed.mentions [.binding "t"] = false := rfl
  have htagged : tagged.mentions [.binding "t", .draws] = false := rfl
  have hmembers (entry : Row) (hentry : Except.ok entry ∈ rows.items) : entry.members = [] := by
    rw [Cursor.items_ofList] at hentry
    have hrow : entry = row := by simpa using hentry
    rw [hrow]
    rfl
  obtain ⟨hresolve, hjoin⟩ := unmentioned_irrelevant [] hroot
  exact ⟨rfl, rfl, hlisted,
    (hresolve row other (fun _ hbound => (Row.value?_bind_of_ne hbound _).symm) rfl .nil).1 listed
      hlisted,
    hjoin String (.each "t" ["c", "tags"]) tagged rfl htagged rows hmembers⟩

end DocQuery
