import DocQuery.Proofs.Query.Totals
import Mathlib.Data.List.Forall2

/-!
# Plans and related rows

A plan that treats related rows alike gives the same values for related rows.  What is
asked of it concerns one row or one list of rows at a time: each of its steps makes related
rows of related rows, and its tests, keys and values are the same for related rows.
-/

namespace DocQuery

open List (Forall₂)

variable {R : Row → Row → Prop}

/-! ## Lists of related rows -/

section Lists

variable {rows others : List Row}

theorem flatMap_related {f : Row → List Row}
    (hf : ∀ row other, R row other → Forall₂ R (f row) (f other)) (h : Forall₂ R rows others) :
    Forall₂ R (rows.flatMap f) (others.flatMap f) :=
  List.rel_flatMap h fun _ _ => hf _ _

theorem foldl_flatMap_related {expansions : List (Row → List Row)}
    (hexpansions : ∀ f ∈ expansions, ∀ row other, R row other → Forall₂ R (f row) (f other))
    (h : Forall₂ R rows others) :
    Forall₂ R (expansions.foldl (fun rows f => rows.flatMap f) rows)
      (expansions.foldl (fun rows f => rows.flatMap f) others) := by
  induction expansions generalizing rows others with
  | nil => exact h
  | cons f rest ih =>
      exact ih (fun g hg => hexpansions g (List.mem_cons_of_mem f hg))
        (flatMap_related (hexpansions f List.mem_cons_self) h)

theorem foldl_related {gatherings : List (List Row → List Row)}
    (hgatherings : ∀ f ∈ gatherings, ∀ rows others, Forall₂ R rows others →
      Forall₂ R (f rows) (f others))
    (h : Forall₂ R rows others) :
    Forall₂ R (gatherings.foldl (fun rows f => f rows) rows)
      (gatherings.foldl (fun rows f => f rows) others) := by
  induction gatherings generalizing rows others with
  | nil => exact h
  | cons f rest ih =>
      exact ih (fun g hg => hgatherings g (List.mem_cons_of_mem f hg))
        (hgatherings f List.mem_cons_self rows others h)

theorem filter_related {keep : Row → Bool}
    (hkeep : ∀ row other, R row other → keep row = keep other)
    (h : Forall₂ R rows others) : Forall₂ R (rows.filter keep) (others.filter keep) :=
  List.rel_filter (fun row other hrow => Bool.eq_iff_iff.mp (hkeep row other hrow)) h

theorem map_eq_of_related {α : Type} {f : Row → α}
    (hf : ∀ row other, R row other → f row = f other) (h : Forall₂ R rows others) :
    rows.map f = others.map f := by
  induction h with
  | nil => rfl
  | cons hrow _ ih => rw [List.map_cons, List.map_cons, hf _ _ hrow, ih]

end Lists

/-! ## Gatherings -/

section Gatherings

variable {rows others : List Row}

/-- The rows that stand for related rows are related, if standing for rows keeps it so. -/
theorem standIn_related
    (hstanding : ∀ row other, R row other → ∀ members members', Forall₂ R members members' →
      R (row.standingFor members) (other.standingFor members'))
    (h : Forall₂ R rows others) : Forall₂ R (Listing.standIn rows) (Listing.standIn others) := by
  cases h with
  | nil => exact .nil
  | cons hrow hrest => exact .cons (hstanding _ _ hrow _ _ (.cons hrow hrest)) .nil

theorem groupsBy_related {κ : Type} [DecidableEq κ] {key : Row → κ}
    (hkey : ∀ row other, R row other → key row = key other) (h : Forall₂ R rows others) :
    Forall₂ (Forall₂ R) (Listing.groupsBy key rows) (Listing.groupsBy key others) := by
  rw [Listing.groupsBy, Listing.groupsBy, map_eq_of_related hkey h, List.forall₂_map_left_iff,
    List.forall₂_map_right_iff, List.forall₂_same]
  intro k _
  exact filter_related (fun row other hrow => by rw [hkey row other hrow]) h

theorem grouped_related {key : Row → List Char}
    (hkey : ∀ row other, R row other → key row = key other)
    (hstanding : ∀ row other, R row other → ∀ members members', Forall₂ R members members' →
      R (row.standingFor members) (other.standingFor members'))
    (h : Forall₂ R rows others) : Forall₂ R (Row.grouped key rows) (Row.grouped key others) := by
  rw [Row.grouped_eq, Row.grouped_eq]
  exact List.rel_flatMap (groupsBy_related hkey h) fun _ _ => standIn_related hstanding

theorem ordered_map {α : Type} (directions : List Bool) (keys : Row → List Value) (row : α → Row)
    (items : List α) :
    Row.ordered directions keys (items.map row) =
      (Sorting.sort (fun a b => Row.compareKeys directions (keys (row a)) (keys (row b)))
        items).map row := by
  rw [Row.ordered_eq_sort]
  exact (Sorting.map_sort _ row items fun _ _ _ _ => rfl).symm

/-- Related rows have the same keys, so that sorting them in pairs sorts either side. -/
theorem ordered_related {keys : Row → List Value} (directions : List Bool)
    (hkeys : ∀ row other, R row other → keys row = keys other) (h : Forall₂ R rows others) :
    Forall₂ R (Row.ordered directions keys rows) (Row.ordered directions keys others) := by
  obtain ⟨hlength, hpairs⟩ := List.forall₂_iff_zip.mp h
  have hrows : (rows.zip others).map Prod.fst = rows := List.map_fst_zip (Nat.le_of_eq hlength)
  have hothers : (rows.zip others).map Prod.snd = others :=
    List.map_snd_zip (Nat.le_of_eq hlength.symm)
  have hsame : Sorting.sort (fun a b => Row.compareKeys directions (keys a.2) (keys b.2))
        (rows.zip others) =
      Sorting.sort (fun a b => Row.compareKeys directions (keys a.1) (keys b.1))
        (rows.zip others) :=
    Sorting.sort_congr fun a ha b hb => by
      rw [hkeys a.1 a.2 (hpairs ha), hkeys b.1 b.2 (hpairs hb)]
  have hleft := ordered_map directions keys Prod.fst (rows.zip others)
  have hright := ordered_map directions keys Prod.snd (rows.zip others)
  rw [hrows] at hleft
  rw [hothers, hsame] at hright
  rw [hleft, hright, List.forall₂_map_left_iff, List.forall₂_map_right_iff, List.forall₂_same]
  exact fun pair hpair => hpairs ((Sorting.sort_perm _ _).mem_iff.mp hpair)

end Gatherings

/-! ## Plans -/

namespace Plan

/-- Every step of a plan treats related rows alike. -/
structure Respects (R : Row → Row → Prop) (plan : Plan) : Prop where
  expansions : ∀ f ∈ plan.expansions, ∀ row other, R row other → Forall₂ R (f row) (f other)
  filter : ∀ keep ∈ plan.filter, ∀ row other, R row other → keep row = keep other
  gatherings : ∀ f ∈ plan.gatherings, ∀ rows others, Forall₂ R rows others →
    Forall₂ R (f rows) (f others)
  project : ∀ row other, R row other → plan.project row = plan.project other

variable {plan : Plan}

/-- Of related rows the plan keeps related ones. -/
theorem Respects.passing (h : plan.Respects R) {rows others : List Row}
    (hrows : Forall₂ R rows others) : Forall₂ R (plan.passing rows) (plan.passing others) := by
  have hexpanded := foldl_flatMap_related h.expansions hrows
  unfold Plan.passing
  cases hfilter : plan.filter with
  | none => exact hexpanded
  | some keep => exact filter_related (h.filter keep hfilter) hexpanded

/-- A plan that treats related rows alike has the same results for lists of related rows. -/
theorem Respects.resultsOf_ok {ε : Type} (h : plan.Respects R) {rows others : List Row}
    (hrows : Forall₂ R rows others) :
    plan.resultsOf (rows.map (Except.ok (ε := ε))) = plan.resultsOf (others.map .ok) := by
  have hprojected : (plan.gatherings.foldl (fun rows f => f rows) (plan.passing rows)).map
        plan.project =
      (plan.gatherings.foldl (fun rows f => f rows) (plan.passing others)).map plan.project :=
    map_eq_of_related h.project (foldl_related h.gatherings (h.passing hrows))
  have hresults (rows : List Row) : (plan.rowsOf (rows.map (Except.ok (ε := ε)))).map
        (Except.map plan.project) =
      ((plan.gatherings.foldl (fun rows f => f rows) (plan.passing rows)).map
        plan.project).map .ok := by
    rw [rowsOf_map_ok, List.map_map, List.map_map]
    rfl
  rw [resultsOf_eq, resultsOf_eq, hresults, hresults, hprojected]

theorem Respects.values (h : plan.Respects R) {row other : Row} (hrow : R row other) :
    plan.values row = plan.values other := by
  rw [values_eq, values_eq]
  exact congrArg (List.map certain) (h.resultsOf_ok (.cons hrow .nil))

end Plan

end DocQuery
