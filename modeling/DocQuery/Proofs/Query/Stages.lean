import DocQuery.Proofs.Query.Listing
import DocQuery.Cursor.Items

/-!
# Stages as functions of lists

What a stage gives out for a list of entries is one function of the whole list, and
for items without failures one that does not depend on what failures are.
-/

namespace DocQuery

variable {ε α β : Type}

/-! ## Stages -/

theorem Stage.run_expand (f : α → List β) (entries : List (Except ε α)) :
    (Stage.expand f).run () entries = Listing.expand f entries := by
  induction entries with
  | nil => rfl
  | cons entry rest ih =>
      cases entry <;> simpa [Stage.run, Listing.expand, Stage.expand] using ih

theorem Cursor.items_through_expand (c : Cursor ε α) (f : α → List β) :
    (c.through (Stage.expand f)).items = Listing.expand f c.items :=
  (items_through c (Stage.expand f)).trans (Stage.run_expand f c.items)

theorem Stage.run_map (f : α → β) (entries : List (Except ε α)) :
    (Stage.map f).run () entries = entries.map (Except.map f) := by
  induction entries with
  | nil => rfl
  | cons entry rest ih =>
      cases entry <;> simpa [Stage.run, Stage.map, Stage.expand, Except.map] using ih

theorem Stage.run_filter (p : α → Bool) (entries : List (Except ε α)) :
    (Stage.filter p).run () entries = Listing.keep p entries := by
  induction entries with
  | nil => rfl
  | cons entry rest ih =>
      cases entry with
      | error failure => simpa [Stage.run, Listing.keep, Stage.filter, Stage.expand] using ih
      | ok item =>
          by_cases h : p item <;>
            simpa [Stage.run, Listing.keep, Stage.filter, Stage.expand, h] using ih

theorem Stage.run_skip (start n : Nat) (entries : List (Except ε α)) :
    (Stage.skip start).run n entries = entries.drop n := by
  induction entries generalizing n with
  | nil => simp [Stage.run]
  | cons entry rest ih =>
      cases n with
      | zero => exact congrArg (entry :: ·) (ih 0)
      | succ n => exact ih n

theorem Stage.run_distinct_ok (equal : α → α → Bool) (seen : List α) (item : α)
    (rest : List (Except ε α)) :
    (Stage.distinct equal).run seen (.ok item :: rest) =
      if seen.any fun earlier => equal earlier item then (Stage.distinct equal).run seen rest
      else .ok item :: (Stage.distinct equal).run (seen ++ [item]) rest := by
  let step : List (Except ε α) × List α :=
    if seen.any fun earlier => equal earlier item then ([], seen)
    else ([.ok item], seen ++ [item])
  change step.1 ++ (Stage.distinct equal).run step.2 rest = _
  cases h : seen.any fun earlier => equal earlier item <;> simp [step, h]

theorem Stage.run_distinct_error (equal : α → α → Bool) (seen : List α) (failure : ε)
    (rest : List (Except ε α)) :
    (Stage.distinct equal).run seen (.error failure :: rest) =
      .error failure :: (Stage.distinct equal).run seen rest :=
  rfl

/-- An item is compared with the items among the entries kept. -/
theorem Listing.repeats_ok (equal : α → α → Bool) (kept : List (Except ε α)) (item : α) :
    repeats equal kept (.ok item) =
      (kept.filterMap Except.toOption).any fun earlier => equal earlier item := by
  rw [repeats, List.any_filterMap]
  congr 1
  funext earlier
  cases earlier <;> rfl

/-- A distinct stage remembers the items among the entries kept so far. -/
theorem Stage.run_distinct_from (equal : α → α → Bool) (kept entries : List (Except ε α)) :
    entries.foldl (fun kept entry =>
        if Listing.repeats equal kept entry then kept else kept ++ [entry]) kept =
      kept ++ (Stage.distinct equal).run (kept.filterMap Except.toOption) entries := by
  induction entries generalizing kept with
  | nil => exact (List.append_nil kept).symm
  | cons entry rest ih =>
      cases entry with
      | error failure =>
          have hkept : (kept ++ [Except.error failure]).filterMap Except.toOption =
              kept.filterMap Except.toOption := by
            simp [Except.toOption]
          rw [List.foldl_cons, Listing.repeats, if_neg Bool.false_ne_true, ih, hkept,
            Stage.run_distinct_error, List.append_assoc, List.singleton_append]
      | ok item =>
          rw [List.foldl_cons, ih, Stage.run_distinct_ok, ← Listing.repeats_ok]
          cases Listing.repeats equal kept (.ok item) with
          | true => simp
          | false => simp [Except.toOption]

theorem Stage.run_distinct (equal : α → α → Bool) (entries : List (Except ε α)) :
    (Stage.distinct equal).run [] entries = Listing.withoutRepeats equal entries :=
  (Stage.run_distinct_from equal [] entries).symm

theorem Cursor.collect_eq_mapM (entries : List (Except ε α)) :
    Cursor.collect entries = entries.mapM id := by
  induction entries with
  | nil => rfl
  | cons entry rest ih =>
      cases entry with
      | error failure => rfl
      | ok item =>
          rw [Cursor.collect, ih, List.mapM_cons]
          cases rest.mapM id <;> rfl

theorem Cursor.gathered_eq_atOnce (f : List α → List β) (entries : List (Except ε α)) :
    Cursor.gathered f entries = Listing.atOnce f entries := by
  cases hitems : entries.mapM id <;>
    simp [Cursor.gathered, Listing.atOnce, Cursor.collect_eq_mapM, hitems]

/-! ## What stages keep -/

namespace Listing

/-- Whether a property holds of the items among some entries; failures have none to hold of. -/
def EachItem (P : α → Prop) (entries : List (Except ε α)) : Prop :=
  ∀ item, .ok item ∈ entries → P item

theorem ok_mem_expand {f : α → List β} {entries : List (Except ε α)} {made : β}
    (h : .ok made ∈ expand f entries) : ∃ item, .ok item ∈ entries ∧ made ∈ f item := by
  obtain ⟨entry, hentry, hmade⟩ := List.mem_flatMap.mp h
  cases entry with
  | error failure => cases List.mem_singleton.mp hmade
  | ok item =>
      obtain ⟨other, hother, heq⟩ := List.mem_map.mp hmade
      cases heq
      exact ⟨item, hentry, hother⟩

namespace EachItem

variable {P : α → Prop} {entries : List (Except ε α)}

theorem expand {f : α → List α} (hf : ∀ item, P item → ∀ made ∈ f item, P made)
    (h : EachItem P entries) : EachItem P (Listing.expand f entries) := by
  intro made hmade
  obtain ⟨item, hitem, hmade⟩ := ok_mem_expand hmade
  exact hf item (h item hitem) made hmade

theorem keep {p : α → Bool} (h : EachItem P entries) : EachItem P (Listing.keep p entries) :=
  fun item hitem => h item (List.mem_filter.mp hitem).1

/-- What each of several expansions keeps, they keep one after the other. -/
theorem foldl_expand {expansions : List (α → List α)}
    (hexpansions : ∀ f ∈ expansions, ∀ item, P item → ∀ made ∈ f item, P made)
    (h : EachItem P entries) :
    EachItem P (expansions.foldl (fun items f => (Stage.expand f).run () items) entries) := by
  refine List.foldlRecOn (motive := EachItem P) _ _ h fun items hitems f hf => ?_
  rw [Stage.run_expand]
  exact hitems.expand (hexpansions f hf)

end EachItem

end Listing

/-! ## Rows without failures -/

theorem Listing.expand_ok (f : α → List β) (items : List α) :
    Listing.expand f (items.map (Except.ok (ε := ε))) = (items.flatMap f).map .ok := by
  induction items with
  | nil => rfl
  | cons item rest ih => simpa [Listing.expand] using ih

theorem Listing.keep_ok (p : α → Bool) (items : List α) :
    Listing.keep p (items.map (Except.ok (ε := ε))) = (items.filter p).map .ok := by
  rw [Listing.keep, List.filter_map]
  rfl

theorem Listing.atOnce_ok (f : List α → List β) (items : List α) :
    Listing.atOnce f (items.map (Except.ok (ε := ε))) = (f items).map .ok := by
  have hall : (items.map (Except.ok (ε := ε))).mapM id = .ok items := by
    induction items with
    | nil => rfl
    | cons item rest ih =>
        rw [List.map_cons, List.mapM_cons, ih]
        rfl
  rw [Listing.atOnce, hall]

theorem Cursor.items_gather_ok {source : Cursor ε α} {items : List α}
    (h : source.items = items.map .ok) (f : List α → List β) :
    (source.gather f).items = (f items).map .ok := by
  rw [items_gather, h, gathered_eq_atOnce, Listing.atOnce_ok]

/-- The items without those that are equal to one seen before or kept. -/
def Listing.unrepeated (equal : α → α → Bool) : List α → List α → List α
  | _, [] => []
  | seen, item :: rest =>
      if seen.any fun earlier => equal earlier item then unrepeated equal seen rest
      else item :: unrepeated equal (seen ++ [item]) rest

theorem Stage.run_distinct_map_ok (equal : α → α → Bool) (seen items : List α) :
    (Stage.distinct equal).run seen (items.map (Except.ok (ε := ε))) =
      (Listing.unrepeated equal seen items).map .ok := by
  induction items generalizing seen with
  | nil => rfl
  | cons item rest ih =>
      rw [List.map_cons, run_distinct_ok, Listing.unrepeated]
      split
      · exact ih seen
      · exact congrArg (Except.ok item :: ·) (ih (seen ++ [item]))

theorem Listing.withoutRepeats_ok (equal : α → α → Bool) (items : List α) :
    withoutRepeats equal (items.map (Except.ok (ε := ε))) =
      (unrepeated equal [] items).map .ok := by
  rw [← Stage.run_distinct, Stage.run_distinct_map_ok]

/-! ## The stages of a statement -/

/-- A statement expands its rows by its source and then by one join after the other. -/
theorem Statement.plan_expansions (s : Statement) (parameters : Parameters) :
    (s.plan parameters).expansions =
      s.source.expansions parameters ++ joinExpansions parameters s.joins := by
  cases s
  rw [plan]

/-- A statement makes groups of its rows, puts them in order and makes one row of them all. -/
theorem Statement.plan_gatherings (s : Statement) (parameters : Parameters) :
    (s.plan parameters).gatherings =
      (if s.grouping.isEmpty then []
        else [Row.grouped fun row => Value.groupKey (resolveAll parameters s.grouping row)]) ++
      (if s.ordering.isEmpty then []
        else [Row.ordered (s.ordering.map SortKey.descends) (resolveKeys parameters s.ordering)]) ++
      if s.reduces then [Row.reduced] else [] := by
  cases s
  simp only [Statement.plan]
  rfl

end DocQuery
