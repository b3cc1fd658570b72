import DocQuery.Proofs.Cursor.Ended
import DocQuery.Proofs.Query.Failures

/-!
# Results stay at their end

Once a statement gives nothing it never gives anything again and leaves its source alone,
even a source that would give more.  Where rows are grouped, ordered or reduced, a failure
is the last thing that is given.
-/

namespace DocQuery

variable {ε : Type}

/-! ## Plans -/

namespace Plan

/-- What the source of a plan has, and each way to build on a cursor keeps, its results have. -/
theorem results_induction (motive : ∀ ⦃α : Type⦄, Cursor ε α → Prop)
    (through : ∀ ⦃α β : Type⦄ (c : Cursor ε α) (stage : Stage ε α β),
      motive c → motive (c.through stage))
    (gather : ∀ (c : Cursor ε Row) (f : List Row → List Row), motive c → motive (c.gather f))
    (limit : ∀ (c : Cursor ε Value) (n : Nat), motive c → motive (c.limit n))
    (plan : Plan) {source : Cursor ε Row} (h : motive source) : motive (plan.results source) := by
  have expanded (expansions : List (Row → List Row)) (c : Cursor ε Row) (hc : motive c) :
      motive (expansions.foldl (fun c f => c.through (Stage.expand f)) c) := by
    induction expansions generalizing c with
    | nil => exact hc
    | cons f rest ih => exact ih _ (through c (Stage.expand f) hc)
  have gathered (gatherings : List (List Row → List Row)) (c : Cursor ε Row) (hc : motive c) :
      motive (gatherings.foldl Cursor.gather c) := by
    induction gatherings generalizing c with
    | nil => exact hc
    | cons f rest ih => exact ih _ (gather c f hc)
  have kept : motive (plan.kept source) := by
    unfold Plan.kept
    cases plan.filter with
    | none => exact expanded plan.expansions source h
    | some keep => exact through _ _ (expanded plan.expansions source h)
  have rows : motive (plan.rows source) := gathered plan.gatherings _ kept
  have uncounted : motive (plan.withoutCount.results source) :=
    withoutCount_induction (fun c _ => motive c) (through _ (Stage.map plan.project) rows)
      fun c _ stage hc => through c stage hc
  cases hn : plan.count with
  | none => rwa [withoutCount_of_none hn] at uncounted
  | some n =>
      rw [results_of_count hn]
      exact limit _ n uncounted

theorem staysEnded_results (plan : Plan) {source : Cursor ε Row} (h : source.StaysEnded) :
    (plan.results source).StaysEnded :=
  results_induction (fun _ c => c.StaysEnded) (fun _ _ _ stage hc => hc.through stage)
    (fun c f _ => Cursor.staysEnded_gather c f) (fun _ n hc => hc.limit n) plan h

/-- Of rows that are gathered, a failure is the only result. -/
theorem length_resultsOf_le_one {plan : Plan} (hgather : plan.gatherings ≠ [])
    {entries : List (Except ε Row)} {failure : ε} (h : .error failure ∈ plan.resultsOf entries) :
    (plan.resultsOf entries).length ≤ 1 := by
  rcases Cursor.ok_or_failure entries with ⟨items, rfl⟩ | ⟨items, first, rest, rfl⟩
  · obtain ⟨results, hresults⟩ := plan.resultsOf_ok items
    simp [hresults ε] at h
  · have honly := resultsOf_failure hgather Cursor.Forwards.id items first rest
    rw [resultsOf_window]
    simp only [id] at honly
    rw [honly]
    cases plan.count with
    | none => simp [Listing.firstOf]
    | some n => simp [Listing.firstOf]

end Plan

/-! ## Statements -/

namespace Statement

theorem staysEnded_execute (s : Statement) (parameters : Parameters) (draws : Draws)
    (documents : Cursor ε Value) : (s.execute parameters draws documents).StaysEnded :=
  (s.plan parameters).staysEnded_results ((Cursor.staysEnded_fused documents).through _)

/--
After the first request that gives nothing, every later one gives nothing and leaves the
whole cursor as it is, so that nothing more is taken and the source, whatever it would still
give, is not even asked.  A stage that groups, orders or reduces rows gives nothing after a
failure, whatever rows it is given, and neither does a statement with such a stage.
-/
theorem nothing_after_end (s : Statement) (parameters : Parameters) (draws : Draws)
    (documents : Cursor ε Value) :
    let c := s.execute parameters draws documents
    (∀ n, (c.after n).next.1 = none → ∀ m, n < m →
      (c.after m).next.1 = none ∧ (c.after m).takenSoFar = (c.after (n + 1)).takenSoFar ∧
        c.after m = c.after (n + 1)) ∧
    (∀ gathering ∈ (s.plan parameters).gatherings, ∀ (rows : Cursor ε Row) (n : Nat) (failure : ε),
      ((rows.gather gathering).after n).next.1 = some (.error failure) → ∀ m, n < m →
        ((rows.gather gathering).after m).next.1 = none ∧
          (rows.gather gathering).after m = (rows.gather gathering).after (n + 1)) ∧
    (s.gathers = true → ∀ (n : Nat) (failure : ε), (c.after n).next.1 = some (.error failure) →
      ∀ m, n < m → (c.after m).next.1 = none) := by
  intro c
  have hstays : c.StaysEnded := s.staysEnded_execute parameters draws documents
  refine ⟨fun n hended m hm => ?_, fun gathering _ rows n failure hfailed m hm => ?_,
    fun hgathers n failure hfailed m hm => ?_⟩
  · have hrests := hstays.rests hended
    have hsame := hrests.after_eq hm
    exact ⟨hrests.next_after hm, congrArg Cursor.takenSoFar hsame, hsame⟩
  · rw [Cursor.next_after] at hfailed
    have hrests : (rows.gather gathering).Rests
        ((rows.gather gathering).later (n + 1) (rows.gather gathering).state) :=
      Cursor.rests_of_pull_gather (Prod.ext hfailed rfl)
    exact ⟨hrests.next_after hm, hrests.after_eq hm⟩
  · rw [hstays.next_after_eq] at hfailed ⊢
    have hgather : (s.plan parameters).gatherings ≠ [] := fun hnil => by
      rw [(s.gatherings_eq_nil_iff parameters).mp hnil] at hgathers
      cases hgathers
    have hsingle : c.items.length ≤ 1 := by
      have hmem := List.mem_of_getElem? hfailed
      rw [items_execute, resultsOf] at hmem ⊢
      exact Plan.length_resultsOf_le_one hgather hmem
    exact List.getElem?_eq_none (by omega)

/-- A source that would go on after its end or behind a failure, under `GROUP BY`. -/
theorem nothing_after_end_resumed :
    let draws : Draws := fun _ _ => 0.5
    let s : Statement :=
      ⟨.value (.plain (.path ["c"])), .path ["c"] none, [], none, [.plain (.path ["c"])], [], false,
        0, none⟩
    let resumed : Cursor String Value :=
      Cursor.ofResponses [some (.ok .null), none, some (.ok (.bool true))]
    let broken : Cursor String Value :=
      Cursor.ofResponses [some (.error "disk on fire"), some (.ok .null)]
    let c := s.execute [] draws resumed
    let d := s.execute [] draws broken
    (c.after 1).next.1 = none ∧
      ((c.after 3).next.1 = none ∧ (c.after 3).takenSoFar = (c.after 2).takenSoFar ∧
        c.after 3 = c.after 2) ∧
      s.gathers = true ∧ (d.after 0).next.1 = some (.error "disk on fire") ∧
      (d.after 1).next.1 = none ∧
      ∃ gathering ∈ (s.plan []).gatherings,
        (((s.documentRows [] draws broken).gather gathering).after 0).next.1 =
          some (.error "disk on fire") ∧
        (((s.documentRows [] draws broken).gather gathering).after 1).next.1 = none := by
  intro draws s resumed broken c d
  obtain ⟨hended, -, -⟩ := s.nothing_after_end [] draws resumed
  obtain ⟨-, hstage, hfailed⟩ := s.nothing_after_end [] draws broken
  have hend : (c.after 1).next.1 = none := by
    rw [(s.staysEnded_execute [] draws resumed).next_after_eq, items_execute,
      Cursor.items_ofResponses]
    rfl
  have hgathers : s.gathers = true := rfl
  have hfailure : (d.after 0).next.1 = some (.error "disk on fire") := by
    rw [(s.staysEnded_execute [] draws broken).next_after_eq, items_execute,
      Cursor.items_ofResponses]
    rfl
  let key : Row → List Char := fun row => Value.groupKey (resolveAll [] s.grouping row)
  have hmem : Row.grouped key ∈ (s.plan []).gatherings := by
    rw [s.plan_gatherings]
    exact List.mem_singleton_self _
  have hfailureOfStage :
      (((s.documentRows [] draws broken).gather (Row.grouped key)).after 0).next.1 =
        some (.error "disk on fire") := by
    rw [(Cursor.staysEnded_gather _ _).next_after_eq, Cursor.items_gather, documentRows,
      Cursor.items_through, Cursor.items_fused, Cursor.items_ofResponses]
    rfl
  exact ⟨hend, hended 1 hend 3 (by omega), hgathers, hfailure,
    hfailed hgathers 0 "disk on fire" hfailure 1 Nat.one_pos, Row.grouped key, hmem,
    hfailureOfStage,
    (hstage _ hmem (s.documentRows [] draws broken) 0 "disk on fire" hfailureOfStage 1
      Nat.one_pos).1⟩

end Statement

end DocQuery
