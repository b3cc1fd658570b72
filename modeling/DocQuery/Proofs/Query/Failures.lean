import DocQuery.Proofs.Query.Demand

/-!
# Failures are handed out or left out

A failure of the source that a statement has taken is among what it hands out, unless
it stands among the first results, which the statement leaves out whatever they are.
-/

namespace DocQuery

variable {ε α β : Type}

namespace Cursor

theorem collect_failure (items : List α) (failure : ε) (rest : List (Except ε α)) :
    collect (items.map .ok ++ .error failure :: rest) = .error failure := by
  induction items with
  | nil => rfl
  | cons item others ih => rw [List.map_cons, List.cons_append, collect, ih, Except.map]

/-- Entries with a failure among them cannot all be collected. -/
theorem collect_of_mem {entries : List (Except ε α)} {failure : ε}
    (h : .error failure ∈ entries) : ∃ first, collect entries = .error first := by
  rcases ok_or_failure entries with ⟨items, rfl⟩ | ⟨items, first, rest, rfl⟩
  · simp at h
  · exact ⟨first, collect_failure items first rest⟩

theorem gathered_failure (f : List α → List β) (items : List α) (failure : ε)
    (rest : List (Except ε α)) :
    gathered f (items.map .ok ++ .error failure :: rest) = [.error failure] := by
  rw [gathered, collect_failure]

theorem Forwards.foldl_gathered {output : List (Except ε α) → List (Except ε β)}
    (h : Forwards output) (f : List β → List β) (fs : List (List β → List β)) (items : List α)
    (failure : ε) (rest : List (Except ε α)) :
    (f :: fs).foldl (fun rows f => gathered f rows)
      (output (items.map .ok ++ .error failure :: rest)) = [.error failure] := by
  obtain ⟨made, hmade⟩ := h.items items
  obtain ⟨others, hothers⟩ := h.eq_append (items.map .ok) rest failure
  rw [List.foldl_cons, hothers, hmade, gathered_failure]
  -- A failure alone is all that the gatherings after the first one see.
  induction fs with
  | nil => rfl
  | cons g rest ih => exact ih

end Cursor

/-! ## Plans -/

namespace Plan

theorem resultsOf_withoutWindow (plan : Plan) (entries : List (Except ε Row)) :
    plan.withoutWindow.resultsOf entries =
      Listing.onlyIf plan.distinct (distinctStage.run [])
        ((Stage.map plan.project).run () (plan.rowsOf entries)) := by
  unfold withoutWindow resultsOf Listing.onlyIf
  rfl

/-- Rows that are not gathered hand every failure on to the results. -/
theorem forwards_resultsOf {plan : Plan} (hgather : plan.gatherings = [])
    {output : List (Except ε α) → List (Except ε Row)} (h : Cursor.Forwards output) :
    Cursor.Forwards fun l => plan.withoutWindow.resultsOf (output l) := by
  have hrows : Cursor.Forwards fun l => plan.rowsOf (output l) := by
    simp only [rowsOf_eq, hgather, List.foldl_nil]
    exact plan.forwards_keptOf h
  have hprojected := hrows.through (Stage.handsOn_expand fun row => [plan.project row])
  simp only [resultsOf_withoutWindow]
  cases plan.distinct with
  | false => exact hprojected
  | true => exact hprojected.through (Stage.handsOn_distinct Value.equal)

/-- Of rows that are gathered, the first failure is all that is left. -/
theorem resultsOf_failure {plan : Plan} (hgather : plan.gatherings ≠ [])
    {output : List (Except ε α) → List (Except ε Row)} (h : Cursor.Forwards output)
    (items : List α) (failure : ε) (rest : List (Except ε α)) :
    plan.withoutWindow.resultsOf (output (items.map .ok ++ .error failure :: rest)) =
      [.error failure] := by
  have hrows : plan.rowsOf (output (items.map .ok ++ .error failure :: rest)) =
      [.error failure] := by
    rw [rowsOf_eq]
    cases hsplit : plan.gatherings with
    | nil => exact absurd hsplit hgather
    | cons f fs => exact (plan.forwards_keptOf h).foldl_gathered f fs items failure rest
  rw [resultsOf_withoutWindow, hrows]
  cases plan.distinct <;> rfl

/-- Either all results after those left out are handed out, or as many as are counted. -/
theorem all_or_counted (plan : Plan) (entries : List (Except ε Row)) :
    (plan.withoutWindow.resultsOf entries).length ≤
        plan.offset + (plan.resultsOf entries).length ∨
      plan.count = some (plan.resultsOf entries).length := by
  rw [resultsOf_window plan entries]
  cases hcount : plan.count with
  | none =>
      left
      simp only [Listing.firstOf, List.length_drop]
      omega
  | some n =>
      simp only [Listing.firstOf, List.length_take, List.length_drop, Option.some.injEq]
      omega

/-- The results handed out follow those left out. -/
theorem take_window (plan : Plan) (entries : List (Except ε Row)) :
    (plan.withoutWindow.resultsOf entries).take
        (plan.offset + (plan.resultsOf entries).length) =
      (plan.withoutWindow.resultsOf entries).take plan.offset ++ plan.resultsOf entries := by
  have hprefix : plan.resultsOf entries <+:
      (plan.withoutWindow.resultsOf entries).drop plan.offset := by
    rw [resultsOf_window plan entries]
    cases plan.count with
    | none => exact List.prefix_rfl
    | some n => exact List.take_prefix _ _
  rw [List.take_add, ← List.prefix_iff_eq_take.mp hprefix]

section Run

variable {plan : Plan} {c : Cursor ε Row} {entries : List (Except ε α)}
variable {output : List (Except ε α) → List (Except ε Row)}
variable {given : List (Except ε Value)} {t : (plan.results c).State} {failure : ε}

/-- A plan that counts no results takes nothing. -/
theorem taken_of_count_zero (hcount : plan.count = some 0)
    (hgives : (plan.results c).Gives (plan.results c).state given t) :
    (plan.results c).taken ((plan.results c).pull t).2 = c.takenSoFar := by
  have hnone : given = [] := by
    have hitems := hgives.prefix_items
    rwa [items_results, resultsOf_window, hcount, Listing.firstOf, List.take_zero,
      List.prefix_nil] at hitems
  subst hnone
  rw [pull_of_count hgives hcount, hgives.later_eq]
  exact plan.takenSoFar_results c

/-- Rows handed out one by one: a failure taken stands among the results asked for. -/
theorem mem_take_of_forwards (hgather : plan.gatherings = []) (hcount : plan.count ≠ some 0)
    (h : c.Paced entries output) (hforwards : Cursor.Forwards output)
    (hgives : (plan.results c).Gives (plan.results c).state given t)
    (hwindow : (plan.withoutWindow.resultsOf (output entries)).length ≤
      plan.offset + given.length ∨ plan.count = some given.length)
    (htaken : .error failure ∈ entries.take ((plan.results c).taken ((plan.results c).pull t).2)) :
    .error failure ∈
      (plan.withoutWindow.resultsOf (output entries)).take (plan.offset + given.length) := by
  have hresults := forwards_resultsOf hgather hforwards
  obtain ⟨before, after, hsplit⟩ := List.append_of_mem htaken
  obtain ⟨rest, hentries⟩ : ∃ rest, entries = before ++ .error failure :: rest := by
    obtain ⟨others, hothers⟩ := List.take_prefix
      ((plan.results c).taken ((plan.results c).pull t).2) entries
    exact ⟨after ++ others, by rw [← hothers, hsplit, List.append_assoc, List.cons_append]⟩
  have hfewer : (plan.withoutWindow.resultsOf (output before)).length <
      plan.offset + given.length := by
    rcases hwindow with hall | hcounted
    · rw [hentries] at hall
      exact (hresults.length_lt before rest failure).trans_le hall
    · -- Fewer entries than were taken make fewer results than were handed out.
      rw [pull_of_count hgives hcounted] at hsplit
      have hpositive : given ≠ [] := fun hnone => hcount (by rw [hcounted, hnone, List.length_nil])
      have hleast := isLeast_taken hgather h hgives hpositive
      have hlength := congrArg List.length hsplit
      simp only [List.length_take, List.length_append, List.length_cons] at hlength
      by_contra henough
      have hbefore : (plan.results c).taken t ≤ before.length := by
        apply hleast.2
        rw [Set.mem_ofPred_eq, hentries, List.take_left]
        exact Nat.le_of_not_lt henough
      omega
  rw [hentries]
  exact hresults.mem_take hfewer

/-- Rows that are gathered: the first failure is the only one that is taken. -/
theorem mem_take_of_gathered (hgather : plan.gatherings ≠ []) (hcount : plan.count ≠ some 0)
    (h : c.Paced entries output) (hforwards : Cursor.Forwards output)
    (hgives : (plan.results c).Gives (plan.results c).state given t)
    (hwindow : (plan.withoutWindow.resultsOf (output entries)).length ≤
      plan.offset + given.length ∨ plan.count = some given.length)
    (htaken : .error failure ∈ entries.take ((plan.results c).taken ((plan.results c).pull t).2)) :
    .error failure ∈
      (plan.withoutWindow.resultsOf (output entries)).take (plan.offset + given.length) := by
  have htotal : (plan.results c).taken ((plan.results c).pull t).2 =
      (Cursor.upToFailure entries).length := by
    rw [hgives.later_eq]
    exact takesAtOnce_results hgather hcount h hforwards (given.length + 1) (by omega)
  rw [htotal, Cursor.take_upToFailure] at htaken
  rcases Cursor.ok_or_failure entries with ⟨items, rfl⟩ | ⟨items, first, rest, rfl⟩
  · rw [Cursor.upToFailure_ok] at htaken
    simp at htaken
  · obtain rfl : failure = first := by
      rw [Cursor.upToFailure_failure] at htaken
      simpa using htaken
    rw [resultsOf_failure hgather hforwards] at hwindow ⊢
    have hpositive : 0 < plan.offset + given.length := by
      rcases hwindow with hall | hcounted
      · exact hall
      · have hsome : given.length ≠ 0 := fun hzero => hcount (hzero ▸ hcounted)
        omega
    rw [List.take_of_length_le hpositive]
    exact List.mem_singleton_self _

/--
After a run to the end, a failure that has been taken stands no further among the results
than those left out and those handed out.
-/
theorem mem_take_of_taken (h : c.Paced entries output) (hforwards : Cursor.Forwards output)
    (hunasked : c.takenSoFar = 0)
    (hgives : (plan.results c).Gives (plan.results c).state given t)
    (hend : ((plan.results c).pull t).1 = none)
    (htaken : .error failure ∈ entries.take ((plan.results c).taken ((plan.results c).pull t).2)) :
    .error failure ∈
      (plan.withoutWindow.resultsOf (output entries)).take (plan.offset + given.length) := by
  have hcount : plan.count ≠ some 0 := fun hzero => by
    rw [taken_of_count_zero hzero hgives, hunasked] at htaken
    simp at htaken
  have hwindow := plan.all_or_counted (output entries)
  have hgiven : given = plan.resultsOf (output entries) := by
    rw [hgives.eq_items_of_ended hend, items_results, h.items]
  rw [← hgiven] at hwindow
  by_cases hgather : plan.gatherings = []
  · exact mem_take_of_forwards hgather hcount h hforwards hgives hwindow htaken
  · exact mem_take_of_gathered hgather hcount h hforwards hgives hwindow htaken

end Run

end Plan

/-! ## Statements -/

namespace Statement

/--
A failure of the source that has been taken when a statement gives nothing more is among
its results, or among the first results of the statement without its window, which
`OFFSET` leaves out.  Where nothing is left out, the results cannot all be collected.
-/
theorem failure_returned_or_left_out (s : Statement) (parameters : Parameters) (draws : Draws)
    (responses : List (Option (Except ε Value))) {n : Nat}
    (hanswered : ∀ k < n,
      ((s.execute parameters draws (Cursor.ofResponses responses)).after k).next.1.isSome)
    (hended : ((s.execute parameters draws (Cursor.ofResponses responses)).after n).next.1 = none)
    {failure : ε}
    (htaken : .error failure ∈ (Cursor.given responses).take
      ((s.execute parameters draws (Cursor.ofResponses responses)).after (n + 1)).takenSoFar) :
    (.error failure ∈ (s.execute parameters draws (Cursor.ofResponses responses)).items ∨
      .error failure ∈
        (s.withoutWindow.execute parameters draws
          (Cursor.ofResponses responses)).items.take s.offset) ∧
    (s.offset = 0 → ∃ first,
      Cursor.collect (s.execute parameters draws (Cursor.ofResponses responses)).items =
        .error first) := by
  set c := s.execute parameters draws (Cursor.ofResponses responses) with hc
  obtain ⟨given, rfl, hgives⟩ := c.gives_of_answered hanswered
  rw [Cursor.next_after] at hended
  rw [Cursor.takenSoFar_after] at htaken
  set rows := s.rowsOf parameters draws (Cursor.given responses) with hrows
  have hmem : .error failure ∈ ((s.plan parameters).withoutWindow.resultsOf rows).take
      ((s.plan parameters).offset + given.length) :=
    Plan.mem_take_of_taken (s.paced_documentRows parameters draws responses)
      (s.forwards_rowsOf parameters draws) rfl hgives hended htaken
  have hitems : c.items = (s.plan parameters).resultsOf rows := by
    rw [hc, items_execute, Cursor.items_ofResponses]
    rfl
  have hplace : .error failure ∈ c.items ∨ .error failure ∈
      (s.withoutWindow.execute parameters draws
        (Cursor.ofResponses responses)).items.take s.offset := by
    rw [hgives.eq_items_of_ended hended, hitems, Plan.take_window, List.mem_append] at hmem
    rw [items_withoutWindow, Cursor.items_ofResponses, ← hrows, hitems, ← s.plan_offset parameters]
    exact hmem.symm
  refine ⟨hplace, fun hoffset => ?_⟩
  rw [hoffset, List.take_zero] at hplace
  exact Cursor.collect_of_mem (hplace.resolve_right List.not_mem_nil)

theorem failure_returned_or_left_out_first :
    let draws : Draws := fun _ _ => 0.5
    let s : Statement :=
      ⟨.value (.plain (.path ["c", "id"])), .path ["c"] none, [], none, [], [], false, 0, none⟩
    let c := s.execute [] draws (Cursor.ofResponses [some (.error "disk on fire")])
    (c.after 2).takenSoFar = 1 ∧
      (.error "disk on fire" ∈ c.items ∨ .error "disk on fire" ∈
        (s.withoutWindow.execute [] draws
          (Cursor.ofResponses [some (.error "disk on fire")])).items.take 0) ∧
      (s.offset = 0 → ∃ first, Cursor.collect c.items = .error first) := by
  intro draws s c
  have hitems : c.items = [.error "disk on fire"] := by
    rw [items_execute, Cursor.items_ofResponses]
    rfl
  have hlength : c.items.length = 1 := congrArg List.length hitems
  have htaken : (c.after 2).takenSoFar = 1 :=
    s.takenSoFar_ended [] draws [some (.error "disk on fire")] rfl hlength (by decide)
  have hended : (c.after 1).next.1 = none := hlength ▸ c.next_after_length
  exact ⟨htaken, s.failure_returned_or_left_out [] draws [some (.error "disk on fire")]
    (fun k hk => c.isSome_next_after (hlength ▸ hk)) hended
    (by rw [htaken]; exact List.mem_singleton_self _)⟩

/-- A failure that is left out has been taken and is not among the results. -/
theorem failure_left_out :
    ¬ ∀ (s : Statement) (parameters : Parameters) (draws : Draws)
        (responses : List (Option (Except String Value))) (n : Nat),
      (∀ k < n,
        ((s.execute parameters draws (Cursor.ofResponses responses)).after k).next.1.isSome) →
      ((s.execute parameters draws (Cursor.ofResponses responses)).after n).next.1 = none →
      (∃ failure, .error failure ∈ (Cursor.given responses).take
        ((s.execute parameters draws (Cursor.ofResponses responses)).after (n + 1)).takenSoFar) →
      ∃ failure,
        .error failure ∈ (s.execute parameters draws (Cursor.ofResponses responses)).items := by
  intro h
  let draws : Draws := fun _ _ => 0.5
  let s : Statement :=
    ⟨.value (.plain (.path ["c", "id"])), .path ["c"] none, [], none, [], [], false, 1, some 5⟩
  let responses : List (Option (Except String Value)) := [some (.error "disk on fire")]
  have hitems : (s.execute [] draws (Cursor.ofResponses responses)).items = [] := by
    rw [items_execute, Cursor.items_ofResponses]
    rfl
  have hended : ((s.execute [] draws (Cursor.ofResponses responses)).after 0).next.1 = none := by
    rw [Cursor.next_after_eq _ (Nat.zero_le _), hitems]
    rfl
  have htaken : ((s.execute [] draws (Cursor.ofResponses responses)).after 1).takenSoFar = 1 :=
    s.takenSoFar_ended [] draws responses rfl (congrArg List.length hitems) (by decide)
  obtain ⟨failure, hfailure⟩ := h s [] draws responses 0 (by simp) hended
    ⟨"disk on fire", by rw [htaken]; exact List.mem_singleton_self _⟩
  rw [hitems] at hfailure
  exact List.not_mem_nil hfailure

end Statement

end DocQuery
