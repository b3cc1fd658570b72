import DocQuery.Proofs.Cursor.Demand
import DocQuery.Proofs.Query.Pipeline

/-!
# What a statement takes of its source

A statement that hands out its rows one by one takes the fewest documents that make the
results asked for.  One that groups, orders or reduces its rows takes every document up
to the first failure at the first request.  Neither takes any before it is asked.
-/

namespace DocQuery

variable {ε α β γ : Type}

/-! ## Plans -/

namespace Plan

/-- The rows that are expanded and filtered, one by one. -/
def kept (plan : Plan) (source : Cursor ε Row) : Cursor ε Row :=
  let expanded := plan.expansions.foldl (fun c f => c.through (Stage.expand f)) source
  match plan.filter with
  | some keep => expanded.through (filterStage keep)
  | none => expanded

/-- The rows that are expanded and filtered for a list of entries. -/
def keptOf (plan : Plan) (entries : List (Except ε Row)) : List (Except ε Row) :=
  let expanded := plan.expansions.foldl (fun rows f => (Stage.expand f).run () rows) entries
  match plan.filter with
  | some keep => (Stage.filter keep).run () expanded
  | none => expanded

theorem rows_eq (plan : Plan) (source : Cursor ε Row) :
    plan.rows source = plan.gatherings.foldl Cursor.gather (plan.kept source) := rfl

theorem rowsOf_eq (plan : Plan) (entries : List (Except ε Row)) :
    plan.rowsOf entries =
      plan.gatherings.foldl (fun rows f => Cursor.gathered f rows) (plan.keptOf entries) := rfl

theorem paced_foldl_expand (expansions : List (Row → List Row)) {c : Cursor ε Row}
    {entries : List γ} {output : List γ → List (Except ε Row)} (h : c.Paced entries output) :
    (expansions.foldl (fun c f => c.through (Stage.expand f)) c).Paced entries
      fun l => expansions.foldl (fun rows f => (Stage.expand f).run () rows) (output l) := by
  induction expansions generalizing c output with
  | nil => exact h
  | cons f rest ih => exact ih (h.through (Stage.expand f))

theorem forwards_foldl_expand (expansions : List (Row → List Row))
    {output : List (Except ε α) → List (Except ε Row)} (h : Cursor.Forwards output) :
    Cursor.Forwards fun l =>
      expansions.foldl (fun rows f => (Stage.expand f).run () rows) (output l) := by
  induction expansions generalizing output with
  | nil => exact h
  | cons f rest ih => exact ih (h.through (Stage.handsOn_expand f))

theorem paced_kept (plan : Plan) {c : Cursor ε Row} {entries : List γ}
    {output : List γ → List (Except ε Row)} (h : c.Paced entries output) :
    (plan.kept c).Paced entries fun l => plan.keptOf (output l) := by
  have hexpanded := paced_foldl_expand plan.expansions h
  unfold kept keptOf
  cases plan.filter with
  | none => exact hexpanded
  | some keep => exact hexpanded.through (Stage.filter keep)

theorem forwards_keptOf (plan : Plan) {output : List (Except ε α) → List (Except ε Row)}
    (h : Cursor.Forwards output) : Cursor.Forwards fun l => plan.keptOf (output l) := by
  have hexpanded := forwards_foldl_expand plan.expansions h
  unfold keptOf
  cases plan.filter with
  | none => exact hexpanded
  | some keep => exact hexpanded.through (Stage.handsOn_expand _)

def withoutWindow (plan : Plan) : Plan :=
  { plan with offset := 0, count := none }

def withoutCount (plan : Plan) : Plan :=
  { plan with count := none }

theorem results_of_count {plan : Plan} {n : Nat} (h : plan.count = some n) (c : Cursor ε Row) :
    plan.results c = (plan.withoutCount.results c).limit n := by
  unfold results
  rw [h]
  rfl

theorem withoutCount_of_none {plan : Plan} (h : plan.count = none) : plan.withoutCount = plan := by
  cases plan
  cases h
  rfl

theorem resultsOf_withoutCount (plan : Plan) (entries : List (Except ε Row)) :
    plan.withoutCount.resultsOf entries =
      (plan.withoutWindow.resultsOf entries).drop plan.offset := by
  rw [resultsOf_eq, resultsOf_eq]
  rfl

theorem resultsOf_window (plan : Plan) (entries : List (Except ε Row)) :
    plan.resultsOf entries =
      Listing.firstOf plan.count ((plan.withoutWindow.resultsOf entries).drop plan.offset) := by
  rw [resultsOf_eq, resultsOf_eq]
  rfl

/--
Whatever the projection of the rows of a plan has, and stages keep, its results have as
long as they are not counted.
-/
theorem withoutCount_induction {plan : Plan} {c : Cursor ε Row}
    (motive : Cursor ε Value → (List (Except ε Row) → List (Except ε Value)) → Prop)
    (projected : motive ((plan.rows c).through (Stage.map plan.project))
      fun entries => (Stage.map plan.project).run () (plan.rowsOf entries))
    (through : ∀ (c : Cursor ε Value) (output : List (Except ε Row) → List (Except ε Value))
      (stage : Stage ε Value Value), motive c output →
        motive (c.through stage) fun entries => stage.run stage.memory (output entries)) :
    motive (plan.withoutCount.results c) plan.withoutCount.resultsOf := by
  have hstages : motive (plan.withoutCount.results c)
      fun entries => plan.withoutCount.resultsOf entries := by
    unfold withoutCount results resultsOf
    by_cases hdistinct : plan.distinct = true <;> by_cases hoffset : 0 < plan.offset <;>
      simp only [hdistinct, hoffset, if_true, if_false, Bool.false_eq_true]
    · exact through _ _ (Stage.skip plan.offset) (through _ _ distinctStage projected)
    · exact through _ _ distinctStage projected
    · exact through _ _ (Stage.skip plan.offset) projected
    · exact projected
  exact hstages

/-- Rows handed out one by one are projected, freed of duplicates and skipped one by one. -/
theorem paced_results {plan : Plan} (hgather : plan.gatherings = []) {c : Cursor ε Row}
    {entries : List γ} {output : List γ → List (Except ε Row)} (h : c.Paced entries output) :
    (plan.withoutCount.results c).Paced entries
      fun l => plan.withoutCount.resultsOf (output l) := by
  have hrows : (plan.rows c).Paced entries fun l => plan.rowsOf (output l) := by
    simp only [rows_eq, rowsOf_eq, hgather, List.foldl_nil]
    exact plan.paced_kept h
  exact withoutCount_induction (fun c made => c.Paced entries fun l => made (output l))
    (hrows.through (Stage.map plan.project)) fun _ _ stage hc => hc.through stage

theorem takesAtOnce_foldl_gather (gatherings : List (List Row → List Row)) {c : Cursor ε Row}
    {count : Nat} (h : c.TakesAtOnce count) :
    (gatherings.foldl Cursor.gather c).TakesAtOnce count := by
  induction gatherings generalizing c with
  | nil => exact h
  | cons f rest ih => exact ih (h.gather f)

/-- Rows that are gathered are all taken when the first result is asked for. -/
theorem takesAtOnce_results {plan : Plan} (hgather : plan.gatherings ≠ [])
    (hcount : plan.count ≠ some 0) {c : Cursor ε Row} {entries : List (Except ε α)}
    {output : List (Except ε α) → List (Except ε Row)} (h : c.Paced entries output)
    (hforwards : Cursor.Forwards output) :
    (plan.results c).TakesAtOnce (Cursor.upToFailure entries).length := by
  have hrows : (plan.rows c).TakesAtOnce (Cursor.upToFailure entries).length := by
    rw [rows_eq]
    cases hsplit : plan.gatherings with
    | nil => exact absurd hsplit hgather
    | cons f rest =>
        have hdrain := (plan.paced_kept h).taken_drainFrom (plan.forwards_keptOf hforwards)
        exact takesAtOnce_foldl_gather rest (Cursor.takesAtOnce_gather hdrain f)
  have hunlimited : (plan.withoutCount.results c).TakesAtOnce
      (Cursor.upToFailure entries).length :=
    withoutCount_induction (fun c _ => c.TakesAtOnce (Cursor.upToFailure entries).length)
      (hrows.through (Stage.map plan.project)) fun _ _ stage hc => hc.through stage
  cases hn : plan.count with
  | none =>
      rwa [withoutCount_of_none hn] at hunlimited
  | some n =>
      rw [results_of_count hn]
      exact hunlimited.limit (Nat.pos_of_ne_zero fun hzero => hcount (hzero ▸ hn))

theorem takenSoFar_foldl (build : Cursor ε α → γ → Cursor ε α)
    (hbuild : ∀ c f, (build c f).takenSoFar = c.takenSoFar) (fs : List γ) (c : Cursor ε α) :
    (fs.foldl build c).takenSoFar = c.takenSoFar := by
  induction fs generalizing c with
  | nil => rfl
  | cons f rest ih => rw [List.foldl_cons, ih, hbuild]

/-- Results that nobody has asked for take nothing. -/
theorem takenSoFar_results (plan : Plan) (c : Cursor ε Row) :
    (plan.results c).takenSoFar = c.takenSoFar := by
  have hrows : (plan.rows c).takenSoFar = c.takenSoFar := by
    have hexpanded := takenSoFar_foldl (fun (c : Cursor ε Row) f => c.through (Stage.expand f))
      (fun _ _ => rfl) plan.expansions c
    have hkept : (plan.kept c).takenSoFar = c.takenSoFar := by
      unfold kept
      cases plan.filter <;> exact hexpanded
    rw [rows_eq, ← hkept]
    exact takenSoFar_foldl Cursor.gather (fun _ _ => rfl) _ _
  have hunlimited : (plan.withoutCount.results c).takenSoFar = c.takenSoFar :=
    withoutCount_induction (fun made _ => made.takenSoFar = c.takenSoFar) hrows
      fun _ _ _ hc => hc
  cases hn : plan.count with
  | none => rwa [withoutCount_of_none hn] at hunlimited
  | some n =>
      rw [results_of_count hn]
      exact hunlimited

/-- After a run the fewest entries have been taken that make as many results. -/
theorem isLeast_taken {plan : Plan} (hgather : plan.gatherings = []) {c : Cursor ε Row}
    {entries : List γ} {output : List γ → List (Except ε Row)} (h : c.Paced entries output)
    {given : List (Except ε Value)} {t : (plan.results c).State}
    (hgives : (plan.results c).Gives (plan.results c).state given t) (hgiven : given ≠ []) :
    IsLeast {m | plan.offset + given.length ≤
        (plan.withoutWindow.resultsOf (output (entries.take m))).length}
      ((plan.results c).taken t) := by
  have hpaced := paced_results hgather h
  have hleast : IsLeast {m | given.length ≤
      (plan.withoutCount.resultsOf (output (entries.take m))).length}
        ((plan.results c).taken t) := by
    cases hn : plan.count with
    | none =>
        rw [withoutCount_of_none hn] at hpaced ⊢
        exact hpaced.taken hgives
    | some n =>
        revert t
        rw [results_of_count hn]
        exact fun hgives => hpaced.taken hgives.limit.1
  have hpos := List.length_pos_iff.mpr hgiven
  convert hleast using 2
  funext m
  rw [resultsOf_withoutCount, List.length_drop]
  exact propext (by omega)

/-- A run that has given as many results as are counted is over. -/
theorem pull_of_count {plan : Plan} {c : Cursor ε Row} {given : List (Except ε Value)}
    {t : (plan.results c).State} (hgives : (plan.results c).Gives (plan.results c).state given t)
    (hcount : plan.count = some given.length) : (plan.results c).pull t = (none, t) := by
  revert t
  rw [results_of_count hcount]
  intro t hgives
  obtain ⟨source, left⟩ := t
  have hleft : left = 0 := by
    have := hgives.limit.2
    simpa using this
  rw [hleft]
  rfl

/-- A run that ends before as many results as are counted has taken every entry. -/
theorem taken_of_ended {plan : Plan} (hgather : plan.gatherings = []) {c : Cursor ε Row}
    {entries : List γ} {output : List γ → List (Except ε Row)} (h : c.Paced entries output)
    {given : List (Except ε Value)} {t : (plan.results c).State}
    (hgives : (plan.results c).Gives (plan.results c).state given t)
    (hend : ((plan.results c).pull t).1 = none) (hcount : plan.count ≠ some given.length) :
    (plan.results c).taken ((plan.results c).pull t).2 = entries.length := by
  have hpaced := paced_results hgather h
  cases hn : plan.count with
  | none =>
      rw [withoutCount_of_none hn] at hpaced
      exact hpaced.ended hgives hend
  | some n =>
      revert t
      rw [results_of_count hn]
      rintro ⟨source, left⟩ hgives hend
      obtain ⟨hsource, hleft⟩ := hgives.limit
      cases left with
      | zero => exact absurd (hn.trans (congrArg some hleft.symm)) hcount
      | succ left =>
          have htaken := hpaced.ended hsource
          simp only [Cursor.limit, Cursor.pullLimited] at hend ⊢
          split at hend
          · cases hend
          · rename_i hpull
            simp only [hpull] at htaken ⊢
            exact htaken trivial

end Plan

/-! ## Statements -/

namespace Statement

/-- Whether a statement needs all of its rows before it hands out the first one. -/
def gathers (s : Statement) : Bool :=
  !s.grouping.isEmpty || !s.ordering.isEmpty || s.reduces

/-- The statement without `OFFSET`, `TOP` and `LIMIT`. -/
def withoutWindow (s : Statement) : Statement :=
  { s with offset := 0, count := none }

theorem plan_withoutWindow (s : Statement) (parameters : Parameters) :
    s.withoutWindow.plan parameters = (s.plan parameters).withoutWindow := by
  cases s
  simp only [withoutWindow, Statement.plan, Plan.withoutWindow]

@[simp] theorem plan_offset (s : Statement) (parameters : Parameters) :
    (s.plan parameters).offset = s.offset := by
  cases s
  simp only [Statement.plan]

@[simp] theorem plan_count (s : Statement) (parameters : Parameters) :
    (s.plan parameters).count = s.count := by
  cases s
  simp only [Statement.plan]

theorem gatherings_eq_nil_iff (s : Statement) (parameters : Parameters) :
    (s.plan parameters).gatherings = [] ↔ s.gathers = false := by
  rw [s.plan_gatherings, gathers]
  cases s.grouping.isEmpty <;> cases s.ordering.isEmpty <;> cases s.reduces <;> simp

def documentRows (s : Statement) (parameters : Parameters) (draws : Draws)
    (documents : Cursor ε Value) : Cursor ε Row :=
  documents.fused.through (Stage.mapIdx (s.documentRow parameters draws))

theorem items_documentRows (s : Statement) (parameters : Parameters) (draws : Draws)
    (documents : Cursor ε Value) :
    (s.documentRows parameters draws documents).items =
      s.rowsOf parameters draws documents.items := by
  rw [documentRows, Cursor.items_through, Cursor.items_fused]
  exact Stage.run_mapIdx _ _ _

theorem rowsOf_eq_run (s : Statement) (parameters : Parameters) (draws : Draws) :
    s.rowsOf parameters draws =
      (Stage.mapIdx (ε := ε) (s.documentRow parameters draws)).run (0 : Nat) :=
  funext fun entries => (Stage.run_mapIdx _ 0 entries).symm

theorem paced_documentRows (s : Statement) (parameters : Parameters) (draws : Draws)
    (responses : List (Option (Except ε Value))) :
    (s.documentRows parameters draws (Cursor.ofResponses responses)).Paced
      (Cursor.given responses) (s.rowsOf parameters draws) := by
  rw [rowsOf_eq_run]
  exact (Cursor.Paced.source responses).through _

/-- Documents make rows as they come, and failures are handed on among them. -/
theorem forwards_rowsOf (s : Statement) (parameters : Parameters) (draws : Draws) :
    Cursor.Forwards (s.rowsOf (ε := ε) parameters draws) := by
  rw [rowsOf_eq_run]
  exact Cursor.Forwards.id.through (Stage.handsOn_mapIdx _)

theorem items_withoutWindow (s : Statement) (parameters : Parameters) (draws : Draws)
    (documents : Cursor ε Value) :
    (s.withoutWindow.execute parameters draws documents).items =
      (s.plan parameters).withoutWindow.resultsOf
        (s.rowsOf parameters draws documents.items) := by
  rw [items_execute, resultsOf, plan_withoutWindow]
  rfl

/-- Results that end before they are as many as are counted have taken the whole source. -/
theorem takenSoFar_ended (s : Statement) (parameters : Parameters) (draws : Draws)
    (responses : List (Option (Except ε Value))) (hgathers : s.gathers = false) {n : Nat}
    (hlength : (s.execute parameters draws (Cursor.ofResponses responses)).items.length = n)
    (hcount : s.count ≠ some n) :
    ((s.execute parameters draws (Cursor.ofResponses responses)).after (n + 1)).takenSoFar =
      (Cursor.given responses).length := by
  set c := s.execute parameters draws (Cursor.ofResponses responses) with hc
  subst hlength
  obtain ⟨given, hgiven, hgives⟩ := c.gives_of_answered fun k hk => c.isSome_next_after hk
  have hend := c.next_after_length
  rw [Cursor.next_after] at hend
  rw [Cursor.takenSoFar_after]
  refine Plan.taken_of_ended ((s.gatherings_eq_nil_iff parameters).mpr hgathers)
    (s.paced_documentRows parameters draws responses) hgives hend ?_
  rwa [s.plan_count parameters, hgiven]

/--
Nothing is taken before the first request.  While rows are handed out one by one, `k`
results have taken the fewest entries that make as many after those left out, and a
request beyond the count takes nothing.  Rows that are grouped, ordered or reduced take
the entries up to the first failure, or all of them, when the first result is asked for,
and none later.
-/
theorem takenSoFar_execute (s : Statement) (parameters : Parameters) (draws : Draws)
    (responses : List (Option (Except ε Value))) :
    (s.execute parameters draws (Cursor.ofResponses responses)).takenSoFar = 0 ∧
    (s.gathers = false →
      (∀ k, 0 < k →
        (∀ j < k,
          ((s.execute parameters draws (Cursor.ofResponses responses)).after j).next.1.isSome) →
        IsLeast {m | s.offset + k ≤ (s.withoutWindow.execute parameters draws
            (Cursor.ofList ((Cursor.given responses).take m))).items.length}
          ((s.execute parameters draws (Cursor.ofResponses responses)).after k).takenSoFar) ∧
      ∀ k, s.count = some k →
        (∀ j < k,
          ((s.execute parameters draws (Cursor.ofResponses responses)).after j).next.1.isSome) →
        ∀ j ≥ k,
          ((s.execute parameters draws (Cursor.ofResponses responses)).after j).next.1 = none ∧
          ((s.execute parameters draws (Cursor.ofResponses responses)).after j).takenSoFar =
            ((s.execute parameters draws (Cursor.ofResponses responses)).after k).takenSoFar) ∧
    (s.gathers = true → s.count ≠ some 0 → ∀ k, 0 < k →
      ((s.execute parameters draws (Cursor.ofResponses responses)).after k).takenSoFar =
        (Cursor.upToFailure (Cursor.given responses)).length) := by
  set c := s.execute parameters draws (Cursor.ofResponses responses) with hc
  have hpaced := s.paced_documentRows parameters draws responses
  refine ⟨?_, fun hgathers => ⟨fun k hk hanswered => ?_, fun k hcount hanswered => ?_⟩,
    fun hgathers hcount k hk => ?_⟩
  · exact (s.plan parameters).takenSoFar_results _
  · obtain ⟨given, rfl, hgives⟩ := c.gives_of_answered hanswered
    simp only [Cursor.takenSoFar_after, items_withoutWindow, Cursor.items_ofList,
      ← s.plan_offset parameters]
    exact Plan.isLeast_taken ((s.gatherings_eq_nil_iff parameters).mpr hgathers) hpaced hgives
      (List.length_pos_iff.mp hk)
  · obtain ⟨given, rfl, hgives⟩ := c.gives_of_answered hanswered
    have hover := Plan.pull_of_count hgives ((s.plan_count parameters).trans hcount)
    intro j hj
    have hstays : c.later j c.state = c.later given.length c.state := by
      induction j, hj using Nat.le_induction with
      | base => rfl
      | succ j _ ih => rw [Cursor.later, ih]; exact congrArg Prod.snd hover
    rw [Cursor.next_after, Cursor.takenSoFar_after, Cursor.takenSoFar_after, hstays]
    exact ⟨congrArg Prod.fst hover, rfl⟩
  · rw [Cursor.takenSoFar_after]
    have hgatherings : (s.plan parameters).gatherings ≠ [] := fun hnil => by
      rw [(s.gatherings_eq_nil_iff parameters).mp hnil] at hgathers
      cases hgathers
    rw [← s.plan_count parameters] at hcount
    exact Plan.takesAtOnce_results hgatherings hcount hpaced
      (s.forwards_rowsOf parameters draws) k hk

theorem takenSoFar_execute_second :
    let draws : Draws := fun _ _ => 0.5
    let s : Statement :=
      ⟨.value (.plain (.path ["c"])), .path ["c"] none, [], none, [], [], false, 1, some 1⟩
    let c := s.execute [] draws (Cursor.ofResponses
      [some (Except.ok (ε := Empty) (.bool true)), some (.ok (.bool false)), some (.ok .null)])
    (c.after 0).next.1.isSome ∧ (c.after 1).takenSoFar = 2 ∧
      (c.after 1).next.1 = none ∧ (c.after 2).takenSoFar = 2 := by
  intro draws s c
  have hitems : c.items = [.ok (.bool false)] := by
    rw [items_execute, Cursor.items_ofResponses]
    rfl
  have hanswered : ∀ k < 1, (c.after k).next.1.isSome := fun k hk =>
    c.isSome_next_after (by rw [hitems]; exact hk)
  obtain ⟨-, hstreams, -⟩ := s.takenSoFar_execute [] draws
    [some (Except.ok (ε := Empty) (.bool true)), some (.ok (.bool false)), some (.ok .null)]
  obtain ⟨hleast, hover⟩ := hstreams rfl
  have htwo : (c.after 1).takenSoFar = 2 := by
    refine (hleast 1 Nat.one_pos hanswered).unique ⟨?_, fun m hm => ?_⟩
    · rw [Set.mem_ofPred_eq, items_execute, Cursor.items_ofList]
      exact Nat.le_refl 2
    · rw [Set.mem_ofPred_eq, items_execute, Cursor.items_ofList] at hm
      match m with
      | 0 => exact absurd hm (by decide)
      | 1 => exact absurd hm (by decide)
      | m + 2 => omega
  exact ⟨hanswered 0 Nat.one_pos, htwo, (hover 1 rfl hanswered 1 (Nat.le_refl 1)).1,
    ((hover 1 rfl hanswered 2 (by decide)).2).trans htwo⟩

end Statement

end DocQuery
