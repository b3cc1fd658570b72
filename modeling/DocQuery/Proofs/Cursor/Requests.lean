import DocQuery.Cursor.Items

/-!
# Requests one after the other

Where a number of requests leads a cursor, and which runs of requests all give items.
A staged cursor, a limit and a gathering move their source on by runs of requests, so
that what is known of the source after such a run carries over to them.
-/

namespace DocQuery

variable {ε α β : Type}

namespace Cursor

def later (c : Cursor ε α) : Nat → c.State → c.State
  | 0, s => s
  | n + 1, s => (c.pull (c.later n s)).2

def after (c : Cursor ε α) : Nat → Cursor ε α
  | 0 => c
  | n + 1 => (c.after n).next.2

theorem after_eq (c : Cursor ε α) (n : Nat) :
    c.after n = ⟨c.State, c.later n c.state, c.pull, c.taken, c.finite⟩ := by
  induction n with
  | zero => rfl
  | succ n ih =>
      rw [after, ih]
      rfl

@[simp] theorem takenSoFar_after (c : Cursor ε α) (n : Nat) :
    (c.after n).takenSoFar = c.taken (c.later n c.state) := by
  rw [after_eq]
  rfl

/-- The answer to a request after a number of others. -/
@[simp] theorem next_after (c : Cursor ε α) (n : Nat) :
    (c.after n).next.1 = (c.pull (c.later n c.state)).1 := by
  rw [after_eq]
  rfl

theorem later_later (c : Cursor ε α) (m n : Nat) (s : c.State) :
    c.later n (c.later m s) = c.later (m + n) s := by
  induction n with
  | zero => rfl
  | succ n ih =>
      rw [later, ih]
      rfl

/-! ## Runs that give items -/

/-- Requests from a state on give some items and lead to another state. -/
inductive Gives (c : Cursor ε α) (s : c.State) : List (Except ε α) → c.State → Prop
  | start : c.Gives s [] s
  | more {given : List (Except ε α)} {t next : c.State} {item : Except ε α}
      (run : c.Gives s given t) (answer : c.pull t = (some item, next)) :
      c.Gives s (given ++ [item]) next

theorem Gives.trans {c : Cursor ε α} {s t u : c.State} {first second : List (Except ε α)}
    (hfirst : c.Gives s first t) (hsecond : c.Gives t second u) :
    c.Gives s (first ++ second) u := by
  induction hsecond with
  | start => rwa [List.append_nil]
  | more _ answer ih =>
      rw [← List.append_assoc]
      exact .more ih answer

theorem Gives.single {c : Cursor ε α} {s t : c.State} {item : Except ε α}
    (h : c.pull s = (some item, t)) : c.Gives s [item] t :=
  .more .start h

theorem Gives.later_eq {c : Cursor ε α} {s t : c.State} {given : List (Except ε α)}
    (h : c.Gives s given t) : t = c.later given.length s := by
  induction h with
  | start => rfl
  | more _ answer ih => simp [later, ← ih, answer]

/-- The items given so far and those still to come are all items. -/
theorem Gives.items_eq {c : Cursor ε α} {s t : c.State} {given : List (Except ε α)}
    (h : c.Gives s given t) : given ++ c.itemsFrom t = c.itemsFrom s := by
  induction h with
  | start => rfl
  | more _ answer ih =>
      rw [← ih, itemsFrom_of_pull_some answer, List.append_assoc, List.singleton_append]

theorem Gives.prefix_items {c : Cursor ε α} {t : c.State} {given : List (Except ε α)}
    (h : c.Gives c.state given t) : given <+: c.items :=
  ⟨c.itemsFrom t, h.items_eq⟩

/-- A run whose next request gives nothing has given all items. -/
theorem Gives.eq_items_of_ended {c : Cursor ε α} {t : c.State} {given : List (Except ε α)}
    (h : c.Gives c.state given t) (hend : (c.pull t).1 = none) : given = c.items := by
  have hnone : c.itemsFrom t = [] := itemsFrom_of_pull_none (Prod.ext hend rfl)
  rw [items, ← h.items_eq, hnone, List.append_nil]

/-- Requests that are all answered with items form a run. -/
theorem gives_of_answered (c : Cursor ε α) {n : Nat}
    (h : ∀ k < n, (c.after k).next.1.isSome) :
    ∃ given, given.length = n ∧ c.Gives c.state given (c.later n c.state) := by
  induction n with
  | zero => exact ⟨[], rfl, .start⟩
  | succ n ih =>
      obtain ⟨given, hlength, hgiven⟩ := ih fun k hk => h k (by omega)
      have hanswered := h n (by omega)
      rw [next_after, Option.isSome_iff_exists] at hanswered
      obtain ⟨item, hitem⟩ := hanswered
      exact ⟨given ++ [item], by simp [hlength], .more hgiven (Prod.ext hitem rfl)⟩

/-- As long as items are left, requests are answered with them in order. -/
theorem items_eq_of_le (c : Cursor ε α) {n : Nat} (h : n ≤ c.items.length) :
    c.itemsFrom (c.later n c.state) = c.items.drop n := by
  induction n with
  | zero => rfl
  | succ n ih =>
      have hleft := ih (by omega)
      rw [later]
      cases hpull : c.pull (c.later n c.state) with
      | mk answer next =>
          cases answer with
          | none =>
              rw [itemsFrom_of_pull_none hpull, eq_comm, List.drop_eq_nil_iff] at hleft
              omega
          | some item =>
              rw [itemsFrom_of_pull_some hpull] at hleft
              rw [← List.drop_drop, ← hleft, List.drop_one, List.tail_cons]

theorem next_after_eq (c : Cursor ε α) {n : Nat} (h : n ≤ c.items.length) :
    (c.after n).next.1 = c.items[n]? := by
  rw [next_after, ← List.head?_drop, ← c.items_eq_of_le h]
  cases hpull : c.pull (c.later n c.state) with
  | mk answer next =>
      cases answer with
      | none => rw [itemsFrom_of_pull_none hpull, List.head?_nil]
      | some item => rw [itemsFrom_of_pull_some hpull, List.head?_cons]

theorem isSome_next_after (c : Cursor ε α) {n : Nat} (h : n < c.items.length) :
    (c.after n).next.1.isSome := by
  rw [next_after_eq c (Nat.le_of_lt h), List.getElem?_eq_getElem h, Option.isSome_some]

theorem next_after_length (c : Cursor ε α) : (c.after c.items.length).next.1 = none := by
  rw [next_after_eq c (Nat.le_refl _), List.getElem?_eq_none (Nat.le_refl _)]

end Cursor

/-! ## Stages -/

namespace Stage

def memoryAfter (stage : Stage ε α β) : stage.Memory → List (Except ε α) → stage.Memory
  | memory, [] => memory
  | memory, item :: rest => stage.memoryAfter (stage.step memory item).2 rest

theorem memoryAfter_append (stage : Stage ε α β) (memory : stage.Memory)
    (first second : List (Except ε α)) :
    stage.memoryAfter memory (first ++ second) =
      stage.memoryAfter (stage.memoryAfter memory first) second := by
  induction first generalizing memory with
  | nil => rfl
  | cons item rest ih => exact ih _

theorem run_append (stage : Stage ε α β) (memory : stage.Memory)
    (first second : List (Except ε α)) :
    stage.run memory (first ++ second) =
      stage.run memory first ++ stage.run (stage.memoryAfter memory first) second := by
  induction first generalizing memory with
  | nil => rfl
  | cons item rest ih => rw [List.cons_append, run, ih, run, memoryAfter, List.append_assoc]

/-- More items going in only add to what comes out. -/
theorem run_prefix (stage : Stage ε α β) (memory : stage.Memory)
    {first second : List (Except ε α)} (h : first <+: second) :
    stage.run memory first <+: stage.run memory second := by
  obtain ⟨rest, rfl⟩ := h
  rw [run_append]
  exact List.prefix_append _ _

end Stage

namespace Cursor

/--
One request of a staged cursor that gives an item moves the source by a run of
requests, of which all but the last one made nothing ready.
-/
theorem gives_of_pullStaged {c : Cursor ε α} {stage : Stage ε α β} {source : c.State}
    {ready : List (Except ε β)} {memory : stage.Memory} {item : Except ε β}
    {next : Staged c stage} (h : c.pullStaged stage source ready memory = (some item, next)) :
    ∃ taken, c.Gives source taken next.source ∧
      ready ++ stage.run memory taken = item :: next.ready ∧
      next.memory = stage.memoryAfter memory taken ∧
      ∀ front last, taken = front ++ [last] → ready ++ stage.run memory front = [] := by
  fun_induction pullStaged c stage source ready memory with
  | case1 source first ready memory =>
      cases h
      exact ⟨[], .start, by simp [Stage.run], rfl, by simp⟩
  | case2 source memory moved hpull => cases h
  | case3 source memory first moved hpull follows ih =>
      obtain ⟨taken, hgives, hrun, hmemory, hfront⟩ := ih h
      refine ⟨first :: taken, (Gives.single hpull).trans hgives, ?_, hmemory, ?_⟩
      · simpa [Stage.run] using hrun
      · intro front last hsplit
        cases front with
        | nil => rfl
        | cons item front =>
            obtain ⟨rfl, htaken⟩ : first = item ∧ taken = front ++ [last] := by
              simpa using hsplit
            simpa [Stage.run] using hfront front last htaken

/-- One request of a staged cursor that gives nothing runs its source to the end. -/
theorem ended_of_pullStaged {c : Cursor ε α} {stage : Stage ε α β} {source : c.State}
    {ready : List (Except ε β)} {memory : stage.Memory}
    (h : (c.pullStaged stage source ready memory).1 = none) :
    ∃ taken last, c.Gives source taken last ∧ (c.pull last).1 = none ∧
      (c.pullStaged stage source ready memory).2.source = (c.pull last).2 := by
  fun_induction pullStaged c stage source ready memory with
  | case1 source first ready memory => cases h
  | case2 source memory moved hpull => exact ⟨[], source, .start, by rw [hpull], by rw [hpull]⟩
  | case3 source memory first moved hpull follows ih =>
      obtain ⟨taken, last, hgives, hlast, hsource⟩ := ih h
      exact ⟨first :: taken, last, (Gives.single hpull).trans hgives, hlast, hsource⟩

/--
A run of a staged cursor stands on a run of its source: what that made is given out or
ready, and without its last item not all that is given out would have been made.
-/
theorem Gives.through {c : Cursor ε α} {stage : Stage ε α β} {given : List (Except ε β)}
    {t : (c.through stage).State} (h : (c.through stage).Gives (c.through stage).state given t) :
    ∃ taken, c.Gives c.state taken t.source ∧
      stage.run stage.memory taken = given ++ t.ready ∧
      t.memory = stage.memoryAfter stage.memory taken ∧
      ∀ front last, taken = front ++ [last] →
        (stage.run stage.memory front).length < given.length := by
  induction h with
  | start => exact ⟨[], .start, rfl, rfl, by simp⟩
  | @more given t next item _ answer ih =>
      obtain ⟨before, hbefore, hrun, hmemory, hfront⟩ := ih
      obtain ⟨taken, htaken, hmade, hnext, hnothing⟩ := gives_of_pullStaged answer
      have hall : stage.run stage.memory (before ++ taken) = given ++ [item] ++ next.ready := by
        rw [Stage.run_append, hrun, ← hmemory, List.append_assoc, hmade]
        simp
      refine ⟨before ++ taken, hbefore.trans htaken, hall, ?_, ?_⟩
      · rw [hnext, hmemory, Stage.memoryAfter_append]
      · intro front last hsplit
        rcases List.eq_nil_or_concat taken with rfl | ⟨rest, final, rfl⟩
        · -- The request was answered from what was ready: the source did not move.
          have := hfront front last (by simpa using hsplit)
          simp
          omega
        · obtain ⟨rfl, rfl⟩ : before ++ rest = front ∧ final = last := by
            simpa [← List.append_assoc] using hsplit
          have hrest := hnothing rest final (by simp)
          rw [Stage.run_append, hrun, ← hmemory, List.append_assoc, hrest]
          simp

/-- A request of a staged cursor with nothing ready asks its source at least once. -/
theorem later_of_pullStaged (c : Cursor ε α) (stage : Stage ε α β) (source : c.State)
    (ready : List (Except ε β)) (memory : stage.Memory) :
    ∃ n, (c.pullStaged stage source ready memory).2.source = c.later n source ∧
      (ready = [] → 0 < n) := by
  fun_induction pullStaged c stage source ready memory with
  | case1 source first ready memory => exact ⟨0, rfl, by simp⟩
  | case2 source memory moved hpull => exact ⟨1, by simp [later, hpull], by simp⟩
  | case3 source memory first moved hpull follows ih =>
      obtain ⟨n, hn, -⟩ := ih
      have hmoved : c.later 1 source = moved := by simp [later, hpull]
      exact ⟨1 + n, by rw [hn, ← later_later, hmoved], by omega⟩

/-- Requests of a staged cursor are requests of its source, at least one for the first. -/
theorem later_through (c : Cursor ε α) (stage : Stage ε α β) (n : Nat) :
    ∃ m, ((c.through stage).later n (c.through stage).state).source = c.later m c.state ∧
      (0 < n → 0 < m) := by
  induction n with
  | zero => exact ⟨0, rfl, id⟩
  | succ n ih =>
      obtain ⟨m, hm, hpos⟩ := ih
      obtain ⟨k, hk, hready⟩ := later_of_pullStaged c stage
        ((c.through stage).later n (c.through stage).state).source
        ((c.through stage).later n (c.through stage).state).ready
        ((c.through stage).later n (c.through stage).state).memory
      refine ⟨m + k, ?_, fun _ => ?_⟩
      · rw [later, ← later_later, ← hm]
        exact hk
      · cases n with
        | zero =>
            have := hready rfl
            omega
        | succ n =>
            have := hpos (by omega)
            omega

/-! ## Limits -/

/-- A run of a limited cursor is a run of its source, and counts down. -/
theorem Gives.limit {c : Cursor ε α} {n : Nat} {given : List (Except ε α)}
    {t : (c.limit n).State} (h : (c.limit n).Gives (c.limit n).state given t) :
    c.Gives c.state given t.1 ∧ given.length + t.2 = n := by
  induction h with
  | start => exact ⟨.start, Nat.zero_add n⟩
  | @more given t next item _ answer ih =>
      obtain ⟨source, left⟩ := t
      obtain ⟨hgives, hcount⟩ := ih
      cases left with
      | zero => cases answer
      | succ left =>
          simp only [Cursor.limit, pullLimited] at answer
          split at answer
          · rename_i hpull
            cases answer
            exact ⟨.more hgives hpull, by simp at hcount ⊢; omega⟩
          · cases answer

/-- Requests of a limited cursor are requests of its source, the first one too. -/
theorem later_limit (c : Cursor ε α) {n : Nat} (hn : 0 < n) (k : Nat) :
    ∃ m, ((c.limit n).later k (c.limit n).state).1 = c.later m c.state ∧ (0 < k → 0 < m) := by
  -- While nothing has been asked, the count still stands at `n`, so that a request is made.
  suffices ∃ m, ((c.limit n).later k (c.limit n).state).1 = c.later m c.state ∧ (0 < k → 0 < m) ∧
      (k = 0 → ((c.limit n).later k (c.limit n).state).2 = n) by
    obtain ⟨m, hm, hpos, -⟩ := this
    exact ⟨m, hm, hpos⟩
  induction k with
  | zero => exact ⟨0, rfl, id, fun _ => rfl⟩
  | succ k ih =>
      obtain ⟨m, hm, hpos, hleft⟩ := ih
      rw [later]
      cases hstate : (c.limit n).later k (c.limit n).state with
      | mk source left =>
          rw [hstate] at hm hleft
          cases left with
          | zero =>
              refine ⟨m, hm, fun _ => hpos ?_, by omega⟩
              rcases Nat.eq_zero_or_pos k with hzero | hk
              · exact absurd (hleft hzero) (by simp; omega)
              · exact hk
          | succ left =>
              refine ⟨m + 1, ?_, by omega, by omega⟩
              have hsource : source = c.later m c.state := hm
              simp only [limit, pullLimited, later, hsource]
              cases c.pull (c.later m c.state) with
              | mk answer next => cases answer <;> rfl

/-! ## Gathering -/

/-- Draining runs its source to the end, or to the first failure. -/
theorem drainFrom_eq (c : Cursor ε α) (s : c.State) :
    (∃ (given : List α) (t : c.State), c.Gives s (given.map .ok) t ∧ (c.pull t).1 = none ∧
      c.drainFrom s = (.ok given, (c.pull t).2)) ∨
    ∃ (given : List α) (failure : ε) (t : c.State),
      c.Gives s (given.map .ok ++ [.error failure]) t ∧ c.drainFrom s = (.error failure, t) := by
  fun_induction drainFrom c s with
  | case1 s item after h follows others last hdrain ih =>
      rw [hdrain] at ih
      rcases ih with ⟨given, t, hgives, hend, heq⟩ | ⟨given, failure, t, hgives, heq⟩
      · cases heq
        exact .inl ⟨item :: given, t, (Gives.single h).trans hgives, hend, rfl⟩
      · cases heq
        exact .inr ⟨item :: given, failure, last, (Gives.single h).trans hgives, rfl⟩
  | case2 s failure after h => exact .inr ⟨[], failure, after, .single h, rfl⟩
  | case3 s after h => exact .inl ⟨[], s, .start, by rw [h], by rw [h]⟩

/-- Draining asks at least once. -/
theorem later_of_drainFrom (c : Cursor ε α) (s : c.State) :
    ∃ n, (c.drainFrom s).2 = c.later n s ∧ 0 < n := by
  rcases drainFrom_eq c s with ⟨given, t, hgives, hend, heq⟩ | ⟨given, failure, t, hgives, heq⟩
  · exact ⟨given.length + 1, by rw [heq, hgives.later_eq, later, List.length_map], by omega⟩
  · exact ⟨given.length + 1, by simp [heq, hgives.later_eq], by omega⟩

/-- The first request of a gathering cursor drains its source, and no later one moves it. -/
theorem source_later_gather (c : Cursor ε α) (f : List α → List β) (n : Nat) :
    ((c.gather f).later (n + 1) (c.gather f).state).source = (c.drainFrom c.state).2 := by
  have hresults (source : c.State) (results : List β) :
      (c.pullResults source results).2.source = source ∧
        (c.pullResults source results).2.results.isSome := by
    cases results <;> exact ⟨rfl, rfl⟩
  suffices ((c.gather f).later (n + 1) (c.gather f).state).source = (c.drainFrom c.state).2 ∧
      ((c.gather f).later (n + 1) (c.gather f).state).results.isSome from this.1
  induction n with
  | zero =>
      change (c.pullGathered f ⟨c.state, none⟩).2.source = _ ∧
        (c.pullGathered f ⟨c.state, none⟩).2.results.isSome
      unfold pullGathered
      cases c.drainFrom c.state with
      | mk outcome last =>
          cases outcome with
          | ok items => exact hresults last (f items)
          | error failure => exact ⟨rfl, rfl⟩
  | succ n ih =>
      obtain ⟨hsource, hsome⟩ := ih
      rw [later]
      cases hstate : (c.gather f).later (n + 1) (c.gather f).state with
      | mk source results =>
          rw [hstate] at hsource hsome
          obtain ⟨rest, hrest⟩ := Option.isSome_iff_exists.mp hsome
          have hrest' : results = some rest := hrest
          subst hrest'
          exact ⟨(hresults source rest).1.trans hsource, (hresults source rest).2⟩

end Cursor

end DocQuery
