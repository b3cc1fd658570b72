import DocQuery.Proofs.Cursor.Requests
import Mathlib.Order.Bounds.Basic

/-!
# Taking no more than needed

A cursor is paced by the entries of its source when after each run of requests it has
taken the fewest entries that make as many items as were given.  Sources are paced, and
stages keep pace.  A gathering takes the entries up to the first failure at its first
request, and then no more.
-/

namespace DocQuery

variable {ε α β γ : Type}

namespace Stage

/-- Items make items, and a failure is handed on as it is. -/
structure HandsOn (stage : Stage ε α β) : Prop where
  items : ∀ memory item, ∃ made : List β, (stage.step memory (.ok item)).1 = made.map .ok
  failure : ∀ memory failure, (stage.step memory (.error failure)).1 = [.error failure]

theorem handsOn_expand (f : α → List β) : (Stage.expand (ε := ε) f).HandsOn where
  items _ item := ⟨f item, rfl⟩
  failure _ _ := rfl

theorem handsOn_mapIdx (f : Nat → α → β) : (Stage.mapIdx (ε := ε) f).HandsOn where
  items index item := ⟨[f index item], rfl⟩
  failure _ _ := rfl

theorem handsOn_distinct (equal : α → α → Bool) : (Stage.distinct (ε := ε) equal).HandsOn where
  items := fun (seen : List α) item => by
    let step : List (Except ε α) × List α :=
      if seen.any fun earlier => equal earlier item then ([], seen)
      else ([.ok item], seen ++ [item])
    change ∃ made : List α, step.1 = made.map .ok
    by_cases h : seen.any fun earlier => equal earlier item
    · exact ⟨[], by simp [step, h]⟩
    · exact ⟨[item], by simp [step, h]⟩
  failure _ _ := rfl

theorem HandsOn.run_ok {stage : Stage ε α β} (h : stage.HandsOn) (memory : stage.Memory)
    (items : List α) : ∃ made : List β, stage.run memory (items.map .ok) = made.map .ok := by
  induction items generalizing memory with
  | nil => exact ⟨[], rfl⟩
  | cons item rest ih =>
      obtain ⟨first, hfirst⟩ := h.items memory item
      obtain ⟨others, hothers⟩ := ih (stage.step memory (.ok item)).2
      exact ⟨first ++ others, by rw [List.map_cons, run, hfirst, hothers, List.map_append]⟩

end Stage

namespace Cursor

/-! ## Failures in their places -/

def upToFailure : List (Except ε α) → List (Except ε α)
  | [] => []
  | .ok item :: rest => .ok item :: upToFailure rest
  | .error failure :: _ => [.error failure]

/-- Entries either are all items, or begin with items and a failure. -/
theorem ok_or_failure (entries : List (Except ε α)) :
    (∃ items : List α, entries = items.map .ok) ∨
      ∃ (items : List α) (failure : ε) (rest : List (Except ε α)),
        entries = items.map .ok ++ .error failure :: rest := by
  induction entries with
  | nil => exact .inl ⟨[], rfl⟩
  | cons entry rest ih =>
      cases entry with
      | error failure => exact .inr ⟨[], failure, rest, rfl⟩
      | ok item =>
          rcases ih with ⟨items, rfl⟩ | ⟨items, failure, others, rfl⟩
          · exact .inl ⟨item :: items, rfl⟩
          · exact .inr ⟨item :: items, failure, others, rfl⟩

theorem upToFailure_ok (items : List α) :
    upToFailure (items.map (Except.ok (ε := ε))) = items.map .ok := by
  induction items with
  | nil => rfl
  | cons item rest ih => rw [List.map_cons, upToFailure, ih]

theorem upToFailure_failure (items : List α) (failure : ε) (rest : List (Except ε α)) :
    upToFailure (items.map .ok ++ .error failure :: rest) = items.map .ok ++ [.error failure] := by
  induction items with
  | nil => rfl
  | cons item others ih => rw [List.map_cons, List.cons_append, upToFailure, ih, List.cons_append]

theorem take_upToFailure (entries : List (Except ε α)) :
    entries.take (upToFailure entries).length = upToFailure entries := by
  induction entries with
  | nil => rfl
  | cons entry rest ih =>
      cases entry with
      | ok item => rw [upToFailure, List.length_cons, List.take_succ_cons, ih]
      | error failure => rfl

/-- The first failure in two spellings of one list stands in one place. -/
theorem length_eq_of_failure {first second : List α} {f g : ε} {after rest : List (Except ε α)}
    (h : first.map .ok ++ .error f :: after = second.map .ok ++ .error g :: rest) :
    first.length = second.length := by
  induction first generalizing second with
  | nil =>
      cases second with
      | nil => rfl
      | cons item second => simp at h
  | cons item first ih =>
      cases second with
      | nil => simp at h
      | cons other second =>
          simp only [List.map_cons, List.cons_append, List.cons.injEq] at h
          simpa using ih h.2

/-- Items make items, a failure is handed on as it comes, and more entries make more. -/
structure Forwards (output : List (Except ε α) → List (Except ε β)) : Prop where
  items : ∀ given : List α, ∃ made : List β, output (given.map .ok) = made.map .ok
  failure : ∀ entries failure, output (entries ++ [.error failure]) =
    output entries ++ [.error failure]
  grows : ∀ {first second}, first <+: second → output first <+: output second

theorem Forwards.id : Forwards (id : List (Except ε α) → List (Except ε α)) where
  items given := ⟨given, rfl⟩
  failure _ _ := rfl
  grows h := h

theorem Forwards.through {output : List (Except ε γ) → List (Except ε α)} (h : Forwards output)
    {stage : Stage ε α β} (hstage : stage.HandsOn) :
    Forwards (stage.run stage.memory ∘ output) where
  items given := by
    obtain ⟨items, hitems⟩ := h.items given
    obtain ⟨made, hmade⟩ := hstage.run_ok stage.memory items
    exact ⟨made, by rw [Function.comp, hitems, hmade]⟩
  failure entries failure := by
    rw [Function.comp, h.failure, Stage.run_append, Stage.run, hstage.failure]
    rfl
  grows hprefix := stage.run_prefix _ (h.grows hprefix)

/-- What is made of some entries and a failure, whatever comes after them. -/
theorem Forwards.eq_append {output : List (Except ε α) → List (Except ε β)} (h : Forwards output)
    (before rest : List (Except ε α)) (failure : ε) :
    ∃ others, output (before ++ .error failure :: rest) =
      output before ++ .error failure :: others := by
  obtain ⟨others, hothers⟩ := h.grows (List.prefix_append (before ++ [.error failure]) rest)
  rw [List.append_assoc, List.singleton_append, h.failure, List.append_assoc,
    List.singleton_append] at hothers
  exact ⟨others, hothers.symm⟩

theorem Forwards.length_lt {output : List (Except ε α) → List (Except ε β)} (h : Forwards output)
    (before rest : List (Except ε α)) (failure : ε) :
    (output before).length < (output (before ++ .error failure :: rest)).length := by
  obtain ⟨others, hothers⟩ := h.eq_append before rest failure
  rw [hothers, List.length_append, List.length_cons]
  omega

/-- A failure that goes in comes out in its place. -/
theorem Forwards.mem_take {output : List (Except ε α) → List (Except ε β)} (h : Forwards output)
    {before rest : List (Except ε α)} {failure : ε} {n : Nat} (hn : (output before).length < n) :
    Except.error failure ∈ (output (before ++ .error failure :: rest)).take n := by
  obtain ⟨others, hothers⟩ := h.eq_append before rest failure
  obtain ⟨more, hmore⟩ := Nat.exists_eq_add_of_lt hn
  rw [hothers, hmore, Nat.add_assoc, List.take_length_add_append, List.mem_append]
  exact .inr (by simp)

/-! ## Paced cursors -/

/-- What `c` gives for a list of source entries, taking as few of them as it needs. -/
structure Paced (c : Cursor ε β) (entries : List γ) (output : List γ → List (Except ε β)) :
    Prop where
  items : c.items = output entries
  grows : ∀ {first second}, first <+: second → output first <+: output second
  taken : ∀ {given t}, c.Gives c.state given t →
    IsLeast {m | given.length ≤ (output (entries.take m)).length} (c.taken t)
  ended : ∀ {given t}, c.Gives c.state given t → (c.pull t).1 = none →
    c.taken (c.pull t).2 = entries.length

theorem gives_fused_ofResponses {responses : List (Option (Except ε α))}
    {given : List (Except ε α)} {t : (ofResponses responses).fused.State}
    (h : (ofResponses responses).fused.Gives (ofResponses responses).fused.state given t) :
    t.1.2 = given.length ∧ t.2 = false ∧
      Cursor.given responses = given ++ Cursor.given t.1.1 := by
  induction h with
  | start => exact ⟨rfl, rfl, rfl⟩
  | @more given t next item _ answer ih =>
      obtain ⟨⟨left, count⟩, ended⟩ := t
      obtain ⟨rfl, rfl, hgiven⟩ := ih
      rcases left with _ | ⟨_ | entry, left⟩
      · cases answer
      · cases answer
      · cases answer
        exact ⟨by simp, rfl, by simpa [Cursor.given] using hgiven⟩

/-- A source takes an entry for each item it hands out. -/
theorem Paced.source (responses : List (Option (Except ε α))) :
    (ofResponses responses).fused.Paced (given responses) id where
  items := by simp
  grows h := h
  taken {given t} h := by
    obtain ⟨hcount, -, hgiven⟩ := gives_fused_ofResponses h
    have htaken : (ofResponses responses).fused.taken t = given.length := hcount
    rw [htaken, hgiven]
    refine ⟨by simp, fun m hm => ?_⟩
    simp only [Set.mem_ofPred_eq, id, List.length_take] at hm
    omega
  ended {given t} h hend := by
    obtain ⟨⟨left, count⟩, ended⟩ := t
    obtain ⟨rfl, rfl, hgiven⟩ := gives_fused_ofResponses h
    rw [hgiven]
    rcases left with _ | ⟨_ | entry, left⟩
    · simp [Cursor.given, fused, pullFused, ofResponses, pullResponses]
    · simp [Cursor.given, fused, pullFused, ofResponses, pullResponses]
    · cases hend

/-- A stage takes no more of its source than what it gives out needs. -/
theorem Paced.through {c : Cursor ε α} {entries : List γ} {output : List γ → List (Except ε α)}
    (h : c.Paced entries output) (stage : Stage ε α β) :
    (c.through stage).Paced entries (stage.run stage.memory ∘ output) where
  items := by rw [items_through, h.items, Function.comp]
  grows hprefix := stage.run_prefix _ (h.grows hprefix)
  taken {given t} hgives := by
    obtain ⟨taken, htaken, hrun, -, hneeded⟩ := hgives.through
    have hleast := h.taken htaken
    have hall : taken <+: output entries := h.items ▸ htaken.prefix_items
    have hpart (m : Nat) : output (entries.take m) <+: output entries :=
      h.grows (List.take_prefix m entries)
    refine ⟨?_, fun m hm => hleast.2 ?_⟩
    · -- What the source gave is among what the fewest entries give, and so is what that makes.
      have henough := stage.run_prefix stage.memory
        (List.prefix_of_prefix_length_le hall (hpart _) hleast.1)
      have hlength := henough.length_le
      rw [hrun, List.length_append] at hlength
      exact Nat.le_of_add_right_le hlength
    · by_contra hfewer
      simp only [Set.mem_ofPred_eq, Nat.not_le] at hm hfewer
      obtain ⟨front, last, rfl⟩ : ∃ front last, taken = front ++ [last] := by
        rcases List.eq_nil_or_concat taken with rfl | ⟨front, last, rfl⟩
        · simp at hfewer
        · exact ⟨front, last, by simp⟩
      have hfront : output (entries.take m) <+: front :=
        List.prefix_of_prefix_length_le (hpart m) ((List.prefix_append _ _).trans hall) (by
          simp only [List.length_append, List.length_singleton] at hfewer
          omega)
      have hmade := (stage.run_prefix stage.memory hfront).length_le
      have hmissing := hneeded front last rfl
      simp only [Function.comp] at hm
      omega
  ended {given t} hgives hend := by
    obtain ⟨before, hbefore, -⟩ := hgives.through
    obtain ⟨taken, last, htaken, hlast, hsource⟩ := ended_of_pullStaged hend
    exact (congrArg c.taken hsource).trans (h.ended (hbefore.trans htaken) hlast)

/-! ## Cursors that take everything at once -/

/-- From the first request on, a certain number of entries has been taken. -/
def TakesAtOnce (c : Cursor ε α) (count : Nat) : Prop :=
  ∀ n, 0 < n → c.taken (c.later n c.state) = count

theorem TakesAtOnce.through {c : Cursor ε α} {count : Nat} (h : c.TakesAtOnce count)
    (stage : Stage ε α β) : (c.through stage).TakesAtOnce count := by
  intro n hn
  obtain ⟨m, hm, hpos⟩ := later_through c stage n
  exact (congrArg c.taken hm).trans (h m (hpos hn))

theorem TakesAtOnce.limit {c : Cursor ε α} {count : Nat} (h : c.TakesAtOnce count) {n : Nat}
    (hn : 0 < n) : (c.limit n).TakesAtOnce count := by
  intro k hk
  obtain ⟨m, hm, hpos⟩ := later_limit c hn k
  exact (congrArg c.taken hm).trans (h m (hpos hk))

theorem takesAtOnce_gather {c : Cursor ε α} {count : Nat}
    (h : c.taken (c.drainFrom c.state).2 = count) (f : List α → List β) :
    (c.gather f).TakesAtOnce count := by
  intro n hn
  obtain ⟨n, rfl⟩ := Nat.exists_eq_succ_of_ne_zero (Nat.ne_of_gt hn)
  exact (congrArg c.taken (source_later_gather c f n)).trans h

theorem TakesAtOnce.gather {c : Cursor ε α} {count : Nat} (h : c.TakesAtOnce count)
    (f : List α → List β) : (c.gather f).TakesAtOnce count := by
  obtain ⟨n, hn, hpos⟩ := later_of_drainFrom c c.state
  exact takesAtOnce_gather (hn ▸ h n hpos) f

/-- Through the first failure, and no sooner, one more is made than of the items before it. -/
theorem Forwards.isLeast_of_failure {output : List (Except ε α) → List (Except ε β)}
    (h : Forwards output) {items : List α} {made : List β}
    (hmade : output (items.map .ok) = made.map .ok) (failure : ε) (rest : List (Except ε α)) :
    IsLeast {m | made.length + 1 ≤
      (output ((items.map Except.ok ++ Except.error failure :: rest).take m)).length}
        (items.length + 1) := by
  refine ⟨?_, fun m hm => ?_⟩
  · have htake : (items.map Except.ok ++ Except.error failure :: rest).take (items.length + 1) =
        items.map .ok ++ [.error failure] := by
      rw [List.take_append, List.take_of_length_le (by simp)]
      simp
    rw [Set.mem_ofPred_eq, htake, h.failure, hmade]
    simp
  · by_contra hfewer
    rw [Nat.not_le] at hfewer
    have hbefore : (items.map Except.ok ++ Except.error failure :: rest).take m <+:
        items.map Except.ok := by
      rw [List.take_append_of_le_length (by simp; omega)]
      exact List.take_prefix _ _
    have hmissing := (h.grows hbefore).length_le
    rw [hmade, List.length_map] at hmissing
    rw [Set.mem_ofPred_eq] at hm
    omega

/-- Draining a paced cursor takes the entries up to the first failure, or all of them. -/
theorem Paced.taken_drainFrom {c : Cursor ε β} {entries : List (Except ε α)}
    {output : List (Except ε α) → List (Except ε β)} (h : c.Paced entries output)
    (hforwards : Forwards output) :
    c.taken (c.drainFrom c.state).2 = (upToFailure entries).length := by
  rcases ok_or_failure entries with ⟨items, rfl⟩ | ⟨items, failure, rest, rfl⟩
  · obtain ⟨made, hmade⟩ := hforwards.items items
    rcases drainFrom_eq c c.state with ⟨given, t, hgives, hend, heq⟩ | ⟨given, g, t, hgives, heq⟩
    · rw [heq, upToFailure_ok]
      exact h.ended hgives hend
    · have hfailure : .error g ∈ c.items := hgives.prefix_items.subset (by simp)
      simp [h.items, hmade] at hfailure
  · obtain ⟨made, hmade⟩ := hforwards.items items
    have hforwarded : made.map .ok ++ [.error failure] <+: c.items := by
      rw [h.items, ← hmade, ← hforwards.failure]
      exact h.grows ⟨rest, by simp⟩
    rcases drainFrom_eq c c.state with ⟨given, t, hgives, hend, heq⟩ | ⟨given, g, t, hgives, heq⟩
    · have hfailure : Except.error failure ∈ c.items := hforwarded.subset (by simp)
      rw [← hgives.eq_items_of_ended hend] at hfailure
      simp at hfailure
    · -- Both spellings of the items reach the first failure at the same place.
      have hplace : made.length = given.length := by
        obtain ⟨left, hleft⟩ := hforwarded
        obtain ⟨right, hright⟩ := hgives.prefix_items
        exact length_eq_of_failure (by simpa using hleft.trans hright.symm)
      have hleast := h.taken hgives
      rw [List.length_append, List.length_map, List.length_singleton, ← hplace] at hleast
      rw [heq, upToFailure_failure, List.length_append, List.length_map]
      exact hleast.unique (hforwards.isLeast_of_failure hmade failure rest)

end Cursor

end DocQuery
