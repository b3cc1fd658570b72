import DocQuery.Proofs.Query.Ordering

/-!
# Rows without a sort key

Across kinds the comparison of values is no order, and sorting rows by it puts them in no
order either.  Null is still below every other value, and this alone settles where the rows
without a first sort key end up: together before all other rows, or behind them when the key
descends.
-/

namespace DocQuery

/-! ## Items that come first -/

namespace Sorting

variable {α : Type} {compare : α → α → Ordering} {first : α → Bool}

/--
Whether a comparison puts the items of a kind before all others, whatever it says of two
items of that kind or of two others.
-/
def Leads (compare : α → α → Ordering) (first : α → Bool) : Prop :=
  ∀ a b, first a = true → first b = false → compare a b = .lt ∧ compare b a ≠ .lt

/-- Whether no two items of a kind are told apart. -/
def Ties (compare : α → α → Ordering) (kind : α → Bool) : Prop :=
  ∀ a b, kind a = true → kind b = true → compare a b ≠ .lt

theorem leftFirst_of_ne {a b : α} (h : compare b a ≠ .lt) : leftFirst compare a b = true := by
  simpa [leftFirst] using h

theorem leftFirst_of_eq {a b : α} (h : compare b a = .lt) : leftFirst compare a b = false := by
  simp [leftFirst, h]

/-- The items that come first are merged among themselves, and so are the others. -/
theorem merge_append (h : Leads compare first) {left left' right right' : List α}
    (hleft : ∀ a ∈ left, first a = true) (hleft' : ∀ a ∈ left', first a = false)
    (hright : ∀ a ∈ right, first a = true) (hright' : ∀ a ∈ right', first a = false) :
    (left ++ left').merge (right ++ right') (leftFirst compare) =
      left.merge right (leftFirst compare) ++ left'.merge right' (leftFirst compare) := by
  induction left generalizing right with
  | nil =>
      induction right with
      | nil => simp
      | cons y right ih =>
          obtain ⟨hy, hright⟩ := List.forall_mem_cons.mp hright
          rw [List.nil_append, List.nil_merge]
          cases left' with
          | nil => simp
          | cons x left' =>
              have hx := (List.forall_mem_cons.mp hleft').1
              rw [List.cons_append, List.cons_merge_cons, leftFirst_of_eq (h y x hy hx).1,
                if_neg Bool.false_ne_true]
              have hrest := ih hright
              rw [List.nil_append, List.nil_merge] at hrest
              rw [hrest, List.cons_append]
  | cons x left ihLeft =>
      obtain ⟨hx, hleft⟩ := List.forall_mem_cons.mp hleft
      induction right with
      | nil =>
          rw [List.nil_append, List.merge_right]
          cases right' with
          | nil => simp
          | cons y right' =>
              have hy := (List.forall_mem_cons.mp hright').1
              have hrest := @ihLeft [] hleft (List.forall_mem_nil _)
              rw [List.nil_append, List.merge_right] at hrest
              rw [List.cons_append, List.cons_merge_cons, leftFirst_of_ne (h x y hx hy).2,
                if_pos rfl, hrest, List.cons_append]
      | cons y right ihRight =>
          have hrest := ihRight (List.forall_mem_cons.mp hright).2
          simp only [List.cons_append] at hrest ⊢
          rw [List.cons_merge_cons, List.cons_merge_cons]
          split
          · have hrest := ihLeft hleft hright
            rw [List.cons_append] at hrest
            rw [hrest, List.cons_append]
          · rw [hrest, List.cons_append]

/--
Sorting puts the items of a leading kind before all others.  If no two items of a kind are
told apart, they stay in their order.
-/
theorem exists_sort_eq_append (h : Leads compare first) (items : List α) :
    ∃ front back, sort compare items = front ++ back ∧
      (∀ a ∈ front, first a = true) ∧ (∀ a ∈ back, first a = false) ∧
      (Ties compare first → front = items.filter first) ∧
      (Ties compare (fun a => !first a) → back = items.filter fun a => !first a) := by
  fun_induction sort compare items with
  | case1 items hlength =>
      cases items with
      | nil => exact ⟨[], [], by simp⟩
      | cons a rest =>
          obtain rfl : rest = [] := by simpa using hlength
          cases ha : first a with
          | true => exact ⟨[a], [], by simp [ha]⟩
          | false => exact ⟨[], [a], by simp [ha]⟩
  | case2 items hlength ihLeft ihRight =>
      obtain ⟨front, back, hsort, hfront, hback, hties, hties'⟩ := ihLeft
      obtain ⟨front', back', hsort', hfront', hback', htiesRight, htiesRight'⟩ := ihRight
      refine ⟨front.merge front' (leftFirst compare), back.merge back' (leftFirst compare), ?_,
        fun a ha => ?_, fun a ha => ?_, fun htied => ?_, fun htied => ?_⟩
      · rw [merge_eq, hsort, hsort', merge_append h hfront hback hfront' hback']
      · exact (List.mem_merge.mp ha).elim (hfront a) (hfront' a)
      · exact (List.mem_merge.mp ha).elim (hback a) (hback' a)
      · rw [List.merge_of_le fun a b ha hb =>
            leftFirst_of_ne (htied b a (hfront' b hb) (hfront a ha)),
          hties htied, htiesRight htied, ← List.filter_append, List.take_append_drop]
      · have htied' : ∀ a b, a ∈ back → b ∈ back' → leftFirst compare a b = true :=
          fun a b ha hb => leftFirst_of_ne
            (htied b a (by simp [hback' b hb]) (by simp [hback a ha]))
        rw [List.merge_of_le htied', hties' htied, htiesRight' htied, ← List.filter_append,
          List.take_append_drop]

end Sorting

/-! ## Null keys -/

namespace SortKey

variable {parameters : Parameters} {key : SortKey} {row : Row}

/-- Whether a row has null under a sort key. -/
def isMissing (parameters : Parameters) (key : SortKey) (row : Row) : Bool :=
  (key.term.resolve parameters row).isNull

theorem isMissing_eq_true_iff :
    key.isMissing parameters row = true ↔ key.term.resolve parameters row = .null := by
  unfold isMissing
  cases key.term.resolve parameters row <;> simp [Value.isNull]

theorem isMissing_eq_false_iff :
    key.isMissing parameters row = false ↔ key.term.resolve parameters row ≠ .null := by
  rw [← Bool.not_eq_true, isMissing_eq_true_iff]

end SortKey

namespace Row

variable {parameters : Parameters} {key : SortKey} {rest : List SortKey}

def compareBy (parameters : Parameters) (ordering : List SortKey) (a b : Row) : Ordering :=
  compareKeys (ordering.map SortKey.descends) (resolveKeys parameters ordering a)
    (resolveKeys parameters ordering b)

/-- The first sort key decides unless it ties two rows. -/
theorem compareBy_cons (a b : Row) :
    compareBy parameters (key :: rest) a b =
      ((if key.descends then (key.term.resolve parameters b).compare (key.term.resolve parameters a)
        else (key.term.resolve parameters a).compare (key.term.resolve parameters b)).then
          (compareBy parameters rest a b)) := by
  obtain ⟨term, direction⟩ := key
  rw [compareBy, List.map_cons, resolveKeys, resolveKeys, compareKeys]
  generalize (if SortKey.descends ⟨term, direction⟩ then _ else _ : Ordering) = order
  cases order <;> rfl

/-- A missing key is below every other one. -/
theorem leads_isMissing (parameters : Parameters) (rest : List SortKey)
    (h : key.direction = .ascending) :
    Sorting.Leads (compareBy parameters (key :: rest)) (key.isMissing parameters) := by
  intro a b ha hb
  have hdescends : key.descends = false := by simp [SortKey.descends, h]
  have hother := SortKey.isMissing_eq_false_iff.mp hb
  rw [compareBy_cons, compareBy_cons, hdescends, SortKey.isMissing_eq_true_iff.mp ha]
  simp [Value.compare_null_left hother, Value.compare_null_right hother]

/-- In a descending order every other key stands before a missing one. -/
theorem leads_not_isMissing (parameters : Parameters) (rest : List SortKey)
    (h : key.direction = .descending) :
    Sorting.Leads (compareBy parameters (key :: rest))
      fun row => !key.isMissing parameters row := by
  intro a b ha hb
  have hdescends : key.descends = true := by simp [SortKey.descends, h]
  have ha : key.isMissing parameters a = false := by simpa using ha
  have hb : key.isMissing parameters b = true := by simpa using hb
  have hother := SortKey.isMissing_eq_false_iff.mp ha
  rw [compareBy_cons, compareBy_cons, hdescends, SortKey.isMissing_eq_true_iff.mp hb]
  simp [Value.compare_null_left hother, Value.compare_null_right hother]

/-- A single key does not tell rows apart where it is missing. -/
theorem ties_isMissing : Sorting.Ties (compareBy parameters [key]) (key.isMissing parameters) := by
  intro a b ha hb
  rw [compareBy_cons, SortKey.isMissing_eq_true_iff.mp ha, SortKey.isMissing_eq_true_iff.mp hb]
  simp [compareBy, compareKeys]

end Row

/-! ## The ordering of a statement -/

namespace Statement

variable {ε : Type}

/--
Sorting rearranges a list, whatever the comparison says.  In the order of a statement the
rows whose first sort key is null stand together, before all others when the key ascends and
behind them when it descends; when there is no other key, they stay as they came.
-/
theorem nulls_at_one_end (s : Statement) (parameters : Parameters) {key : SortKey}
    {rest : List SortKey} (hordering : s.ordering = key :: rest) {source : Cursor ε Row}
    {rows : List Row} (hrows : source.items = rows.map .ok) :
    (∀ {α : Type} (compare : α → α → Ordering) (items : List α),
      (Sorting.sort compare items).Perm items) ∧
    let order := Row.ordered (s.ordering.map SortKey.descends) (resolveKeys parameters s.ordering)
    order ∈ (s.plan parameters).gatherings ∧
      ∃ nulls others sorted, (source.gather order).items = sorted.map .ok ∧ sorted.Perm rows ∧
        (∀ row ∈ nulls, key.term.resolve parameters row = .null) ∧
        (∀ row ∈ others, key.term.resolve parameters row ≠ .null) ∧
        (key.direction = .ascending → sorted = nulls ++ others) ∧
        (key.direction = .descending → sorted = others ++ nulls) ∧
        (rest = [] → nulls = rows.filter (key.isMissing parameters)) := by
  refine ⟨Sorting.sort_perm, ?_⟩
  intro order
  have hstage : order ∈ (s.plan parameters).gatherings :=
    s.ordered_mem_gatherings parameters (by simp [hordering])
  have hitems := Cursor.items_gather_ok hrows order
  have hsorted : order rows = Sorting.sort (Row.compareBy parameters s.ordering) rows :=
    Row.ordered_eq_sort _ _ rows
  have hperm : (order rows).Perm rows := hsorted ▸ Sorting.sort_perm _ _
  refine ⟨hstage, ?_⟩
  rw [hordering] at hsorted
  cases hdirection : key.direction with
  | ascending =>
      obtain ⟨nulls, others, happend, hnulls, hothers, hties, -⟩ :=
        Sorting.exists_sort_eq_append
          (Row.leads_isMissing parameters rest hdirection) rows
      refine ⟨nulls, others, order rows, hitems, hperm,
        fun row hrow => SortKey.isMissing_eq_true_iff.mp (hnulls row hrow),
        fun row hrow => SortKey.isMissing_eq_false_iff.mp (hothers row hrow),
        fun _ => hsorted.trans happend, fun h => (nomatch h), ?_⟩
      rintro rfl
      exact hties Row.ties_isMissing
  | descending =>
      obtain ⟨others, nulls, happend, hothers, hnulls, -, hties⟩ :=
        Sorting.exists_sort_eq_append
          (Row.leads_not_isMissing parameters rest hdirection) rows
      refine ⟨nulls, others, order rows, hitems, hperm,
        fun row hrow => SortKey.isMissing_eq_true_iff.mp (by simpa using hnulls row hrow),
        fun row hrow => SortKey.isMissing_eq_false_iff.mp (by simpa using hothers row hrow),
        fun h => (nomatch h), fun _ => hsorted.trans happend, ?_⟩
      rintro rfl
      simpa only [Bool.not_not] using hties (by simpa only [Bool.not_not] using Row.ties_isMissing)

/-- Among keys of three kinds the two rows without a key come last, as they stood. -/
theorem nulls_at_one_end_mixed :
    let draws : Draws := fun _ _ => 0.5
    let key : SortKey := ⟨.plain (.path ["c", "n"]), .descending⟩
    let s : Statement :=
      ⟨.value (.plain (.path ["c"])), .documents, [], none, [], [key], false, 0, none⟩
    let row (members : Members) : Row := .ofDocument draws "c" (.object members)
    let absent := row []
    let null := row [("n", .null)]
    let rows := [row [("n", .text "x")], absent, row [("n", .ofInt 1)], null,
      row [("n", .bool true)]]
    let source : Cursor Empty Row := Cursor.ofList (rows.map .ok)
    s.ordering = [key] ∧ source.items = rows.map .ok ∧
      ∃ others, others.length = 3 ∧
        (source.gather (Row.ordered (s.ordering.map SortKey.descends)
          (resolveKeys [] s.ordering))).items = (others ++ [absent, null]).map .ok := by
  intro draws key s row absent null rows source
  have hitems : source.items = rows.map .ok := Cursor.items_ofList _
  obtain ⟨-, -, nulls, others, sorted, hsorted, hperm, -, -, -, hlast, hnulls⟩ :=
    s.nulls_at_one_end [] (show s.ordering = key :: [] from rfl) hitems
  obtain rfl : nulls = [absent, null] := hnulls rfl
  obtain rfl := hlast rfl
  have hlength := hperm.length_eq
  simp only [List.length_append, List.length_cons, List.length_nil, rows] at hlength
  exact ⟨rfl, hitems, others, by omega, hsorted⟩

end Statement

end DocQuery
