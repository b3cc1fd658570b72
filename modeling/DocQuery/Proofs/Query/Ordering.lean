import DocQuery.Proofs.Query.Sorted
import DocQuery.Proofs.Query.Stages
import DocQuery.Proofs.Value.Comparison

/-!
# Rows in an order

Where the values of each sort key lie on one scale, rows come out sorted by the first key
that tells them apart, and rows that no key tells apart come out in the order in which
they came in.  There is only one such arrangement.
-/

namespace DocQuery

variable {ε : Type} {parameters : Parameters}

/-! ## One key -/

namespace SortKey

/-- Whether a key puts a row before another one: below it, or above it when it descends. -/
def precedes (parameters : Parameters) (key : SortKey) (a b : Row) : Bool :=
  match key.direction with
  | .ascending => (key.term.resolve parameters a).isBelow (key.term.resolve parameters b)
  | .descending => (key.term.resolve parameters b).isBelow (key.term.resolve parameters a)

def compareRanks (parameters : Parameters) (key : SortKey) : Row → Row → Ordering :=
  let rank (row : Row) := (key.term.resolve parameters row).rank
  if key.descends then fun a b => compareOn rank b a else compareOn rank

instance transCmp_compareRanks (parameters : Parameters) (key : SortKey) :
    Std.TransCmp (key.compareRanks parameters) := by
  unfold compareRanks
  split
  · exact Std.TransCmp.opposite
  · infer_instance

variable {key : SortKey} {scale : Scale} {a b : Row}

theorem compare_eq (ha : (key.term.resolve parameters a).On scale)
    (hb : (key.term.resolve parameters b).On scale) :
    (if key.descends then
        (key.term.resolve parameters b).compare (key.term.resolve parameters a)
      else (key.term.resolve parameters a).compare (key.term.resolve parameters b)) =
      key.compareRanks parameters a b := by
  unfold compareRanks
  cases key.descends with
  | false => exact Value.compare_eq_of_on ha hb
  | true => exact Value.compare_eq_of_on hb ha

theorem precedes_eq (ha : (key.term.resolve parameters a).On scale)
    (hb : (key.term.resolve parameters b).On scale) :
    key.precedes parameters a b = (key.compareRanks parameters a b == .lt) := by
  rw [← compare_eq ha hb, precedes, descends]
  cases key.direction with
  | ascending => exact Value.isBelow_eq_of_on ha hb
  | descending => exact Value.isBelow_eq_of_on hb ha

end SortKey

/-! ## Several keys -/

namespace Row

/--
Whether a row stands before another one in an order: the first key that tells them apart
decides.
-/
def precedes (parameters : Parameters) : List SortKey → Row → Row → Bool
  | [], _, _ => false
  | key :: rest, a, b =>
      key.precedes parameters a b ||
        (!key.precedes parameters b a && precedes parameters rest a b)

def compareRanks (parameters : Parameters) : List SortKey → Row → Row → Ordering
  | [] => fun _ _ => .eq
  | key :: rest => compareLex (key.compareRanks parameters) (compareRanks parameters rest)

instance transCmp_compareRanks (parameters : Parameters) (ordering : List SortKey) :
    Std.TransCmp (compareRanks parameters ordering) := by
  induction ordering with
  | nil =>
      have : Std.OrientedCmp (compareRanks parameters []) := ⟨rfl⟩
      exact ⟨fun _ _ => rfl⟩
  | cons key rest ih => exact inferInstanceAs (Std.TransCmp (compareLex _ _))

/-- Whether each sort key has values on one scale, whatever the row. -/
def OnScales (parameters : Parameters) (ordering : List SortKey) (rows : List Row) : Prop :=
  ∀ key ∈ ordering, ∃ scale, ∀ row ∈ rows, (key.term.resolve parameters row).On scale

variable {ordering : List SortKey} {rows : List Row} {a b : Row}

theorem OnScales.tail {key : SortKey} (h : OnScales parameters (key :: ordering) rows) :
    OnScales parameters ordering rows :=
  fun other hother => h other (List.mem_cons_of_mem key hother)

/-- On scales the keys of two rows compare like the places of their values. -/
theorem compareKeys_eq (h : OnScales parameters ordering rows) (ha : a ∈ rows) (hb : b ∈ rows) :
    compareKeys (ordering.map SortKey.descends) (resolveKeys parameters ordering a)
      (resolveKeys parameters ordering b) = compareRanks parameters ordering a b := by
  induction ordering with
  | nil => rfl
  | cons key rest ih =>
      obtain ⟨scale, hscale⟩ := h key List.mem_cons_self
      have hkey := SortKey.compare_eq (hscale a ha) (hscale b hb)
      obtain ⟨term, direction⟩ := key
      rw [List.map_cons, resolveKeys, resolveKeys, compareKeys, hkey, ih h.tail, compareRanks,
        compareLex]
      cases SortKey.compareRanks parameters ⟨term, direction⟩ a b <;> rfl

/-- On scales the rows that stand before another one are those that compare as less. -/
theorem precedes_eq (h : OnScales parameters ordering rows) (ha : a ∈ rows) (hb : b ∈ rows) :
    precedes parameters ordering a b = (compareRanks parameters ordering a b == .lt) := by
  induction ordering with
  | nil => rfl
  | cons key rest ih =>
      obtain ⟨scale, hscale⟩ := h key List.mem_cons_self
      have hswap : key.compareRanks parameters b a = (key.compareRanks parameters a b).swap :=
        Std.OrientedCmp.eq_swap
      rw [precedes, SortKey.precedes_eq (hscale a ha) (hscale b hb),
        SortKey.precedes_eq (hscale b hb) (hscale a ha), hswap, ih h.tail, compareRanks, compareLex]
      cases key.compareRanks parameters a b <;> simp

/-- On scales rows are put in order by the places of their keys. -/
theorem ordered_eq (h : OnScales parameters ordering rows) :
    ordered (ordering.map SortKey.descends) (resolveKeys parameters ordering) rows =
      Sorting.sort (compareRanks parameters ordering) rows := by
  rw [ordered_eq_sort]
  exact Sorting.sort_congr fun a ha b hb => compareKeys_eq h ha hb

theorem stablySorted_iff (h : OnScales parameters ordering rows) {out : List Row} :
    Sorting.StablySorted (precedes parameters ordering) rows out ↔
      out = ordered (ordering.map SortKey.descends) (resolveKeys parameters ordering) rows := by
  have hbefore : ∀ a ∈ rows, ∀ b ∈ rows, precedes parameters ordering a b =
      (compareRanks parameters ordering a b == .lt) := fun a ha b hb => precedes_eq h ha hb
  rw [ordered_eq h, ← Sorting.stablySorted_iff]
  exact ⟨fun hsorted => hsorted.congr hbefore,
    fun hsorted => hsorted.congr fun a ha b hb => (hbefore a ha b hb).symm⟩

end Row

/-! ## The ordering of a statement -/

namespace Statement

/-- A statement with an order has the stage that puts its rows into it. -/
theorem ordered_mem_gatherings (s : Statement) (parameters : Parameters)
    (hordering : s.ordering ≠ []) :
    Row.ordered (s.ordering.map SortKey.descends) (resolveKeys parameters s.ordering) ∈
      (s.plan parameters).gatherings := by
  have hempty : ¬s.ordering.isEmpty := fun h => hordering (List.isEmpty_iff.mp h)
  rw [s.plan_gatherings, if_neg hempty]
  exact List.mem_append_left _ (List.mem_append_right _ List.mem_cons_self)

/--
A statement with an order puts rows whose sort keys lie on scales into the one arrangement
that is sorted and keeps tied rows as they came.
-/
theorem stablySorted_ordered (s : Statement) (parameters : Parameters) (hordering : s.ordering ≠ [])
    {source : Cursor ε Row} {rows : List Row} (hrows : source.items = rows.map .ok)
    (hscales : Row.OnScales parameters s.ordering rows) :
    let order := Row.ordered (s.ordering.map SortKey.descends) (resolveKeys parameters s.ordering)
    order ∈ (s.plan parameters).gatherings ∧
      ∃ sorted, (source.gather order).items = sorted.map .ok ∧
        ∀ out, Sorting.StablySorted (Row.precedes parameters s.ordering) rows out ↔
          out = sorted := by
  intro order
  exact ⟨s.ordered_mem_gatherings parameters hordering, order rows,
    Cursor.items_gather_ok hrows order, fun out => Row.stablySorted_iff hscales⟩

/-- Of keys `1`, `1.0` and none the equal ones stay as they were, and none comes last. -/
theorem stablySorted_ordered_mixed :
    let draws : Draws := fun _ _ => 0.5
    let s : Statement :=
      ⟨.value (.plain (.path ["c"])), .documents, [], none, [],
        [⟨.plain (.path ["c", "n"]), .descending⟩, ⟨.plain (.path ["c", "t"]), .ascending⟩],
        false, 0, none⟩
    let row (members : Members) : Row := .ofDocument draws "c" (.object members)
    let later := row [("n", .ofInt 1), ("t", .text "b")]
    let whole := row [("n", .ofInt 1), ("t", .text "a")]
    let double := row [("n", .ofFloat 1.0), ("t", .text "a")]
    let absent := row [("t", .text "a")]
    let source : Cursor Empty Row :=
      Cursor.ofList ([later, double, whole, absent].map .ok)
    s.ordering ≠ [] ∧ source.items = [later, double, whole, absent].map .ok ∧
      Row.OnScales [] s.ordering [later, double, whole, absent] ∧
      (source.gather (Row.ordered (s.ordering.map SortKey.descends)
        (resolveKeys [] s.ordering))).items = [double, whole, later, absent].map .ok := by
  intro draws s row later whole double absent source
  have hitems : source.items = [later, double, whole, absent].map .ok := Cursor.items_ofList _
  have hscales : Row.OnScales [] s.ordering [later, double, whole, absent] := by
    intro key hkey
    simp only [s, List.mem_cons, List.not_mem_nil, or_false] at hkey
    rcases hkey with rfl | rfl
    · refine ⟨.numbers, List.forall_mem_cons.mpr ⟨.number _, List.forall_mem_cons.mpr
        ⟨.number _, List.forall_mem_cons.mpr ⟨.number _, List.forall_mem_singleton.mpr ?_⟩⟩⟩⟩
      exact .null _
    · exact ⟨.texts, List.forall_mem_cons.mpr ⟨.text _, List.forall_mem_cons.mpr
        ⟨.text _, List.forall_mem_cons.mpr ⟨.text _, List.forall_mem_singleton.mpr (.text _)⟩⟩⟩⟩
  obtain ⟨-, sorted, hsorted, hunique⟩ := s.stablySorted_ordered [] (by simp [s]) hitems hscales
  have harranged : Sorting.StablySorted (Row.precedes [] s.ordering)
      [later, double, whole, absent] [double, whole, later, absent] := by
    have hmoved : ([double, whole] ++ [later]).Perm ([later] ++ [double, whole]) :=
      List.perm_append_comm
    refine ⟨hmoved.append_right [absent], by decide +kernel, ?_⟩
    intro a ha
    simp only [List.mem_cons, List.not_mem_nil, or_false] at ha
    rcases ha with rfl | rfl | rfl | rfl <;> rfl
  exact ⟨by simp [s], hitems, hscales, hsorted.trans (by rw [← (hunique _).mp harranged])⟩

end Statement

end DocQuery
