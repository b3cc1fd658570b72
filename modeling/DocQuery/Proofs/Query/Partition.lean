import DocQuery.Proofs.Query.Groups
import DocQuery.Proofs.Query.Stages
import Mathlib.Algebra.GroupWithZero.Nat
import Mathlib.Data.List.Basic

/-!
# Groups as a partition

Grouping loses no row and repeats none.  There is one group for each key, keys in the
order in which they appear first, and its members are the rows with that key in their own
order.  What is counted in the groups adds up to what is counted in all rows.
-/

namespace DocQuery

variable {α ε : Type}

/-! ## Items by key -/

/-- Keys that cover a list cut it into the items of each key. -/
theorem Grouping.flatMap_filter_perm {κ : Type} [DecidableEq κ] (key : α → κ) {keys : List κ}
    (distinct : keys.Nodup) {items : List α} (covered : ∀ item ∈ items, key item ∈ keys) :
    (keys.flatMap fun k => items.filter fun item => key item = k).Perm items := by
  induction keys generalizing items with
  | nil =>
      have hnone : items = [] :=
        List.eq_nil_iff_forall_not_mem.mpr fun item h => List.not_mem_nil (covered item h)
      rw [hnone, List.flatMap_nil]
  | cons k rest ih =>
      obtain ⟨habsent, hdistinct⟩ := List.nodup_cons.mp distinct
      let others := items.filter fun item => !decide (key item = k)
      have hcovered : ∀ item ∈ others, key item ∈ rest := by
        intro item hitem
        obtain ⟨hmem, hkey⟩ := List.mem_filter.mp hitem
        have hne : key item ≠ k := by simpa using hkey
        exact List.mem_of_ne_of_mem hne (covered item hmem)
      have hothers : (rest.flatMap fun k' => others.filter fun item => key item = k') =
          rest.flatMap fun k' => items.filter fun item => key item = k' := by
        refine List.flatMap_congr fun k' hk' => ?_
        rw [List.filter_filter]
        refine List.filter_congr fun item _ => ?_
        have hne : k' ≠ k := fun h => habsent (h ▸ hk')
        by_cases h : key item = k' <;> simp [h, hne]
      rw [List.flatMap_cons, ← hothers]
      exact ((ih hdistinct hcovered).append_left _).trans (List.filter_append_perm _ items)

namespace Listing

variable {κ : Type} [DecidableEq κ] {key : α → κ} {items : List α}

theorem flatten_groupsBy_perm : (groupsBy key items).flatten.Perm items := by
  rw [groupsBy, ← List.flatMap_def]
  refine Grouping.flatMap_filter_perm key (Grouping.nodup_eraseDups _) fun item hitem => ?_
  exact List.mem_eraseDups.mpr (List.mem_map_of_mem hitem)

theorem ne_nil_of_mem_groupsBy {members : List α} (h : members ∈ groupsBy key items) :
    members ≠ [] := by
  obtain ⟨k, hk, rfl⟩ := List.mem_map.mp h
  obtain ⟨item, hitem, rfl⟩ := List.mem_map.mp (List.mem_eraseDups.mp hk)
  exact List.ne_nil_of_mem (List.mem_filter.mpr ⟨hitem, by simp⟩)

end Listing

/-! ## Rows that stand for groups -/

namespace Row

variable {κ : Type} [DecidableEq κ]

/-- Whether some rows stand for the groups of others by a key. -/
structure Partitions (key : Row → κ) (rows groups : List Row) : Prop where
  /-- A group for each key, keys in order of first appearance, of the rows with that key. -/
  members : groups.map Row.members =
    (rows.map key).eraseDups.map fun k => rows.filter fun row => key row = k
  /-- Each group has the bindings of its first row. -/
  bindings : ∀ group ∈ groups,
    ∃ first, group.members.head? = some first ∧ group.bindings = first.bindings
  /-- No row is lost and none is repeated. -/
  conserved : (groups.flatMap Row.members).Perm rows

theorem map_members_grouped (key : Row → List Char) (rows : List Row) :
    (grouped key rows).map Row.members = Listing.groupsBy key rows := by
  rw [grouped_eq, List.map_flatMap]
  have hmembers : ∀ members ∈ Listing.groupsBy key rows,
      (Listing.standIn members).map Row.members = [members] := by
    intro members h
    cases members with
    | nil => exact absurd rfl (Listing.ne_nil_of_mem_groupsBy h)
    | cons first rest => rfl
  exact (List.flatMap_congr hmembers).trans (List.flatMap_singleton' _)

theorem partitions_grouped (key : Row → List Char) (rows : List Row) :
    Partitions key rows (grouped key rows) where
  members := map_members_grouped key rows
  bindings group hgroup := by
    rw [grouped_eq] at hgroup
    obtain ⟨members, -, hgroup⟩ := List.mem_flatMap.mp hgroup
    cases members with
    | nil => exact absurd hgroup List.not_mem_nil
    | cons first rest =>
        rw [Listing.standIn, List.mem_singleton] at hgroup
        exact ⟨first, hgroup ▸ rfl, hgroup ▸ rfl⟩
  conserved := by
    rw [List.flatMap_def, map_members_grouped]
    exact Listing.flatten_groupsBy_perm

/-- Two rows come together in a group exactly when they have the same key. -/
theorem Partitions.together_iff {key : Row → κ} {rows groups : List Row}
    (h : Partitions key rows groups) {a b : Row} (ha : a ∈ rows) (hb : b ∈ rows) :
    (∃ group ∈ groups, a ∈ group.members ∧ b ∈ group.members) ↔ key a = key b := by
  constructor
  · rintro ⟨group, hgroup, hmemberA, hmemberB⟩
    have hmembers := List.mem_map_of_mem hgroup (f := Row.members)
    rw [h.members] at hmembers
    obtain ⟨k, -, hk⟩ := List.mem_map.mp hmembers
    rw [← hk, List.mem_filter, decide_eq_true_eq] at hmemberA hmemberB
    exact hmemberA.2.trans hmemberB.2.symm
  · intro hkey
    have hmembers : (rows.filter fun row => key row = key a) ∈ groups.map Row.members := by
      rw [h.members]
      exact List.mem_map_of_mem (List.mem_eraseDups.mpr (List.mem_map_of_mem ha))
    obtain ⟨group, hgroup, hfilter⟩ := List.mem_map.mp hmembers
    refine ⟨group, hgroup, ?_, ?_⟩
    · rw [hfilter]
      exact List.mem_filter.mpr ⟨ha, decide_eq_true rfl⟩
    · rw [hfilter]
      exact List.mem_filter.mpr ⟨hb, decide_eq_true hkey.symm⟩

end Row

/-! ## Counts -/

def Term.countIn (parameters : Parameters) (rows : List Row) (t : Term) : Nat :=
  rows.countP fun row => !(t.resolve parameters row).isNull

/-- Counting a term for a row that stands for others is over these. -/
theorem Term.resolve_count (parameters : Parameters) (t : Term) (row : Row) :
    (Term.plain (.call (.aggregate .count) [t])).resolve parameters row =
      .ofNat (t.countIn parameters row.members) := by
  have hvalues : (row.members.map fun member => resolveFirst parameters [t] member) =
      row.members.map fun member => t.resolve parameters member := by
    simp only [resolveFirst]
  rw [Term.plain, Term.resolve, Form.resolve, hvalues, Aggregate.apply, List.countP_map]
  rfl

theorem Row.Partitions.sum_countIn {κ : Type} [DecidableEq κ] {key : Row → κ}
    {rows groups : List Row} (h : Partitions key rows groups) (parameters : Parameters) (t : Term) :
    (groups.map fun group => t.countIn parameters group.members).sum =
      t.countIn parameters rows := by
  unfold Term.countIn
  rw [← h.conserved.countP_eq, List.countP_flatMap]
  rfl

/-! ## The grouping of a statement -/

namespace Statement

/-- A statement with a grouping has the stage that makes its groups. -/
theorem grouped_mem_gatherings (s : Statement) (parameters : Parameters)
    (hgrouping : s.grouping ≠ []) :
    (Row.grouped fun row => Value.groupKey (resolveAll parameters s.grouping row)) ∈
      (s.plan parameters).gatherings := by
  have hempty : ¬s.grouping.isEmpty := fun h => hgrouping (List.isEmpty_iff.mp h)
  rw [s.plan_gatherings, if_neg hempty]
  exact List.mem_append_left _ (List.mem_append_left _ List.mem_cons_self)

/--
A statement with a grouping makes a partition of the rows that reach it by the values of
its keys.  The counts of any term in the groups add up to its count in a row that stands
for all of the rows.
-/
theorem partitions_grouping (s : Statement) (parameters : Parameters) (hgrouping : s.grouping ≠ [])
    {source : Cursor ε Row} {rows : List Row} (hrows : source.items = rows.map .ok) :
    let key (row : Row) := Value.groupKey (resolveAll parameters s.grouping row)
    Row.grouped key ∈ (s.plan parameters).gatherings ∧
      ∃ groups, (source.gather (Row.grouped key)).items = groups.map .ok ∧
        Row.Partitions key rows groups ∧
        ∀ t : Term, ∃ counts : List Nat,
          let count := (Term.plain (.call (.aggregate .count) [t])).resolve parameters
          groups.map count = counts.map Value.ofNat ∧ counts.sum = t.countIn parameters rows ∧
            ∀ whole : Row, whole.members = rows → count whole = .ofNat counts.sum := by
  intro key
  have hpartitions := Row.partitions_grouped key rows
  refine ⟨s.grouped_mem_gatherings parameters hgrouping, Row.grouped key rows,
    Cursor.items_gather_ok hrows _, hpartitions, fun t => ?_⟩
  refine ⟨(Row.grouped key rows).map fun group => t.countIn parameters group.members, ?_,
    hpartitions.sum_countIn parameters t, fun whole hwhole => ?_⟩
  · rw [List.map_map]
    exact List.map_congr_left fun group _ => t.resolve_count parameters group
  · rw [hpartitions.sum_countIn, t.resolve_count, hwhole]

/-- Of kinds `a`, `b`, `a` the first and the last come together, and a null is not counted. -/
theorem partitions_grouping_kinds :
    let draws : Draws := fun _ _ => 0.5
    let s : Statement :=
      ⟨.value (.plain (.path ["c"])), .documents, [], none, [.plain (.path ["c", "kind"])], [],
        false, 0, none⟩
    let row (kind : String) (v : Value) : Row :=
      .ofDocument draws "c" (.object [("kind", .text kind), ("v", v)])
    let first := row "a" (.ofInt 1)
    let other := row "b" (.bool true)
    let last := row "a" .null
    let source : Cursor Empty Row := Cursor.ofList ([first, other, last].map .ok)
    let key (row : Row) := Value.groupKey (resolveAll [] s.grouping row)
    let v : Term := .plain (.path ["c", "v"])
    s.grouping ≠ [] ∧ source.items = [first, other, last].map .ok ∧
      ∃ (groups : List Row) (counts : List Nat),
        (source.gather (Row.grouped key)).items = groups.map .ok ∧
          groups.map Row.members = [[first, last], [other]] ∧
          groups.map ((Term.plain (.call (.aggregate .count) [v])).resolve []) =
            counts.map Value.ofNat ∧ counts.sum = 2 := by
  intro draws s row first other last source key v
  have hitems : source.items = [first, other, last].map .ok := Cursor.items_ofList _
  obtain ⟨-, groups, hgroups, hpartitions, hcounts⟩ :=
    s.partitions_grouping [] (List.cons_ne_nil _ _) hitems
  obtain ⟨counts, hcount, hsum, -⟩ := hcounts v
  exact ⟨List.cons_ne_nil _ _, hitems, groups, counts, hgroups, hpartitions.members.trans rfl,
    hcount, hsum.trans rfl⟩

end Statement

end DocQuery
