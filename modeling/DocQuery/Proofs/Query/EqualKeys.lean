import DocQuery.Proofs.Query.Partition
import DocQuery.Proofs.Value.Keys

/-!
# Rows of equal grouping values

Rows come together by the texts of their grouping values, not by the comparison.  Where these
values are equal, the rows come together exactly when the values are the same down to the
representation of their numbers.
-/

namespace DocQuery

namespace Statement

/--
Equal tuples of values have one key exactly when they are the same tuple, an integer and a
double being different numbers.  So of the rows that reach a grouping, two with equal values
come together in a group exactly when their values are the same.
-/
theorem groupKey_of_equal :
    (∀ us vs : List Value, List.Forall₂ (fun u v => u.equal v = true) us vs →
      (Value.groupKey us = Value.groupKey vs ↔ us = vs)) ∧
    ∀ (ε : Type) (s : Statement) (parameters : Parameters) (source : Cursor ε Row)
      (rows : List Row), s.grouping ≠ [] → source.items = rows.map .ok →
      let values := resolveAll parameters s.grouping
      let grouped := Row.grouped fun row => Value.groupKey (values row)
      grouped ∈ (s.plan parameters).gatherings ∧
        ∃ groups : List Row, (source.gather grouped).items = groups.map .ok ∧
          ∀ a ∈ rows, ∀ b ∈ rows,
            List.Forall₂ (fun u v => Value.equal u v = true) (values a) (values b) →
            ((∃ group ∈ groups, a ∈ group.members ∧ b ∈ group.members) ↔ values a = values b) := by
  refine ⟨fun us vs h => Value.groupKey_eq_iff h, ?_⟩
  intro ε s parameters source rows hgrouping hrows values grouped
  refine ⟨s.grouped_mem_gatherings parameters hgrouping, grouped rows,
    Cursor.items_gather_ok hrows _, ?_⟩
  intro a ha b hb hequal
  have hpartitions := Row.partitions_grouped (fun row => Value.groupKey (values row)) rows
  rw [hpartitions.together_iff ha hb]
  exact Value.groupKey_eq_iff hequal

/-- Rows with the number `1` come together, and one with the number `1.0` stays apart. -/
theorem groupKey_of_equal_ones :
    let draws : Draws := fun _ _ => 0.5
    let s : Statement :=
      ⟨.value (.plain (.path ["c"])), .documents, [], none, [.plain (.path ["c", "n"])], [],
        false, 0, none⟩
    let one : Value := .number (.integer ⟨1, by decide, by decide⟩)
    let alike : Value := .number (.float ⟨1.0, by decide⟩)
    let row (v : Value) : Row := .ofDocument draws "c" (.object [("n", v)])
    let rows := [row one, row alike]
    let source : Cursor Empty Row := Cursor.ofList (rows.map .ok)
    let values := resolveAll [] s.grouping
    Value.groupKey [one] ≠ Value.groupKey [alike] ∧
      List.Forall₂ (fun u v => Value.equal u v = true) (values (row one)) (values (row alike)) ∧
      ∃ groups : List Row,
        (source.gather (Row.grouped fun row => Value.groupKey (values row))).items =
            groups.map .ok ∧
          (∃ group ∈ groups, row one ∈ group.members ∧ row one ∈ group.members) ∧
          ¬∃ group ∈ groups, row one ∈ group.members ∧ row alike ∈ group.members := by
  intro draws s one alike row rows source values
  have hequal : List.Forall₂ (fun u v => Value.equal u v = true) [one] [alike] :=
    .cons rfl .nil
  have hone : List.Forall₂ (fun u v => Value.equal u v = true) [one] [one] :=
    .cons (Value.equal_refl one) .nil
  have hne : [one] ≠ [alike] := by
    intro h
    have hnumber : Number.integer _ = Number.float _ := Value.number.inj (List.cons.inj h).1
    cases hnumber
  have hitems : source.items = rows.map .ok := Cursor.items_ofList _
  obtain ⟨hkeys, hgroups⟩ := groupKey_of_equal
  obtain ⟨-, groups, hgathered, htogether⟩ :=
    hgroups Empty s [] source rows (List.cons_ne_nil _ _) hitems
  have hfirst : row one ∈ rows := List.mem_cons_self
  have hsecond : row alike ∈ rows := List.mem_cons_of_mem _ (List.mem_singleton_self _)
  refine ⟨fun h => hne ((hkeys _ _ hequal).mp h), hequal, groups, hgathered, ?_, ?_⟩
  · exact (htogether _ hfirst _ hfirst hone).mpr rfl
  · exact fun h => hne ((htogether _ hfirst _ hsecond hequal).mp h)

/-- Equal values need not have one key. -/
theorem not_groupKey_of_equal :
    ¬ ∀ us vs : List Value, List.Forall₂ (fun u v => u.equal v = true) us vs →
      Value.groupKey us = Value.groupKey vs := by
  intro h
  let one : Value := .number (.integer ⟨1, by decide, by decide⟩)
  let alike : Value := .number (.float ⟨1.0, by decide⟩)
  have hequal : List.Forall₂ (fun u v => Value.equal u v = true) [one] [alike] :=
    .cons rfl .nil
  have hsame : [one] = [alike] := (Value.groupKey_eq_iff hequal).mp (h _ _ hequal)
  have hnumber : Number.integer _ = Number.float _ := Value.number.inj (List.cons.inj hsame).1
  cases hnumber

end Statement

end DocQuery
