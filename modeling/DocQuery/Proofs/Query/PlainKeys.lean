import DocQuery.Proofs.Query.Partition
import DocQuery.Proofs.Value.Keys

/-!
# Keys of values without colons

In a grouping key a colon ends the text of each value, and nothing marks a colon that belongs
to a text.  Where no value has one, the key can be cut at its colons again, so two tuples have
one key exactly when they print alike place by place.
-/

namespace DocQuery

namespace Value

variable {u v : Value} {us vs : List Value}

/-- The values that print without a colon: null, booleans, numbers and strings without one. -/
inductive Colonless : Value → Prop where
  | null : Colonless .null
  | bool (b : Bool) : Colonless (.bool b)
  | number (n : Number) : Colonless (.number n)
  | text {s : String} (h : ':' ∉ s.toList) : Colonless (.text s)

/-- What a value prints in a key: a mark for null, a string itself, anything else its JSON text. -/
def printed : Value → String
  | null => "<nil>"
  | text s => s
  | other => other.json

theorem keyPart_eq_toList_printed (v : Value) : v.keyPart = v.printed.toList := by
  cases v with
  | null => rfl
  | text s => rfl
  | _ => exact String.toList_ofList.symm

theorem keyPart_eq_iff : u.keyPart = v.keyPart ↔ u.printed = v.printed := by
  rw [keyPart_eq_toList_printed, keyPart_eq_toList_printed, String.toList_inj]

theorem Colonless.colon_not_mem (h : v.Colonless) : ':' ∉ v.keyPart := by
  cases h with
  | null => decide
  | bool b => cases b <;> decide
  | number n => exact Json.colon_not_mem_number n
  | text h => exact h

/-- Keys of values without colons are cut at the colons in one way only. -/
theorem groupKey_eq_iff_printed (hus : ∀ u ∈ us, u.Colonless) (hvs : ∀ v ∈ vs, v.Colonless) :
    groupKey us = groupKey vs ↔ List.Forall₂ (fun u v => u.printed = v.printed) us vs := by
  induction us generalizing vs with
  | nil =>
      cases vs with
      | nil => exact iff_of_true rfl .nil
      | cons v vs => simp [groupKey_nil, groupKey_cons]
  | cons u us ih =>
      obtain ⟨hu, hus⟩ := List.forall_mem_cons.mp hus
      cases vs with
      | nil => simp [groupKey_nil, groupKey_cons]
      | cons v vs =>
          obtain ⟨hv, hvs⟩ := List.forall_mem_cons.mp hvs
          rw [groupKey_cons, groupKey_cons, List.forall₂_cons, ← ih hus hvs, ← keyPart_eq_iff]
          constructor
          · intro hkey
            by_cases hpart : u.keyPart = v.keyPart
            · rw [hpart] at hkey
              exact ⟨hpart, (List.cons.inj (List.append_cancel_left hkey)).2⟩
            · exact absurd hkey
                (Apart.of_ne hpart hu.colon_not_mem hv.colon_not_mem _ _).ne
          · rintro ⟨hpart, hrest⟩
            rw [hpart, hrest]

/-- A colon in a string lets its text move into the next column. -/
example : groupKey [.text "a:", .text "b"] = groupKey [.text "a", .text ":b"] := by decide

end Value

namespace Statement

/--
Of values without colons, two tuples have one key exactly when they have the same length and
print alike at every place.  So of the rows that reach a grouping, two with such values come
together in a group exactly when their values print alike, column by column.
-/
theorem groupKey_of_colonless :
    (∀ us vs : List Value, (∀ u ∈ us, u.Colonless) → (∀ v ∈ vs, v.Colonless) →
      (Value.groupKey us = Value.groupKey vs ↔
        List.Forall₂ (fun u v => u.printed = v.printed) us vs)) ∧
    ∀ (ε : Type) (s : Statement) (parameters : Parameters) (source : Cursor ε Row)
      (rows : List Row), s.grouping ≠ [] → source.items = rows.map .ok →
      let values := resolveAll parameters s.grouping
      let grouped := Row.grouped fun row => Value.groupKey (values row)
      grouped ∈ (s.plan parameters).gatherings ∧
        ∃ groups : List Row, (source.gather grouped).items = groups.map .ok ∧
          ∀ a ∈ rows, ∀ b ∈ rows,
            (∀ v ∈ values a, v.Colonless) → (∀ v ∈ values b, v.Colonless) →
            ((∃ group ∈ groups, a ∈ group.members ∧ b ∈ group.members) ↔
              List.Forall₂ (fun u v => u.printed = v.printed) (values a) (values b)) := by
  refine ⟨fun us vs hus hvs => Value.groupKey_eq_iff_printed hus hvs, ?_⟩
  intro ε s parameters source rows hgrouping hrows values grouped
  refine ⟨s.grouped_mem_gatherings parameters hgrouping, grouped rows,
    Cursor.items_gather_ok hrows _, ?_⟩
  intro a ha b hb hvaluesA hvaluesB
  have hpartitions := Row.partitions_grouped (fun row => Value.groupKey (values row)) rows
  rw [hpartitions.together_iff ha hb]
  exact Value.groupKey_eq_iff_printed hvaluesA hvaluesB

/--
Null and `1` come together with the strings that print like them; `"a"` and the empty string
stay apart from the empty string and `"a"`.
-/
theorem groupKey_of_colonless_strings :
    let draws : Draws := fun _ _ => 0.5
    let s : Statement :=
      ⟨.value (.plain (.path ["c"])), .documents, [], none,
        [.plain (.path ["c", "k"]), .plain (.path ["c", "n"])], [], false, 0, none⟩
    let row (k n : Value) : Row := .ofDocument draws "c" (.object [("k", k), ("n", n)])
    let plain := row .null (.ofInt 1)
    let alike := row (.text "<nil>") (.text "1")
    let left := row (.text "a") (.text "")
    let right := row (.text "") (.text "a")
    let rows := [plain, left, alike, right]
    let source : Cursor Empty Row := Cursor.ofList (rows.map .ok)
    let values := resolveAll [] s.grouping
    Value.groupKey [.text "a", .text ""] ≠ Value.groupKey [.text "", .text "a"] ∧
      ∃ groups : List Row,
        (source.gather (Row.grouped fun row => Value.groupKey (values row))).items =
            groups.map .ok ∧
          (∃ group ∈ groups, plain ∈ group.members ∧ alike ∈ group.members) ∧
          ¬∃ group ∈ groups, left ∈ group.members ∧ right ∈ group.members := by
  intro draws s row plain alike left right rows source values
  have hplain : ∀ v ∈ values plain, v.Colonless :=
    List.forall_mem_cons.mpr ⟨.null, List.forall_mem_singleton.mpr (.number _)⟩
  have htexts (k n : String) (hk : ':' ∉ k.toList) (hn : ':' ∉ n.toList) :
      ∀ v ∈ values (row (.text k) (.text n)), v.Colonless :=
    List.forall_mem_cons.mpr ⟨.text hk, List.forall_mem_singleton.mpr (.text hn)⟩
  have halike := htexts "<nil>" "1" (by decide) (by decide)
  have hleft := htexts "a" "" (by decide) (by decide)
  have hright := htexts "" "a" (by decide) (by decide)
  have hitems : source.items = rows.map .ok := Cursor.items_ofList _
  have hshifted :
      ¬List.Forall₂ (fun u v => u.printed = v.printed) (values left) (values right) := by
    intro h
    have hfirst : "a" = "" := (List.forall₂_cons.mp h).1
    exact absurd hfirst (by decide)
  obtain ⟨hkeys, hgroups⟩ := groupKey_of_colonless
  obtain ⟨-, groups, hgathered, htogether⟩ :=
    hgroups Empty s [] source rows (List.cons_ne_nil _ _) hitems
  refine ⟨fun h => hshifted ((hkeys _ _ hleft hright).mp h), groups, hgathered, ?_, ?_⟩
  · exact (htogether plain (by simp [rows]) alike (by simp [rows]) hplain halike).mpr
      (.cons rfl (.cons rfl .nil))
  · exact fun h =>
      hshifted ((htogether left (by simp [rows]) right (by simp [rows]) hleft hright).mp h)

end Statement

end DocQuery
