import DocQuery.Proofs.Query.Listing
import Mathlib.Data.List.Induction

/-!
# Groups as functions of lists

Adding items one by one to the group of their key gives, for each key in the order of
first appearance, the items that have it.
-/

namespace DocQuery

variable {α : Type}

namespace Grouping

variable {κ : Type} [DecidableEq κ]

theorem keyed_append_singleton (key : α → κ) (items : List α) (item : α) :
    keyed key (items ++ [item]) = add (key item) item (keyed key items) := by
  simp [keyed]

/-- Adding an item to groups that are told apart by their keys. -/
theorem add_map (key : α → κ) (item : α) (keys : List κ) (members : κ → List α)
    (distinct : keys.Nodup) :
    add (key item) item (keys.map fun k => (k, members k)) =
      (keys.map fun k => (k, if k = key item then members k ++ [item] else members k)) ++
        if key item ∈ keys then [] else [(key item, [item])] := by
  induction keys with
  | nil => simp [add]
  | cons k rest ih =>
      have hrest := ih (List.nodup_cons.mp distinct).2
      by_cases h : k = key item
      · have habsent : key item ∉ rest := h ▸ (List.nodup_cons.mp distinct).1
        have hsame :
            (rest.map fun k => (k, if k = key item then members k ++ [item] else members k)) =
              rest.map fun k => (k, members k) := by
          apply List.map_congr_left
          intro k hk
          have hk' : k ≠ key item := fun e => habsent (e ▸ hk)
          rw [if_neg hk']
        simp [add, h, hsame]
      · have hne : key item ≠ k := Ne.symm h
        simp [add, h, hne, hrest]

theorem nodup_eraseDups (keys : List κ) : keys.eraseDups.Nodup := by
  induction h : keys.length using Nat.strongRecOn generalizing keys with
  | ind n ih =>
      cases keys with
      | nil => simp
      | cons k rest =>
          rw [List.eraseDups_cons, List.nodup_cons]
          have hshorter : (rest.filter fun other => !other == k).length < n := by
            have := List.length_filter_le (fun other => !other == k) rest
            simp only [List.length_cons] at h
            omega
          exact ⟨by simp, ih _ hshorter _ rfl⟩

/-- The groups of a list are the items of each key, keys in order of first appearance. -/
theorem keyed_eq (key : α → κ) (items : List α) :
    keyed key items =
      (items.map key).eraseDups.map fun k => (k, items.filter fun item => key item = k) := by
  induction items using List.reverseRecOn with
  | nil => rfl
  | append_singleton items item ih =>
      have hkeys : ((items ++ [item]).map key).eraseDups =
          (items.map key).eraseDups ++
            if key item ∈ (items.map key).eraseDups then [] else [key item] := by
        rw [List.map_append, List.eraseDups_append]
        by_cases h : key item ∈ items.map key <;>
          simp [List.removeAll, List.eraseDups_cons, -List.mem_map, h]
      rw [keyed_append_singleton, ih, add_map key item _ _ (nodup_eraseDups _), hkeys,
        List.map_append]
      congr 1
      · apply List.map_congr_left
        intro k _
        by_cases h : k = key item <;> simp [List.filter_append, h, eq_comm]
      · by_cases h : key item ∈ (items.map key).eraseDups
        · rw [if_pos h, if_pos h, List.map_nil]
        · have hnone : items.filter (fun other => key other = key item) = [] := by
            rw [List.filter_eq_nil_iff]
            intro other hother hkey
            have heq : key other = key item := of_decide_eq_true hkey
            exact h (List.mem_eraseDups.mpr (heq ▸ List.mem_map_of_mem hother))
          simp [h, hnone]

theorem groups_eq_groupsBy (key : α → κ) (items : List α) :
    groups key items = Listing.groupsBy key items := by
  rw [groups, keyed_eq, List.map_map, Listing.groupsBy]
  rfl

end Grouping

theorem Row.reduced_eq_standIn (rows : List Row) : Row.reduced rows = Listing.standIn rows := by
  cases rows <;> rfl

theorem Row.grouped_eq (key : Row → List Char) (rows : List Row) :
    Row.grouped key rows = (Listing.groupsBy key rows).flatMap Listing.standIn := by
  rw [Row.grouped, Grouping.groups_eq_groupsBy]
  induction Listing.groupsBy key rows with
  | nil => rfl
  | cons members rest ih =>
      cases members <;>
        simp [ih, List.filterMap_cons, representative?, standingFor, Listing.standIn]

end DocQuery
