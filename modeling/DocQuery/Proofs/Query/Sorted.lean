import DocQuery.Query.Plan
import Mathlib.Data.List.Basic

/-!
# Stable sorting

Sorting rearranges a list whatever the comparison is.  With a comparison that is
transitive and turns around with its arguments, the result is the one arrangement that
is sorted and keeps tied items in their order.
-/

namespace DocQuery

namespace Sorting

variable {α β : Type}

theorem sort_perm (compare : α → α → Ordering) (items : List α) :
    (sort compare items).Perm items := by
  fun_induction sort compare items with
  | case1 items h => exact .refl _
  | case2 items h ihLeft ihRight =>
      rw [merge_eq]
      refine (List.merge_perm_append _).trans ((ihLeft.append ihRight).trans ?_)
      rw [List.take_append_drop]

/-- Mapping a sorted list sorts the mapped one, when the items compare like their images. -/
theorem map_sort {compare : α → α → Ordering} (compare' : β → β → Ordering) (f : α → β)
    (items : List α)
    (h : ∀ a ∈ items, ∀ b ∈ items, compare a b = compare' (f a) (f b)) :
    (sort compare items).map f = sort compare' (items.map f) := by
  fun_induction sort compare items with
  | case1 items hlength => exact (sort_of_length_le_one (by simpa using hlength)).symm
  | case2 items hlength ihLeft ihRight =>
      have hleft := ihLeft fun a ha b hb =>
        h a (List.mem_of_mem_take ha) b (List.mem_of_mem_take hb)
      have hright := ihRight fun a ha b hb =>
        h a (List.mem_of_mem_drop ha) b (List.mem_of_mem_drop hb)
      let left := sort compare (items.take (items.length / 2))
      let right := sort compare (items.drop (items.length / 2))
      have hmerge : (List.merge left right (leftFirst compare)).map f =
          List.merge (left.map f) (right.map f) (leftFirst compare') :=
        List.map_merge fun a ha b hb => by
          have ha' := List.mem_of_mem_take ((sort_perm _ _).mem_iff.mp ha)
          have hb' := List.mem_of_mem_drop ((sort_perm _ _).mem_iff.mp hb)
          rw [leftFirst, leftFirst, h b hb' a ha']
      rw [merge_eq, hmerge, hleft, hright, List.map_take, List.map_drop, ← merge_eq]
      rw [sort.eq_1 compare' (items.map f), if_neg (by simpa using hlength), List.length_map]

/-- Sorting only sees how the items of a list compare. -/
theorem sort_congr {compare compare' : α → α → Ordering} {items : List α}
    (h : ∀ a ∈ items, ∀ b ∈ items, compare a b = compare' a b) :
    sort compare items = sort compare' items := by
  have hsort := map_sort compare' id items h
  rwa [List.map_id, List.map_id] at hsort

def tied (before : α → α → Bool) (a b : α) : Bool :=
  !before a b && !before b a

/-- A list in which no item comes before an earlier one, and tied items are as they were. -/
structure StablySorted (before : α → α → Bool) (items out : List α) : Prop where
  perm : out.Perm items
  sorted : out.Pairwise fun a b => before b a = false
  stable : ∀ a ∈ items, out.filter (tied before a) = items.filter (tied before a)

theorem StablySorted.congr {before before' : α → α → Bool} {items out : List α}
    (h : StablySorted before items out)
    (hbefore : ∀ a ∈ items, ∀ b ∈ items, before a b = before' a b) :
    StablySorted before' items out := by
  have hmem : ∀ a ∈ out, a ∈ items := fun a => h.perm.mem_iff.mp
  have htied : ∀ a ∈ items, ∀ b ∈ items, tied before a b = tied before' a b := by
    intro a ha b hb
    rw [tied, tied, hbefore a ha b hb, hbefore b hb a ha]
  refine ⟨h.perm, h.sorted.imp_of_mem fun ha hb hab => ?_, fun a ha => ?_⟩
  · rw [← hbefore _ (hmem _ hb) _ (hmem _ ha)]
    exact hab
  · rw [← List.filter_congr fun b hb => htied a ha b hb,
      ← List.filter_congr fun b hb => htied a ha b (hmem b hb)]
    exact h.stable a ha

/-! ## Sorting by a preorder -/

section Preorder

variable {compare : α → α → Ordering} [Std.TransCmp compare]

theorem compare_swap (compare : α → α → Ordering) [Std.TransCmp compare] (a b : α) :
    compare a b = (compare b a).swap :=
  Std.OrientedCmp.eq_swap

theorem leftFirst_eq (a b : α) : leftFirst compare a b = (compare a b).isLE := by
  rw [leftFirst, compare_swap compare b a]
  cases compare a b <;> rfl

theorem tied_eq (a b : α) :
    tied (fun a b => compare a b == .lt) a b = (compare a b == .eq) := by
  rw [tied, compare_swap compare b a]
  cases compare a b <;> rfl

theorem not_before_iff {a b : α} : (compare b a == .lt) = false ↔ (compare a b).isLE := by
  rw [compare_swap compare b a]
  cases compare a b <;> decide

theorem eq_of_isLE {a b : α} (hab : (compare a b).isLE) (hba : (compare b a).isLE) :
    compare a b = .eq := by
  rw [compare_swap compare b a] at hba
  cases h : compare a b with
  | lt => simp [h] at hba
  | eq => rfl
  | gt => simp [h] at hab

theorem pairwise_merge {left right : List α}
    (hleft : left.Pairwise fun a b => (compare a b).isLE)
    (hright : right.Pairwise fun a b => (compare a b).isLE) :
    (left.merge right (leftFirst compare)).Pairwise fun a b => (compare a b).isLE := by
  have hle : leftFirst compare = fun a b => (compare a b).isLE := by
    funext a b
    exact leftFirst_eq a b
  rw [hle]
  refine List.pairwise_merge (fun a b c => Std.TransCmp.isLE_trans) (fun a b => ?_) left right
    hleft hright
  rw [compare_swap compare b a]
  cases compare a b <;> rfl

theorem pairwise_sort (items : List α) :
    (sort compare items).Pairwise fun a b => (compare a b).isLE := by
  fun_induction sort compare items with
  | case1 items h =>
      cases items with
      | nil => exact .nil
      | cons item rest =>
          have hrest : rest = [] := by simpa using h
          simp [hrest]
  | case2 items h ihLeft ihRight =>
      rw [merge_eq]
      exact pairwise_merge ihLeft ihRight

/-- Of two sorted lists the items tied with a given one are merged left before right. -/
theorem filter_merge (a : α) {left right : List α}
    (hleft : left.Pairwise fun a b => (compare a b).isLE) :
    (left.merge right (leftFirst compare)).filter (fun b => compare a b == .eq) =
      left.filter (fun b => compare a b == .eq) ++ right.filter (fun b => compare a b == .eq) := by
  induction left generalizing right with
  | nil => simp
  | cons x left ihLeft =>
      have htail := (List.pairwise_cons.mp hleft).2
      induction right with
      | nil => simp
      | cons y right ihRight =>
          rw [List.cons_merge_cons]
          split
          · rw [List.filter_cons, ihLeft htail, List.filter_cons (x := x)]
            split <;> simp
          · rename_i hfirst
            have hless : compare y x = .lt := by simpa [leftFirst] using hfirst
            by_cases hy : compare a y = .eq
            · -- What is tied with `y` is not on the left, where all items come after `y`.
              have hnone : (x :: left).filter (fun b => compare a b == .eq) = [] := by
                refine List.filter_eq_nil_iff.mpr fun z hz => ?_
                have hxz : (compare x z).isLE := by
                  rcases List.mem_cons.mp hz with rfl | hz
                  · simp [Std.ReflCmp.compare_self]
                  · exact (List.pairwise_cons.mp hleft).1 z hz
                have hyz : compare y z = .lt := Std.TransCmp.lt_of_lt_of_isLE hless hxz
                rw [Std.TransCmp.congr_left hy, hyz]
                decide
              rw [List.filter_cons, ihRight, hnone, List.filter_cons, List.nil_append,
                List.nil_append]
            · have hy' : ¬ (compare a y == .eq) = true := by simpa using hy
              rw [List.filter_cons, if_neg hy', ihRight, List.filter_cons (x := y), if_neg hy']

theorem filter_sort (a : α) (items : List α) :
    (sort compare items).filter (fun b => compare a b == .eq) =
      items.filter fun b => compare a b == .eq := by
  fun_induction sort compare items with
  | case1 items h => rfl
  | case2 items h ihLeft ihRight =>
      rw [merge_eq, filter_merge a (pairwise_sort _), ihLeft, ihRight, ← List.filter_append,
        List.take_append_drop]

/-- Sorted lists with the same tied items in the same order are the same. -/
theorem eq_of_pairwise {left right : List α} (hperm : left.Perm right)
    (hleft : left.Pairwise fun a b => (compare a b).isLE)
    (hright : right.Pairwise fun a b => (compare a b).isLE)
    (hties : ∀ a ∈ left, left.filter (fun b => compare a b == .eq) =
      right.filter fun b => compare a b == .eq) : left = right := by
  induction left generalizing right with
  | nil => exact hperm.nil_eq
  | cons x left ih =>
      obtain ⟨y, right, rfl⟩ : ∃ y rest, right = y :: rest :=
        List.exists_cons_of_ne_nil fun h => List.cons_ne_nil x left (h ▸ hperm).eq_nil
      have hself : compare x x = .eq := Std.ReflCmp.compare_self
      have hxy : (compare x y).isLE := by
        rcases List.mem_cons.mp (hperm.mem_iff.mpr List.mem_cons_self) with rfl | h
        · rw [hself]
          rfl
        · exact (List.pairwise_cons.mp hleft).1 y h
      have hyx : (compare y x).isLE := by
        rcases List.mem_cons.mp (hperm.mem_iff.mp List.mem_cons_self) with rfl | h
        · rw [hself]
          rfl
        · exact (List.pairwise_cons.mp hright).1 x h
      have htie : compare x y = .eq := eq_of_isLE hxy hyx
      -- The first items are tied, so both are the first of the items tied with them.
      have hfirst := hties x List.mem_cons_self
      rw [List.filter_cons_of_pos (by simp [hself]), List.filter_cons_of_pos (by simp [htie])]
        at hfirst
      obtain ⟨rfl, -⟩ := List.cons.inj hfirst
      congr 1
      refine ih hperm.cons_inv (List.pairwise_cons.mp hleft).2 (List.pairwise_cons.mp hright).2
        fun a ha => ?_
      have h := hties a (List.mem_cons_of_mem x ha)
      rw [List.filter_cons, List.filter_cons] at h
      split at h
      · exact (List.cons.inj h).2
      · exact h

/-- Sorting gives the stably sorted arrangement, and there is no other. -/
theorem stablySorted_iff {items out : List α} :
    StablySorted (fun a b => compare a b == .lt) items out ↔ out = sort compare items := by
  have htied (a : α) : tied (fun a b => compare a b == .lt) a = fun b => compare a b == .eq :=
    funext fun b => tied_eq a b
  constructor
  · intro h
    have hsorted : out.Pairwise fun a b => (compare a b).isLE := h.sorted.imp not_before_iff.mp
    refine eq_of_pairwise (h.perm.trans (sort_perm _ _).symm) hsorted (pairwise_sort items)
      fun a ha => ?_
    rw [filter_sort, ← htied]
    exact h.stable a (h.perm.mem_iff.mp ha)
  · rintro rfl
    refine ⟨sort_perm _ _, (pairwise_sort items).imp not_before_iff.mpr, fun a _ => ?_⟩
    rw [htied, filter_sort]

end Preorder

end Sorting

/-! ## Rows -/

/-- Putting rows in the order of their keys sorts them by the comparison of their keys. -/
theorem Row.ordered_eq_sort (directions : List Bool) (keys : Row → List Value) (rows : List Row) :
    ordered directions keys rows =
      Sorting.sort (fun a b => compareKeys directions (keys a) (keys b)) rows := by
  let compare (a b : Row) := compareKeys directions (keys a) (keys b)
  have hsort : (Sorting.sort compare rows).map (fun row => (keys row, row)) = _ :=
    Sorting.map_sort (fun a b => compareKeys directions a.1 b.1) _ rows fun _ _ _ _ => rfl
  rw [ordered, ← hsort, List.map_map]
  exact List.map_id _

end DocQuery
