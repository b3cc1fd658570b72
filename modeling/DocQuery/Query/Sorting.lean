/-!
# Merge sort for any comparison

The comparison of values is no total order across types, so the way of sorting is
part of the result: a list is cut in the middle, the shorter half first, and of
two heads the right one is taken exactly when it is less.
-/

namespace DocQuery

namespace Sorting

variable {α : Type}

def leftFirst (compare : α → α → Ordering) (left right : α) : Bool :=
  compare right left != .lt

/--
Merges one item of the left list into the right list; `merged` merges what follows
the item.
-/
def mergeItem (first : α → α → Bool) (item : α) (merged : List α → List α) : List α → List α
  | [] => item :: merged []
  | other :: right =>
      if first item other then item :: merged (other :: right)
      else other :: mergeItem first item merged right

/-- Merges two lists; `first` says whether the left one of two heads is taken first. -/
def merge (first : α → α → Bool) : List α → List α → List α
  | [], right => right
  | item :: left, right => mergeItem first item (merge first left) right

def sort (compare : α → α → Ordering) (items : List α) : List α :=
  if items.length ≤ 1 then items
  else
    merge (leftFirst compare) (sort compare (items.take (items.length / 2)))
      (sort compare (items.drop (items.length / 2)))
termination_by items.length
decreasing_by
  · simp only [List.length_take]
    omega
  · simp only [List.length_drop]
    omega

/-- Merging agrees with `List.merge`, whose laws it shares. -/
theorem merge_eq (first : α → α → Bool) (left right : List α) :
    merge first left right = List.merge left right first := by
  induction left generalizing right with
  | nil => rw [merge, List.nil_merge]
  | cons item left ih =>
      rw [merge]
      induction right with
      | nil => rw [mergeItem, ih, List.merge_right, List.merge_right]
      | cons other right ihRight =>
          rw [mergeItem, List.cons_merge_cons, ih, ihRight]

theorem sort_of_length_le_one {compare : α → α → Ordering} {items : List α}
    (h : items.length ≤ 1) : sort compare items = items := by
  rw [sort, if_pos h]

end Sorting

end DocQuery
