/-!
# Grouping by a key

Items with the same key come together, groups in the order in which their keys
appear first, members in their own order.
-/

namespace DocQuery

namespace Grouping

variable {κ α : Type} [DecidableEq κ]

/-- Adds an item to the group of its key, which is a new last group if there is none. -/
def add (key : κ) (item : α) : List (κ × List α) → List (κ × List α)
  | [] => [(key, [item])]
  | (other, members) :: rest =>
      if other = key then (other, members ++ [item]) :: rest
      else (other, members) :: add key item rest

def keyed (key : α → κ) (items : List α) : List (κ × List α) :=
  items.foldl (fun groups item => add (key item) item groups) []

def groups (key : α → κ) (items : List α) : List (List α) :=
  (keyed key items).map Prod.snd

end Grouping

end DocQuery
