import DocQuery.Function.Basic
import DocQuery.Value.Order

/-!
# Functions of arrays

An argument that is not an array reads as the empty array.  Membership compares
values as `=` does, the two set functions by structure.
-/

namespace DocQuery

namespace ArrayFunction

def wordSum? (m n : Int) : Option Int :=
  if FitsSigned (m + n) then some (m + n) else none

/-- The sum of two signed words, held at the least and the greatest one. -/
def heldSum (m n : Int) : Int :=
  max (-9223372036854775808) (min (m + n) 9223372036854775807)

/-- The place at which a slice begins; a negative start is counted from the end. -/
def firstPlace? (size start : Int) : Option Int :=
  if start < 0 then (wordSum? size start).map fun place => max place 0 else some start

/-- The place in front of which a slice ends that begins within the list. -/
def lastPlace (size first : Int) (length : Option Int) : Int :=
  match length with
  | some length => if length ≤ 0 then first else min (heldSum first length) size
  | none => size

/-- The elements between two places, which must be in order and within the list. -/
def cut? {α : Type} (elements : List α) (first last : Int) : Option (List α) :=
  if 0 ≤ first ∧ first ≤ last ∧ last ≤ elements.length then
    some ((elements.take last.toNat).drop first.toNat)
  else none

/--
A run of a list that begins at `start`, counted from the end when negative, and
holds at most `length` elements.  It is computed on signed words, and there is none
when a sum leaves them or the two places do not fit the list.
-/
def segment? {α : Type} (elements : List α) (start : Int) (length : Option Int) :
    Option (List α) := do
  let size : Int := elements.length
  let first ← firstPlace? size start
  if size ≤ first then some [] else cut? elements first (lastPlace size first length)

def sliceOf (elements : List Value) (start length : Value) : List Value :=
  match start.toInt? with
  | none => []
  | some start =>
      match length with
      | .null => (segment? elements start none).getD []
      | length =>
          match length.toInt? with
          | some length => (segment? elements start (some length)).getD []
          | none => []

def hasMembers (held wanted : Members) : Bool :=
  wanted.all fun assignment =>
    match Members.get? held assignment.1 with
    | some value => value.equal assignment.2
    | none => false

/-- Whether an element matches; a part of an object is enough when asked for. -/
def accepts (partialMatch : Bool) (element needle : Value) : Bool :=
  match partialMatch, element, needle with
  | true, .object held, .object wanted => hasMembers held wanted
  | _, _, _ => element.equal needle

def holdsSame (held : List Value) (value : Value) : Bool :=
  held.any fun item => item.same value

def addMissing (held : List Value) : List Value → List Value
  | [] => held
  | value :: rest =>
      addMissing (if holdsSame held value then held else held ++ [value]) rest

def apply (f : ArrayFunction) (arguments : List Value) : Value :=
  let argument := fun index : Nat => arguments.getD index .null
  let first := (argument 0).elements
  match f with
  | concat => .array (arguments.flatMap Value.elements)
  | length => .ofNat first.length
  | slice => .array (sliceOf first (argument 1) (argument 2))
  | contains =>
      .bool (first.any fun element =>
        accepts (argument 2).isTrue element (argument 1))
  | containsAny => .bool (arguments.tail.any fun needle => Value.memberOf needle first)
  | containsAll => .bool (arguments.tail.all fun needle => Value.memberOf needle first)
  | intersect => .array ((argument 1).elements.filter fun value => holdsSame first value)
  | union => .array (addMissing [] (first ++ (argument 1).elements))

end ArrayFunction

end DocQuery
