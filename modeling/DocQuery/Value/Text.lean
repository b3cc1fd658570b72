import DocQuery.Json.Printer

/-!
# Values as plain text

The text of a scalar in string functions, and the key that brings rows of equal
grouping values together.
-/

namespace DocQuery

namespace Value

/--
The text of a scalar: integers in decimal, doubles with six places, booleans as
words.  Null, arrays and objects have no text.
-/
def display : Value → List Char
  | text s => s.toList
  | number (.integer n) => FloatNotation.integerText n.val
  | number (.float x) => sixPlaces x.val
  | bool true => ['t', 'r', 'u', 'e']
  | bool false => ['f', 'a', 'l', 's', 'e']
  | _ => []

def keyPart : Value → List Char
  | null => ['<', 'n', 'i', 'l', '>']
  | text s => s.toList
  | other => Json.compact other

/-- The grouping key of several values: each part is followed by a colon. -/
def groupKey (values : List Value) : List Char :=
  values.flatMap fun value => value.keyPart ++ [':']

theorem groupKey_nil : groupKey [] = [] := rfl

theorem groupKey_cons (value : Value) (rest : List Value) :
    groupKey (value :: rest) = value.keyPart ++ ':' :: groupKey rest := by
  simp [groupKey]

end Value

end DocQuery
