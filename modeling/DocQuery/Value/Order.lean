import DocQuery.Value.Basic

/-!
# Comparing values

The comparison behind `=`, `<`, `ORDER BY`, `DISTINCT` and membership.  Null
comes first, numbers compare as doubles, strings by code point, booleans with
`false` first; arrays and objects only have equality.  Values of two different
types are never equal, and the left one counts as the greater.
-/

namespace DocQuery

namespace Value

/-- The order of two doubles; an undefined one is greater than anything. -/
def compareFloats (x y : Float) : Ordering :=
  if x < y then .lt else if x == y then .eq else .gt

def compareTexts (a b : String) : Ordering :=
  if a < b then .lt else if a = b then .eq else .gt

def compareBools : Bool → Bool → Ordering
  | false, true => .lt
  | true, false => .gt
  | _, _ => .eq

def compare (left right : Value) : Ordering :=
  match left, right with
  | null, null => .eq
  | null, _ => .lt
  | _, null => .gt
  | number a, number b => compareFloats a.toFloat b.toFloat
  | text a, text b => compareTexts a b
  | bool a, bool b => compareBools a b
  | array a, array b => if sameElements a b then .eq else .gt
  | object a, object b => if sameMembers a b then .eq else .gt
  | _, _ => .gt

/-- Whether two values are equal as the query language sees it. -/
def equal (left right : Value) : Bool :=
  left.compare right == .eq

def memberOf (value : Value) (held : List Value) : Bool :=
  held.any fun item => item.equal value

@[simp] theorem compare_null_null : compare null null = .eq := rfl

theorem compare_null_left {value : Value} (h : value ≠ null) : compare null value = .lt := by
  cases value <;> first | rfl | exact absurd rfl h

theorem compare_null_right {value : Value} (h : value ≠ null) : compare value null = .gt := by
  cases value <;> first | rfl | exact absurd rfl h

theorem equal_eq_true_iff {left right : Value} :
    left.equal right = true ↔ left.compare right = .eq := by
  simp [equal]

end Value

end DocQuery
