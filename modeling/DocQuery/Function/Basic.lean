import DocQuery.Text.Case

/-!
# The functions of the query language

Functions come in families by what they work on.  A call names a function in any
mixture of cases; membership has no name and is written with `IN`.
-/

namespace DocQuery

inductive TextFunction where
  | equals | contains | endsWith | startsWith | concat | indexOf | toText | upper | lower
  | left | length | trimLeft | replace | replicate | reverse | right | trimRight | substring | trim
deriving DecidableEq, Repr

inductive KindTest where
  | defined | array | bool | finiteNumber | integer | null | number | object | primitive | text
deriving DecidableEq, Repr

inductive ArrayFunction where
  | concat | contains | containsAny | containsAll | length | slice | intersect | union
deriving DecidableEq, Repr

inductive MathFunction where
  | abs | acos | asin | atan | ceiling | cos | cot | degrees | exp | floor | log10 | radians
  | round | sign | sin | sqrt | square | tan | trunc | atan2 | power | log | numberBin | pi
deriving DecidableEq, Repr

inductive WordFunction where
  | complement | add | conjunction | shiftLeft | disjunction | shiftRight | difference
  | divide | remainder | multiply | subtract
deriving DecidableEq, Repr

inductive Aggregate where
  | average | count | maximum | minimum | sum
deriving DecidableEq, Repr

inductive Function where
  | text (f : TextFunction)
  | kind (f : KindTest)
  | array (f : ArrayFunction)
  | math (f : MathFunction)
  | word (f : WordFunction)
  | aggregate (f : Aggregate)
  /-- A number that each call draws anew; calls are told apart by their sites. -/
  | random (site : List Nat)
  /-- The choice between two values by a condition. -/
  | choice
  /-- The test whether the first argument equals one of the others. -/
  | membership
deriving DecidableEq, Repr

namespace Function

def names : List (String × Function) :=
  [("STRINGEQUALS", text .equals), ("CONTAINS", text .contains), ("ENDSWITH", text .endsWith),
    ("STARTSWITH", text .startsWith), ("CONCAT", text .concat), ("INDEX_OF", text .indexOf),
    ("TOSTRING", text .toText), ("UPPER", text .upper), ("LOWER", text .lower),
    ("LEFT", text .left), ("LENGTH", text .length), ("LTRIM", text .trimLeft),
    ("REPLACE", text .replace), ("REPLICATE", text .replicate), ("REVERSE", text .reverse),
    ("RIGHT", text .right), ("RTRIM", text .trimRight), ("SUBSTRING", text .substring),
    ("TRIM", text .trim),
    ("IS_DEFINED", kind .defined), ("IS_ARRAY", kind .array), ("IS_BOOL", kind .bool),
    ("IS_FINITE_NUMBER", kind .finiteNumber), ("IS_INTEGER", kind .integer),
    ("IS_NULL", kind .null), ("IS_NUMBER", kind .number), ("IS_OBJECT", kind .object),
    ("IS_PRIMITIVE", kind .primitive), ("IS_STRING", kind .text),
    ("ARRAY_CONCAT", array .concat), ("ARRAY_CONTAINS", array .contains),
    ("ARRAY_CONTAINS_ANY", array .containsAny), ("ARRAY_CONTAINS_ALL", array .containsAll),
    ("ARRAY_LENGTH", array .length), ("ARRAY_SLICE", array .slice),
    ("SETINTERSECT", array .intersect), ("SETUNION", array .union),
    ("ABS", math .abs), ("ACOS", math .acos), ("ASIN", math .asin), ("ATAN", math .atan),
    ("CEILING", math .ceiling), ("COS", math .cos), ("COT", math .cot),
    ("DEGREES", math .degrees), ("EXP", math .exp), ("FLOOR", math .floor),
    ("INTBITNOT", word .complement), ("LOG10", math .log10), ("RADIANS", math .radians),
    ("ROUND", math .round), ("SIGN", math .sign), ("SIN", math .sin), ("SQRT", math .sqrt),
    ("SQUARE", math .square), ("TAN", math .tan), ("TRUNC", math .trunc), ("ATN2", math .atan2),
    ("INTADD", word .add), ("INTBITAND", word .conjunction), ("INTBITLEFTSHIFT", word .shiftLeft),
    ("INTBITOR", word .disjunction), ("INTBITRIGHTSHIFT", word .shiftRight),
    ("INTBITXOR", word .difference), ("INTDIV", word .divide), ("INTMOD", word .remainder),
    ("INTMUL", word .multiply), ("INTSUB", word .subtract),
    ("POWER", math .power), ("LOG", math .log), ("NUMBERBIN", math .numberBin), ("PI", math .pi),
    ("RAND", random []),
    ("AVG", aggregate .average), ("COUNT", aggregate .count), ("MAX", aggregate .maximum),
    ("MIN", aggregate .minimum), ("SUM", aggregate .sum), ("IIF", choice)]

/-- The function called by a name, whatever the case of its letters. -/
def ofName? (name : String) : Option Function :=
  names.lookup (Text.upperString name)

def isAggregate : Function → Bool
  | aggregate _ => true
  | _ => false

/-- The number of arguments up to which missing ones are supplied as null. -/
def arity? : Function → Option Nat
  | text .equals | text .contains | text .endsWith | text .startsWith | text .indexOf => some 3
  | array .slice | array .contains => some 3
  | _ => none

end Function

end DocQuery
