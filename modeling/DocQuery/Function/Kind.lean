import DocQuery.Function.Basic
import DocQuery.Value.Basic

/-!
# Tests of the type of a value

An absent value reads as null, so that absence and null cannot be told apart.
-/

namespace DocQuery

namespace KindTest

def holds : KindTest → Value → Bool
  | defined, value => !value.isNull
  | null, value => value.isNull
  | array, .array _ => true
  | bool, .bool _ => true
  | number, .number _ => true
  | finiteNumber, .number _ => true
  | integer, value => value.isInteger
  | object, .object _ => true
  | text, .text _ => true
  | primitive, .array _ => false
  | primitive, .object _ => false
  | primitive, _ => true
  | _, _ => false

end KindTest

end DocQuery
