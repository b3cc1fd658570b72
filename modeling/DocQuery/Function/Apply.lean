import DocQuery.Function.Array
import DocQuery.Function.Kind
import DocQuery.Function.Math
import DocQuery.Function.Text

/-!
# Calling a function

A call on values that are already known.  It never fails: what cannot be computed
is null.
-/

namespace DocQuery

namespace Function

def choose (arguments : List Value) : Value :=
  if (arguments.getD 0 .null).isTrue then arguments.getD 1 .null else arguments.getD 2 .null

def isAmong : List Value → Bool
  | [] => false
  | needle :: candidates => candidates.any fun candidate => needle.equal candidate

/-- The result of a call; an aggregate has none without rows, and no number is drawn here. -/
def apply (f : Function) (arguments : List Value) : Value :=
  match f with
  | text f => f.apply arguments
  | kind f => .bool (f.holds (arguments.getD 0 .null))
  | array f => f.apply arguments
  | math f => f.apply arguments
  | word f => f.apply arguments
  | aggregate _ | random _ => .null
  | choice => choose arguments
  | membership => .bool (isAmong arguments)

def padded (f : Function) (arguments : List Value) : List Value :=
  arguments ++ List.replicate (f.arity?.getD 0 - arguments.length) .null

end Function

end DocQuery
