import DocQuery.Value.Text

/-!
# Rows

A row binds names to values while a statement runs.  The document it comes from
is bound under `$root`, and a row that stands for a group knows its members.  What
is drawn at random for a row is settled with the row, so that a run is a function of
the numbers drawn.
-/

namespace DocQuery

/-- The parameters of a query: names that begin with `@`, and their values. -/
abbrev Parameters := List (String × Value)

namespace Parameters

def get? (parameters : Parameters) (name : String) : Option Value :=
  parameters.lookup name

def isName (text : String) : Bool :=
  text.toList.head? = some '@'

/--
The key that a path segment denotes: itself, or the text or number that a
parameter is bound to.
-/
def segment? (parameters : Parameters) (segment : String) : Option String :=
  if isName segment then
    match parameters.get? segment with
    | some (.text s) => some s
    | some (.number n) => some (String.ofList (Json.number n))
    | _ => none
  else some segment

/-- The name that a text denotes: itself, or the text that a parameter is bound to. -/
def name (parameters : Parameters) (text : String) : String :=
  if isName text then
    match parameters.get? text with
    | some (.text s) => s
    | _ => text
  else text

end Parameters

namespace Value

/-- The index that a key spells: decimal digits, possibly after a plus sign. -/
def index? (key : List Char) : Option Nat :=
  let digits :=
    match key with
    | '+' :: rest => rest
    | _ => key
  if digits.isEmpty || !digits.all Char.isDigit then none
  else some (digits.foldl (fun n c => 10 * n + (c.toNat - '0'.toNat)) 0)

/-- The member of an object or the element of an array under a key. -/
def child? (key : String) : Value → Option Value
  | object members => Members.get? members key
  | array elements => (index? key.toList).bind fun index => elements[index]?
  | _ => none

/-- The value at the end of a path, null when the path breaks off. -/
def follow (parameters : Parameters) : List String → Value → Value
  | [], value => value
  | segment :: rest, value =>
      match (parameters.segment? segment).bind fun key => value.child? key with
      | some next => follow parameters rest next
      | none => null

end Value

/--
The numbers that calls of `RAND` draw, by the numbers of the entries that a row was made
of, the first one first, and by the site of the call.
-/
def Draws := List Nat → List Nat → Float

namespace Draws

def number (draws : Draws) (site : List Nat) : Float :=
  draws [] site

/-- The numbers for what is made of one of several entries. -/
def part (draws : Draws) (index : Nat) : Draws :=
  fun indices => draws (index :: indices)

end Draws

/-- What is bound and drawn while a statement runs. -/
structure Row where
  bindings : List (String × Value)
  /-- The rows of the group that this row stands for. -/
  members : List Row
  draws : Draws

namespace Row

def rootName : String := "$root"

/-- The value bound under a name; the latest binding counts. -/
def value? (row : Row) (name : String) : Option Value :=
  row.bindings.lookup name

def ofDocument (draws : Draws) (name : String) (document : Value) : Row :=
  ⟨[(rootName, document), (name, document)], [], draws⟩

def bind (row : Row) (name : String) (value : Value) : Row :=
  { row with bindings := (name, value) :: row.bindings }

/-- A row outside any group with one of several values bound. -/
def derive (row : Row) (name : String) (value : Value) (index : Nat) : Row :=
  ⟨(name, value) :: row.bindings, [], row.draws.part index⟩

def standingFor (row : Row) (members : List Row) : Row :=
  { row with members := members }

/-- The value of a path whose first segment is a bound name. -/
def follow (parameters : Parameters) (row : Row) : List String → Value
  | [] => .null
  | first :: rest =>
      match row.value? first with
      | some value => value.follow parameters rest
      | none => .null

/-- Binds the document under a name that nothing is bound to. -/
def withRootAs (row : Row) (name : String) : Row :=
  match row.value? name, row.value? rootName with
  | none, some document => row.bind name document
  | _, _ => row

def deriveEach (row : Row) (name : String) (value : Value) : List Row :=
  value.elements.zipIdx.map fun (element, index) => row.derive name element index

theorem value?_bind_self (row : Row) (name : String) (value : Value) :
    (row.bind name value).value? name = some value := by
  simp [bind, value?]

end Row

end DocQuery
