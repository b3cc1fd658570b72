import DocQuery.Json.Reader
import DocQuery.Query.Execution
import DocQuery.Statement.Grammar
import DocQuery.Store.Basic
import DocQuery.Text.Blank

/-!
# Queries over stored collections

A query text runs over the documents of a collection.  A text that is no query is
a failure, or stands for all documents when that is wanted.
-/

namespace DocQuery

namespace Parameters

/-- Binds a parameter, in place of an earlier value. -/
def set (parameters : Parameters) (name : String) (value : Value) : Parameters :=
  (name, value) :: parameters.filter fun binding => binding.1 != name

def entryName (entry : Value) : Except Failure String :=
  match entry with
  | .object members =>
      match Members.get? members "name" with
      | some (.text name) =>
          if isName name then .ok name else .error (.invalidParameter (.badName name))
      | _ => .error (.invalidParameter (.nameless entry))
  | _ => .error (.invalidParameter (.nameless entry))

/-- The value of an entry of a parameter list, null when it is absent. -/
def entryValue : Value → Value
  | .object members => (Members.get? members "value").getD .null
  | _ => .null

/-- Parameters with the entries of a list; a later entry replaces an earlier one. -/
def addEntries (parameters : Parameters) : List Value → Except Failure Parameters
  | [] => .ok parameters
  | entry :: rest => do
      let name ← entryName entry
      addEntries (parameters.set name (entryValue entry)) rest

def ofEntries (entries : List Value) : Except Failure Parameters :=
  addEntries [] entries

/--
The parameter that an argument `@name=value` sets.  A value that is no JSON text is
taken as it is.
-/
def ofArgument (argument : String) : Except Failure (String × Value) :=
  let cs := argument.toList
  match cs.dropWhile (· != '=') with
  | [] => .error (.invalidParameter (.notAssignment argument))
  | _ :: raw =>
      let name := String.ofList (Text.trimBlanks (cs.takeWhile (· != '=')))
      if isName name ∧ 2 ≤ name.utf8ByteSize then
        .ok (name, (Json.read raw).getD (.text (String.ofList raw)))
      else .error (.invalidParameter (.badName name))

end Parameters

namespace Store

/--
The results of a query over a collection.  When `fallback` is set, a text that is
no query answers with all documents.
-/
def runQuery (store : Store) (fallback : Bool) (database collection : String)
    (query : List Char) (parameters : Parameters) (draws : Draws) :
    Except Failure (List Value) :=
  match Statement.parse query with
  | .error error =>
      if fallback then store.listDocuments database collection
      else .error (.query query error)
  | .ok statement => do
      let documents ← store.listDocuments database collection
      .ok (statement.run parameters draws documents)

end Store

end DocQuery
