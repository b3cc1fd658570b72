import DocQuery.Statement.ParseError
import DocQuery.Value.Text

/-!
# Failures

Why an operation of the store, a query service or the command line fails, and how
each reason is worded.
-/

namespace DocQuery

inductive DocumentFault where
  | notObject (got : Value)
  | badId (got : Value)

def DocumentFault.message : DocumentFault → String
  | notObject got => "expected a JSON object, got " ++ got.json
  | badId got => "'id' must be a non-empty string, got " ++ got.json

inductive ParameterFault where
  | nameless (entry : Value)
  | badName (name : String)
  | notAssignment (argument : String)

def ParameterFault.message : ParameterFault → String
  | nameless entry => "missing 'name' in " ++ entry.json
  | badName name => "name '" ++ name ++ "' must start with '@'"
  | notAssignment argument => "expected @name=value, got '" ++ argument ++ "'"

inductive Failure where
  | databaseNotFound (id : String)
  | collectionNotFound (id : String)
  | documentNotFound (id : String)
  | databaseExists (id : String)
  | collectionExists (id : String)
  | documentExists (id : String)
  | invalidDocument (fault : DocumentFault)
  | invalidParameter (fault : ParameterFault)
  | query (text : List Char) (error : ParseError)
  /-- A file cannot be read or written. -/
  | file (path : String)
  /-- A text is not the JSON text that is asked for. -/
  | json
  /-- Settings cannot be read. -/
  | settings

def Failure.message : Failure → String
  | databaseNotFound id => "Database '" ++ id ++ "' not found"
  | collectionNotFound id => "Collection '" ++ id ++ "' not found"
  | documentNotFound id => "Document with id '" ++ id ++ "' not found"
  | databaseExists id => "Database '" ++ id ++ "' already exists"
  | collectionExists id => "Collection '" ++ id ++ "' already exists"
  | documentExists id => "Document with id '" ++ id ++ "' already exists"
  | invalidDocument fault => "Invalid document: " ++ fault.message
  | invalidParameter fault => "Invalid query parameter: " ++ fault.message
  | query text error => "Query error: " ++ error.message text
  | file path => "IO error: " ++ path
  | json => "JSON error"
  | settings => "Configuration error"

end DocQuery
