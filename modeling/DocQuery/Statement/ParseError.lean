import DocQuery.Token.Display
import DocQuery.Token.Lexer

/-!
# Errors of reading a query

A query fails in its characters or in the order of its tokens.  The latter kind
is reported with the text at which reading stopped.
-/

namespace DocQuery

inductive Misplacement where
  | expected (token found : Token)
  | expectedName (found : Token)
  | expectedCount (found : Token)
  | expectedSegment (found : Token)
  | expectedKey (found : Token)
  | expectedOperand (found : Token)
  | afterEnd (found : Token)
  | unknownFunction (name : String)
  | notOneValue
  | starWithoutSource
  | subqueryWithoutLabel

namespace Misplacement

def message : Misplacement → String
  | expected token found => "Expected " ++ token.display ++ ", found " ++ found.display
  | expectedName found => "Expected identifier, found " ++ found.display
  | expectedCount found => "Expected non-negative integer, found " ++ found.display
  | expectedSegment found => "Expected property name or index, found " ++ found.display
  | expectedKey found => "Expected object key, found " ++ found.display
  | expectedOperand found => "Unexpected token " ++ found.display ++ " in expression"
  | afterEnd found => "Unexpected token " ++ found.display ++ " after end of query"
  | unknownFunction name => "Unknown function '" ++ name ++ "'"
  | notOneValue => "SELECT VALUE takes exactly one expression"
  | starWithoutSource => "SELECT * requires a FROM clause"
  | subqueryWithoutLabel => "Subquery source requires an alias"

end Misplacement

/-- A misplacement with the position of the token at which it was noticed. -/
structure PlacedError where
  problem : Misplacement
  offset : Option Nat

namespace PlacedError

def quotedLength : Nat := 24

def message (query : List Char) (error : PlacedError) : String :=
  let offset := error.offset.getD query.length
  let fragment := (query.drop offset).take quotedLength
  if fragment.isEmpty then error.problem.message ++ " at end of input"
  else
    error.problem.message ++ " near '" ++ String.ofList fragment ++ "' (position " ++
      toString offset ++ ")"

end PlacedError

inductive ParseError where
  | lexical (error : LexicalError)
  | placed (error : PlacedError)

namespace ParseError

def message (query : List Char) : ParseError → String
  | lexical error => "Parse error: " ++ error.message
  | placed error => "Parse error: " ++ error.message query

end ParseError

end DocQuery
