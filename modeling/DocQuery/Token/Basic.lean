import DocQuery.Text.Case

/-!
# Tokens of the query language

Words, literals and punctuation marks.  A word is a keyword when its upper-case
form is the spelling of one.
-/

namespace DocQuery

inductive Keyword where
  | select | distinct | top | value | from | where | as | in | join | group | order | «by»
  | asc | desc | offset | limit | exists | and | or | not | true | false | null
deriving DecidableEq, Repr

namespace Keyword

def all : List Keyword :=
  [select, distinct, top, value, «from», «where», as, «in», join, group, order, «by»,
    asc, desc, offset, limit, «exists», and, or, not, true, false, null]

def spelling : Keyword → String
  | select => "select"
  | distinct => "distinct"
  | top => "top"
  | value => "value"
  | «from» => "from"
  | «where» => "where"
  | as => "as"
  | «in» => "in"
  | join => "join"
  | group => "group"
  | order => "order"
  | «by» => "by"
  | asc => "asc"
  | desc => "desc"
  | offset => "offset"
  | limit => "limit"
  | «exists» => "exists"
  | and => "and"
  | or => "or"
  | not => "not"
  | true => "true"
  | false => "false"
  | null => "null"

/-- The name of a reserved word in messages: its spelling with a capital letter. -/
def name (keyword : Keyword) : String :=
  match keyword.spelling.toList with
  | c :: rest => String.ofList (c.toUpper :: rest)
  | [] => ""

def ofUpper? (word : List Char) : Option Keyword :=
  all.find? fun keyword => Text.upper keyword.spelling.toList == word

/-- The reserved word that a word is in some mixture of cases. -/
def ofWord? (word : List Char) : Option Keyword :=
  ofUpper? (Text.upper word)

theorem mem_all (keyword : Keyword) : keyword ∈ all := by
  cases keyword <;> decide

end Keyword

inductive Mark where
  | equal | notEqual | less | lessOrEqual | greater | greaterOrEqual
  | plus | minus | star | slash | comma | dot | colon
  | leftParen | rightParen | leftBracket | rightBracket | leftBrace | rightBrace
deriving DecidableEq, Repr

def Mark.name : Mark → String
  | equal => "Equal"
  | notEqual => "NotEqual"
  | less => "LessThan"
  | lessOrEqual => "LessThanEq"
  | greater => "GreaterThan"
  | greaterOrEqual => "GreaterThanEq"
  | plus => "Plus"
  | minus => "Minus"
  | star => "Star"
  | slash => "Slash"
  | comma => "Comma"
  | dot => "Dot"
  | colon => "Colon"
  | leftParen => "LeftParen"
  | rightParen => "RightParen"
  | leftBracket => "LeftBracket"
  | rightBracket => "RightBracket"
  | leftBrace => "LeftBrace"
  | rightBrace => "RightBrace"

inductive Token where
  | keyword (keyword : Keyword)
  | mark (mark : Mark)
  | identifier (name : String)
  | text (content : String)
  /-- A parameter, whose name begins with `@`. -/
  | parameter (name : String)
  | integer (n : Nat)
  | float (x : Float)
  /-- The end of the query. -/
  | finish
deriving DecidableEq

/-- A token with the character position at which it starts. -/
structure Placed where
  token : Token
  offset : Nat

end DocQuery
