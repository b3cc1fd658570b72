import DocQuery.Decimal.Basic
import DocQuery.Text.Blank
import DocQuery.Text.Letter
import DocQuery.Token.Basic

/-!
# From text to tokens

A query is cut into tokens from left to right.  Blanks and comments separate
tokens; a word directly after a dot is a name even when it is reserved.
-/

namespace DocQuery

inductive LexicalError where
  | unexpectedCharacter (c : Char) (offset : Nat)
  | unterminatedText
  | integerTooLarge (digits : List Char)
  | namelessParameter
deriving DecidableEq

namespace LexicalError

def message : LexicalError → String
  | unexpectedCharacter c offset =>
      "Unexpected character '" ++ String.singleton c ++ "' at position " ++ toString offset
  | unterminatedText => "Unterminated string"
  | integerTooLarge digits => "Invalid integer number: " ++ String.ofList digits
  | namelessParameter => "Expected parameter name after '@'"

end LexicalError

namespace Lexer

def skipLine : List Char → List Char
  | [] => []
  | c :: rest => if c = '\n' then rest else skipLine rest

/-- The text after the end of a block comment, nothing when it is never closed. -/
def skipBlock : List Char → List Char
  | [] => []
  | '*' :: '/' :: rest => rest
  | _ :: rest => skipBlock rest

theorem length_skipLine_le (cs : List Char) : (skipLine cs).length ≤ cs.length := by
  induction cs with
  | nil => simp [skipLine]
  | cons c rest ih =>
      unfold skipLine
      split
      · simp
      · simp only [List.length_cons]
        omega

theorem length_skipBlock_le (cs : List Char) : (skipBlock cs).length ≤ cs.length := by
  fun_induction skipBlock cs with
  | case1 => simp
  | case2 rest =>
      simp only [List.length_cons]
      omega
  | case3 c rest _ ih =>
      simp only [List.length_cons]
      omega

/--
The text without the blanks and comments at its front; `budget` bounds the
number of comments.
-/
def skipSeparators : Nat → List Char → List Char
  | 0, cs => cs
  | budget + 1, cs =>
      match cs.dropWhile Text.isBlank with
      | '-' :: '-' :: rest => skipSeparators budget (skipLine rest)
      | '/' :: '*' :: rest => skipSeparators budget (skipBlock rest)
      | rest => rest

def skipBetween (cs : List Char) : List Char :=
  skipSeparators (cs.length + 1) cs

def beginsWord (c : Char) : Bool :=
  Text.isLetter c || c = '_' || c = '$'

def continuesWord (c : Char) : Bool :=
  Text.isLetterOrNumeral c || c = '_' || c = '$'

def digits (cs : List Char) : List Char × List Char :=
  (cs.takeWhile Char.isDigit, cs.dropWhile Char.isDigit)

def beginsWithDigit : List Char → Bool
  | c :: _ => c.isDigit
  | [] => false

/-- The digits after a decimal point, which belongs to a number only before a digit. -/
def fraction : List Char → Option (List Char × List Char)
  | '.' :: rest => if beginsWithDigit rest then some (digits rest) else none
  | _ => none

/-- Splits off the sign of an exponent; the flag says whether it is a minus. -/
def exponentSign : List Char → Bool × List Char
  | '-' :: rest => (true, rest)
  | '+' :: rest => (false, rest)
  | cs => (false, cs)

/-- The exponent after the letter `e`, which belongs to a number only before digits. -/
def exponent : List Char → Option (Int × List Char)
  | c :: rest =>
      if c = 'e' ∨ c = 'E' then
        let (negative, rest) := exponentSign rest
        if beginsWithDigit rest then
          let (found, rest) := digits rest
          let n := (Decimal.ofDigits found [] 0).coefficient
          some (if negative then -(n : Int) else n, rest)
        else none
      else none
  | [] => none

def greatestInteger : Nat := 9223372036854775807

def number (cs : List Char) : Except LexicalError (Token × List Char) :=
  let (whole, rest) := digits cs
  let (decimals, afterFraction) := (fraction rest).getD ([], rest)
  let (power, afterExponent) := (exponent afterFraction).getD (0, afterFraction)
  if (fraction rest).isNone && (exponent afterFraction).isNone then
    let n := (Decimal.ofDigits whole [] 0).coefficient
    if n ≤ greatestInteger then .ok (.integer n, rest) else .error (.integerTooLarge whole)
  else
    .ok (.float (Decimal.ofDigits whole decimals power).toFloat, afterExponent)

def unescape (c : Char) : Char :=
  if c = 'n' then '\n'
  else if c = 't' then '\t'
  else if c = 'r' then '\r'
  else if c = 'b' then Char.ofNat 8
  else if c = 'f' then Char.ofNat 12
  else c

/-- The content of a quoted text up to its closing quote, and what follows it. -/
def quoted (quote : Char) : List Char → Option (List Char × List Char)
  | [] => none
  | c :: rest =>
      if c = quote then some ([], rest)
      else if c = '\\' then
        match rest with
        | [] => none
        | escaped :: rest =>
            (quoted quote rest).map fun result => (unescape escaped :: result.1, result.2)
      else (quoted quote rest).map fun result => (c :: result.1, result.2)

def word (cs : List Char) : List Char × List Char :=
  (cs.takeWhile continuesWord, cs.dropWhile continuesWord)

/-- The token a word is: a keyword unless it follows a dot. -/
def wordToken (afterDot : Bool) (name : List Char) : Token :=
  if afterDot then .identifier (String.ofList name)
  else
    match Keyword.ofWord? name with
    | some keyword => .keyword keyword
    | none => .identifier (String.ofList name)

def singleMark? (c : Char) : Option Mark :=
  if c = '+' then some .plus
  else if c = '-' then some .minus
  else if c = '*' then some .star
  else if c = '/' then some .slash
  else if c = ',' then some .comma
  else if c = '.' then some .dot
  else if c = ':' then some .colon
  else if c = '(' then some .leftParen
  else if c = ')' then some .rightParen
  else if c = '[' then some .leftBracket
  else if c = ']' then some .rightBracket
  else if c = '\x7b' then some .leftBrace
  else if c = '\x7d' then some .rightBrace
  else if c = '=' then some .equal
  else none

/-- The mark at the front of a text, the longest one. -/
def mark? : List Char → Option (Mark × List Char)
  | '!' :: '=' :: rest => some (.notEqual, rest)
  | '<' :: '=' :: rest => some (.lessOrEqual, rest)
  | '<' :: '>' :: rest => some (.notEqual, rest)
  | '<' :: rest => some (.less, rest)
  | '>' :: '=' :: rest => some (.greaterOrEqual, rest)
  | '>' :: rest => some (.greater, rest)
  | c :: rest => (singleMark? c).map fun mark => (mark, rest)
  | [] => none

/--
The token at the front of a text that begins with neither a blank nor a comment;
`offset` is its position in the whole query.
-/
def token (afterDot : Bool) (offset : Nat) (cs : List Char) :
    Except LexicalError (Token × List Char) :=
  match cs with
  | [] => .ok (.finish, [])
  | c :: rest =>
      if c.isDigit then number (c :: rest)
      else if c = '\'' ∨ c = '"' then
        match quoted c rest with
        | some (content, rest) => .ok (.text (String.ofList content), rest)
        | none => .error .unterminatedText
      else if beginsWord c then
        let (name, rest) := word (c :: rest)
        .ok (wordToken afterDot name, rest)
      else if c = '@' then
        let (name, rest) := word rest
        if name.isEmpty then .error .namelessParameter
        else .ok (.parameter (String.ofList ('@' :: name)), rest)
      else
        match mark? (c :: rest) with
        | some (mark, rest) => .ok (.mark mark, rest)
        | none => .error (.unexpectedCharacter c offset)

def isDot : Token → Bool
  | .mark .dot => true
  | _ => false

/--
The tokens of the part of a query that is left; `total` is the length of the
whole query and `budget` bounds the number of tokens before the last.
-/
def tokensFrom (total : Nat) : Nat → Bool → List Char → Except LexicalError (List Placed)
  | budget, afterDot, cs =>
      match skipBetween cs with
      | [] => .ok [⟨.finish, total⟩]
      | c :: rest =>
          let offset := total - (rest.length + 1)
          match token afterDot offset (c :: rest) with
          | .error error => .error error
          | .ok (found, left) =>
              match budget with
              | 0 => .ok [⟨found, offset⟩]
              | budget + 1 =>
                  match tokensFrom total budget (isDot found) left with
                  | .error error => .error error
                  | .ok others => .ok (⟨found, offset⟩ :: others)

end Lexer

/-- The tokens of a query with their positions; the last one marks the end. -/
def tokenize (query : List Char) : Except LexicalError (List Placed) :=
  Lexer.tokensFrom query.length query.length false query

end DocQuery
