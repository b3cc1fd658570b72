import DocQuery.Decimal.Layout
import DocQuery.Text.Printable
import DocQuery.Token.Basic

/-!
# Tokens in messages

How a message names the token it stumbled on.
-/

namespace DocQuery

namespace Token

def hexText (n : Nat) : List Char :=
  Nat.toDigits 16 n

def displayChar (c : Char) : List Char :=
  if c = '"' then ['\\', '"']
  else if c = '\\' then ['\\', '\\']
  else if c = '\n' then ['\\', 'n']
  else if c = '\r' then ['\\', 'r']
  else if c = '\t' then ['\\', 't']
  else if c.toNat = 0 then ['\\', '0']
  else if Text.isSeen c then [c]
  else ['\\', 'u', '\x7b'] ++ hexText c.toNat ++ ['\x7d']

def displayText (s : String) : List Char :=
  '"' :: s.toList.flatMap displayChar ++ ['"']

def tagged (tag : String) (content : List Char) : String :=
  String.ofList (tag.toList ++ '(' :: content ++ [')'])

def display : Token → String
  | keyword word => word.name
  | mark sign => sign.name
  | identifier name => tagged "Identifier" (displayText name)
  | text content => tagged "String" (displayText content)
  | parameter name => tagged "Parameter" (displayText name)
  | integer n => tagged "Integer" (Nat.toDigits 10 n)
  | float x => tagged "Float" (FloatNotation.diagnostic.text x)
  | finish => "Eof"

end Token

end DocQuery
