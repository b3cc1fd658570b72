import DocQuery.Decimal.Layout
import DocQuery.Value.Basic

/-!
# JSON text of values

The compact form, used in messages and keys, and the indented form, used for
files and answers.
-/

namespace DocQuery

namespace Json

def hexDigit (n : Nat) : Char :=
  if n < 10 then Char.ofNat ('0'.toNat + n) else Char.ofNat ('a'.toNat + (n - 10))

def escapeChar (c : Char) : List Char :=
  if c = '"' then ['\\', '"']
  else if c = '\\' then ['\\', '\\']
  else if c = '\n' then ['\\', 'n']
  else if c = '\r' then ['\\', 'r']
  else if c = '\t' then ['\\', 't']
  else if c.toNat = 8 then ['\\', 'b']
  else if c.toNat = 12 then ['\\', 'f']
  else if c.toNat < 32 then
    ['\\', 'u', '0', '0', hexDigit (c.toNat / 16), hexDigit (c.toNat % 16)]
  else [c]

def quote (cs : List Char) : List Char :=
  '"' :: cs.flatMap escapeChar ++ ['"']

def number : Number → List Char
  | .integer n => FloatNotation.integerText n.val
  | .float x => FloatNotation.json.text x.val

mutual

def compact : Value → List Char
  | .null => ['n', 'u', 'l', 'l']
  | .bool true => ['t', 'r', 'u', 'e']
  | .bool false => ['f', 'a', 'l', 's', 'e']
  | .number n => number n
  | .text s => quote s.toList
  | .array elements => '[' :: compactElements elements ++ [']']
  | .object members => '{' :: compactMembers members ++ ['}']

def compactElements : List Value → List Char
  | [] => []
  | [element] => compact element
  | element :: rest => compact element ++ ',' :: compactElements rest

def compactMembers : List (String × Value) → List Char
  | [] => []
  | [(name, value)] => quote name.toList ++ ':' :: compact value
  | (name, value) :: rest => quote name.toList ++ ':' :: compact value ++ ',' :: compactMembers rest

end

def lineBreak (level : Nat) : List Char :=
  '\n' :: List.replicate (2 * level) ' '

mutual

/-- The indented text of a value that stands at some level. -/
def indented (level : Nat) : Value → List Char
  | .null => ['n', 'u', 'l', 'l']
  | .bool true => ['t', 'r', 'u', 'e']
  | .bool false => ['f', 'a', 'l', 's', 'e']
  | .number n => number n
  | .text s => quote s.toList
  | .array [] => ['[', ']']
  | .array (element :: rest) =>
      '[' :: lineBreak (level + 1) ++ indented (level + 1) element ++
        indentedElements (level + 1) rest ++ lineBreak level ++ [']']
  | .object [] => ['{', '}']
  | .object ((name, value) :: rest) =>
      '{' :: lineBreak (level + 1) ++ quote name.toList ++ [':', ' '] ++
        indented (level + 1) value ++ indentedMembers (level + 1) rest ++ lineBreak level ++ ['}']

def indentedElements (level : Nat) : List Value → List Char
  | [] => []
  | element :: rest =>
      ',' :: lineBreak level ++ indented level element ++ indentedElements level rest

def indentedMembers (level : Nat) : List (String × Value) → List Char
  | [] => []
  | (name, value) :: rest =>
      ',' :: lineBreak level ++ quote name.toList ++ [':', ' '] ++ indented level value ++
        indentedMembers level rest

end

def pretty (value : Value) : List Char :=
  indented 0 value

end Json

namespace Value

def json (value : Value) : String :=
  String.ofList (Json.compact value)

def prettyJson (value : Value) : String :=
  String.ofList (Json.pretty value)

end Value

end DocQuery
