import DocQuery.Decimal.Basic
import DocQuery.Value.Basic

/-!
# Reading JSON text

A text is read strictly: blanks are space, tab, carriage return and line feed,
nothing follows the value, and arrays and objects nest at most `Json.maxDepth`
deep.  An integer literal within 64 bits is an integer and any other number a
double, which is the significand's leading digits scaled by a power of ten.
-/

namespace DocQuery

namespace Json

/-- A reader consumes the front of a text, or refuses it. -/
abbrev Reader (α : Type) := List Char → Option (α × List Char)

def maxDepth : Nat := 127

def isSpace (c : Char) : Bool :=
  c = ' ' || c = '\t' || c = '\n' || c = '\r'

def skipSpaces (cs : List Char) : List Char :=
  cs.dropWhile isSpace

def hexValue? (c : Char) : Option Nat :=
  if c.isDigit then some (c.toNat - '0'.toNat)
  else if 'a' ≤ c ∧ c ≤ 'f' then some (c.toNat - 'a'.toNat + 10)
  else if 'A' ≤ c ∧ c ≤ 'F' then some (c.toNat - 'A'.toNat + 10)
  else none

def hexQuad : Reader Nat
  | a :: b :: c :: d :: rest => do
      let a ← hexValue? a
      let b ← hexValue? b
      let c ← hexValue? c
      let d ← hexValue? d
      some (((a * 16 + b) * 16 + c) * 16 + d, rest)
  | _ => none

/-- The character after the escape `\u`; a surrogate needs its partner. -/
def unicodeEscape : Reader Char := fun cs => do
  let (unit, rest) ← hexQuad cs
  if 0xD800 ≤ unit ∧ unit < 0xDC00 then
    match rest with
    | '\\' :: 'u' :: rest => do
        let (low, rest) ← hexQuad rest
        if 0xDC00 ≤ low ∧ low < 0xE000 then
          some (Char.ofNat (0x10000 + (unit - 0xD800) * 0x400 + (low - 0xDC00)), rest)
        else none
    | _ => none
  else if 0xDC00 ≤ unit ∧ unit < 0xE000 then none
  else some (Char.ofNat unit, rest)

/-- The characters up to the closing quotation mark; `budget` bounds their number. -/
def stringBody : Nat → Reader (List Char)
  | 0, _ => none
  | budget + 1, cs =>
      match cs with
      | [] => none
      | '"' :: rest => some ([], rest)
      | '\\' :: 'u' :: rest => do
          let (c, rest) ← unicodeEscape rest
          let (tail, rest) ← stringBody budget rest
          some (c :: tail, rest)
      | '\\' :: c :: rest => do
          let c ←
            match c with
            | '"' => some '"'
            | '\\' => some '\\'
            | '/' => some '/'
            | 'b' => some (Char.ofNat 8)
            | 'f' => some (Char.ofNat 12)
            | 'n' => some '\n'
            | 'r' => some '\r'
            | 't' => some '\t'
            | _ => none
          let (tail, rest) ← stringBody budget rest
          some (c :: tail, rest)
      | c :: rest =>
          if c = '\\' ∨ c.toNat < 32 then none
          else do
            let (tail, rest) ← stringBody budget rest
            some (c :: tail, rest)

def string : Reader String
  | '"' :: rest => (stringBody rest.length rest).map fun result =>
      (String.ofList result.1, result.2)
  | _ => none

/--
Reads digits into a number as long as it stays within an unsigned word of 64
bits, and returns the digits that do not fit.
-/
def absorb : Nat → List Char → Nat × List Char
  | n, [] => (n, [])
  | n, c :: rest =>
      let grown := 10 * n + (c.toNat - '0'.toNat)
      if grown ≤ 18446744073709551615 then absorb grown rest else (n, c :: rest)

/--
A double times a power of ten, in steps of at most `10 ^ 308`, each rounded.
There is no answer when it grows past every double.
-/
def scale : Nat → Float → Int → Option Float
  | 0, x, _ => some x
  | steps + 1, x, exponent =>
      if exponent.natAbs ≤ 308 then
        let power := Float.ofScientific 1 false exponent.natAbs
        if 0 ≤ exponent then
          if (x * power).isInf then none else some (x * power)
        else some (x / power)
      else if x == 0.0 then some x
      else if 0 ≤ exponent then none
      else scale steps (x / Float.ofScientific 1 false 308) (exponent + 308)

/-- The digits at the front of a text, at least one, and what follows them. -/
def digits : Reader (List Char) := fun cs =>
  match cs.takeWhile Char.isDigit with
  | [] => none
  | found => some (found, cs.dropWhile Char.isDigit)

/-- A whole number without superfluous zeros at its front. -/
def wholeDigits : Reader (List Char) := fun cs => do
  let (found, rest) ← digits cs
  match found with
  | '0' :: _ :: _ => none
  | _ => some (found, rest)

def fractionDigits : Reader (Option (List Char))
  | '.' :: rest => (digits rest).map fun result => (some result.1, result.2)
  | cs => some (none, cs)

def digitsValue (cs : List Char) : Nat :=
  cs.foldl (fun n c => 10 * n + (c.toNat - '0'.toNat)) 0

def exponentPart : Reader (Option Int)
  | c :: rest =>
      if c = 'e' ∨ c = 'E' then
        match rest with
        | '+' :: rest =>
            (digits rest).map fun result => (some (digitsValue result.1 : Int), result.2)
        | '-' :: rest =>
            (digits rest).map fun result => (some (-(digitsValue result.1 : Int)), result.2)
        | _ => (digits rest).map fun result => (some (digitsValue result.1 : Int), result.2)
      else some (none, c :: rest)
  | [] => some (none, [])

def float? (negative : Bool) (significand : Nat) (exponent : Int) : Option Value :=
  (scale 4 (Float.ofNat significand) exponent).map fun x =>
    Value.ofFloat (if negative then -x else x)

def numberOf (negative : Bool) (whole : List Char) (fraction : Option (List Char))
    (exponent : Option Int) : Option Value :=
  let (significand, excess) := absorb 0 whole
  match fraction, exponent, excess with
  | none, none, [] =>
      if negative then
        if significand = 0 ∨ 9223372036854775808 < significand then
          float? true significand 0
        else (Integer.ofInt? (-significand)).map fun n => .number (.integer n)
      else (Integer.ofInt? significand).map fun n => .number (.integer n)
  | _, _, _ =>
      let fraction := fraction.getD []
      let (significand, dropped) := absorb significand fraction
      float? negative significand
        (excess.length - (fraction.length - dropped.length : Nat) + exponent.getD 0)

def magnitude (negative : Bool) : Reader Value := fun cs => do
  let (whole, rest) ← wholeDigits cs
  let (fraction, rest) ← fractionDigits rest
  let (exponent, rest) ← exponentPart rest
  let value ← numberOf negative whole fraction exponent
  some (value, rest)

def number? : Reader Value
  | '-' :: rest => magnitude true rest
  | cs => magnitude false cs

def afterWord? (word cs : List Char) : Option (List Char) :=
  if word.isPrefixOf cs then some (cs.drop word.length) else none

def scalar : Reader Value := fun cs =>
  match cs with
  | 'n' :: _ => (afterWord? "null".toList cs).map fun rest => (.null, rest)
  | 't' :: _ => (afterWord? "true".toList cs).map fun rest => (.bool true, rest)
  | 'f' :: _ => (afterWord? "false".toList cs).map fun rest => (.bool false, rest)
  | '"' :: _ => (string cs).map fun result => (.text result.1, result.2)
  | _ => number? cs

/-- Items separated by commas up to a closing bracket; `budget` bounds their number. -/
def itemsUntil {α : Type} (close : Char) (item : Reader α) : Nat → Reader (List α)
  | 0, _ => none
  | budget + 1, cs => do
      let (first, rest) ← item cs
      match skipSpaces rest with
      | ',' :: rest => do
          let (others, rest) ← itemsUntil close item budget rest
          some (first :: others, rest)
      | c :: rest => if c = close then some ([first], rest) else none
      | [] => none

def items {α : Type} (close : Char) (item : Reader α) : Reader (List α) := fun cs =>
  match skipSpaces cs with
  | [] => none
  | c :: rest =>
      if c = close then some ([], rest)
      else itemsUntil close item rest.length.succ (c :: rest)

def member {α ν : Type} (name : Reader ν) (value : ν → Reader α) : Reader (ν × α) := fun cs => do
  let (name, rest) ← name (skipSpaces cs)
  match skipSpaces rest with
  | ':' :: rest => do
      let (value, rest) ← value name rest
      some ((name, value), rest)
  | _ => none

/--
A value whose arrays and objects nest at most as deep as the first argument says.
The members of objects stay as they are written, repeated names included.
-/
def value : Nat → Reader Value
  | 0, cs =>
      match skipSpaces cs with
      | [] => none
      | '[' :: _ => none
      | '{' :: _ => none
      | cs => scalar cs
  | depth + 1, cs =>
      match skipSpaces cs with
      | [] => none
      | '[' :: rest => (items ']' (value depth) rest).map fun result => (.array result.1, result.2)
      | '{' :: rest =>
          (items '}' (member string fun _ => value depth) rest).map fun result =>
            (.object result.1, result.2)
      | cs => scalar cs

def whole {α : Type} (reader : Reader α) (text : List Char) : Option α :=
  match reader text with
  | some (result, rest) => if (skipSpaces rest).isEmpty then some result else none
  | none => none

/-- The value a text spells, objects with their members as written. -/
def readWritten (text : List Char) : Option Value :=
  whole (value maxDepth) text

/-! ## Values that are passed over

Of a value that nobody looks at only the form counts: it may nest as deep as it
likes, its numbers may be of any size, and its texts may hold lone surrogates.
-/

def isEscape (c : Char) : Bool :=
  ['"', '\\', '/', 'b', 'f', 'n', 'r', 't'].contains c

def afterString : List Char → Option (List Char)
  | [] => none
  | '"' :: rest => some rest
  | '\\' :: 'u' :: a :: b :: c :: d :: rest =>
      if [a, b, c, d].all fun digit => (hexValue? digit).isSome then afterString rest else none
  | '\\' :: c :: rest => if isEscape c then afterString rest else none
  | c :: rest => if c = '\\' ∨ c.toNat < 32 then none else afterString rest

def passString : Reader Unit
  | '"' :: rest => (afterString rest).map fun rest => ((), rest)
  | _ => none

def passMagnitude : Reader Unit := fun cs => do
  let (_, rest) ← wholeDigits cs
  let (_, rest) ← fractionDigits rest
  let (_, rest) ← exponentPart rest
  some ((), rest)

def passScalar : Reader Unit := fun cs =>
  match cs with
  | '"' :: _ => passString cs
  | '-' :: rest => passMagnitude rest
  | c :: _ => if c.isDigit then passMagnitude cs else (scalar cs).map fun result => ((), result.2)
  | [] => none

/-- Passes over a value; `budget` bounds how deep it nests. -/
def passValue : Nat → Reader Unit
  | 0, _ => none
  | budget + 1, cs =>
      match skipSpaces cs with
      | '[' :: rest => (items ']' (passValue budget) rest).map fun result => ((), result.2)
      | '{' :: rest =>
          (items '}' (member passString fun _ => passValue budget) rest).map fun result =>
            ((), result.2)
      | cs => passScalar cs

/-- The value of a member with one of some names, null in place of any other member. -/
def knownValue (names : List String) (name : String) : Reader Value := fun cs =>
  if names.contains name then value (maxDepth - 1) cs
  else (passValue (cs.length + 1) cs).map fun result => (.null, result.2)

/-- A value; when it is an object, only its members with some names are looked at. -/
def valueOfNames (names : List String) : Reader Value := fun cs =>
  match skipSpaces cs with
  | '{' :: rest =>
      (items '}' (member string (knownValue names)) rest).map fun result =>
        (.object result.1, result.2)
  | cs => value maxDepth cs

/-- The value a text spells as written, an object without regard to all but some names. -/
def readNames (names : List String) (text : List Char) : Option Value :=
  whole (valueOfNames names) text

/-! ## Arranged values -/

mutual

/-- A value with the members of its objects in order, the last of a repeated name kept. -/
def arranged : Value → Value
  | .array elements => .array (arrangedElements elements)
  | .object members => .object (Members.ofList (arrangedMembers members))
  | other => other

def arrangedElements : List Value → List Value
  | [] => []
  | element :: rest => arranged element :: arrangedElements rest

def arrangedMembers : List (String × Value) → List (String × Value)
  | [] => []
  | (name, value) :: rest => (name, arranged value) :: arrangedMembers rest

end

def read (text : List Char) : Option Value :=
  (readWritten text).map arranged

end Json

end DocQuery
