import DocQuery.Json.Reader

/-!
# Texts and keys of a settings file

Gaps, comments and line ends, texts in quotes of one or of three characters, and
keys joined by dots.
-/

namespace DocQuery

namespace Toml

abbrev Reader (α : Type) := List Char → Option (α × List Char)

def skipGap (cs : List Char) : List Char :=
  cs.dropWhile fun c => c = ' ' || c = '\t'

def isPlain (c : Char) : Bool :=
  c = '\t' || (decide (32 ≤ c.toNat) && decide (c.toNat ≠ 127))

def skipComment : List Char → List Char
  | '#' :: rest => rest.dropWhile isPlain
  | cs => cs

def newline? : List Char → Option (List Char)
  | '\n' :: rest => some rest
  | '\r' :: '\n' :: rest => some rest
  | _ => none

def lineEnd (cs : List Char) : Option (List Char) :=
  match skipComment (skipGap cs) with
  | [] => some []
  | rest => newline? rest

/-- The text after gaps, comments and line breaks; `budget` bounds the number of lines. -/
def skipLines : Nat → List Char → List Char
  | 0, cs => cs
  | budget + 1, cs =>
      match lineEnd cs with
      | some [] => []
      | some rest => skipLines budget rest
      | none => skipGap cs

/-! ## Texts -/

def hexNumber : Nat → Nat → Reader Nat
  | 0, n, cs => some (n, cs)
  | count + 1, n, c :: rest => do
      let digit ← Json.hexValue? c
      hexNumber count (16 * n + digit) rest
  | _, _, [] => none

def codePoint (count : Nat) : Reader Char := fun cs => do
  let (n, rest) ← hexNumber count 0 cs
  if n < 0xD800 ∨ (0xE000 ≤ n ∧ n < 0x110000) then some (Char.ofNat n, rest) else none

def escape : Reader Char
  | 'b' :: rest => some (Char.ofNat 8, rest)
  | 't' :: rest => some ('\t', rest)
  | 'n' :: rest => some ('\n', rest)
  | 'f' :: rest => some (Char.ofNat 12, rest)
  | 'r' :: rest => some ('\r', rest)
  | '"' :: rest => some ('"', rest)
  | '\\' :: rest => some ('\\', rest)
  | 'u' :: rest => codePoint 4 rest
  | 'U' :: rest => codePoint 8 rest
  | _ => none

/-- A text in double quotes, from its second character on; `budget` bounds its length. -/
def basicText : Nat → Reader (List Char)
  | 0, _ => none
  | budget + 1, cs =>
      match cs with
      | [] => none
      | c :: rest =>
          if c = '"' then some ([], rest)
          else if c = '\\' then do
            let (c, rest) ← escape rest
            let (tail, rest) ← basicText budget rest
            some (c :: tail, rest)
          else if isPlain c then do
            let (tail, rest) ← basicText budget rest
            some (c :: tail, rest)
          else none

def literalText : Reader (List Char)
  | [] => none
  | c :: rest =>
      if c = '\'' then some ([], rest)
      else if isPlain c then (literalText rest).map fun result => (c :: result.1, result.2)
      else none

def quotedText : Reader String
  | '"' :: rest => (basicText rest.length rest).map fun result => (String.ofList result.1, result.2)
  | '\'' :: rest => (literalText rest).map fun result => (String.ofList result.1, result.2)
  | _ => none

/-! ## Texts of several lines -/

def skipBlankLines : List Char → List Char
  | ' ' :: rest => skipBlankLines rest
  | '\t' :: rest => skipBlankLines rest
  | '\n' :: rest => skipBlankLines rest
  | '\r' :: '\n' :: rest => skipBlankLines rest
  | cs => cs

/--
Of some quotes in a row inside a text of several lines, those that belong to it, and
whether the others close it: three close it, and up to two may stand before them.
-/
def closing (quotes : Nat) : Nat × Bool :=
  if quotes < 3 then (quotes, false) else (min quotes 5 - 3, true)

/--
A text in three double or single quotes, after them; `budget` bounds its length.  A
backslash at the end of a line drops the line break and the blanks after it, and
only in double quotes a backslash escapes.
-/
def longText (quote : Char) : Nat → Reader (List Char)
  | 0, _ => none
  | budget + 1, cs =>
      match cs with
      | [] => none
      | c :: rest =>
          if c = quote then
            let (kept, closed) := closing (cs.takeWhile (· = quote)).length
            if closed then some (List.replicate kept quote, cs.drop (kept + 3))
            else (longText quote budget (cs.drop kept)).map fun result =>
              (List.replicate kept quote ++ result.1, result.2)
          else if c = '\\' ∧ quote = '"' then
            match newline? (skipGap rest) with
            | some rest => longText quote budget (skipBlankLines rest)
            | none => do
                let (c, rest) ← escape rest
                let (tail, rest) ← longText quote budget rest
                some (c :: tail, rest)
          else
            match newline? cs with
            | some rest => (longText quote budget rest).map fun result =>
                ('\n' :: result.1, result.2)
            | none =>
                if isPlain c then (longText quote budget rest).map fun result =>
                  (c :: result.1, result.2)
                else none

/-- A text in three quotes, after them; a line break right after them does not count. -/
def longTextAfter (quote : Char) : Reader String := fun cs =>
  (longText quote (cs.length + 1) ((newline? cs).getD cs)).map fun result =>
    (String.ofList result.1, result.2)

def anyText : Reader String
  | '"' :: '"' :: '"' :: rest => longTextAfter '"' rest
  | '\'' :: '\'' :: '\'' :: rest => longTextAfter '\'' rest
  | cs => quotedText cs

/-! ## Keys -/

def isBare (c : Char) : Bool :=
  c.isAlphanum || c = '_' || c = '-'

def simpleKey : Reader String := fun cs =>
  match cs.takeWhile isBare with
  | [] => quotedText cs
  | found => some (String.ofList found, cs.dropWhile isBare)

def dottedKey : Nat → Reader (List String)
  | 0, _ => none
  | budget + 1, cs => do
      let (first, rest) ← simpleKey (skipGap cs)
      match skipGap rest with
      | '.' :: rest => do
          let (others, rest) ← dottedKey budget rest
          some (first :: others, rest)
      | rest => some ([first], rest)

def maxDepth : Nat := 79

def key : Reader (List String) :=
  dottedKey maxDepth

end Toml

end DocQuery
