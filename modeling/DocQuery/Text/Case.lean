import DocQuery.Text.CaseContext
import DocQuery.Text.CaseTable

/-!
# Case mapping of text

The full default case mappings: one character may become several, and a capital
sigma is lowered according to its place in the word.
-/

namespace DocQuery

namespace Text

/-- The image of a character under tabulated mappings, itself when there is none. -/
def mapCase (sequences : List (Nat × List Nat)) (runs : List CaseRun) (c : Char) : List Char :=
  match sequences.lookup c.toNat with
  | some image => image.map Char.ofNat
  | none =>
      match runs.findSome? (fun run => run.image? c.toNat) with
      | some image => [Char.ofNat image]
      | none => [c]

def upperChar (c : Char) : List Char :=
  if c.toNat < 128 then [c.toUpper] else mapCase upperSequences upperRuns c

/-- The lower-case form of one character, whatever stands around it. -/
def lowerChar (c : Char) : List Char :=
  if c.toNat < 128 then [c.toLower] else mapCase lowerSequences lowerRuns c

def upper (cs : List Char) : List Char :=
  cs.flatMap upperChar

/-- Whether the first character that is not looked through is cased. -/
def meetsCased (cs : List Char) : Bool :=
  match cs.dropWhile isCaseIgnorable with
  | c :: _ => isCased c
  | [] => false

/-- The lower-case form of a text that follows `before`, which is read backwards. -/
def lowerAfter : List Char → List Char → List Char
  | _, [] => []
  | before, c :: rest =>
      (if c = 'Σ' then
        if meetsCased before && !meetsCased rest then ['ς'] else ['σ']
      else lowerChar c) ++ lowerAfter (c :: before) rest

def lower (cs : List Char) : List Char :=
  lowerAfter [] cs

def upperString (s : String) : String :=
  String.ofList (upper s.toList)

end Text

end DocQuery
