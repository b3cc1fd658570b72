import DocQuery.Function.Basic
import DocQuery.Text.Search
import DocQuery.Value.Text

/-!
# Functions of strings

Positions and lengths count characters.  An argument that is not a string reads
as the empty text, a missing one as null.
-/

namespace DocQuery

/-- An argument of a call; a missing one is null. -/
def argument (arguments : List Value) (index : Nat) : Value :=
  arguments.getD index .null

def Value.ofChars (cs : List Char) : Value :=
  .text (String.ofList cs)

namespace TextFunction

def longestRepetition : Nat := 10000

def folded (ignoreCase : Bool) (cs : List Char) : List Char :=
  if ignoreCase then Text.lower cs else cs

/-- Compares the first two arguments; a third one that is true ignores case. -/
def compareTexts (test : List Char → List Char → Bool) (arguments : List Value) : Value :=
  let ignoreCase := (argument arguments 2).isTrue
  .bool (test (folded ignoreCase (argument arguments 0).chars)
    (folded ignoreCase (argument arguments 1).chars))

/-- The position of a needle at or after `start`, and -1 when there is none. -/
def indexFrom (text needle : List Char) (start : Nat) : Int :=
  if start < text.length then
    match Text.indexOf? needle (text.drop start) with
    | some found => start + found
    | none => -1
  else -1

/-- A number of characters; anything but a positive integer counts as zero. -/
def countOf (value : Value) : Nat :=
  (value.toInt?.getD 0).toNat

/-- The text between two positions: nothing unless both are integers. -/
def between (text : List Char) (start length : Option Int) : List Char :=
  match start, length with
  | some start, some length => (text.drop start.toNat).take length.toNat
  | _, _ => []

def wordProduct? (m n : Nat) : Option Nat :=
  if m * n ≤ 18446744073709551615 then some (m * n) else none

/-- A text repeated, null when the result is too long. -/
def repetition (text : List Char) (times : Option Int) : Value :=
  let times := (times.getD 0).toNat
  match wordProduct? text.length times with
  | some size =>
      if size ≤ longestRepetition then .ofChars (Text.repeated times text) else .null
  | none => .null

def withoutLeading (cs : List Char) : List Char :=
  cs.dropWhile (· == ' ')

def withoutTrailing (cs : List Char) : List Char :=
  (cs.reverse.dropWhile (· == ' ')).reverse

/-- A text from its first character that is no blank to its last one. -/
def withoutOuter (cs : List Char) : List Char :=
  let start := cs.findIdx (· != ' ')
  let stop := cs.length - cs.reverse.findIdx (· != ' ')
  (cs.take stop).drop start

def apply (f : TextFunction) (arguments : List Value) : Value :=
  let first := argument arguments 0
  let second := argument arguments 1
  let third := argument arguments 2
  match f with
  | equals => compareTexts (fun a b => a == b) arguments
  | contains => compareTexts (fun a b => Text.occurs b a) arguments
  | endsWith => compareTexts (fun a b => b.isSuffixOf a) arguments
  | startsWith => compareTexts (fun a b => b.isPrefixOf a) arguments
  | concat => .ofChars (arguments.flatMap Value.display)
  | indexOf => .ofInt (indexFrom first.chars second.chars (countOf third))
  | toText => .ofChars first.display
  | upper => .ofChars (Text.upper first.display)
  | lower => .ofChars (Text.lower first.display)
  | left => .ofChars (first.chars.take (countOf second))
  | right => .ofChars (first.chars.drop (first.chars.length - countOf second))
  | substring => .ofChars (between first.chars second.toInt? third.toInt?)
  | length => .ofNat first.chars.length
  | trimLeft => .ofChars (withoutLeading first.chars)
  | trimRight => .ofChars (withoutTrailing first.chars)
  | trim => .ofChars (withoutOuter first.chars)
  | replace => .ofChars (Text.replaceAll second.chars third.chars first.chars)
  | replicate => repetition first.chars second.toInt?
  | reverse => .ofChars first.chars.reverse

end TextFunction

end DocQuery
