import DocQuery.Text.Blank
import DocQuery.Text.Letter

/-!
# Variables from a file

Lines of the form `NAME=value` that set variables of the environment.  A value may
be quoted, and then go on over several lines; after it a comment may follow.  Outside
single quotes a dollar sign stands before the name of a variable, whose value takes
its place.  Reading stops at the first line that is not understood.
-/

namespace DocQuery

/-- Names of variables and their values; the first value of a name counts. -/
abbrev Variables := List (String × String)

namespace Variables

/-- The value of a variable: that of the environment goes before one that is set here. -/
def lookupIn (environment : String → Option String) (found : Variables) (name : String) :
    Option String :=
  environment name <|> found.lookup name

inductive Mode where
  | bare
  | single
  | double
  /-- After the value, where only a comment may follow. -/
  | finished
  /-- After a dollar sign and some letters of a name; the flag says whether in quotes. -/
  | dollar (quoted : Bool) (name : List Char)
  /-- After a dollar sign, a brace and some of a name; the flag says whether in quotes. -/
  | braced (quoted : Bool) (name : List Char)

def Mode.text (quoted : Bool) : Mode :=
  if quoted then .double else .bare

def unescape? (c : Char) : Option Char :=
  if c = 'n' then some '\n'
  else if ['\\', '\'', '"', '$', ' '].contains c then some c
  else none

/--
The value at the front of a line; quotes are dropped, names after dollar signs stand
for what `value?` says, a comment ends it.  The character that ends a name without
braces is taken as it is.
-/
def valueFrom (value? : String → Option String) : Mode → List Char → Option (List Char)
  | .bare, [] => some []
  | .finished, [] => some []
  | .dollar false name, [] => some (expansion name)
  | _, [] => none
  | .finished, c :: rest =>
      if c = ' ' ∨ c = '\t' then valueFrom value? .finished rest
      else if c = '#' then some []
      else none
  | .single, c :: rest =>
      if c = '\'' then valueFrom value? .bare rest
      else (valueFrom value? .single rest).map (c :: ·)
  | .dollar quoted name, c :: rest =>
      if Text.isLetterOrNumeral c then valueFrom value? (.dollar quoted (name ++ [c])) rest
      else if c = '\x7b' ∧ name = [] then valueFrom value? (.braced quoted []) rest
      else if c = '$' then
        (valueFrom value? (.dollar quoted []) rest).map (expansion name ++ ·)
      else (valueFrom value? (Mode.text quoted) rest).map (expansion name ++ c :: ·)
  | .braced quoted name, c :: rest =>
      if c = '\x7d' then
        (valueFrom value? (Mode.text quoted) rest).map (expansion name ++ ·)
      else valueFrom value? (.braced quoted (name ++ [c])) rest
  | .bare, ['\\'] => some []
  | mode, '\\' :: rest =>
      match rest with
      | [] => none
      | c :: rest => do
          let c ← unescape? c
          (valueFrom value? mode rest).map (c :: ·)
  | .double, c :: rest =>
      if c = '$' then valueFrom value? (.dollar true []) rest
      else if c = '"' then valueFrom value? .bare rest
      else (valueFrom value? .double rest).map (c :: ·)
  | .bare, c :: rest =>
      if c = '$' then valueFrom value? (.dollar false []) rest
      else if c = '\'' then valueFrom value? .single rest
      else if c = '"' then valueFrom value? .double rest
      else if c = ' ' ∨ c = '\t' then valueFrom value? .finished rest
      else (valueFrom value? .bare rest).map (c :: ·)
where
  /-- What a name stands for, nothing when it is not set. -/
  expansion (name : List Char) : List Char :=
    ((value? (String.ofList name)).getD "").toList

def beginsName (c : Char) : Bool :=
  c.isAlpha || c = '_'

def continuesName (c : Char) : Bool :=
  c.isAlphanum || c = '_' || c = '.'

def name (cs : List Char) : Option (List Char × List Char) :=
  match cs with
  | c :: _ =>
      if beginsName c then
        some (cs.takeWhile continuesName, (cs.dropWhile continuesName).dropWhile Text.isBlank)
      else none
  | [] => none

def assignment (value? : String → Option String) (name cs : List Char) :
    Option (String × String) :=
  match cs with
  | '=' :: rest =>
      match rest.dropWhile Text.isBlank with
      | '#' :: _ => some (String.ofList name, "")
      | rest =>
          (valueFrom value? .bare rest).map fun value => (String.ofList name, String.ofList value)
  | _ => none

/-- The variable that a line sets, none when it is blank or a comment. -/
def ofLine (value? : String → Option String) (line : List Char) :
    Option (Option (String × String)) :=
  match Text.trimBlanks line with
  | [] => some none
  | '#' :: _ => some none
  | cs => do
      let (first, rest) ← name cs
      match first == "export".toList, rest.head? == some '=' with
      | true, false => do
          let (second, rest) ← name rest
          (assignment value? second rest).map some
      | _, _ => (assignment value? first rest).map some

/-! ## Lines -/

inductive Scan where
  | plain
  /-- Just after a blank, where a comment may begin. -/
  | blank
  /-- Just after a backslash. -/
  | escaped
  /-- Inside quotes, possibly just after a backslash. -/
  | quoted (quote : Char) (escaped : Bool)
deriving DecidableEq, Repr

def Scan.next (scan : Scan) (c : Char) : Scan :=
  match scan with
  | .quoted quote true => .quoted quote false
  | .quoted quote false =>
      if c = '\\' then .quoted quote true else if c = quote then .plain else .quoted quote false
  | .escaped => .plain
  | scan =>
      if c = '\\' then .escaped
      else if c = '"' ∨ c = '\'' then .quoted c false
      else if scan = .plain ∧ Text.isBlank c = true ∧ c ≠ '\n' ∧ c ≠ '\r' then .blank
      else .plain

def afterBreak : List Char → List Char
  | [] => []
  | c :: rest => if c = '\n' then rest else afterBreak rest

/--
The line at the front of a text without its break and its comment, and what follows
it.  There is none when the text ends inside quotes, or just after a backslash or a
single blank.
-/
def lineFrom : Scan → List Char → Option (List Char × List Char)
  | scan, [] => if scan = .plain then some ([], []) else none
  | scan, c :: rest =>
      if scan = .blank ∧ c = '#' then some ([], afterBreak rest)
      else if c = '\n' ∧ scan.next c = .plain then some ([], rest)
      else (lineFrom (scan.next c) rest).map fun result => (c :: result.1, result.2)

def beginsWithComment (cs : List Char) : Bool :=
  (cs.dropWhile fun c => Text.isBlank c && c != '\n').head? == some '#'

/--
The variables that a text sets after those already found, up to the first line that
is not understood; `budget` bounds the number of lines.
-/
def fromText (environment : String → Option String) :
    Nat → Variables → List Char → Variables
  | 0, found, _ => found
  | _, found, [] => found
  | budget + 1, found, cs =>
      if beginsWithComment cs then fromText environment budget found (afterBreak cs)
      else
        match lineFrom .plain cs with
        | none => found
        | some (line, rest) =>
            match ofLine (lookupIn environment found) line with
            | none => found
            | some none => fromText environment budget found rest
            | some (some binding) => fromText environment budget (found ++ [binding]) rest

def ofText (environment : String → Option String) (text : String) : Variables :=
  fromText environment (text.length + 1) [] (Text.withoutMark text.toList)

/-- The names that stand after the dollar signs of a text, in braces or not. -/
def mentioned : List Char → List String
  | [] => []
  | c :: rest =>
      if c = '$' then
        String.ofList (rest.takeWhile Text.isLetterOrNumeral) ::
          String.ofList ((rest.drop 1).takeWhile (· != '\x7d')) :: mentioned rest
      else mentioned rest

end Variables

end DocQuery
