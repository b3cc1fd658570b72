import DocQuery.Settings.Toml.Table
import DocQuery.Text.Blank

/-!
# Settings files

The TOML of a settings file: lines with a key and a value, the headers of tables,
and comments.
-/

namespace DocQuery

namespace Toml

def listItems (item : Reader Datum) : Nat → Reader Unit
  | 0, _ => none
  | budget + 1, cs =>
      match skipLines cs.length cs with
      | ']' :: rest => some ((), rest)
      | cs => do
          let (_, rest) ← item cs
          match skipLines rest.length rest with
          | ',' :: rest => listItems item budget rest
          | ']' :: rest => some ((), rest)
          | _ => none

def assignment (item : Reader Datum) : Reader (List String × Datum) := fun cs => do
  let (path, rest) ← key cs
  match rest with
  | '=' :: rest => do
      let (datum, rest) ← item (skipGap rest)
      some ((path, datum), rest)
  | _ => none

/--
The members of a table in one line after its first brace, added to those before them;
`budget` bounds their number.
-/
def tableItems (item : Reader Datum) : Nat → Table → Reader Table
  | 0, _, _ => none
  | budget + 1, members, cs => do
      let ((path, datum), rest) ← assignment item cs
      let members ← members.addValue path datum .header
      match skipGap rest with
      | ',' :: rest => tableItems item budget members rest
      | '\x7d' :: rest => some (members, rest)
      | _ => none

/-- A value whose lists and tables nest at most to some depth. -/
def value : Nat → Reader Datum
  | 0, cs => scalar cs
  | depth + 1, cs =>
      match cs with
      | '[' :: rest =>
          (listItems (value depth) (rest.length + 1) rest).map fun result => (.other, result.2)
      | '\x7b' :: rest =>
          match skipGap rest with
          | '\x7d' :: rest => some (.other, rest)
          | rest =>
              (tableItems (value depth) (rest.length + 1) [] rest).map fun result =>
                (.other, result.2)
      | _ => scalar cs

/-- The header of a table, and whether that is one more in a list of tables. -/
def header : Reader (List String × Bool)
  | '[' :: '[' :: rest => do
      let (path, rest) ← key rest
      match rest with
      | ']' :: ']' :: rest => some ((path, true), rest)
      | _ => none
  | '[' :: rest => do
      let (path, rest) ← key rest
      match rest with
      | ']' :: rest => some ((path, false), rest)
      | _ => none
  | _ => none

/--
The tables of a text after some of it has been read, where `path` leads to the table
that grows; `budget` bounds the number of lines.
-/
def linesFrom : Nat → List String → Table → List Char → Option Table
  | _, _, root, [] => some root
  | 0, _, _, _ => none
  | budget + 1, path, root, cs =>
      match lineEnd cs with
      | some rest => linesFrom budget path root rest
      | none =>
          match skipGap cs with
          | '[' :: rest => do
              let ((path, inList), rest) ← header ('[' :: rest)
              let rest ← lineEnd rest
              linesFrom budget path (← root.openAt path inList) rest
          | cs => do
              let ((key, datum), rest) ← assignment (value maxDepth) cs
              let rest ← lineEnd rest
              linesFrom budget path (← root.addValueAt path key datum) rest

def read (text : List Char) : Option Table :=
  linesFrom (text.length + 1) [] [] (Text.withoutMark text)

end Toml

end DocQuery
