import DocQuery.Settings.Toml.Scalar

/-!
# Tables of a settings file

A table grows while a file is read.  A key with dots makes the tables on its way, and
so does a header, but what one of them made the other does not take for its own: each
table has one place in a file where it is spelled out.
-/

namespace DocQuery

namespace Toml

inductive Origin where
  /-- The top of the file, its own header, or a list of tables. -/
  | header
  /-- The header of a table below it. -/
  | implied
  /-- A key with dots. -/
  | dotted
deriving DecidableEq, Repr

inductive Item where
  | value (datum : Datum)
  | table (origin : Origin) (members : List (String × Item))
  /-- A list of tables, of which only the last one still grows. -/
  | tables (last : List (String × Item))

abbrev Table := List (String × Item)

namespace Table

def set (name : String) (item : Item) : Table → Table
  | [] => [(name, item)]
  | (other, held) :: rest =>
      if other = name then (name, item) :: rest else (other, held) :: set name item rest

/--
Changes the table at the end of a path; tables that are missing on the way are made.
A key with dots does not lead into a table with a header of its own.
-/
def changeAt (byDots : Bool) (change : Origin → Table → Option Table) :
    List String → Origin → Table → Option Table
  | [], origin, members => change origin members
  | name :: path, _, members =>
      match members.lookup name with
      | some (.value _) => none
      | some (.tables last) =>
          (changeAt byDots change path .header last).map fun last => set name (.tables last) members
      | some (.table origin inner) =>
          if byDots ∧ origin = .header then none
          else
            (changeAt byDots change path origin inner).map fun inner =>
              set name (.table origin inner) members
      | none =>
          let origin : Origin := if byDots then .dotted else .implied
          (changeAt byDots change path origin []).map fun inner =>
            set name (.table origin inner) members

/-- Adds a value under a name that is new, in a table that a key with dots may add to. -/
def place (name : String) (datum : Datum) (afterDots : Bool) (origin : Origin) (members : Table) :
    Option Table :=
  if afterDots ∧ origin ≠ .dotted ∨ (members.lookup name).isSome then none
  else some (set name (.value datum) members)

def addValue (key : List String) (datum : Datum) (origin : Origin) (members : Table) :
    Option Table :=
  match key.getLast? with
  | some name => changeAt true (place name datum (1 < key.length)) key.dropLast origin members
  | none => none

def addValueAt (path key : List String) (datum : Datum) (root : Table) : Option Table :=
  changeAt false (addValue key datum) path .header root

/-- Opens the table under a name, which its own header must not have opened before. -/
def openNamed (name : String) (_ : Origin) (members : Table) : Option Table :=
  match members.lookup name with
  | none => some (set name (.table .header []) members)
  | some (.table .implied inner) => some (set name (.table .header inner) members)
  | some _ => none

def openNext (name : String) (_ : Origin) (members : Table) : Option Table :=
  match members.lookup name with
  | none => some (set name (.tables []) members)
  | some (.tables _) => some (set name (.tables []) members)
  | some _ => none

/-- Opens the table that a header names, possibly one more in a list of tables. -/
def openAt (path : List String) (inList : Bool) (root : Table) : Option Table :=
  match path.getLast? with
  | some name =>
      changeAt false (if inList then openNext name else openNamed name) path.dropLast .header root
  | none => none

/-- The value under a name, nothing when the name is absent; a table is no text and no flag. -/
def datum? (members : Table) (name : String) : Option Datum :=
  (members.lookup name).map fun item =>
    match item with
    | .value datum => datum
    | _ => .other

end Table

end Toml

end DocQuery
