import DocQuery.Value.Basic
import Std.Data.HashMap

/-!
# Collections

The documents of a collection in the order in which they were added, and an index
from each id to the position of the first document that has it.
-/

namespace DocQuery

/-- What is drawn anew whenever something is stored. -/
structure Stamp where
  resource : String
  time : Int
  etag : String
deriving DecidableEq, Repr

structure Header where
  id : String
  stamp : Stamp
deriving DecidableEq, Repr

/-- By which members the documents of a collection are spread. -/
structure PartitionKey where
  paths : List String
  kind : String
deriving DecidableEq, Repr

namespace PartitionKey

def defaultKind : String := "Hash"

/-- The partition key with some paths; no paths make no key. -/
def ofPaths? (paths : List String) : Option PartitionKey :=
  if paths.isEmpty then none else some ⟨paths, defaultKind⟩

end PartitionKey

structure CollectionInfo where
  header : Header
  partitionKey : Option PartitionKey
deriving DecidableEq, Repr

abbrev Positions := Std.HashMap String Nat

/-- A collection: its documents and where to find them. -/
structure Collection where
  info : CollectionInfo
  documents : List Value
  positions : Positions

namespace Value

def documentId? : Value → Option String
  | object members =>
      match Members.get? members "id" with
      | some (text id) => some id
      | _ => none
  | _ => none

end Value

namespace Positions

/-- Notes where a document stands; an id keeps the lower of two positions. -/
def note (positions : Positions) (index : Nat) (document : Value) : Positions :=
  match document.documentId? with
  | none => positions
  | some id =>
      match positions[id]? with
      | some held => if index < held then positions.insert id index else positions
      | none => positions.insert id index

def noteAll (positions : Positions) : Nat → List Value → Positions
  | _, [] => positions
  | index, document :: rest => noteAll (positions.note index document) (index + 1) rest

end Positions

namespace Collection

def empty (info : CollectionInfo) : Collection :=
  ⟨info, [], ∅⟩

def reindexFrom (c : Collection) (start : Nat) : Collection :=
  let held : Positions := if start = 0 then ∅ else c.positions
  { c with positions := held.noteAll start (c.documents.drop start) }

def ofDocuments (info : CollectionInfo) (documents : List Value) : Collection :=
  (Collection.mk info documents ∅).reindexFrom 0

def position? (c : Collection) (id : String) : Option Nat :=
  c.positions[id]?

def document? (c : Collection) (id : String) : Option Value :=
  (c.position? id).bind fun index => c.documents[index]?

/-- Adds a document with an id that is new. -/
def push (c : Collection) (id : String) (document : Value) : Collection :=
  { c with
    documents := c.documents ++ [document]
    positions := c.positions.insert id c.documents.length }

def replace (c : Collection) (index : Nat) (document : Value) : Collection :=
  { c with documents := c.documents.set index document }

/-- Forgets the position of an id when it is the given one. -/
def forget (positions : Positions) (id : Option String) (index : Nat) : Positions :=
  match id with
  | some id => if positions[id]? = some index then positions.erase id else positions
  | none => positions

def remove (c : Collection) (index : Nat) : Collection :=
  let id := c.documents[index]?.bind Value.documentId?
  Collection.reindexFrom
    { c with
      documents := c.documents.eraseIdx index
      positions := forget c.positions id index } index

end Collection

end DocQuery
