import DocQuery.Json.Reader
import DocQuery.Store.Basic

/-!
# Store files

A whole store as one JSON value: databases with their collections, collections
with their documents.  Members are written in one fixed order, whatever their names.
Reading accepts more than writing produces: unknown names are passed over, lists may be
absent, and positions are noted anew.
-/

namespace DocQuery

namespace Header

def members (h : Header) : List (String × Value) :=
  [("id", .text h.id), ("_rid", .text h.stamp.resource), ("_ts", .ofInt h.stamp.time),
    ("_etag", .text h.stamp.etag)]

def toValue (h : Header) : Value :=
  .object h.members

end Header

namespace PartitionKey

def toValue (key : PartitionKey) : Value :=
  .object [("paths", .array (key.paths.map .text)), ("kind", .text key.kind)]

end PartitionKey

namespace CollectionInfo

def members (info : CollectionInfo) : List (String × Value) :=
  info.header.members ++
    (info.partitionKey.map fun key => ("partitionKey", key.toValue)).toList

def toValue (info : CollectionInfo) : Value :=
  .object info.members

end CollectionInfo

namespace Collection

def toValue (c : Collection) : Value :=
  .object (c.info.members ++ [("documents", .array c.documents)])

end Collection

namespace Database

def toValue (db : Database) : Value :=
  .object
    (db.header.members ++ [("collections", .array (db.collections.map Collection.toValue))])

end Database

namespace Store

def toValue (store : Store) : Value :=
  .object [("databases", .array (store.databases.map Database.toValue))]

def dump (store : Store) : String :=
  store.toValue.prettyJson

end Store

namespace StoreFile

/-- The values written for a name; a name that matters may occur once only. -/
def occurrences (written : List (String × Value)) (name : String) : List Value :=
  (written.filter fun assignment => assignment.1 == name).map Prod.snd

/-- The value written for a name, nothing when the name is absent; refused when repeated. -/
def member? (written : List (String × Value)) (name : String) : Option (Option Value) :=
  match occurrences written name with
  | [] => some none
  | [value] => some (some value)
  | _ => none

def textMember (written : List (String × Value)) (name : String) : Option String :=
  match member? written name with
  | some (some (.text s)) => some s
  | _ => none

def wordMember (written : List (String × Value)) (name : String) : Option Int :=
  match member? written name with
  | some (some value) => value.toInt?
  | _ => none

/-- A member that must be a list, empty when the name is absent. -/
def listMember (written : List (String × Value)) (name : String) : Option (List Value) :=
  match member? written name with
  | some none => some []
  | some (some (.array elements)) => some elements
  | _ => none

def header (written : List (String × Value)) : Option Header := do
  let id ← textMember written "id"
  let resource ← textMember written "_rid"
  let time ← wordMember written "_ts"
  let etag ← textMember written "_etag"
  some ⟨id, ⟨resource, time, etag⟩⟩

def texts : List Value → Option (List String)
  | [] => some []
  | .text s :: rest => (texts rest).map (s :: ·)
  | _ :: _ => none

/-- A partition key, written as an object or as the list of its members. -/
def partitionKeyOf : Value → Option PartitionKey
  | .object written => do
      let paths ←
        match member? written "paths" with
        | some (some (.array paths)) => texts paths
        | _ => none
      match member? written "kind" with
      | some none => some ⟨paths, PartitionKey.defaultKind⟩
      | some (some (.text kind)) => some ⟨paths, kind⟩
      | _ => none
  | .array [.array paths] => (texts paths).map fun paths => ⟨paths, PartitionKey.defaultKind⟩
  | .array [.array paths, .text kind] => (texts paths).map fun paths => ⟨paths, kind⟩
  | _ => none

/-- A partition key among other members, none when it is absent or null. -/
def partitionKey (written : List (String × Value)) : Option (Option PartitionKey) :=
  match member? written "partitionKey" with
  | some none => some none
  | some (some .null) => some none
  | some (some value) => (partitionKeyOf value).map some
  | none => none

def collectionOf : Value → Option Collection
  | .object written => do
      let documents ← listMember written "documents"
      let header ← header written
      let key ← partitionKey written
      some (Collection.ofDocuments ⟨header, key⟩ (Json.arrangedElements documents))
  | _ => none

def databaseOf : Value → Option Database
  | .object written => do
      let collections ← listMember written "collections"
      let header ← header written
      let collections ← collections.mapM collectionOf
      some ⟨header, collections⟩
  | _ => none

/-- The names that matter at the top of a file. -/
def names : List String := ["databases"]

/-- A store, written as an object or as the list of its members. -/
def storeOf (value : Value) : Option Store := do
  let databases ←
    match value with
    | .object written => listMember written "databases"
    | .array [] => some []
    | .array [.array databases] => some databases
    | _ => none
  let databases ← databases.mapM databaseOf
  some ⟨databases⟩

end StoreFile

namespace Store

def load (text : String) : Except Failure Store :=
  match (Json.readNames StoreFile.names text.toList).bind StoreFile.storeOf with
  | some store => .ok store
  | none => .error .json

end Store

end DocQuery
