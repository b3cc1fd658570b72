import DocQuery.Store.Collection
import DocQuery.Store.Failure

/-!
# The store

Databases hold collections, collections hold documents.  Each operation gives an
answer or fails, and leaves a store either way; ids are looked up from the front, so
that the first of several equal ones counts.
-/

namespace DocQuery

structure Database where
  header : Header
  collections : List Collection

structure Store where
  databases : List Database

/-- What an operation draws before it runs: an id for a document without one, and a stamp. -/
structure Fresh where
  id : String
  stamp : Stamp
deriving DecidableEq, Repr

def changeFirst {α : Type} (p : α → Bool) (f : α → α) : List α → List α
  | [] => []
  | item :: rest => if p item then f item :: rest else item :: changeFirst p f rest

namespace Store

def empty : Store := ⟨[]⟩

def isDatabase (id : String) (db : Database) : Bool :=
  db.header.id == id

def isCollection (id : String) (c : Collection) : Bool :=
  c.info.header.id == id

def database (store : Store) (id : String) : Except Failure Database :=
  match store.databases.find? (isDatabase id) with
  | some db => .ok db
  | none => .error (.databaseNotFound id)

def collection (store : Store) (database id : String) : Except Failure Collection := do
  let db ← store.database database
  match db.collections.find? (isCollection id) with
  | some c => .ok c
  | none => .error (.collectionNotFound id)

def withDatabase (store : Store) (id : String) (f : Database → Database) : Store :=
  ⟨changeFirst (isDatabase id) f store.databases⟩

def withCollection (store : Store) (database id : String) (f : Collection → Collection) : Store :=
  store.withDatabase database fun db =>
    { db with collections := changeFirst (isCollection id) f db.collections }

/-- An operation on a store: what was changed before a failure stays changed. -/
abbrev Action (α : Type) := EStateM Failure Store α

/-- What is found in the store as it stands. -/
def look {α : Type} (find : Store → Except Failure α) : Action α := do
  match find (← get) with
  | .ok found => return found
  | .error failure => throw failure

/-! ## Databases -/

def createDatabase (id : String) (fresh : Fresh) : Action Header := do
  let store ← get
  if store.databases.any (isDatabase id) then throw (.databaseExists id)
  else
    let header : Header := ⟨id, fresh.stamp⟩
    set (Store.mk (store.databases ++ [⟨header, []⟩]))
    return header

def getDatabase (store : Store) (id : String) : Except Failure Header := do
  let db ← store.database id
  .ok db.header

def listDatabases (store : Store) : List Header :=
  store.databases.map Database.header

def deleteDatabase (id : String) : Action Unit := do
  let _ ← look (·.database id)
  modify fun store => ⟨store.databases.eraseP (isDatabase id)⟩

/-! ## Collections -/

def createCollection (database id : String) (paths : List String) (fresh : Fresh) :
    Action CollectionInfo := do
  let db ← look (·.database database)
  if db.collections.any (isCollection id) then throw (.collectionExists id)
  else
    let info : CollectionInfo := ⟨⟨id, fresh.stamp⟩, PartitionKey.ofPaths? paths⟩
    modify fun store => store.withDatabase database fun db =>
      { db with collections := db.collections ++ [Collection.empty info] }
    return info

def getCollection (store : Store) (database id : String) : Except Failure CollectionInfo := do
  let c ← store.collection database id
  .ok c.info

def listCollections (store : Store) (database : String) : Except Failure (List CollectionInfo) := do
  let db ← store.database database
  .ok (db.collections.map Collection.info)

def deleteCollection (database id : String) : Action Unit := do
  let _ ← look (·.collection database id)
  modify fun store => store.withDatabase database fun db =>
    { db with collections := db.collections.eraseP (isCollection id) }

/-! ## Documents -/

/-- The id under which a document is stored; one without an id gets the drawn one. -/
def documentIdFor (members : Members) (drawn : String) : Except Failure String :=
  match (Members.get? members "id").getD .null with
  | .null => .ok drawn
  | .text id => if id = "" then .error (.invalidDocument (.badId (.text id))) else .ok id
  | other => .error (.invalidDocument (.badId other))

/-- A document with its id and the members that the store sets. -/
def stamped (members : Members) (id : String) (stamp : Stamp) : Value :=
  .object ((((Members.insert "id" (.text id) members).insert "_rid" (.text stamp.resource)).insert
    "_ts" (.ofInt stamp.time)).insert "_etag" (.text stamp.etag))

def prepare (document : Value) (fresh : Fresh) : Except Failure (String × Value) :=
  match document with
  | .object members => do
      let id ← documentIdFor members fresh.id
      .ok (id, stamped members id fresh.stamp)
  | other => .error (.invalidDocument (.notObject other))

/--
Adds a document.  A document with the same id is a conflict, unless it is to be
replaced in its place.
-/
def createDocument (database collection : String) (document : Value) (upsert : Bool)
    (fresh : Fresh) : Action Value := do
  let (id, document) ← look fun _ => prepare document fresh
  let c ← look (·.collection database collection)
  match c.position? id with
  | some index =>
      if upsert then
        modify (·.withCollection database collection (·.replace index document))
        return document
      else throw (.documentExists id)
  | none =>
      modify (·.withCollection database collection (·.push id document))
      return document

def getDocument (store : Store) (database collection id : String) : Except Failure Value := do
  let c ← store.collection database collection
  match c.document? id with
  | some document => .ok document
  | none => .error (.documentNotFound id)

def listDocuments (store : Store) (database collection : String) : Except Failure (List Value) := do
  let c ← store.collection database collection
  .ok c.documents

def deleteDocument (database collection id : String) : Action Unit := do
  let c ← look (·.collection database collection)
  match c.position? id with
  | some index => modify (·.withCollection database collection (·.remove index))
  | none => throw (.documentNotFound id)

end Store

end DocQuery
