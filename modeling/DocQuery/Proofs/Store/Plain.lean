import DocQuery.Proofs.Outcome
import DocQuery.Proofs.Store.Operation
import DocQuery.Proofs.Store.Index

/-!
# A store without an index

Each collection is a list of documents and nothing else.  A document is found by a
scan for the first one with the id, added at the end, replaced where it stands and
taken out of the list.  What fails changes nothing, by definition.
-/

namespace DocQuery

structure PlainCollection where
  info : CollectionInfo
  documents : List Value

structure PlainDatabase where
  header : Header
  collections : List PlainCollection

structure PlainStore where
  databases : List PlainDatabase

namespace PlainCollection

def named (id : String) (c : PlainCollection) : Bool :=
  c.info.header.id == id

def push (c : PlainCollection) (document : Value) : PlainCollection :=
  { c with documents := c.documents ++ [document] }

/-- Puts another document in the place of the first one with an id. -/
def replace (c : PlainCollection) (id : String) (document : Value) : PlainCollection :=
  { c with documents := c.documents.set (c.documents.findIdx (Value.hasId id)) document }

def remove (c : PlainCollection) (id : String) : PlainCollection :=
  { c with documents := c.documents.eraseIdx (c.documents.findIdx (Value.hasId id)) }

def ofValue : Value → Option PlainCollection
  | .object written => do
      let documents ← StoreFile.listMember written "documents"
      let header ← StoreFile.header written
      let key ← StoreFile.partitionKey written
      some ⟨⟨header, key⟩, Json.arrangedElements documents⟩
  | _ => none

end PlainCollection

namespace PlainDatabase

def named (id : String) (db : PlainDatabase) : Bool :=
  db.header.id == id

def ofValue : Value → Option PlainDatabase
  | .object written => do
      let collections ← StoreFile.listMember written "collections"
      let header ← StoreFile.header written
      let collections ← collections.mapM PlainCollection.ofValue
      some ⟨header, collections⟩
  | _ => none

end PlainDatabase

namespace PlainStore

def empty : PlainStore := ⟨[]⟩

def database (store : PlainStore) (id : String) : Except Failure PlainDatabase :=
  match store.databases.find? (PlainDatabase.named id) with
  | some db => .ok db
  | none => .error (.databaseNotFound id)

def collection (store : PlainStore) (database id : String) : Except Failure PlainCollection := do
  let db ← store.database database
  match db.collections.find? (PlainCollection.named id) with
  | some c => .ok c
  | none => .error (.collectionNotFound id)

def withDatabase (store : PlainStore) (id : String) (f : PlainDatabase → PlainDatabase) :
    PlainStore :=
  ⟨store.databases.modify (store.databases.findIdx (PlainDatabase.named id)) f⟩

def withCollection (store : PlainStore) (database id : String)
    (f : PlainCollection → PlainCollection) : PlainStore :=
  store.withDatabase database fun db =>
    { db with collections :=
        db.collections.modify (db.collections.findIdx (PlainCollection.named id)) f }

/-- The values in a store's file that stand for databases. -/
def valuesIn : Value → Option (List Value)
  | .object written => StoreFile.listMember written "databases"
  | .array [] => some []
  | .array [.array databases] => some databases
  | _ => none

def ofValue (value : Value) : Option PlainStore := do
  let values ← valuesIn value
  let databases ← values.mapM PlainDatabase.ofValue
  some ⟨databases⟩

def attempt (store : PlainStore) : Operation → Except Failure (Answer × PlainStore)
  | .createDatabase id fresh =>
      if store.databases.any (PlainDatabase.named id) then .error (.databaseExists id)
      else .ok (.database ⟨id, fresh.stamp⟩, ⟨store.databases ++ [⟨⟨id, fresh.stamp⟩, []⟩]⟩)
  | .getDatabase id => do
      let db ← store.database id
      .ok (.database db.header, store)
  | .listDatabases => .ok (.databases (store.databases.map PlainDatabase.header), store)
  | .deleteDatabase id => do
      let _ ← store.database id
      .ok (.done, ⟨store.databases.eraseIdx (store.databases.findIdx (PlainDatabase.named id))⟩)
  | .createCollection database id paths fresh => do
      let db ← store.database database
      if db.collections.any (PlainCollection.named id) then .error (.collectionExists id)
      else
        let info : CollectionInfo := ⟨⟨id, fresh.stamp⟩, PartitionKey.ofPaths? paths⟩
        .ok (.collection info, store.withDatabase database fun db =>
          { db with collections := db.collections ++ [⟨info, []⟩] })
  | .getCollection database id => do
      let c ← store.collection database id
      .ok (.collection c.info, store)
  | .listCollections database => do
      let db ← store.database database
      .ok (.collections (db.collections.map PlainCollection.info), store)
  | .deleteCollection database id => do
      let _ ← store.collection database id
      .ok (.done, store.withDatabase database fun db =>
        { db with collections :=
            db.collections.eraseIdx (db.collections.findIdx (PlainCollection.named id)) })
  | .createDocument database collection document upsert fresh => do
      let (id, document) ← Store.prepare document fresh
      let c ← store.collection database collection
      if c.documents.any (Value.hasId id) then
        if upsert then
          .ok (.document document,
            store.withCollection database collection fun c => c.replace id document)
        else .error (.documentExists id)
      else
        .ok (.document document,
          store.withCollection database collection fun c => c.push document)
  | .getDocument database collection id => do
      let c ← store.collection database collection
      match c.documents.find? (Value.hasId id) with
      | some document => .ok (.document document, store)
      | none => .error (.documentNotFound id)
  | .listDocuments database collection => do
      let c ← store.collection database collection
      .ok (.documents c.documents, store)
  | .deleteDocument database collection id => do
      let c ← store.collection database collection
      if c.documents.any (Value.hasId id) then
        .ok (.done, store.withCollection database collection fun c => c.remove id)
      else .error (.documentNotFound id)
  | .load text =>
      match (Json.readNames StoreFile.names text.toList).bind ofValue with
      | some next => .ok (.done, next)
      | none => .error .json

/-- An attempt and the store after it, which a failure leaves as it was. -/
def settle (operation : Operation) : EStateM Failure PlainStore Answer := fun store =>
  match store.attempt operation with
  | .ok (answer, next) => .ok answer next
  | .error failure => .error failure store

def run : PlainStore → List Operation → List (Except Failure Answer) × PlainStore :=
  Operation.run settle

end PlainStore

/-! ## The plain store behind a store -/

namespace Collection

def plain (c : Collection) : PlainCollection :=
  ⟨c.info, c.documents⟩

end Collection

namespace Database

def plain (db : Database) : PlainDatabase :=
  ⟨db.header, db.collections.map Collection.plain⟩

def Indexed (db : Database) : Prop :=
  ∀ c ∈ db.collections, c.Indexed

end Database

namespace Store

def plain (store : Store) : PlainStore :=
  ⟨store.databases.map Database.plain⟩

def Indexed (store : Store) : Prop :=
  ∀ db ∈ store.databases, db.Indexed

end Store

end DocQuery
