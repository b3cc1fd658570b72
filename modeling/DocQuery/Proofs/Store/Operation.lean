import DocQuery.Store.File

/-!
# Runs of a store

The operations of a store as data, each with what it draws, and what a list of them
answers.  The next operation of a run starts from what the last one left, also when that
one failed.
-/

namespace DocQuery

inductive Operation where
  | createDatabase (id : String) (fresh : Fresh)
  | getDatabase (id : String)
  | listDatabases
  | deleteDatabase (id : String)
  | createCollection (database id : String) (paths : List String) (fresh : Fresh)
  | getCollection (database id : String)
  | listCollections (database : String)
  | deleteCollection (database id : String)
  | createDocument (database collection : String) (document : Value) (upsert : Bool)
      (fresh : Fresh)
  | getDocument (database collection id : String)
  | listDocuments (database collection : String)
  | deleteDocument (database collection id : String)
  | load (text : String)

inductive Answer where
  | done
  | database (header : Header)
  | databases (headers : List Header)
  | collection (info : CollectionInfo)
  | collections (infos : List CollectionInfo)
  | document (document : Value)
  | documents (documents : List Value)

namespace Operation

variable {σ : Type}

def run (attempt : Operation → EStateM Failure σ Answer) :
    σ → List Operation → List (Except Failure Answer) × σ
  | state, [] => ([], state)
  | state, operation :: rest =>
      match (attempt operation).run state with
      | .ok answer next =>
          let (answers, last) := run attempt next rest
          (.ok answer :: answers, last)
      | .error failure next =>
          let (answers, last) := run attempt next rest
          (.error failure :: answers, last)

end Operation

namespace Store

def attempt : Operation → Action Answer
  | .createDatabase id fresh => do return .database (← createDatabase id fresh)
  | .getDatabase id => do return .database (← look (·.getDatabase id))
  | .listDatabases => do return .databases (← get).listDatabases
  | .deleteDatabase id => do
      deleteDatabase id
      return .done
  | .createCollection database id paths fresh => do
      return .collection (← createCollection database id paths fresh)
  | .getCollection database id => do
      return .collection (← look (·.getCollection database id))
  | .listCollections database => do
      return .collections (← look (·.listCollections database))
  | .deleteCollection database id => do
      deleteCollection database id
      return .done
  | .createDocument database collection document upsert fresh => do
      return .document (← createDocument database collection document upsert fresh)
  | .getDocument database collection id => do
      return .document (← look (·.getDocument database collection id))
  | .listDocuments database collection => do
      return .documents (← look (·.listDocuments database collection))
  | .deleteDocument database collection id => do
      deleteDocument database collection id
      return .done
  | .load text => do
      set (← look fun _ => load text)
      return .done

def run : Store → List Operation → List (Except Failure Answer) × Store :=
  Operation.run attempt

end Store

end DocQuery
