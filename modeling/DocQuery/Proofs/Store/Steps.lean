import DocQuery.Proofs.Store.Plain

/-!
# Steps of a plain store

What an operation that succeeds does to a store: it adds, takes out or replaces one thing,
under the conditions that the operation checks, or leaves everything as it was.
-/

namespace DocQuery

namespace PlainStore

variable {store next : PlainStore}

def Looks : Operation → Prop
  | .getDatabase _ | .listDatabases | .getCollection _ _ | .listCollections _
  | .getDocument _ _ _ | .listDocuments _ _ => True
  | _ => False

inductive Step (store : PlainStore) : Operation → PlainStore → Prop
  | looks {operation : Operation} (h : Looks operation) : Step store operation store
  | createDatabase {id : String} {fresh : Fresh}
      (hnew : store.databases.any (PlainDatabase.named id) = false) :
      Step store (.createDatabase id fresh)
        ⟨store.databases ++ [⟨⟨id, fresh.stamp⟩, []⟩]⟩
  | deleteDatabase {id : String} {db : PlainDatabase} (hdb : store.database id = .ok db) :
      Step store (.deleteDatabase id)
        ⟨store.databases.eraseIdx (store.databases.findIdx (PlainDatabase.named id))⟩
  | createCollection {database id : String} {paths : List String} {fresh : Fresh}
      {db : PlainDatabase} (hdb : store.database database = .ok db)
      (hnew : db.collections.any (PlainCollection.named id) = false) :
      Step store (.createCollection database id paths fresh)
        (store.withDatabase database fun db =>
          { db with collections :=
              db.collections ++ [⟨⟨⟨id, fresh.stamp⟩, PartitionKey.ofPaths? paths⟩, []⟩] })
  | deleteCollection {database id : String} {c : PlainCollection}
      (hc : store.collection database id = .ok c) :
      Step store (.deleteCollection database id)
        (store.withDatabase database fun db =>
          { db with collections :=
              db.collections.eraseIdx (db.collections.findIdx (PlainCollection.named id)) })
  | addDocument {database collection id : String} {document stored : Value} {upsert : Bool}
      {fresh : Fresh} {c : PlainCollection}
      (hstored : Store.prepare document fresh = .ok (id, stored))
      (hc : store.collection database collection = .ok c)
      (hnew : c.documents.any (Value.hasId id) = false) :
      Step store (.createDocument database collection document upsert fresh)
        (store.withCollection database collection fun c => c.push stored)
  | replaceDocument {database collection id : String} {document stored : Value} {fresh : Fresh}
      {c : PlainCollection}
      (hstored : Store.prepare document fresh = .ok (id, stored))
      (hc : store.collection database collection = .ok c)
      (hold : c.documents.any (Value.hasId id) = true) :
      Step store (.createDocument database collection document true fresh)
        (store.withCollection database collection fun c => c.replace id stored)
  | deleteDocument {database collection id : String} {c : PlainCollection}
      (hc : store.collection database collection = .ok c)
      (hold : c.documents.any (Value.hasId id) = true) :
      Step store (.deleteDocument database collection id)
        (store.withCollection database collection fun c => c.remove id)
  | load {text : String} {value : Value} {loaded : PlainStore}
      (hvalue : Json.readNames StoreFile.names text.toList = some value)
      (hloaded : ofValue value = some loaded) : Step store (.load text) loaded

/-- An attempt that succeeds is a step. -/
theorem Step.of_attempt {operation : Operation} {answer : Answer}
    (h : store.attempt operation = .ok (answer, next)) : store.Step operation next := by
  cases operation with
  | createDatabase id fresh =>
      simp only [PlainStore.attempt] at h
      split at h
      · cases h
      · rename_i hnew
        cases h
        exact .createDatabase (by simpa using hnew)
  | getDatabase id =>
      obtain ⟨db, -, heq⟩ := bind_eq_ok.mp h
      cases heq
      exact .looks trivial
  | listDatabases =>
      cases h
      exact .looks trivial
  | deleteDatabase id =>
      obtain ⟨db, hdb, heq⟩ := bind_eq_ok.mp h
      cases heq
      exact .deleteDatabase hdb
  | createCollection database id paths fresh =>
      obtain ⟨db, hdb, heq⟩ := bind_eq_ok.mp h
      split at heq
      · cases heq
      · rename_i hnew
        cases heq
        exact .createCollection hdb (by simpa using hnew)
  | getCollection database id =>
      obtain ⟨c, -, heq⟩ := bind_eq_ok.mp h
      cases heq
      exact .looks trivial
  | listCollections database =>
      obtain ⟨db, -, heq⟩ := bind_eq_ok.mp h
      cases heq
      exact .looks trivial
  | deleteCollection database id =>
      obtain ⟨c, hc, heq⟩ := bind_eq_ok.mp h
      cases heq
      exact .deleteCollection hc
  | createDocument database collection document upsert fresh =>
      obtain ⟨⟨id, stored⟩, hstored, hfound⟩ := bind_eq_ok.mp h
      obtain ⟨c, hc, heq⟩ := bind_eq_ok.mp hfound
      split at heq
      · rename_i hold
        cases upsert with
        | false => cases heq
        | true =>
            cases heq
            exact .replaceDocument hstored hc hold
      · rename_i hnew
        cases heq
        exact .addDocument hstored hc (by simpa using hnew)
  | getDocument database collection id =>
      obtain ⟨c, -, heq⟩ := bind_eq_ok.mp h
      split at heq <;> cases heq
      exact .looks trivial
  | listDocuments database collection =>
      obtain ⟨c, -, heq⟩ := bind_eq_ok.mp h
      cases heq
      exact .looks trivial
  | deleteDocument database collection id =>
      obtain ⟨c, hc, heq⟩ := bind_eq_ok.mp h
      split at heq
      · rename_i hold
        cases heq
        exact .deleteDocument hc hold
      · cases heq
  | load text =>
      simp only [PlainStore.attempt] at h
      split at h
      · rename_i hread
        cases h
        obtain ⟨value, hvalue, hloaded⟩ := Option.bind_eq_some_iff.mp hread
        exact .load hvalue hloaded
      · cases h

theorem run_cons_of_ok {operation : Operation} {answer : Answer}
    (h : store.attempt operation = .ok (answer, next)) (rest : List Operation) :
    store.run (operation :: rest) = (.ok answer :: (next.run rest).1, (next.run rest).2) := by
  simp only [PlainStore.run, Operation.run, settle, EStateM.run, h]

theorem run_cons_of_error {operation : Operation} {failure : Failure}
    (h : store.attempt operation = .error failure) (rest : List Operation) :
    store.run (operation :: rest) = (.error failure :: (store.run rest).1, (store.run rest).2) := by
  simp only [PlainStore.run, Operation.run, settle, EStateM.run, h]

/-- What every step of the given operations keeps, a run of them keeps. -/
theorem run_keeps {P : PlainStore → Prop} {given : Operation → Prop}
    (hstep : ∀ ⦃store operation next⦄, P store → given operation → store.Step operation next →
      P next)
    (h : P store) {operations : List Operation}
    (hgiven : ∀ operation ∈ operations, given operation) : P (store.run operations).2 := by
  induction operations generalizing store with
  | nil => exact h
  | cons operation rest ih =>
      rw [List.forall_mem_cons] at hgiven
      cases hattempt : store.attempt operation with
      | ok result =>
          obtain ⟨answer, next⟩ := result
          rw [run_cons_of_ok hattempt]
          exact ih (hstep h hgiven.1 (.of_attempt hattempt)) hgiven.2
      | error failure =>
          rw [run_cons_of_error hattempt]
          exact ih h hgiven.2

end PlainStore

end DocQuery
