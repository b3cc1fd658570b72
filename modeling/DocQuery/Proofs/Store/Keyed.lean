import DocQuery.Proofs.Store.Sound

/-!
# Ids are keys

No two databases of a store have the same id, no two collections of a database and no two
documents of a collection.  Every document is an object with an id and the members that
the store sets.  An operation that succeeds keeps this, whatever it adds or replaces.
-/

namespace DocQuery

/-! ## Stored documents -/

/-- An object with a non-empty text as its id and the members that the store sets. -/
def Value.IsStored (document : Value) : Prop :=
  ∃ (members : Members) (header : Header), document = .object members ∧ header.id ≠ "" ∧
    FitsSigned header.stamp.time ∧ ∀ each ∈ header.members, members.get? each.1 = some each.2

theorem Value.IsStored.documentId? {document : Value} (h : document.IsStored) :
    ∃ id, id ≠ "" ∧ document.documentId? = some id := by
  obtain ⟨members, header, rfl, hid, -, hmembers⟩ := h
  have hget : members.get? "id" = some (.text header.id) :=
    hmembers ("id", .text header.id) List.mem_cons_self
  exact ⟨header.id, hid, by simp [Value.documentId?, hget]⟩

namespace Store

theorem documentIdFor_ne_empty {members : Members} {drawn id : String} (hdrawn : drawn ≠ "")
    (h : documentIdFor members drawn = .ok id) : id ≠ "" := by
  unfold documentIdFor at h
  split at h
  · cases h
    exact hdrawn
  · split at h
    · cases h
    · rename_i hid
      cases h
      exact hid
  · cases h

theorem isStored_stamped (members : Members) {id : String} {stamp : Stamp} (hid : id ≠ "")
    (htime : FitsSigned stamp.time) : (stamped members id stamp).IsStored := by
  obtain ⟨held, heq, hmembers⟩ := members_stamped members id stamp
  exact ⟨held, ⟨id, stamp⟩, heq, hid, htime, hmembers⟩

theorem isStored_of_prepare {document stored : Value} {fresh : Fresh} {id : String}
    (hdrawn : fresh.id ≠ "") (htime : FitsSigned fresh.stamp.time)
    (h : prepare document fresh = .ok (id, stored)) : stored.IsStored := by
  obtain ⟨members, -, hid, rfl⟩ := prepare_eq_ok h
  exact isStored_stamped _ (documentIdFor_ne_empty hdrawn hid) htime

end Store

/-! ## Collections, databases and stores -/

section Keys

variable {α β : Type} {key : α → β} {items : List α}

/-- Keys stay distinct when a new one is added behind them. -/
theorem nodup_map_append {item : α} (h : (items.map key).Nodup)
    (hnew : ∀ other ∈ items, key other ≠ key item) : ((items ++ [item]).map key).Nodup := by
  rw [List.map_append, List.map_singleton, List.nodup_append]
  refine ⟨h, List.pairwise_singleton _ _, fun held hheld other hother => ?_⟩
  obtain ⟨item, hitem, rfl⟩ := List.mem_map.mp hheld
  rw [List.mem_singleton.mp hother]
  exact hnew item hitem

/-- Keys stay distinct when an item is changed that keeps its key. -/
theorem nodup_map_changeFirst {p : α → Bool} {f : α → α} (h : (items.map key).Nodup)
    (hf : ∀ item, items.find? p = some item → key (f item) = key item) :
    ((changeFirst p f items).map key).Nodup := by
  have hkeys : (changeFirst p f items).map key = items.map key := by
    rw [List.map_eq_flatMap, List.map_eq_flatMap]
    exact flatMap_changeFirst _ fun item hitem => by rw [hf item hitem]
  rwa [hkeys]

theorem nodup_map_eraseIdx (index : Nat) (h : (items.map key).Nodup) :
    ((items.eraseIdx index).map key).Nodup :=
  h.sublist ((List.eraseIdx_sublist items index).map key)

end Keys

namespace PlainCollection

/-- The ids of the documents are distinct, and each document is as the store puts it. -/
structure Keyed (c : PlainCollection) : Prop where
  ids : (c.documents.map Value.documentId?).Nodup
  documents : ∀ document ∈ c.documents, document.IsStored

variable {c : PlainCollection} {id : String} {document : Value}

theorem Keyed.push (h : c.Keyed) (hid : document.documentId? = some id)
    (hnew : c.documents.any (Value.hasId id) = false) (hdocument : document.IsStored) :
    (c.push document).Keyed := by
  refine ⟨nodup_map_append h.ids fun other hother hsame => ?_, fun other hother => ?_⟩
  · have hother := List.any_eq_false.mp hnew other hother
    exact hother (Value.hasId_iff.mpr (hsame.trans hid))
  · rcases List.mem_append.mp hother with hold | hadded
    · exact h.documents other hold
    · rw [List.mem_singleton.mp hadded]
      exact hdocument

theorem Keyed.replace (h : c.Keyed) (hid : document.documentId? = some id)
    (hdocument : document.IsStored) : (c.replace id document).Keyed := by
  rw [replace_eq]
  refine ⟨nodup_map_changeFirst h.ids fun other hother => ?_,
    forall_mem_changeFirst h.documents fun _ _ => hdocument⟩
  rw [hid, Value.hasId_iff.mp (List.find?_some hother)]

theorem Keyed.remove (h : c.Keyed) (id : String) : (c.remove id).Keyed :=
  ⟨nodup_map_eraseIdx _ h.ids,
    fun document hdocument => h.documents document (List.mem_of_mem_eraseIdx hdocument)⟩

end PlainCollection

namespace PlainDatabase

structure Keyed (db : PlainDatabase) : Prop where
  ids : (db.collections.map fun c => c.info.header.id).Nodup
  collections : ∀ c ∈ db.collections, c.Keyed

end PlainDatabase

namespace PlainStore

structure Keyed (store : PlainStore) : Prop where
  ids : (store.databases.map fun db => db.header.id).Nodup
  databases : ∀ db ∈ store.databases, db.Keyed

variable {store : PlainStore}

theorem Keyed.empty : PlainStore.empty.Keyed :=
  ⟨List.nodup_nil, by simp [PlainStore.empty]⟩

theorem database_eq_ok {id : String} {db : PlainDatabase} :
    store.database id = .ok db ↔ store.databases.find? (PlainDatabase.named id) = some db := by
  unfold PlainStore.database
  cases store.databases.find? (PlainDatabase.named id) <;> simp

theorem collection_eq_ok {database id : String} {c : PlainCollection} :
    store.collection database id = .ok c ↔
      ∃ db, store.database database = .ok db ∧
        db.collections.find? (PlainCollection.named id) = some c := by
  unfold PlainStore.collection
  cases store.database database with
  | error failure => simp [bind, Except.bind]
  | ok db =>
      simp only [bind, Except.bind, Except.ok.injEq, exists_eq_left']
      cases db.collections.find? (PlainCollection.named id) <;> simp

/-- The collections of a database can be changed in any way that keeps their ids distinct. -/
theorem Keyed.withDatabase (h : store.Keyed) {id : String} {db : PlainDatabase}
    (hdb : store.database id = .ok db) {f : PlainDatabase → PlainDatabase}
    (hheader : ∀ db, (f db).header = db.header) (hf : db.Keyed → (f db).Keyed) :
    (store.withDatabase id f).Keyed := by
  rw [withDatabase_eq]
  refine ⟨nodup_map_changeFirst h.ids fun found _ => by rw [hheader],
    forall_mem_changeFirst h.databases fun found hfound => ?_⟩
  obtain rfl : db = found := Option.some.inj ((database_eq_ok.mp hdb).symm.trans hfound)
  exact hf (h.databases db (List.mem_of_find?_eq_some hfound))

theorem Keyed.withCollection (h : store.Keyed) {database id : String} {c : PlainCollection}
    (hc : store.collection database id = .ok c) {f : PlainCollection → PlainCollection}
    (hinfo : ∀ c, (f c).info = c.info) (hf : c.Keyed → (f c).Keyed) :
    (store.withCollection database id f).Keyed := by
  obtain ⟨db, hdb, hfind⟩ := collection_eq_ok.mp hc
  rw [withCollection_eq]
  refine h.withDatabase hdb (fun _ => rfl) fun hkeyed => ?_
  refine ⟨nodup_map_changeFirst hkeyed.ids fun found _ => by rw [hinfo],
    forall_mem_changeFirst hkeyed.collections fun found hfound => ?_⟩
  obtain rfl : c = found := Option.some.inj (hfind.symm.trans hfound)
  exact hf (hkeyed.collections c (List.mem_of_find?_eq_some hfound))

end PlainStore

/-! ## Operations -/

/-- An operation other than reading a file, with its arguments as they are typed. -/
def Operation.Issued (operation : Operation) : Prop :=
  operation.Typed ∧
    match operation with
    | .createDocument _ _ _ _ fresh => fresh.id ≠ ""
    | .load _ => False
    | _ => True

namespace PlainStore

variable {store : PlainStore}

theorem ne_of_any_eq_false {α : Type} {key : α → String} {items : List α} {id : String}
    (h : (items.any fun item => key item == id) = false) :
    ∀ item ∈ items, key item ≠ id := by
  simpa using h

/-- An operation that succeeds keeps the ids distinct. -/
theorem Keyed.step (h : store.Keyed) {operation : Operation} (hissued : operation.Issued)
    {next : PlainStore} (hnext : store.Step operation next) : next.Keyed := by
  cases hnext with
  | looks => exact h
  | createDatabase hnew =>
      refine ⟨nodup_map_append h.ids (ne_of_any_eq_false hnew), fun db hdb => ?_⟩
      rcases List.mem_append.mp hdb with hold | hadded
      · exact h.databases db hold
      · rw [List.mem_singleton.mp hadded]
        exact ⟨List.nodup_nil, by simp⟩
  | deleteDatabase =>
      exact ⟨nodup_map_eraseIdx _ h.ids,
        fun db hdb => h.databases db (List.mem_of_mem_eraseIdx hdb)⟩
  | createCollection hdb hnew =>
      refine h.withDatabase hdb (fun _ => rfl) fun hkeyed => ?_
      refine ⟨nodup_map_append hkeyed.ids (ne_of_any_eq_false hnew), fun c hc => ?_⟩
      rcases List.mem_append.mp hc with hold | hadded
      · exact hkeyed.collections c hold
      · rw [List.mem_singleton.mp hadded]
        exact ⟨List.nodup_nil, by simp⟩
  | deleteCollection hc =>
      obtain ⟨db, hdb, -⟩ := collection_eq_ok.mp hc
      exact h.withDatabase hdb (fun _ => rfl) fun hkeyed =>
        ⟨nodup_map_eraseIdx _ hkeyed.ids,
          fun c hc => hkeyed.collections c (List.mem_of_mem_eraseIdx hc)⟩
  | addDocument hprepared hc hnew =>
      obtain ⟨⟨-, htime⟩, hdrawn⟩ := hissued
      exact h.withCollection hc (fun _ => rfl) fun hkeyed =>
        hkeyed.push (Store.documentId?_of_prepare hprepared) hnew
          (Store.isStored_of_prepare hdrawn htime hprepared)
  | replaceDocument hprepared hc =>
      obtain ⟨⟨-, htime⟩, hdrawn⟩ := hissued
      exact h.withCollection hc (fun _ => rfl) fun hkeyed =>
        hkeyed.replace (Store.documentId?_of_prepare hprepared)
          (Store.isStored_of_prepare hdrawn htime hprepared)
  | deleteDocument hc =>
      exact h.withCollection hc (fun _ => rfl) fun hkeyed => hkeyed.remove _
  | load => exact hissued.2.elim

theorem Keyed.run (h : store.Keyed) {operations : List Operation}
    (hissued : ∀ operation ∈ operations, operation.Issued) : (store.run operations).2.Keyed :=
  run_keeps (fun _ _ _ hkeyed hissued => hkeyed.step hissued) h hissued

end PlainStore

end DocQuery
