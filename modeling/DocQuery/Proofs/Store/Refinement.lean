import DocQuery.Proofs.Store.Plain

/-!
# The store answers as the plain store does

One lemma for a lookup and one for a change of a database or a collection, from which
every operation follows by cases on what is found; a run is its operations in order.
-/

namespace DocQuery

/-! ## Changing the first of several items -/

section ChangeFirst

variable {α β : Type} {p : α → Bool} {f : α → α}

theorem map_changeFirst {q : β → Bool} {g : β → β} {view : α → β} (items : List α)
    (htest : ∀ item, q (view item) = p item)
    (h : ∀ item, items.find? p = some item → view (f item) = g (view item)) :
    (changeFirst p f items).map view = changeFirst q g (items.map view) := by
  induction items with
  | nil => rfl
  | cons item rest ih =>
      cases hp : p item with
      | true =>
          have hitem := h item (by simp [hp])
          simp [changeFirst, htest, hp, hitem]
      | false =>
          have hrest := ih fun other hother => h other (by simpa [hp] using hother)
          simp [changeFirst, htest, hp, hrest]

theorem forall_mem_changeFirst {P : α → Prop} {items : List α} (hitems : ∀ item ∈ items, P item)
    (h : ∀ item, items.find? p = some item → P (f item)) :
    ∀ item ∈ changeFirst p f items, P item := by
  induction items with
  | nil => simp [changeFirst]
  | cons item rest ih =>
      rw [List.forall_mem_cons] at hitems
      cases hp : p item with
      | true =>
          simpa [changeFirst, hp] using ⟨h item (by simp [hp]), hitems.2⟩
      | false =>
          have hrest := ih hitems.2 fun other hother => h other (by simpa [hp] using hother)
          simpa [changeFirst, hp] using ⟨hitems.1, hrest⟩

theorem changeFirst_eq_modify (items : List α) :
    changeFirst p f items = items.modify (items.findIdx p) f := by
  induction items with
  | nil => rfl
  | cons item rest ih => cases hp : p item <;> simp [changeFirst, List.findIdx_cons, hp, ih]

theorem changeFirst_eq_set {replacement : α} (items : List α) :
    changeFirst p (fun _ => replacement) items = items.set (items.findIdx p) replacement := by
  induction items with
  | nil => rfl
  | cons item rest ih => cases hp : p item <;> simp [changeFirst, List.findIdx_cons, hp, ih]

theorem eraseP_eq_eraseIdx_findIdx (items : List α) :
    items.eraseP p = items.eraseIdx (items.findIdx p) := by
  induction items with
  | nil => rfl
  | cons item rest ih => cases hp : p item <;> simp [List.findIdx_cons, hp, ih]

theorem find?_changeFirst {item : α} {items : List α} (h : items.find? p = some item)
    (hf : p (f item) = true) : (changeFirst p f items).find? p = some (f item) := by
  induction items with
  | nil => cases h
  | cons other rest ih =>
      cases hp : p other with
      | true =>
          obtain rfl : other = item := by simpa [hp] using h
          simp [changeFirst, hp, hf]
      | false => simpa [changeFirst, hp] using ih (by simpa [hp] using h)

/-- What is gathered from the items stays when it stays for the changed one. -/
theorem flatMap_changeFirst {g : α → List β} (items : List α)
    (h : ∀ item, items.find? p = some item → g (f item) = g item) :
    (changeFirst p f items).flatMap g = items.flatMap g := by
  induction items with
  | nil => rfl
  | cons item rest ih =>
      cases hp : p item with
      | true =>
          have hitem := h item (by simp [hp])
          simp [changeFirst, hp, hitem]
      | false =>
          have hrest := ih fun other hother => h other (by simpa [hp] using hother)
          simp [changeFirst, hp, hrest]

theorem filter_changeFirst {q : α → Bool} (items : List α)
    (h : ∀ item, items.find? p = some item → q (f item) = false ∧ q item = false) :
    (changeFirst p f items).filter q = items.filter q := by
  induction items with
  | nil => rfl
  | cons item rest ih =>
      cases hp : p item with
      | true =>
          obtain ⟨hchanged, hitem⟩ := h item (by simp [hp])
          simp [changeFirst, hp, hchanged, hitem]
      | false =>
          have hrest := ih fun other hother => h other (by simpa [hp] using hother)
          simp [changeFirst, hp, List.filter_cons, hrest]

end ChangeFirst

/-! ## Changes of a plain store -/

theorem PlainCollection.replace_eq (c : PlainCollection) (id : String) (document : Value) :
    c.replace id document =
      { c with documents := changeFirst (Value.hasId id) (fun _ => document) c.documents } := by
  rw [changeFirst_eq_set, PlainCollection.replace]

theorem PlainStore.withDatabase_eq (store : PlainStore) (id : String)
    (f : PlainDatabase → PlainDatabase) :
    store.withDatabase id f = ⟨changeFirst (PlainDatabase.named id) f store.databases⟩ := by
  rw [changeFirst_eq_modify, PlainStore.withDatabase]

theorem PlainStore.withCollection_eq (store : PlainStore) (database id : String)
    (f : PlainCollection → PlainCollection) :
    store.withCollection database id f = store.withDatabase database fun db =>
      { db with collections := changeFirst (PlainCollection.named id) f db.collections } := by
  simp only [changeFirst_eq_modify, PlainStore.withCollection]

/-! ## Collections -/

namespace Collection

theorem Indexed.findIdx_of_position? {c : Collection} (h : c.Indexed) {id : String} {index : Nat}
    (hpos : c.position? id = some index) : c.documents.findIdx (Value.hasId id) = index := by
  rw [h id] at hpos
  exact (List.findIdx?_eq_some_iff_findIdx_eq.mp hpos).2

theorem Indexed.any_hasId {c : Collection} (h : c.Indexed) (id : String) :
    c.documents.any (Value.hasId id) = (c.position? id).isSome := by
  rw [h id, List.findIdx?_isSome]

theorem Indexed.plain_replace {c : Collection} (h : c.Indexed) {id : String} {index : Nat}
    (hpos : c.position? id = some index) (document : Value) :
    (c.replace index document).plain = c.plain.replace id document := by
  simp [plain, Collection.replace, PlainCollection.replace, h.findIdx_of_position? hpos]

theorem Indexed.plain_remove {c : Collection} (h : c.Indexed) {id : String} {index : Nat}
    (hpos : c.position? id = some index) :
    (c.remove index).plain = c.plain.remove id := by
  simp [plain, Collection.remove, PlainCollection.remove, reindexFrom,
    h.findIdx_of_position? hpos]

end Collection

/-! ## Databases and stores -/

namespace Store

theorem database_eq_ok {store : Store} {id : String} {db : Database} :
    store.database id = .ok db ↔ store.databases.find? (isDatabase id) = some db := by
  unfold Store.database
  cases store.databases.find? (isDatabase id) <;> simp

theorem plain_database (store : Store) (id : String) :
    store.plain.database id = (store.database id).map Database.plain := by
  have hfind : store.plain.databases.find? (PlainDatabase.named id) =
      (store.databases.find? (isDatabase id)).map Database.plain := by
    rw [plain, List.find?_map]
    rfl
  rw [PlainStore.database, Store.database, hfind]
  cases store.databases.find? (isDatabase id) <;> rfl

theorem plain_collection (store : Store) (database id : String) :
    store.plain.collection database id =
      (store.collection database id).map Collection.plain := by
  rw [PlainStore.collection, Store.collection, plain_database]
  cases store.database database with
  | error failure => rfl
  | ok db =>
      have hfind : db.plain.collections.find? (PlainCollection.named id) =
          (db.collections.find? (isCollection id)).map Collection.plain := by
        rw [Database.plain, List.find?_map]
        rfl
      simp only [Except.map, bind, Except.bind, hfind]
      cases db.collections.find? (isCollection id) <;> rfl

theorem collection_eq_ok {store : Store} {database id : String} {c : Collection} :
    store.collection database id = .ok c ↔
      ∃ db, store.database database = .ok db ∧
        db.collections.find? (isCollection id) = some c := by
  unfold Store.collection
  cases store.database database with
  | error failure => simp [bind, Except.bind]
  | ok db =>
      simp only [bind, Except.bind, Except.ok.injEq, exists_eq_left']
      cases db.collections.find? (isCollection id) <;> simp

theorem Indexed.database {store : Store} (h : store.Indexed) {id : String} {db : Database}
    (hdb : store.database id = .ok db) : db.Indexed :=
  h db (List.mem_of_find?_eq_some (database_eq_ok.mp hdb))

theorem Indexed.collection {store : Store} (h : store.Indexed) {database id : String}
    {c : Collection} (hc : store.collection database id = .ok c) : c.Indexed := by
  obtain ⟨db, hdb, hfind⟩ := collection_eq_ok.mp hc
  exact h.database hdb c (List.mem_of_find?_eq_some hfind)

/-- A database that keeps its collections indexed can be changed. -/
theorem Indexed.withDatabase {store : Store} (h : store.Indexed) {id : String} {db : Database}
    (hdb : store.database id = .ok db) {f : Database → Database} (hf : (f db).Indexed) :
    (store.withDatabase id f).Indexed := by
  refine forall_mem_changeFirst h fun found hfound => ?_
  rw [database_eq_ok.mp hdb, Option.some.injEq] at hfound
  exact hfound ▸ hf

theorem plain_withDatabase {store : Store} {id : String} {db : Database}
    (hdb : store.database id = .ok db) {f : Database → Database}
    {g : PlainDatabase → PlainDatabase} (hf : (f db).plain = g db.plain) :
    (store.withDatabase id f).plain = store.plain.withDatabase id g := by
  rw [PlainStore.withDatabase_eq]
  refine congrArg PlainStore.mk (map_changeFirst _ (fun _ => rfl) fun found hfound => ?_)
  rw [database_eq_ok.mp hdb, Option.some.injEq] at hfound
  exact hfound ▸ hf

/-- A collection that stays indexed can be changed. -/
theorem Indexed.withCollection {store : Store} (h : store.Indexed) {database id : String}
    {c : Collection} (hc : store.collection database id = .ok c) {f : Collection → Collection}
    (hf : (f c).Indexed) : (store.withCollection database id f).Indexed := by
  obtain ⟨db, hdb, hfind⟩ := collection_eq_ok.mp hc
  refine h.withDatabase hdb (forall_mem_changeFirst (h.database hdb) fun found hfound => ?_)
  rw [hfind, Option.some.injEq] at hfound
  exact hfound ▸ hf

theorem plain_withCollection {store : Store} {database id : String} {c : Collection}
    (hc : store.collection database id = .ok c) {f : Collection → Collection}
    {g : PlainCollection → PlainCollection} (hf : (f c).plain = g c.plain) :
    (store.withCollection database id f).plain = store.plain.withCollection database id g := by
  obtain ⟨db, hdb, hfind⟩ := collection_eq_ok.mp hc
  rw [PlainStore.withCollection_eq]
  refine plain_withDatabase hdb ?_
  refine congrArg (PlainDatabase.mk db.header)
    (map_changeFirst _ (fun _ => rfl) fun found hfound => ?_)
  rw [hfind, Option.some.injEq] at hfound
  exact hfound ▸ hf

/-! ## Files -/

theorem mapM_map_view {α β γ : Type} {read : α → Option β} {plainRead : α → Option γ}
    {view : β → γ} (h : ∀ a, plainRead a = (read a).map view) (items : List α) :
    items.mapM plainRead = (items.mapM read).map (List.map view) := by
  induction items with
  | nil => rfl
  | cons item rest ih =>
      simp only [List.mapM_cons, h item, ih]
      cases read item <;> cases rest.mapM read <;> rfl

theorem forall_mem_of_mapM {α β : Type} {read : α → Option β} {P : β → Prop} {items : List α}
    {results : List β} (h : ∀ a ∈ items, ∀ b, read a = some b → P b)
    (hread : items.mapM read = some results) : ∀ b ∈ results, P b := by
  induction items generalizing results with
  | nil =>
      have hnil : results = [] := by simpa using hread.symm
      simp [hnil]
  | cons item rest ih =>
      obtain ⟨hitem, hrest⟩ := List.forall_mem_cons.mp h
      simp only [List.mapM_cons, Option.bind_eq_bind, Option.bind_eq_some_iff, Option.pure_def,
        Option.some.injEq] at hread
      obtain ⟨b, hb, bs, hbs, rfl⟩ := hread
      exact List.forall_mem_cons.mpr ⟨hitem b hb, ih hrest hbs⟩

theorem plain_collectionOf (value : Value) :
    PlainCollection.ofValue value = (StoreFile.collectionOf value).map Collection.plain := by
  cases value with
  | object written =>
      simp only [PlainCollection.ofValue, StoreFile.collectionOf]
      cases StoreFile.listMember written "documents" <;> cases StoreFile.header written <;>
        cases StoreFile.partitionKey written <;> rfl
  | _ => rfl

theorem plain_databaseOf (value : Value) :
    PlainDatabase.ofValue value = (StoreFile.databaseOf value).map Database.plain := by
  cases value with
  | object written =>
      simp only [PlainDatabase.ofValue, StoreFile.databaseOf]
      cases StoreFile.listMember written "collections" with
      | none => rfl
      | some collections =>
          cases StoreFile.header written with
          | none => rfl
          | some header =>
              simp only [Option.bind_eq_bind, Option.bind_some,
                mapM_map_view plain_collectionOf collections]
              cases collections.mapM StoreFile.collectionOf <;> rfl
  | _ => rfl

theorem storeOf_eq (value : Value) :
    StoreFile.storeOf value =
      (PlainStore.valuesIn value).bind fun values =>
        (values.mapM StoreFile.databaseOf).bind fun databases => some ⟨databases⟩ := by
  unfold StoreFile.storeOf
  split <;> simp [PlainStore.valuesIn, *]

theorem plain_storeOf (value : Value) :
    PlainStore.ofValue value = (StoreFile.storeOf value).map Store.plain := by
  rw [storeOf_eq, PlainStore.ofValue]
  cases PlainStore.valuesIn value with
  | none => rfl
  | some values =>
      simp only [Option.bind_eq_bind, Option.bind_some, mapM_map_view plain_databaseOf values]
      cases values.mapM StoreFile.databaseOf <;> rfl

theorem Indexed.collectionOf {value : Value} {c : Collection}
    (h : StoreFile.collectionOf value = some c) : c.Indexed := by
  cases value with
  | object written =>
      simp only [StoreFile.collectionOf, Option.bind_eq_bind, Option.bind_eq_some_iff,
        Option.some.injEq] at h
      obtain ⟨documents, -, header, -, key, -, rfl⟩ := h
      exact Collection.Indexed.ofDocuments _ _
  | _ => cases h

theorem Indexed.databaseOf {value : Value} {db : Database}
    (h : StoreFile.databaseOf value = some db) : db.Indexed := by
  cases value with
  | object written =>
      simp only [StoreFile.databaseOf, Option.bind_eq_bind, Option.bind_eq_some_iff,
        Option.some.injEq] at h
      obtain ⟨values, -, header, -, collections, hread, rfl⟩ := h
      exact forall_mem_of_mapM (fun _ _ _ => Indexed.collectionOf) hread
  | _ => cases h

/-- A store read from a file is indexed, whatever ids its documents have. -/
theorem Indexed.storeOf {value : Value} {store : Store}
    (h : StoreFile.storeOf value = some store) : store.Indexed := by
  simp only [storeOf_eq, Option.bind_eq_some_iff, Option.some.injEq] at h
  obtain ⟨values, -, databases, hread, rfl⟩ := h
  exact forall_mem_of_mapM (fun _ _ _ => Indexed.databaseOf) hread

/-! ## Operations -/

/-- Two attempts on a store end alike: in the same answer and one store, indexed on the one
side and plain on the other, or in the same failure, which left the store as it was. -/
inductive EndAlike (store : Store) :
    EStateM.Result Failure Store Answer → Except Failure (Answer × PlainStore) → Prop where
  | answer (answer : Answer) {next : Store} (h : next.Indexed) :
      EndAlike store (.ok answer next) (.ok (answer, next.plain))
  | failure (failure : Failure) : EndAlike store (.error failure store) (.error failure)

theorem EndAlike.answer_of_plain {store next : Store} {plain : PlainStore} (answer : Answer)
    (h : next.Indexed) (hplain : next.plain = plain) :
    EndAlike store (.ok answer next) (.ok (answer, plain)) :=
  hplain ▸ .answer answer h

@[simp] theorem run_look {α : Type} (find : Store → Except Failure α) (store : Store) :
    (look find).run store =
      match find store with
      | .ok found => .ok found store
      | .error failure => .error failure store := by
  simp only [look, EStateM.run_bind, EStateM.run_get]
  cases find store <;> rfl

/-- What follows a lookup succeeds only after something was found. -/
theorem run_look_bind_eq_ok {α β : Type} {find : Store → Except Failure α} {next : α → Action β}
    {store after : Store} {answer : β} :
    (look find >>= next).run store = .ok answer after ↔
      ∃ found, find store = .ok found ∧ (next found).run store = .ok answer after := by
  rw [EStateM.run_bind, run_look]
  cases find store <;> simp

/-- A stamped document has the members of its header. -/
theorem members_stamped (members : Members) (id : String) (stamp : Stamp) :
    ∃ held : Members, stamped members id stamp = .object held ∧
      ∀ each ∈ (Header.mk id stamp).members, held.get? each.1 = some each.2 := by
  refine ⟨_, rfl, ?_⟩
  simp only [Header.members, List.forall_mem_cons, List.not_mem_nil, false_implies, implies_true,
    and_true]
  refine ⟨?_, ?_, ?_, Members.get?_insert_self _ _ _⟩
  · rw [Members.get?_insert_of_ne _ _ (by decide), Members.get?_insert_of_ne _ _ (by decide),
      Members.get?_insert_of_ne _ _ (by decide), Members.get?_insert_self]
  · rw [Members.get?_insert_of_ne _ _ (by decide), Members.get?_insert_of_ne _ _ (by decide),
      Members.get?_insert_self]
  · rw [Members.get?_insert_of_ne _ _ (by decide), Members.get?_insert_self]

theorem documentId?_stamped (members : Members) (id : String) (stamp : Stamp) :
    (stamped members id stamp).documentId? = some id := by
  obtain ⟨held, heq, hmembers⟩ := members_stamped members id stamp
  have hid : held.get? "id" = some (.text id) := hmembers ("id", .text id) List.mem_cons_self
  simp [heq, Value.documentId?, hid]

/-- Only an object is stored, under the id that is found for it and with its stamp. -/
theorem prepare_eq_ok {document stored : Value} {fresh : Fresh} {id : String}
    (h : prepare document fresh = .ok (id, stored)) :
    ∃ members, document = .object members ∧ documentIdFor members fresh.id = .ok id ∧
      stored = stamped members id fresh.stamp := by
  cases document with
  | object members =>
      obtain ⟨found, hid, heq⟩ := bind_eq_ok.mp h
      cases heq
      exact ⟨members, rfl, hid, rfl⟩
  | _ => cases h

/-- A document about to be stored has the id under which it is stored. -/
theorem documentId?_of_prepare {document stored : Value} {fresh : Fresh} {id : String}
    (h : prepare document fresh = .ok (id, stored)) : stored.documentId? = some id := by
  obtain ⟨members, -, -, rfl⟩ := prepare_eq_ok h
  exact documentId?_stamped _ _ _

theorem any_plain (store : Store) (id : String) :
    store.plain.databases.any (PlainDatabase.named id) = store.databases.any (isDatabase id) := by
  rw [plain, List.any_map]
  rfl

theorem any_plain_collections (db : Database) (id : String) :
    db.plain.collections.any (PlainCollection.named id) =
      db.collections.any (isCollection id) := by
  rw [Database.plain, List.any_map]
  rfl

/-- What follows a lookup has only to end alike where something is found. -/
theorem EndAlike.look {α β : Type} {store : Store} {find : Store → Except Failure α}
    {view : α → β} {next : α → Action Answer} {plainNext : β → Except Failure (Answer × PlainStore)}
    (h : ∀ found, find store = .ok found →
      EndAlike store ((next found).run store) (plainNext (view found))) :
    EndAlike store ((look find >>= next).run store) ((find store).map view >>= plainNext) := by
  rw [EStateM.run_bind, run_look]
  cases hfind : find store with
  | error failure => exact .failure failure
  | ok found => exact h found hfind

theorem Indexed.createDatabase {store : Store} (h : store.Indexed) (header : Header) :
    EndAlike store (.ok (.database header) ⟨store.databases ++ [⟨header, []⟩]⟩)
      (.ok (.database header, ⟨store.plain.databases ++ [⟨header, []⟩]⟩)) := by
  refine .answer_of_plain _ ?_ (by simp [plain, Database.plain])
  intro db hdb
  rcases List.mem_append.mp hdb with hold | hnew
  · exact h db hold
  · obtain rfl : db = ⟨header, []⟩ := by simpa using hnew
    intro c hc
    cases hc

theorem Indexed.deleteDatabase {store : Store} (h : store.Indexed) (id : String) :
    EndAlike store (.ok .done ⟨store.databases.eraseP (isDatabase id)⟩)
      (.ok (.done, ⟨store.plain.databases.eraseIdx
        (store.plain.databases.findIdx (PlainDatabase.named id))⟩)) := by
  refine .answer_of_plain _ (fun db hdb => h db (List.mem_of_mem_eraseP hdb)) ?_
  rw [← eraseP_eq_eraseIdx_findIdx, plain, plain, List.eraseP_map]
  rfl

theorem Indexed.createCollection {store : Store} (h : store.Indexed) {database : String}
    {db : Database} (hdb : store.database database = .ok db) (info : CollectionInfo) :
    EndAlike store
      (.ok (.collection info) (store.withDatabase database fun db =>
        { db with collections := db.collections ++ [Collection.empty info] }))
      (.ok (.collection info, store.plain.withDatabase database fun db =>
        { db with collections := db.collections ++ [⟨info, []⟩] })) := by
  refine .answer_of_plain _ (h.withDatabase hdb ?_) (plain_withDatabase hdb ?_)
  · intro c hc
    rcases List.mem_append.mp hc with hold | hnew
    · exact h.database hdb c hold
    · obtain rfl : c = Collection.empty info := by simpa using hnew
      exact Collection.Indexed.empty info
  · simp [Database.plain, Collection.plain, Collection.empty]

theorem Indexed.deleteCollection {store : Store} (h : store.Indexed) {database : String}
    {db : Database} (hdb : store.database database = .ok db) (id : String) :
    EndAlike store
      (.ok .done (store.withDatabase database fun db =>
        { db with collections := db.collections.eraseP (isCollection id) }))
      (.ok (.done, store.plain.withDatabase database fun db =>
        { db with collections :=
            db.collections.eraseIdx (db.collections.findIdx (PlainCollection.named id)) })) := by
  refine .answer_of_plain _ (h.withDatabase hdb ?_) (plain_withDatabase hdb ?_)
  · exact fun c hc => h.database hdb c (List.mem_of_mem_eraseP hc)
  · rw [← eraseP_eq_eraseIdx_findIdx, Database.plain, Database.plain, List.eraseP_map]
    rfl

section Documents

variable {store : Store} {database collection id : String} {c : Collection}

theorem Indexed.pushDocument (h : store.Indexed) (hc : store.collection database collection = .ok c)
    {stored : Value} (hid : stored.documentId? = some id) (hpos : c.position? id = none) :
    EndAlike store
      (.ok (.document stored) (store.withCollection database collection (·.push id stored)))
      (.ok (.document stored,
        store.plain.withCollection database collection fun c => c.push stored)) :=
  .answer_of_plain _ (h.withCollection hc ((h.collection hc).push hid hpos))
    (plain_withCollection hc rfl)

theorem Indexed.replaceDocument (h : store.Indexed)
    (hc : store.collection database collection = .ok c) {stored : Value} {index : Nat}
    (hid : stored.documentId? = some id) (hpos : c.position? id = some index) :
    EndAlike store
      (.ok (.document stored) (store.withCollection database collection (·.replace index stored)))
      (.ok (.document stored,
        store.plain.withCollection database collection fun c => c.replace id stored)) :=
  .answer_of_plain _ (h.withCollection hc ((h.collection hc).replace hid hpos))
    (plain_withCollection hc ((h.collection hc).plain_replace hpos stored))

theorem Indexed.removeDocument (h : store.Indexed)
    (hc : store.collection database collection = .ok c) {index : Nat}
    (hpos : c.position? id = some index) :
    EndAlike store (.ok .done (store.withCollection database collection (·.remove index)))
      (.ok (.done, store.plain.withCollection database collection fun c => c.remove id)) :=
  .answer_of_plain _ (h.withCollection hc ((h.collection hc).remove index))
    (plain_withCollection hc ((h.collection hc).plain_remove hpos))

end Documents

/-- Every operation on an indexed store ends as it does on the plain one. -/
theorem Indexed.attempt {store : Store} (h : store.Indexed) (operation : Operation) :
    EndAlike store ((Store.attempt operation).run store) (store.plain.attempt operation) := by
  cases operation with
  | createDatabase id fresh =>
      simp only [Store.attempt, PlainStore.attempt, Store.createDatabase, any_plain,
        EStateM.run_bind, EStateM.run_get]
      cases store.databases.any (isDatabase id) with
      | true => exact .failure _
      | false => exact h.createDatabase _
  | getDatabase id =>
      simp only [Store.attempt, PlainStore.attempt, getDatabase, plain_database,
        EStateM.run_bind, run_look]
      cases store.database id with
      | error failure => exact .failure failure
      | ok db => exact .answer _ h
  | listDatabases =>
      have hlist : store.plain.databases.map PlainDatabase.header = store.listDatabases := by
        rw [plain, List.map_map]
        rfl
      simpa only [Store.attempt, PlainStore.attempt, hlist] using .answer _ h
  | deleteDatabase id =>
      rw [Store.attempt, Store.deleteDatabase, bind_assoc, PlainStore.attempt, plain_database]
      exact .look fun db _ => h.deleteDatabase id
  | createCollection database id paths fresh =>
      rw [Store.attempt, Store.createCollection, bind_assoc, PlainStore.attempt, plain_database]
      refine .look fun db hdb => ?_
      rw [any_plain_collections]
      cases db.collections.any (isCollection id) with
      | true => exact .failure _
      | false => exact h.createCollection hdb _
  | getCollection database id =>
      simp only [Store.attempt, PlainStore.attempt, getCollection, plain_collection,
        EStateM.run_bind, run_look]
      cases store.collection database id with
      | error failure => exact .failure failure
      | ok c => exact .answer _ h
  | listCollections database =>
      simp only [Store.attempt, PlainStore.attempt, listCollections, plain_database,
        EStateM.run_bind, run_look]
      cases store.database database with
      | error failure => exact .failure failure
      | ok db =>
          have hlist : db.plain.collections.map PlainCollection.info =
              db.collections.map Collection.info := by
            rw [Database.plain, List.map_map]
            rfl
          simpa only [Except.map, bind, Except.bind, hlist] using .answer _ h
  | deleteCollection database id =>
      rw [Store.attempt, Store.deleteCollection, bind_assoc, PlainStore.attempt, plain_collection]
      refine .look fun c hc => ?_
      obtain ⟨db, hdb, -⟩ := collection_eq_ok.mp hc
      exact h.deleteCollection hdb id
  | createDocument database collection document upsert fresh =>
      simp only [Store.attempt, PlainStore.attempt, Store.createDocument, plain_collection,
        EStateM.run_bind, run_look]
      cases hprepared : prepare document fresh with
      | error failure => exact .failure failure
      | ok prepared =>
          obtain ⟨id, stored⟩ := prepared
          have hid := documentId?_of_prepare hprepared
          dsimp only
          cases hc : store.collection database collection with
          | error failure => exact .failure failure
          | ok c =>
              simp only [Except.map, bind, Except.bind, Collection.plain,
                (h.collection hc).any_hasId id]
              cases hpos : c.position? id with
              | none => exact h.pushDocument hc hid hpos
              | some index =>
                  cases upsert with
                  | false => exact .failure _
                  | true => exact h.replaceDocument hc hid hpos
  | getDocument database collection id =>
      simp only [Store.attempt, PlainStore.attempt, getDocument, plain_collection,
        EStateM.run_bind, run_look]
      cases hc : store.collection database collection with
      | error failure => exact .failure failure
      | ok c =>
          simp only [Except.map, bind, Except.bind, (h.collection hc).document? id,
            Collection.plain]
          cases c.documents.find? (Value.hasId id) with
          | none => exact .failure _
          | some document => exact .answer _ h
  | listDocuments database collection =>
      simp only [Store.attempt, PlainStore.attempt, listDocuments, plain_collection,
        EStateM.run_bind, run_look]
      cases store.collection database collection with
      | error failure => exact .failure failure
      | ok c => exact .answer _ h
  | deleteDocument database collection id =>
      rw [Store.attempt, Store.deleteDocument, bind_assoc, PlainStore.attempt, plain_collection]
      refine .look fun c hc => ?_
      rw [Collection.plain, (h.collection hc).any_hasId id]
      cases hpos : c.position? id with
      | none => exact .failure _
      | some index => exact h.removeDocument hc hpos
  | load text =>
      simp only [Store.attempt, PlainStore.attempt, load, EStateM.run_bind, run_look]
      cases Json.readNames StoreFile.names text.toList with
      | none => exact .failure _
      | some value =>
          simp only [Option.bind_some, plain_storeOf]
          cases hread : StoreFile.storeOf value with
          | none => exact .failure _
          | some next => exact .answer _ (Indexed.storeOf hread)

/-- An operation that fails on an indexed store has changed nothing. -/
theorem Indexed.eq_of_error {store next : Store} (h : store.Indexed) {operation : Operation}
    {failure : Failure} (hfailed : (Store.attempt operation).run store = .error failure next) :
    next = store := by
  have hend := h.attempt operation
  rw [hfailed] at hend
  generalize store.plain.attempt operation = plainAttempt at hend
  cases hend
  rfl

/-! ## Runs -/

theorem Indexed.empty : Store.empty.Indexed := by
  intro db hdb
  cases hdb

theorem Indexed.run {store : Store} (h : store.Indexed) (operations : List Operation) :
    (store.run operations).1 = (store.plain.run operations).1 ∧
      (store.run operations).2.plain = (store.plain.run operations).2 ∧
      (store.run operations).2.Indexed := by
  induction operations generalizing store with
  | nil => exact ⟨rfl, rfl, h⟩
  | cons operation rest ih =>
      simp only [Store.run, PlainStore.run, Operation.run, PlainStore.settle, EStateM.run]
      have hend := h.attempt operation
      rw [EStateM.run] at hend
      generalize Store.attempt operation store = attempt at hend
      generalize store.plain.attempt operation = plainAttempt at hend
      cases hend with
      | answer answer hnext =>
          obtain ⟨hanswers, hplain, hlast⟩ := ih hnext
          exact ⟨congrArg (Except.ok answer :: ·) hanswers, hplain, hlast⟩
      | failure failure =>
          obtain ⟨hanswers, hplain, hlast⟩ := ih h
          exact ⟨congrArg (Except.error failure :: ·) hanswers, hplain, hlast⟩

/--
From the empty store, every list of operations gets the answers of the plain store and
ends in its state.  Each collection is then indexed, with positions inside its documents,
and an operation that fails next changes nothing.
-/
theorem run_empty_eq_plain (operations : List Operation) :
    (Store.empty.run operations).1 = (PlainStore.empty.run operations).1 ∧
      (Store.empty.run operations).2.plain = (PlainStore.empty.run operations).2 ∧
      (∀ db ∈ (Store.empty.run operations).2.databases, ∀ c ∈ db.collections,
        c.Indexed ∧ ∀ id index, c.position? id = some index → index < c.documents.length) ∧
      ∀ operation failure,
        ((Store.empty.run operations).2.run [operation]).1 = [.error failure] →
          ((Store.empty.run operations).2.run [operation]).2 =
            (Store.empty.run operations).2 := by
  obtain ⟨hanswers, hplain, hindexed⟩ := Indexed.empty.run operations
  refine ⟨hanswers, hplain, fun db hdb c hc => ?_, fun operation failure hfailed => ?_⟩
  · exact ⟨hindexed db hdb c hc, fun id index hpos => (hindexed db hdb c hc).position?_lt hpos⟩
  · generalize (Store.empty.run operations).2 = store at hfailed hindexed ⊢
    simp only [Store.run, Operation.run] at hfailed ⊢
    cases hattempt : (Store.attempt operation).run store with
    | ok answer next => simp [hattempt] at hfailed
    | error other next => exact hindexed.eq_of_error hattempt

end Store

end DocQuery
