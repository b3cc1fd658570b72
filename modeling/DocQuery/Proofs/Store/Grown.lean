import DocQuery.Proofs.Store.Reread

/-!
# Stores that operations lead to

From the empty store, operations and reading the files of stores built in this way keep the
ids of databases, collections and documents distinct.  A document that is taken out is then
not found any more, and one that is put in is found and leaves all others where they were.
-/

namespace DocQuery

namespace Store

/-- Operations lead to a store from the empty one, and so do the files of such stores. -/
inductive Grown : Store → Prop
  | empty : Grown Store.empty
  | run {store : Store} {operations : List Operation} (h : Grown store)
      (hissued : ∀ operation ∈ operations, operation.Issued) : Grown (store.run operations).2
  | reload {store dumped : Store} (h : Grown store) (hdumped : Grown dumped) :
      Grown (store.run [.load dumped.dump]).2

theorem Grown.indexed {store : Store} (h : store.Grown) : store.Indexed := by
  induction h with
  | empty => exact Indexed.empty
  | run _ _ ih => exact (ih.run _).2.2
  | reload _ _ ih => exact (ih.run _).2.2

/-- Reading the file of such a store keeps both, whether the file is refused or not. -/
theorem sound_keyed_run_load {store : PlainStore} {dumped : Store}
    (hstore : store.Sound ∧ store.Keyed) (hdumped : dumped.plain.Sound ∧ dumped.plain.Keyed) :
    (store.run [.load dumped.dump]).2.Sound ∧ (store.run [.load dumped.dump]).2.Keyed := by
  have hattempt := PlainStore.attempt_load_dump hdumped.1 store
  cases hreread : dumped.reread 121 with
  | none =>
      rw [hreread] at hattempt
      rw [PlainStore.run_cons_of_error hattempt]
      exact hstore
  | some loaded =>
      rw [hreread] at hattempt
      rw [PlainStore.run_cons_of_ok hattempt]
      exact ⟨sound_reread hdumped.1 hreread, keyed_reread hdumped.2 hreread⟩

theorem Grown.sound_keyed {store : Store} (h : store.Grown) :
    store.plain.Sound ∧ store.plain.Keyed := by
  induction h with
  | empty => exact ⟨PlainStore.Sound.empty, PlainStore.Keyed.empty⟩
  | run h hissued ih =>
      rw [(h.indexed.run _).2.1]
      exact ⟨ih.1.run fun operation hoperation => (hissued operation hoperation).1,
        ih.2.run hissued⟩
  | reload h _ ih ihDumped =>
      rw [(h.indexed.run _).2.1]
      exact sound_keyed_run_load ih ihDumped

end Store

/-! ## Documents that are put in and taken out -/

/-- What passes a test is not there after it was taken out, when keys are distinct. -/
theorem find?_eraseP_of_nodup {α β : Type} {p : α → Bool} {key : α → β} {items : List α}
    (h : (items.map key).Nodup)
    (hkey : ∀ a ∈ items, ∀ b ∈ items, p a = true → p b = true → key a = key b) :
    (items.eraseP p).find? p = none := by
  induction items with
  | nil => rfl
  | cons item rest ih =>
      obtain ⟨hnew, hrest⟩ := List.nodup_cons.mp h
      cases hp : p item with
      | true =>
          rw [List.eraseP_cons_of_pos hp, List.find?_eq_none]
          intro other hother hsame
          have heq := hkey item List.mem_cons_self other (List.mem_cons_of_mem _ hother) hp hsame
          exact hnew (heq ▸ List.mem_map_of_mem hother)
      | false =>
          rw [List.eraseP_cons_of_neg (by simp [hp]), List.find?_cons, hp]
          exact ih hrest fun a ha b hb =>
            hkey a (List.mem_cons_of_mem _ ha) b (List.mem_cons_of_mem _ hb)

namespace Collection

variable {c : Collection} {id : String} {index : Nat} {document : Value}

theorem Indexed.document?_remove (h : c.Indexed) (hkeyed : c.plain.Keyed)
    (hpos : c.position? id = some index) : (c.remove index).document? id = none := by
  have hdocuments : (c.remove index).documents =
      c.documents.eraseIdx (c.documents.findIdx (Value.hasId id)) :=
    congrArg PlainCollection.documents (h.plain_remove hpos)
  rw [(h.remove index).document?, hdocuments, ← eraseP_eq_eraseIdx_findIdx]
  refine find?_eraseP_of_nodup hkeyed.ids fun a _ b _ ha hb => ?_
  rw [Value.hasId_iff.mp ha, Value.hasId_iff.mp hb]

theorem document?_push : (c.push id document).document? id = some document := by
  simp [Collection.push, document?, position?]

theorem Indexed.document?_replace (h : c.Indexed) (hpos : c.position? id = some index) :
    (c.replace index document).document? id = some document := by
  have hsame : (c.replace index document).position? id = some index := hpos
  rw [Collection.document?, hsame, Option.bind_some, Collection.replace,
    List.getElem?_set_self (h.position?_lt hpos)]

def without (c : Collection) (id : String) : List Value :=
  c.documents.filter fun document => !document.hasId id

theorem without_push (hid : document.documentId? = some id) :
    (c.push id document).without id = c.without id := by
  simp [without, Collection.push, Value.hasId_iff.mpr hid]

theorem Indexed.without_replace (h : c.Indexed) (hid : document.documentId? = some id)
    (hpos : c.position? id = some index) :
    (c.replace index document).without id = c.without id := by
  have hdocuments : (c.replace index document).documents =
      changeFirst (Value.hasId id) (fun _ => document) c.documents := by
    rw [changeFirst_eq_set, h.findIdx_of_position? hpos, Collection.replace]
  rw [without, hdocuments, without]
  refine filter_changeFirst _ fun found hfound => ⟨?_, ?_⟩
  · rw [Value.hasId_iff.mpr hid, Bool.not_true]
  · rw [List.find?_some hfound, Bool.not_true]

end Collection

namespace Store

variable {store next : Store} {database collection id : String}

/-- What is found under an id has this id. -/
theorem id_of_database {db : Database} (hdb : store.database id = .ok db) : db.header.id = id := by
  simpa [isDatabase] using List.find?_some (database_eq_ok.mp hdb)

theorem id_of_collection {c : Collection} (hc : store.collection database id = .ok c) :
    c.info.header.id = id := by
  obtain ⟨db, -, hfind⟩ := collection_eq_ok.mp hc
  simpa [isCollection] using List.find?_some hfind

theorem collection_withCollection {c : Collection} (hc : store.collection database id = .ok c)
    {f : Collection → Collection} (hinfo : (f c).info = c.info) :
    (store.withCollection database id f).collection database id = .ok (f c) := by
  obtain ⟨db, hdb, hfind⟩ := collection_eq_ok.mp hc
  have hname : isCollection id (f c) = true := by
    simp [isCollection, hinfo, id_of_collection hc]
  have hdbName : isDatabase database db = true := by
    simp [isDatabase, id_of_database hdb]
  refine collection_eq_ok.mpr
    ⟨{ db with collections := changeFirst (isCollection id) f db.collections }, ?_,
      find?_changeFirst hfind hname⟩
  exact database_eq_ok.mpr (find?_changeFirst (database_eq_ok.mp hdb) hdbName)

theorem getDocument_eq {c : Collection} (hc : store.collection database collection = .ok c) :
    store.getDocument database collection id =
      match c.document? id with
      | some document => .ok document
      | none => .error (.documentNotFound id) := by
  rw [Store.getDocument, hc]
  rfl

theorem deleteDocument_eq_ok
    (h : (deleteDocument database collection id).run store = .ok () next) :
    ∃ c index, store.collection database collection = .ok c ∧ c.position? id = some index ∧
      next = store.withCollection database collection fun c => c.remove index := by
  obtain ⟨c, hc, hremoved⟩ := run_look_bind_eq_ok.mp h
  cases hpos : c.position? id with
  | none =>
      rw [hpos] at hremoved
      cases hremoved
  | some index =>
      rw [hpos] at hremoved
      cases hremoved
      exact ⟨c, index, hc, hpos, rfl⟩

/-- A document that is stored replaces the one with its id or is added at the end. -/
theorem createDocument_eq_ok {document stored : Value} {upsert : Bool} {fresh : Fresh}
    (h : (createDocument database collection document upsert fresh).run store =
      .ok stored next) :
    ∃ id c, stored.documentId? = some id ∧ store.collection database collection = .ok c ∧
      ((∃ index, c.position? id = some index ∧
        next = store.withCollection database collection fun c => c.replace index stored) ∨
      c.position? id = none ∧
        next = store.withCollection database collection fun c => c.push id stored) := by
  obtain ⟨⟨id, value⟩, hprepared, hlooked⟩ := run_look_bind_eq_ok.mp h
  obtain ⟨c, hc, hstored⟩ := run_look_bind_eq_ok.mp hlooked
  have hid := documentId?_of_prepare hprepared
  cases hpos : c.position? id with
  | none =>
      rw [hpos] at hstored
      cases hstored
      exact ⟨id, c, hid, hc, .inr ⟨hpos, rfl⟩⟩
  | some index =>
      rw [hpos] at hstored
      cases upsert with
      | false => cases hstored
      | true =>
          cases hstored
          exact ⟨id, c, hid, hc, .inl ⟨index, hpos, rfl⟩⟩

/-- Each document in order, with the ids of its database and its collection. -/
def placed (store : Store) : List (String × String × Value) :=
  store.databases.flatMap fun db => db.collections.flatMap fun c =>
    c.documents.map fun document => (db.header.id, c.info.header.id, document)

/-- Each document in order but those with some id in some collection of some database. -/
def others (store : Store) (database collection id : String) : List (String × String × Value) :=
  store.placed.filter fun place =>
    !(place.1 == database && place.2.1 == collection && place.2.2.hasId id)

/-- The other documents are those of all other collections and of the rest of this one. -/
theorem others_withCollection {c : Collection}
    (hc : store.collection database collection = .ok c) {f : Collection → Collection}
    (hinfo : (f c).info = c.info) (hwithout : (f c).without id = c.without id) :
    (store.withCollection database collection f).others database collection id =
      store.others database collection id := by
  obtain ⟨db, hdb, hfind⟩ := collection_eq_ok.mp hc
  -- Only the first database of this id changes, and in it the first collection of its id.
  simp only [others, placed, List.filter_flatMap]
  refine flatMap_changeFirst _ fun found hfound => ?_
  obtain rfl : db = found := Option.some.inj ((database_eq_ok.mp hdb).symm.trans hfound)
  dsimp only
  refine flatMap_changeFirst _ fun found hfound => ?_
  obtain rfl : c = found := Option.some.inj (hfind.symm.trans hfound)
  have hrest (documents : List Value) :
      (documents.map fun document => (db.header.id, c.info.header.id, document)).filter
          (fun place => !(place.1 == database && place.2.1 == collection && place.2.2.hasId id)) =
        (documents.filter fun document => !document.hasId id).map fun document =>
          (db.header.id, c.info.header.id, document) := by
    simp [List.filter_map, Function.comp_def, id_of_database hdb, id_of_collection hc]
  rw [hinfo, hrest, hrest]
  exact congrArg _ hwithout

/-- A document that was taken out is not found. -/
theorem getDocument_deleteDocument (hindexed : store.Indexed) (hkeyed : store.plain.Keyed)
    (h : (deleteDocument database collection id).run store = .ok () next) :
    next.getDocument database collection id = .error (.documentNotFound id) := by
  obtain ⟨c, index, hc, hpos, rfl⟩ := deleteDocument_eq_ok h
  have hplain : store.plain.collection database collection = .ok c.plain := by
    rw [plain_collection, hc]
    rfl
  obtain ⟨db, hdb, hfind⟩ := PlainStore.collection_eq_ok.mp hplain
  have hdbMem := List.mem_of_find?_eq_some (PlainStore.database_eq_ok.mp hdb)
  have hkeyedHere : c.plain.Keyed :=
    (hkeyed.databases db hdbMem).collections _ (List.mem_of_find?_eq_some hfind)
  have hgone := (hindexed.collection hc).document?_remove hkeyedHere hpos
  rw [getDocument_eq (collection_withCollection hc rfl), hgone]

/-- A document that was put in is found, and all others are where they were. -/
theorem getDocument_createDocument (hindexed : store.Indexed) {document stored : Value}
    {upsert : Bool} {fresh : Fresh}
    (h : (createDocument database collection document upsert fresh).run store =
      .ok stored next) :
    ∃ id, stored.documentId? = some id ∧
      next.getDocument database collection id = .ok stored ∧
      next.others database collection id = store.others database collection id := by
  obtain ⟨id, c, hid, hc, ⟨index, hpos, rfl⟩ | ⟨-, rfl⟩⟩ := createDocument_eq_ok h
  · have hhere := hindexed.collection hc
    refine ⟨id, hid, ?_, others_withCollection hc rfl (hhere.without_replace hid hpos)⟩
    rw [getDocument_eq (collection_withCollection hc rfl), hhere.document?_replace hpos]
  · refine ⟨id, hid, ?_, others_withCollection hc rfl (Collection.without_push hid)⟩
    rw [getDocument_eq (collection_withCollection hc rfl), Collection.document?_push]

/--
In a store that operations lead to, and the files of such stores, no two databases share an
id, no two collections of a database and no two documents of a collection, and each document
is an object with an id and the members that the store sets.  A document that is taken out
is not found right after it; one that is put in is found, and all others stay in order.
-/
theorem Grown.identified {store : Store} (h : store.Grown) :
    (store.databases.map fun db => db.header.id).Nodup ∧
    (∀ db ∈ store.databases,
      (db.collections.map fun c => c.info.header.id).Nodup ∧
      ∀ c ∈ db.collections,
        (c.documents.map Value.documentId?).Nodup ∧ ∀ document ∈ c.documents, document.IsStored) ∧
    (∀ database collection id next,
      (deleteDocument database collection id).run store = .ok () next →
        next.getDocument database collection id = .error (.documentNotFound id)) ∧
    ∀ database collection document upsert fresh stored next,
      (createDocument database collection document upsert fresh).run store = .ok stored next →
        ∃ id, stored.documentId? = some id ∧
          next.getDocument database collection id = .ok stored ∧
          next.others database collection id = store.others database collection id := by
  have hkeyed := h.sound_keyed.2
  refine ⟨?_, fun db hdb => ?_, fun _ _ _ _ => getDocument_deleteDocument h.indexed hkeyed,
    fun _ _ _ _ _ _ _ => getDocument_createDocument h.indexed⟩
  · have hids := hkeyed.ids
    rwa [plain, List.map_map] at hids
  · have hdbKeyed := hkeyed.databases db.plain (List.mem_map_of_mem hdb)
    have hids := hdbKeyed.ids
    rw [Database.plain, List.map_map] at hids
    refine ⟨hids, fun c hc => ?_⟩
    have hcKeyed := hdbKeyed.collections c.plain (List.mem_map_of_mem hc)
    exact ⟨hcKeyed.ids, hcKeyed.documents⟩

theorem Grown.identified_reloaded :
    let fresh : Fresh := ⟨"drawn", ⟨"r", 7, "e"⟩⟩
    let operations : List Operation :=
      [.createDatabase "db" fresh, .createCollection "db" "c" ["/id"] fresh,
        .createDocument "db" "c" (.object [("id", .text "a")]) false fresh,
        .createDocument "db" "c" (.object []) true fresh]
    let built := (Store.empty.run operations).2
    let reloaded := (built.run [.load built.dump]).2
    reloaded.Grown ∧ reloaded.documents.map Value.documentId? = [some "a", some "drawn"] ∧
      (∀ db ∈ reloaded.databases, ∀ c ∈ db.collections,
        (c.documents.map Value.documentId?).Nodup) ∧
      ∃ next, (deleteDocument "db" "c" "a").run reloaded = .ok () next ∧
        next.getDocument "db" "c" "a" = .error (.documentNotFound "a") := by
  intro fresh operations built reloaded
  have htime : FitsSigned fresh.stamp.time := by decide
  have hdrawn : fresh.id ≠ "" := by decide
  have hissued : ∀ operation ∈ operations, operation.Issued := by
    simp only [operations, List.forall_mem_cons, List.not_mem_nil, false_implies, implies_true,
      and_true]
    refine ⟨⟨htime, trivial⟩, ⟨htime, trivial⟩, ⟨⟨.object ?_ ?_, htime⟩, hdrawn⟩,
      ⟨⟨.object ?_ ?_, htime⟩, hdrawn⟩⟩
    · exact List.pairwise_singleton _ _
    · exact List.forall_mem_singleton.mpr (.text _)
    · exact List.Pairwise.nil
    · simp
  have hbuilt : built.Grown := .run .empty hissued
  have hreloaded : reloaded.Grown := .reload hbuilt hbuilt
  have hdocuments : built.documents =
      [.object [("_etag", .text "e"), ("_rid", .text "r"), ("_ts", .ofInt 7), ("id", .text "a")],
        .object [("_etag", .text "e"), ("_rid", .text "r"), ("_ts", .ofInt 7),
          ("id", .text "drawn")]] := by
    rw [documents_plain, (Indexed.empty.run operations).2.1]
    rfl
  have hreadsBack : ∀ document ∈ built.documents, document.ReadsBack := by
    simp only [hdocuments, List.forall_mem_cons, List.not_mem_nil, false_implies, implies_true,
      and_true]
    refine ⟨.object ?_, .object ?_⟩ <;>
      simp only [List.forall_mem_cons, List.not_mem_nil, false_implies, implies_true, and_true] <;>
      exact ⟨.text _, .text _, .ofInt _, .text _⟩
  have hdepth : ∀ document ∈ built.documents, document.depth + 6 ≤ 127 := by
    simp only [hdocuments, List.forall_mem_cons, List.not_mem_nil, false_implies, implies_true,
      and_true]
    decide
  obtain ⟨loaded, hloaded, -, hplain⟩ :=
    (load_dump_of_sound hbuilt.sound_keyed.1 hreadsBack).1 hdepth
  have heq : reloaded = loaded := congrArg Prod.snd (run_load_of_ok hloaded built)
  have hsame : reloaded.plain = (PlainStore.empty.run operations).2 := by
    rw [heq, hplain]
    exact (Indexed.empty.run operations).2.1
  obtain ⟨-, hids, hdeleted, -⟩ := Grown.identified hreloaded
  refine ⟨hreloaded, ?_, fun db hdb c hc => ((hids db hdb).2 c hc).1, ?_⟩
  · rw [documents_plain, hsame]
    rfl
  · have hanswer : (reloaded.run [.deleteDocument "db" "c" "a"]).1 = [.ok .done] := by
      rw [(hreloaded.indexed.run _).1, hsame]
      rfl
    cases hnext : (deleteDocument "db" "c" "a").run reloaded with
    | ok answer next => exact ⟨next, rfl, hdeleted _ _ _ _ hnext⟩
    | error failure next => simp [Store.run, Operation.run, Store.attempt, hnext] at hanswer

end Store

end DocQuery
