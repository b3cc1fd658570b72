import DocQuery.Proofs.Json.RoundTrip
import DocQuery.Proofs.Store.Sound

/-!
# A store's file is read as the store

The file of a store that operations can lead to is read as a store with the same
databases, collections and documents, which answers every later operation in the same
way.  It is refused exactly when some document nests too deep for the reader.
-/

namespace DocQuery

/-! ## Values of a file -/

/-- The members of a header are texts and an integer. -/
theorem Header.forall_mem_members {P : Value → Prop} (htext : ∀ s, P (.text s))
    (hint : ∀ n, P (.ofInt n)) (h : Header) : ∀ member ∈ h.members, P member.2 := by
  simp only [Header.members, List.forall_mem_cons, List.not_mem_nil, false_implies, implies_true,
    and_true]
  exact ⟨htext _, htext _, hint _, htext _⟩

/-- So are those of a collection, next to its partition key. -/
theorem CollectionInfo.forall_mem_members {P : Value → Prop} (htext : ∀ s, P (.text s))
    (hint : ∀ n, P (.ofInt n)) (hkey : ∀ key : PartitionKey, P key.toValue)
    (info : CollectionInfo) : ∀ member ∈ info.members, P member.2 := by
  refine List.forall_mem_append.mpr ⟨info.header.forall_mem_members htext hint, ?_⟩
  cases info.partitionKey with
  | none => simp
  | some key => simpa using hkey key

/-! ## Depths -/

theorem PartitionKey.depth_toValue (key : PartitionKey) : key.toValue.depth ≤ 2 := by
  rw [PartitionKey.toValue, Value.depth_object_le]
  simp only [List.forall_mem_cons, List.not_mem_nil, false_implies, implies_true, and_true,
    Value.depth_text, Nat.zero_le, Value.depth_array_le]
  intro path hpath
  obtain ⟨s, -, rfl⟩ := List.mem_map.mp hpath
  exact Nat.le_refl 0

theorem Collection.depth_toValue_le {c : Collection} {d : Nat} :
    c.toValue.depth ≤ d + 3 ↔ ∀ document ∈ c.documents, document.depth ≤ d + 1 := by
  have hinfo : ∀ member ∈ c.info.members, member.2.depth ≤ d + 2 :=
    c.info.forall_mem_members (P := fun v => v.depth ≤ d + 2) (by simp) (by simp)
      fun key => Nat.le_trans key.depth_toValue (Nat.le_add_left 2 d)
  rw [Collection.toValue, Value.depth_object_le, List.forall_mem_append]
  rw [and_iff_right hinfo, List.forall_mem_singleton, Value.depth_array_le]

theorem Database.depth_toValue_le {db : Database} {d : Nat} :
    db.toValue.depth ≤ d + 5 ↔
      ∀ c ∈ db.collections, ∀ document ∈ c.documents, document.depth ≤ d + 1 := by
  have hheader : ∀ member ∈ db.header.members, member.2.depth ≤ d + 4 :=
    db.header.forall_mem_members (P := fun v => v.depth ≤ d + 4) (by simp) (by simp)
  rw [Database.toValue, Value.depth_object_le, List.forall_mem_append, and_iff_right hheader,
    List.forall_mem_singleton, Value.depth_array_le]
  simp only [List.forall_mem_map, Collection.depth_toValue_le]

namespace Store

def documents (store : Store) : List Value :=
  store.databases.flatMap fun db => db.collections.flatMap Collection.documents

theorem forall_mem_documents {store : Store} {P : Value → Prop} :
    (∀ document ∈ store.documents, P document) ↔
      ∀ db ∈ store.databases, ∀ c ∈ db.collections, ∀ document ∈ c.documents, P document := by
  simp only [documents, List.forall_mem_flatMap]

/-- The value of a store nests six deeper than the documents in it. -/
theorem depth_toValue_le {store : Store} {d : Nat} :
    store.toValue.depth ≤ d + 7 ↔ ∀ document ∈ store.documents, document.depth ≤ d + 1 := by
  rw [toValue, Value.depth_object_le, forall_mem_documents]
  simp only [List.forall_mem_cons, List.not_mem_nil, false_implies, implies_true, and_true,
    Value.depth_array_le, List.forall_mem_map, Database.depth_toValue_le]

end Store

/-! ## Doubles -/

theorem PartitionKey.readsBack_toValue (key : PartitionKey) : key.toValue.ReadsBack := by
  refine .object ?_
  simp only [List.forall_mem_cons, List.not_mem_nil, false_implies, implies_true, and_true]
  refine ⟨.array fun path hpath => ?_, .text _⟩
  obtain ⟨s, -, rfl⟩ := List.mem_map.mp hpath
  exact .text s

theorem Collection.readsBack_toValue {c : Collection}
    (h : ∀ document ∈ c.documents, document.ReadsBack) : c.toValue.ReadsBack :=
  .object (List.forall_mem_append.mpr
    ⟨c.info.forall_mem_members .text .ofInt PartitionKey.readsBack_toValue,
      List.forall_mem_singleton.mpr (.array h)⟩)

theorem Database.readsBack_toValue {db : Database}
    (h : ∀ c ∈ db.collections, ∀ document ∈ c.documents, document.ReadsBack) :
    db.toValue.ReadsBack := by
  refine .object (List.forall_mem_append.mpr ⟨db.header.forall_mem_members .text .ofInt,
    List.forall_mem_singleton.mpr (.array fun value hvalue => ?_)⟩)
  obtain ⟨c, hc, rfl⟩ := List.mem_map.mp hvalue
  exact Collection.readsBack_toValue (h c hc)

/-! ## Reading back -/

namespace StoreFile

theorem texts_map (paths : List String) : texts (paths.map .text) = some paths := by
  induction paths with
  | nil => rfl
  | cons path rest ih => rw [List.map_cons, texts, ih, Option.map_some]

/-- A partition key that is there is read as it was written. -/
theorem partitionKey_of_member {written : List (String × Value)} {key : PartitionKey}
    (h : member? written "partitionKey" = some (some key.toValue)) :
    partitionKey written = some (some key) := by
  have hread : partitionKeyOf key.toValue = some key := by
    simp [PartitionKey.toValue, partitionKeyOf, member?, occurrences, texts_map]
  rw [PartitionKey.toValue] at h hread
  rw [partitionKey, h]
  simp only [hread, Option.map_some]

theorem partitionKey_of_absent {written : List (String × Value)}
    (h : member? written "partitionKey" = some none) : partitionKey written = some none := by
  rw [partitionKey, h]

/-- A header whose members are all there is read as it was written. -/
theorem header_of_members {written : List (String × Value)} {h : Header}
    (hfits : FitsSigned h.stamp.time)
    (hmembers : ∀ each ∈ h.members, member? written each.1 = some (some each.2)) :
    header written = some h := by
  simp only [Header.members, List.forall_mem_cons] at hmembers
  obtain ⟨hid, hresource, htime, hetag, -⟩ := hmembers
  simp only [header, textMember, wordMember, hid, hresource, htime, hetag,
    Value.toInt?_ofInt hfits, Option.bind_eq_bind, Option.bind_some]

end StoreFile

theorem PlainCollection.ofValue_toValue {c : Collection} (h : c.plain.Sound) :
    PlainCollection.ofValue c.toValue = some c.plain := by
  obtain ⟨written, hvalue, hheader, hdocuments, hkey⟩ : ∃ written, c.toValue = .object written ∧
      StoreFile.header written = some c.info.header ∧
      StoreFile.listMember written "documents" = some c.documents ∧
      StoreFile.partitionKey written = some c.info.partitionKey := by
    refine ⟨_, rfl, StoreFile.header_of_members h.time ?_, ?_, ?_⟩
    · unfold CollectionInfo.members
      cases c.info.partitionKey <;>
        simp [Header.members, StoreFile.member?, StoreFile.occurrences]
    · unfold CollectionInfo.members
      cases c.info.partitionKey <;>
        simp [Header.members, StoreFile.listMember, StoreFile.member?, StoreFile.occurrences]
    · unfold CollectionInfo.members
      cases c.info.partitionKey with
      | none =>
          refine StoreFile.partitionKey_of_absent ?_
          simp [Header.members, StoreFile.member?, StoreFile.occurrences]
      | some key =>
          refine StoreFile.partitionKey_of_member ?_
          simp [Header.members, StoreFile.member?, StoreFile.occurrences]
  have harranged : Json.arrangedElements c.documents = c.documents :=
    Json.arrangedElements_of_arranged h.documents
  rw [hvalue, PlainCollection.ofValue]
  simp only [hheader, hdocuments, hkey, harranged, Option.bind_eq_bind, Option.bind_some]
  rfl

theorem mapM_eq_some_map {α β : Type} {read : α → Option β} {view : α → β} {items : List α}
    (h : ∀ item ∈ items, read item = some (view item)) :
    items.mapM read = some (items.map view) := by
  induction items with
  | nil => rfl
  | cons item rest ih =>
      obtain ⟨hitem, hrest⟩ := List.forall_mem_cons.mp h
      rw [List.mapM_cons, hitem, ih hrest]
      rfl

theorem PlainDatabase.ofValue_toValue {db : Database} (h : db.plain.Sound) :
    PlainDatabase.ofValue db.toValue = some db.plain := by
  obtain ⟨written, hvalue, hheader, hcollections⟩ : ∃ written, db.toValue = .object written ∧
      StoreFile.header written = some db.header ∧
      StoreFile.listMember written "collections" =
        some (db.collections.map Collection.toValue) := by
    refine ⟨_, rfl, StoreFile.header_of_members h.time ?_, ?_⟩
    · simp [Header.members, StoreFile.member?, StoreFile.occurrences]
    · simp [Header.members, StoreFile.listMember, StoreFile.member?, StoreFile.occurrences]
  have hread : (db.collections.map Collection.toValue).mapM PlainCollection.ofValue =
      some (db.collections.map Collection.plain) := by
    rw [List.mapM_map]
    exact mapM_eq_some_map fun c hc =>
      PlainCollection.ofValue_toValue (h.collections c.plain (List.mem_map_of_mem hc))
  rw [hvalue, PlainDatabase.ofValue]
  simp only [hheader, hcollections, hread, Option.bind_eq_bind, Option.bind_some]
  rfl

theorem PlainStore.ofValue_toValue {store : Store} (h : store.plain.Sound) :
    PlainStore.ofValue store.toValue = some store.plain := by
  have hvalues : PlainStore.valuesIn store.toValue =
      some (store.databases.map Database.toValue) := by
    simp [Store.toValue, PlainStore.valuesIn, StoreFile.listMember, StoreFile.member?,
      StoreFile.occurrences]
  have hread : (store.databases.map Database.toValue).mapM PlainDatabase.ofValue =
      some (store.databases.map Database.plain) := by
    rw [List.mapM_map]
    exact mapM_eq_some_map fun db hdb =>
      PlainDatabase.ofValue_toValue (h db.plain (List.mem_map_of_mem hdb))
  rw [PlainStore.ofValue, hvalues]
  simp only [hread, Option.bind_eq_bind, Option.bind_some]
  rfl

/-! ## Files -/

namespace Store

theorem readNames_dump {store : Store} (h : ∀ document ∈ store.documents, document.ReadsBack) :
    Json.readNames StoreFile.names store.dump.toList = Json.within Json.maxDepth store.toValue := by
  have hdatabases : (Value.array (store.databases.map Database.toValue)).ReadsBack := by
    refine .array fun value hvalue => ?_
    obtain ⟨db, hdb, rfl⟩ := List.mem_map.mp hvalue
    exact Database.readsBack_toValue (forall_mem_documents.mp h db hdb)
  have hnames : StoreFile.names.contains "databases" = true := by decide
  have hvalue : (Value.object
      [("databases", .array (store.databases.map Database.toValue))]).ReadsBack :=
    .object (List.forall_mem_singleton.mpr hdatabases)
  rw [dump, Value.prettyJson, String.toList_ofList, toValue, Json.readNames_pretty hnames,
    Json.reread_eq_within hvalue]

/-- The file of a store is read as the store, unless a document nests too deep. -/
theorem load_dump_of_sound {store : Store} (hsound : store.plain.Sound)
    (h : ∀ document ∈ store.documents, document.ReadsBack) :
    ((∀ document ∈ store.documents, document.depth + 6 ≤ 127) →
      ∃ loaded, load store.dump = .ok loaded ∧ loaded.Indexed ∧ loaded.plain = store.plain) ∧
    ((¬∀ document ∈ store.documents, document.depth + 6 ≤ 127) →
      load store.dump = .error .json) := by
  have hdepth : store.toValue.depth ≤ Json.maxDepth ↔
      ∀ document ∈ store.documents, document.depth + 6 ≤ 127 := by
    have hseven : store.toValue.depth ≤ 120 + 7 ↔ _ := depth_toValue_le
    rw [Json.maxDepth, hseven]
    exact forall₂_congr fun document _ => by omega
  unfold load
  rw [readNames_dump h, Json.within]
  refine ⟨fun hfits => ?_, fun hdeep => ?_⟩
  · have hplain := plain_storeOf store.toValue
    rw [PlainStore.ofValue_toValue hsound, eq_comm, Option.map_eq_some_iff] at hplain
    obtain ⟨loaded, hloaded, hplain⟩ := hplain
    refine ⟨loaded, ?_, Indexed.storeOf hloaded, hplain⟩
    rw [if_pos (hdepth.mpr hfits), Option.bind_some, hloaded]
  · rw [if_neg fun hle => hdeep (hdepth.mp hle), Option.bind_none]

theorem run_load_of_ok {text : String} {loaded : Store} (h : load text = .ok loaded)
    (target : Store) : target.run [.load text] = ([.ok .done], loaded) := by
  simp only [run, Operation.run, attempt, EStateM.run_bind, run_look, h]
  rfl

theorem run_load_of_error {text : String} {failure : Failure} (h : load text = .error failure)
    (target : Store) : target.run [.load text] = ([.error failure], target) := by
  simp only [run, Operation.run, attempt, EStateM.run_bind, run_look, h]

/--
The file of a store that operations lead to, loaded into any store, gives a store with the
same databases, collections and documents and the same answers to whatever follows.  When
a document and the six levels around it nest deeper than 127, loading the file fails and
changes nothing.
-/
theorem load_dump (operations : List Operation)
    (htyped : ∀ operation ∈ operations, operation.Typed)
    (hfloats : ∀ document ∈ (Store.empty.run operations).2.documents, document.ReadsBack) :
    ((∀ document ∈ (Store.empty.run operations).2.documents, document.depth + 6 ≤ 127) →
      ∃ loaded : Store,
        (∀ target : Store, target.run [.load (Store.empty.run operations).2.dump] =
          ([.ok .done], loaded)) ∧
        loaded.plain = (Store.empty.run operations).2.plain ∧
        ∀ later, (loaded.run later).1 = ((Store.empty.run operations).2.run later).1) ∧
    ((¬∀ document ∈ (Store.empty.run operations).2.documents, document.depth + 6 ≤ 127) →
      ∀ target : Store, target.run [.load (Store.empty.run operations).2.dump] =
        ([.error .json], target)) := by
  obtain ⟨-, hplain, hindexed⟩ := Indexed.empty.run operations
  have hsound : (Store.empty.run operations).2.plain.Sound := by
    rw [hplain]
    exact PlainStore.Sound.empty.run htyped
  obtain ⟨hfits, hdeep⟩ := load_dump_of_sound hsound hfloats
  refine ⟨fun h => ?_, fun h => run_load_of_error (hdeep h)⟩
  obtain ⟨loaded, hloaded, hloadedIndexed, hloadedPlain⟩ := hfits h
  refine ⟨loaded, run_load_of_ok hloaded, hloadedPlain, fun later => ?_⟩
  rw [(hloadedIndexed.run later).1, hloadedPlain, (hindexed.run later).1]

theorem documents_plain (store : Store) :
    store.documents = store.plain.databases.flatMap fun db =>
      db.collections.flatMap PlainCollection.documents := by
  simp only [documents, plain, Database.plain, List.flatMap_map]
  rfl

theorem load_dump_one_document :
    let fresh : Fresh := ⟨"", ⟨"r", 7, "e"⟩⟩
    let half : FiniteFloat := ⟨0.5, by decide +kernel⟩
    let operations : List Operation :=
      [.createDatabase "db" fresh, .createCollection "db" "c" ["/id"] fresh,
        .createDocument "db" "c" (.object [("id", .text "a"), ("n", .number (.float half))]) false
          fresh]
    ∃ loaded : Store,
      (∀ target : Store, target.run [.load (Store.empty.run operations).2.dump] =
        ([.ok .done], loaded)) ∧
      loaded.plain = (Store.empty.run operations).2.plain ∧
      ∀ later, (loaded.run later).1 = ((Store.empty.run operations).2.run later).1 := by
  intro fresh half operations
  have hdocuments : (Store.empty.run operations).2.documents =
      [.object [("_etag", .text "e"), ("_rid", .text "r"), ("_ts", .ofInt 7), ("id", .text "a"),
        ("n", .number (.float half))]] := by
    rw [documents_plain, (Indexed.empty.run operations).2.1]
    rfl
  have htime : FitsSigned fresh.stamp.time := by decide
  have htyped : ∀ operation ∈ operations, operation.Typed := by
    simp only [operations, List.forall_mem_cons, List.not_mem_nil, false_implies, implies_true,
      and_true]
    refine ⟨htime, htime, .object (List.pairwise_pair.mpr (by decide)) ?_, htime⟩
    simp only [List.forall_mem_cons, List.not_mem_nil, false_implies, implies_true, and_true]
    exact ⟨.text _, .number _⟩
  have hhalf : Json.FloatReadsBack half := by
    have htext : Json.number (.float half) = ['0', '.', '5'] := by decide +kernel
    rw [Json.FloatReadsBack, htext]
    rfl
  have hfloats : ∀ document ∈ (Store.empty.run operations).2.documents, document.ReadsBack := by
    rw [hdocuments, List.forall_mem_singleton]
    refine .object ?_
    simp only [List.forall_mem_cons, List.not_mem_nil, false_implies, implies_true, and_true]
    exact ⟨.text _, .text _, .ofInt _, .text _, .float hhalf⟩
  refine (load_dump operations htyped hfloats).1 ?_
  rw [hdocuments, List.forall_mem_singleton]
  decide

end Store

end DocQuery
