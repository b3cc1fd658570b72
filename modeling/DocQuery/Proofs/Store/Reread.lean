import DocQuery.Proofs.Store.Persistence
import DocQuery.Proofs.Store.Keyed

/-!
# What becomes of a store in its file

The file of any store is read as the store with its documents reread: each number in them
is what its text is read as, which need not be the number.  Ids and stamps are read as they
were, so that the ids stay distinct.
-/

namespace DocQuery

/-! ## Values -/

/-- Results that are read place by place have the keys of what they are read from. -/
theorem map_of_mapM {α β γ : Type} {read : α → Option β} {key : α → γ} {view : β → γ}
    {items : List α} {results : List β}
    (h : ∀ a ∈ items, ∀ b, read a = some b → view b = key a)
    (hread : items.mapM read = some results) : results.map view = items.map key := by
  induction items generalizing results with
  | nil =>
      have hnil : results = [] := by simpa using hread.symm
      simp [hnil]
  | cons item rest ih =>
      obtain ⟨hitem, hrest⟩ := List.forall_mem_cons.mp h
      simp only [List.mapM_cons, Option.bind_eq_bind, Option.bind_eq_some_iff, Option.pure_def,
        Option.some.injEq] at hread
      obtain ⟨b, hb, bs, hbs, rfl⟩ := hread
      rw [List.map_cons, List.map_cons, hitem b hb, ih hrest hbs]

namespace Json

theorem arranged_of_number? {text rest : List Char} {v : Value}
    (h : number? text = some (v, rest)) : v.Arranged := by
  have hfloat {negative : Bool} {significand : Nat} {exponent : Int} {v : Value}
      (h : float? negative significand exponent = some v) : v.Arranged := by
    obtain ⟨x, -, rfl⟩ := Option.map_eq_some_iff.mp h
    exact .ofFloat _
  have hmagnitude {negative : Bool} {text rest : List Char} {v : Value}
      (h : magnitude negative text = some (v, rest)) : v.Arranged := by
    simp only [magnitude, Option.bind_eq_bind, Option.bind_eq_some_iff, Option.some.injEq,
      Prod.mk.injEq] at h
    obtain ⟨whole, -, fraction, -, exponent, -, value, hvalue, rfl, -⟩ := h
    simp only [numberOf] at hvalue
    split at hvalue
    · split at hvalue
      · split at hvalue
        · exact hfloat hvalue
        · obtain ⟨n, -, rfl⟩ := Option.map_eq_some_iff.mp hvalue
          exact .number _
      · obtain ⟨n, -, rfl⟩ := Option.map_eq_some_iff.mp hvalue
        exact .number _
    · exact hfloat hvalue
  unfold number? at h
  split at h <;> exact hmagnitude h

theorem reread_text (d : Nat) (s : String) : reread d (.text s) = some (.text s) := by
  rw [reread]

theorem reread_ofInt (d : Nat) (n : Int) : reread d (.ofInt n) = some (.ofInt n) := by
  rw [reread_eq_within (.ofInt n), within, if_pos (by simp)]

theorem reread_array_eq_some {d : Nat} {elements : List Value} {v : Value}
    (h : reread d (.array elements) = some v) :
    ∃ d' elements', v = .array elements' ∧ elements.mapM (reread d') = some elements' := by
  cases d with
  | zero => cases h
  | succ d =>
      obtain ⟨elements', helements, rfl⟩ := Option.map_eq_some_iff.mp h
      exact ⟨d, elements', rfl, helements⟩

def rereadMember (d : Nat) (member : String × Value) : Option (String × Value) :=
  (reread d member.2).map fun value => (member.1, value)

theorem reread_object_eq_some {d : Nat} {members : Members} {v : Value}
    (h : reread d (.object members) = some v) :
    ∃ d' : Nat, ∃ members' : Members,
      v = .object members' ∧ members.mapM (rereadMember d') = some members' := by
  cases d with
  | zero => cases h
  | succ d =>
      obtain ⟨members', hmembers, rfl⟩ := Option.map_eq_some_iff.mp h
      exact ⟨d, members', rfl, hmembers⟩

theorem rereadMember_eq_some {d : Nat} {member member' : String × Value} :
    rereadMember d member = some member' ↔
      member'.1 = member.1 ∧ reread d member.2 = some member'.2 := by
  obtain ⟨name, value⟩ := member'
  simp only [rereadMember, Option.map_eq_some_iff, Prod.mk.injEq]
  constructor
  · rintro ⟨found, hfound, hname, rfl⟩
    exact ⟨hname.symm, hfound⟩
  · rintro ⟨hname, hvalue⟩
    exact ⟨value, hvalue, hname.symm, rfl⟩

theorem mapM_rereadMember_of_same {d : Nat} {members : Members}
    (h : ∀ member ∈ members, reread d member.2 = some member.2) :
    members.mapM (rereadMember d) = some members := by
  have hread : ∀ member ∈ members, rereadMember d member = some (id member) :=
    fun member hmember => rereadMember_eq_some.mpr ⟨rfl, h member hmember⟩
  rw [mapM_eq_some_map hread, List.map_id]

/-- Rereading keeps the members of objects in order. -/
theorem arranged_reread {v v' : Value} (h : v.Arranged) {d : Nat} (hread : reread d v = some v') :
    v'.Arranged := by
  induction h generalizing d v' with
  | null =>
      rw [reread] at hread
      cases hread
      exact .null
  | bool b =>
      rw [reread] at hread
      cases hread
      exact .bool b
  | number n =>
      rw [reread] at hread
      obtain ⟨result, hresult, rfl⟩ := Option.map_eq_some_iff.mp hread
      exact arranged_of_number? hresult
  | text s =>
      rw [reread] at hread
      cases hread
      exact .text s
  | array hall ih =>
      obtain ⟨d', elements', rfl, helements⟩ := reread_array_eq_some hread
      exact .array (Store.forall_mem_of_mapM (fun a ha b hb => ih a ha hb) helements)
  | @object members hnames hall ih =>
      obtain ⟨d', members', rfl, hmembers⟩ := reread_object_eq_some hread
      have hsame : members'.map Prod.fst = members.map Prod.fst :=
        map_of_mapM (fun a _ b hb => (rereadMember_eq_some.mp hb).1) hmembers
      refine .object ?_ (Store.forall_mem_of_mapM
        (fun a ha b hb => ih a ha (rereadMember_eq_some.mp hb).2) hmembers)
      unfold Members.Ascending at hnames ⊢
      rw [← List.pairwise_map] at hnames ⊢
      rwa [hsame]

/-- The value of a name is reread as part of an object. -/
theorem get?_of_rereadMembers {d : Nat} {members members' : Members}
    (h : members.mapM (rereadMember d) = some members') (name : String) :
    members'.get? name = (members.get? name).bind (reread d) := by
  induction members generalizing members' with
  | nil =>
      have hnil : members' = [] := by simpa using h.symm
      simp [hnil, Members.get?]
  | cons member rest ih =>
      simp only [List.mapM_cons, Option.bind_eq_bind, Option.bind_eq_some_iff, Option.pure_def,
        Option.some.injEq] at h
      obtain ⟨⟨name', value'⟩, hmember, rest', hrest, rfl⟩ := h
      obtain ⟨held, value⟩ := member
      obtain ⟨rfl, hvalue⟩ : name' = held ∧ reread d value = some value' :=
        rereadMember_eq_some.mp hmember
      have hlater := ih hrest
      simp only [Members.get?, List.lookup_cons] at hlater ⊢
      cases name == name' with
      | true => exact hvalue.symm
      | false => exact hlater

theorem isStored_reread {document document' : Value} (h : document.IsStored) {d : Nat}
    (hread : reread d document = some document') :
    document'.IsStored ∧ document'.documentId? = document.documentId? := by
  obtain ⟨members, header, rfl, hid, htime, hmembers⟩ := h
  obtain ⟨d', members', rfl, hreadMembers⟩ := reread_object_eq_some hread
  have hsame : ∀ each ∈ header.members, reread d' each.2 = some each.2 := by
    simp [Header.members, reread_text, reread_ofInt]
  have hmembers' : ∀ each ∈ header.members, members'.get? each.1 = some each.2 := by
    intro each heach
    rw [get?_of_rereadMembers hreadMembers, hmembers each heach, Option.bind_some, hsame each heach]
  refine ⟨⟨members', header, rfl, hid, htime, hmembers'⟩, ?_⟩
  have hget : members.get? "id" = members'.get? "id" := by
    rw [hmembers _ List.mem_cons_self, hmembers' _ List.mem_cons_self]
  simp only [Value.documentId?, hget]

end Json

/-! ## Collections -/

namespace Collection

/-- A collection with its documents reread by a reader of some depth. -/
def reread (d : Nat) (c : Collection) : Option Collection :=
  (c.documents.mapM (Json.reread d)).map (Collection.ofDocuments c.info)

theorem reread_toValue (c : Collection) (d : Nat) :
    Json.reread (d + 3) c.toValue = (c.reread (d + 1)).map Collection.toValue := by
  have hkey (key : PartitionKey) : Json.reread (d + 2) key.toValue = some key.toValue := by
    have hdepth : key.toValue.depth ≤ d + 2 :=
      Nat.le_trans key.depth_toValue (Nat.le_add_left 2 d)
    rw [Json.reread_eq_within key.readsBack_toValue, Json.within, if_pos hdepth]
  have hinfo : c.info.members.mapM (Json.rereadMember (d + 2)) = some c.info.members :=
    Json.mapM_rereadMember_of_same (c.info.forall_mem_members
      (P := fun v => Json.reread (d + 2) v = some v) (Json.reread_text _) (Json.reread_ofInt _)
      hkey)
  have hobject (members : Members) : Json.reread (d + 3) (.object members) =
      (members.mapM (Json.rereadMember (d + 2))).map .object := rfl
  have harray (elements : List Value) : Json.reread (d + 2) (.array elements) =
      (elements.mapM (Json.reread (d + 1))).map .array := rfl
  rw [toValue, hobject, List.mapM_append, hinfo, Collection.reread]
  simp only [List.mapM_cons, List.mapM_nil, Json.rereadMember, harray]
  cases c.documents.mapM (Json.reread (d + 1)) <;> rfl

variable {c c' : Collection} {d : Nat}

theorem reread_eq_some (h : c.reread d = some c') :
    c'.info = c.info ∧ c.documents.mapM (Json.reread d) = some c'.documents := by
  obtain ⟨documents, hdocuments, rfl⟩ := Option.map_eq_some_iff.mp h
  exact ⟨rfl, hdocuments⟩

theorem sound_reread (hsound : c.plain.Sound) (h : c.reread d = some c') : c'.plain.Sound := by
  obtain ⟨hinfo, hdocuments⟩ := reread_eq_some h
  refine ⟨?_, Store.forall_mem_of_mapM (fun document hdocument _ hread =>
    Json.arranged_reread (hsound.documents document hdocument) hread) hdocuments⟩
  rw [plain, hinfo]
  exact hsound.time

theorem keyed_reread (hkeyed : c.plain.Keyed) (h : c.reread d = some c') : c'.plain.Keyed := by
  obtain ⟨-, hdocuments⟩ := reread_eq_some h
  have hids : c'.documents.map Value.documentId? = c.documents.map Value.documentId? :=
    map_of_mapM (fun document hdocument _ hread =>
      (Json.isStored_reread (hkeyed.documents document hdocument) hread).2) hdocuments
  refine ⟨?_, Store.forall_mem_of_mapM (fun document hdocument _ hread =>
    (Json.isStored_reread (hkeyed.documents document hdocument) hread).1) hdocuments⟩
  rw [plain, hids]
  exact hkeyed.ids

end Collection

/-! ## Databases -/

/-- Lists of what is read from written items are the lists of what these are reread as. -/
theorem mapM_map_written {α : Type} {write : α → Value} {read : Value → Option Value}
    {again : α → Option α} (h : ∀ item, read (write item) = (again item).map write)
    (items : List α) :
    (items.map write).mapM read = (items.mapM again).map (List.map write) := by
  rw [List.mapM_map]
  exact Store.mapM_map_view h items

namespace Database

def reread (d : Nat) (db : Database) : Option Database :=
  (db.collections.mapM (Collection.reread d)).map fun collections => ⟨db.header, collections⟩

theorem reread_toValue (db : Database) (d : Nat) :
    Json.reread (d + 5) db.toValue = (db.reread (d + 1)).map Database.toValue := by
  have hobject (members : Members) : Json.reread (d + 5) (.object members) =
      (members.mapM (Json.rereadMember (d + 4))).map .object := rfl
  have harray (elements : List Value) : Json.reread (d + 4) (.array elements) =
      (elements.mapM (Json.reread (d + 3))).map .array := rfl
  have hheader : db.header.members.mapM (Json.rereadMember (d + 4)) = some db.header.members :=
    Json.mapM_rereadMember_of_same (db.header.forall_mem_members
      (P := fun v => Json.reread (d + 4) v = some v) (Json.reread_text _) (Json.reread_ofInt _))
  rw [toValue, hobject, List.mapM_append, hheader, Database.reread]
  simp only [List.mapM_cons, List.mapM_nil, Json.rereadMember, harray,
    mapM_map_written (fun c : Collection => c.reread_toValue d) db.collections]
  cases db.collections.mapM (Collection.reread (d + 1)) <;> rfl

variable {db db' : Database} {d : Nat}

theorem reread_eq_some (h : db.reread d = some db') :
    db'.header = db.header ∧ db.collections.mapM (Collection.reread d) = some db'.collections := by
  obtain ⟨collections, hcollections, rfl⟩ := Option.map_eq_some_iff.mp h
  exact ⟨rfl, hcollections⟩

theorem sound_reread (hsound : db.plain.Sound) (h : db.reread d = some db') :
    db'.plain.Sound := by
  obtain ⟨hheader, hcollections⟩ := reread_eq_some h
  have hall := List.forall_mem_map.mp hsound.collections
  refine ⟨?_, List.forall_mem_map.mpr (Store.forall_mem_of_mapM (fun c hc _ hread =>
    Collection.sound_reread (hall c hc) hread) hcollections)⟩
  rw [plain, hheader]
  exact hsound.time

theorem keyed_reread (hkeyed : db.plain.Keyed) (h : db.reread d = some db') :
    db'.plain.Keyed := by
  obtain ⟨-, hcollections⟩ := reread_eq_some h
  have hall := List.forall_mem_map.mp hkeyed.collections
  have hids : db'.collections.map (fun c => c.info.header.id) =
      db.collections.map fun c => c.info.header.id :=
    map_of_mapM (fun c _ _ hread => by rw [(Collection.reread_eq_some hread).1]) hcollections
  refine ⟨?_, List.forall_mem_map.mpr (Store.forall_mem_of_mapM (fun c hc _ hread =>
    Collection.keyed_reread (hall c hc) hread) hcollections)⟩
  have hold := hkeyed.ids
  rw [plain, List.map_map] at hold ⊢
  exact hids ▸ hold

end Database

/-! ## Stores -/

namespace Store

def reread (d : Nat) (store : Store) : Option Store :=
  (store.databases.mapM (Database.reread d)).map Store.mk

theorem reread_toValue (store : Store) (d : Nat) :
    Json.reread (d + 7) store.toValue = (store.reread (d + 1)).map Store.toValue := by
  have hobject (members : Members) : Json.reread (d + 7) (.object members) =
      (members.mapM (Json.rereadMember (d + 6))).map .object := rfl
  have harray (elements : List Value) : Json.reread (d + 6) (.array elements) =
      (elements.mapM (Json.reread (d + 5))).map .array := rfl
  rw [toValue, hobject, Store.reread]
  simp only [List.mapM_cons, List.mapM_nil, Json.rereadMember, harray,
    mapM_map_written (fun db : Database => db.reread_toValue d) store.databases]
  cases store.databases.mapM (Database.reread (d + 1)) <;> rfl

variable {store store' : Store} {d : Nat}

theorem reread_eq_some (h : store.reread d = some store') :
    store.databases.mapM (Database.reread d) = some store'.databases := by
  obtain ⟨databases, hdatabases, rfl⟩ := Option.map_eq_some_iff.mp h
  exact hdatabases

theorem sound_reread (hsound : store.plain.Sound) (h : store.reread d = some store') :
    store'.plain.Sound := by
  have hall : ∀ db ∈ store.databases, db.plain.Sound := List.forall_mem_map.mp hsound
  exact List.forall_mem_map.mpr (forall_mem_of_mapM (fun db hdb _ hread =>
    Database.sound_reread (hall db hdb) hread) (reread_eq_some h))

theorem keyed_reread (hkeyed : store.plain.Keyed) (h : store.reread d = some store') :
    store'.plain.Keyed := by
  have hall := List.forall_mem_map.mp hkeyed.databases
  have hids : store'.databases.map (fun db => db.header.id) =
      store.databases.map fun db => db.header.id :=
    map_of_mapM (fun db _ _ hread => by rw [(Database.reread_eq_some hread).1]) (reread_eq_some h)
  refine ⟨?_, List.forall_mem_map.mpr (forall_mem_of_mapM (fun db hdb _ hread =>
    Database.keyed_reread (hall db hdb) hread) (reread_eq_some h))⟩
  have hold := hkeyed.ids
  rw [plain, List.map_map] at hold ⊢
  exact hids ▸ hold

/-- The file of any store is read as the value of the store with its documents reread. -/
theorem readNames_dump_eq (store : Store) :
    Json.readNames StoreFile.names store.dump.toList = (store.reread 121).map Store.toValue := by
  -- Six levels stand around a document: a list and an object each of the store, of its
  -- database and of its collection.
  have hnames : StoreFile.names.contains "databases" = true := by decide
  rw [dump, Value.prettyJson, String.toList_ofList, toValue, Json.readNames_pretty hnames,
    ← toValue]
  exact store.reread_toValue 120

end Store

/-- Loading a store's file puts the store with its documents reread in the place of any other. -/
theorem PlainStore.attempt_load_dump {dumped : Store} (hsound : dumped.plain.Sound)
    (target : PlainStore) :
    target.attempt (.load dumped.dump) =
      match dumped.reread 121 with
      | some loaded => .ok (.done, loaded.plain)
      | none => .error .json := by
  rw [PlainStore.attempt, dumped.readNames_dump_eq]
  cases hreread : dumped.reread 121 with
  | none => rfl
  | some loaded =>
      rw [Option.map_some, Option.bind_some,
        PlainStore.ofValue_toValue (Store.sound_reread hsound hreread)]

end DocQuery
