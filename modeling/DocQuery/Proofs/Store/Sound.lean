import DocQuery.Proofs.Store.Refinement
import DocQuery.Proofs.Store.Steps
import DocQuery.Proofs.Value.Arranged

/-!
# What a store holds

The times of a store are signed words and the objects in its documents have their members
in order.  Operations with such arguments keep this, and files are read so.
-/

namespace DocQuery

/--
The arguments of an operation as they are typed: a time is a signed word and the objects
in a document have their members in order.
-/
def Operation.Typed : Operation → Prop
  | .createDatabase _ fresh => FitsSigned fresh.stamp.time
  | .createCollection _ _ _ fresh => FitsSigned fresh.stamp.time
  | .createDocument _ _ document _ fresh => document.Arranged ∧ FitsSigned fresh.stamp.time
  | _ => True

/-! ## Documents -/

namespace Store

theorem arranged_stamped {members : Members} (h : (Value.object members).Arranged) (id : String)
    (stamp : Stamp) : (stamped members id stamp).Arranged := by
  cases h with
  | object hnames hvalues =>
      refine .object ((((hnames.insert _ _).insert _ _).insert _ _).insert _ _) ?_
      intro member hmember
      rcases Members.mem_of_mem_insert hmember with rfl | hmember
      · exact .text _
      rcases Members.mem_of_mem_insert hmember with rfl | hmember
      · exact .ofInt _
      rcases Members.mem_of_mem_insert hmember with rfl | hmember
      · exact .text _
      rcases Members.mem_of_mem_insert hmember with rfl | hmember
      · exact .text _
      exact hvalues member hmember

theorem arranged_of_prepare {document stored : Value} {fresh : Fresh} {id : String}
    (hdocument : document.Arranged) (h : prepare document fresh = .ok (id, stored)) :
    stored.Arranged := by
  obtain ⟨members, rfl, -, rfl⟩ := prepare_eq_ok h
  exact arranged_stamped hdocument _ _

end Store

/-! ## Files -/

namespace StoreFile

theorem fits_of_wordMember {written : List (String × Value)} {name : String} {n : Int}
    (h : wordMember written name = some n) : FitsSigned n := by
  unfold wordMember at h
  split at h
  · rename_i value _
    cases value with
    | number m => exact Number.toInt?_fits h
    | _ => cases h
  · cases h

theorem fits_of_header {written : List (String × Value)} {found : Header}
    (h : header written = some found) : FitsSigned found.stamp.time := by
  simp only [header, Option.bind_eq_bind, Option.bind_eq_some_iff, Option.some.injEq] at h
  obtain ⟨id, -, resource, -, time, htime, etag, -, rfl⟩ := h
  exact fits_of_wordMember htime

end StoreFile

/-! ## Collections, databases and stores -/

namespace PlainCollection

/-- The time is a signed word and the objects in the documents are in order. -/
structure Sound (c : PlainCollection) : Prop where
  time : FitsSigned c.info.header.stamp.time
  documents : ∀ document ∈ c.documents, document.Arranged

theorem Sound.push {c : PlainCollection} (h : c.Sound) {document : Value}
    (hdocument : document.Arranged) : (c.push document).Sound := by
  refine ⟨h.time, fun other hother => ?_⟩
  rcases List.mem_append.mp hother with hold | hnew
  · exact h.documents other hold
  · obtain rfl : other = document := by simpa using hnew
    exact hdocument

theorem Sound.replace {c : PlainCollection} (h : c.Sound) (id : String) {document : Value}
    (hdocument : document.Arranged) : (c.replace id document).Sound := by
  rw [replace_eq]
  exact ⟨h.time, forall_mem_changeFirst h.documents fun _ _ => hdocument⟩

theorem Sound.remove {c : PlainCollection} (h : c.Sound) (id : String) : (c.remove id).Sound :=
  ⟨h.time, fun document hdocument => h.documents document (List.mem_of_mem_eraseIdx hdocument)⟩

theorem Sound.ofValue {value : Value} {c : PlainCollection}
    (h : PlainCollection.ofValue value = some c) : c.Sound := by
  cases value with
  | object written =>
      simp only [PlainCollection.ofValue, Option.bind_eq_bind, Option.bind_eq_some_iff,
        Option.some.injEq] at h
      obtain ⟨documents, -, header, hheader, key, -, rfl⟩ := h
      exact ⟨StoreFile.fits_of_header hheader, Json.arranged_of_mem_elements documents⟩
  | _ => cases h

end PlainCollection

namespace PlainDatabase

structure Sound (db : PlainDatabase) : Prop where
  time : FitsSigned db.header.stamp.time
  collections : ∀ c ∈ db.collections, c.Sound

theorem Sound.ofValue {value : Value} {db : PlainDatabase}
    (h : PlainDatabase.ofValue value = some db) : db.Sound := by
  cases value with
  | object written =>
      simp only [PlainDatabase.ofValue, Option.bind_eq_bind, Option.bind_eq_some_iff,
        Option.some.injEq] at h
      obtain ⟨values, -, header, hheader, collections, hread, rfl⟩ := h
      exact ⟨StoreFile.fits_of_header hheader,
        Store.forall_mem_of_mapM (fun _ _ _ => PlainCollection.Sound.ofValue) hread⟩
  | _ => cases h

end PlainDatabase

namespace PlainStore

def Sound (store : PlainStore) : Prop :=
  ∀ db ∈ store.databases, db.Sound

theorem Sound.empty : PlainStore.empty.Sound := by
  intro db hdb
  cases hdb

variable {store : PlainStore}

theorem Sound.withDatabase (h : store.Sound) (id : String) {f : PlainDatabase → PlainDatabase}
    (hf : ∀ db, db.Sound → (f db).Sound) : (store.withDatabase id f).Sound := by
  rw [withDatabase_eq]
  exact forall_mem_changeFirst h fun _ hdb => hf _ (h _ (List.mem_of_find?_eq_some hdb))

theorem Sound.withCollection (h : store.Sound) (database id : String)
    {f : PlainCollection → PlainCollection} (hf : ∀ c, c.Sound → (f c).Sound) :
    (store.withCollection database id f).Sound := by
  rw [withCollection_eq]
  exact h.withDatabase database fun _ hdb =>
    ⟨hdb.time, forall_mem_changeFirst hdb.collections fun _ hc =>
      hf _ (hdb.collections _ (List.mem_of_find?_eq_some hc))⟩

theorem Sound.ofValue {value : Value} (h : PlainStore.ofValue value = some store) :
    store.Sound := by
  simp only [PlainStore.ofValue, Option.bind_eq_bind, Option.bind_eq_some_iff,
    Option.some.injEq] at h
  obtain ⟨values, -, databases, hread, rfl⟩ := h
  exact Store.forall_mem_of_mapM (fun _ _ _ => PlainDatabase.Sound.ofValue) hread

/-! ## Operations and runs -/

theorem Sound.append {databases : List PlainDatabase} (h : Sound ⟨databases⟩)
    {db : PlainDatabase} (hdb : db.Sound) : Sound ⟨databases ++ [db]⟩ := by
  intro other hother
  rcases List.mem_append.mp hother with hold | hnew
  · exact h other hold
  · obtain rfl : other = db := by simpa using hnew
    exact hdb

/-- An operation that succeeds keeps what a store holds in order. -/
theorem Sound.step (h : store.Sound) {operation : Operation} (htyped : operation.Typed)
    {next : PlainStore} (hnext : store.Step operation next) : next.Sound := by
  cases hnext with
  | looks => exact h
  | createDatabase => exact h.append ⟨htyped, by simp⟩
  | deleteDatabase => exact fun db hdb => h db (List.mem_of_mem_eraseIdx hdb)
  | createCollection =>
      refine h.withDatabase _ fun db hdb => ⟨hdb.time, fun c hc => ?_⟩
      rcases List.mem_append.mp hc with hold | hnew
      · exact hdb.collections c hold
      · obtain rfl : c = _ := List.mem_singleton.mp hnew
        exact ⟨htyped, by simp⟩
  | deleteCollection =>
      exact h.withDatabase _ fun db hdb =>
        ⟨hdb.time, fun c hc => hdb.collections c (List.mem_of_mem_eraseIdx hc)⟩
  | addDocument hstored =>
      exact h.withCollection _ _ fun c hc => hc.push (Store.arranged_of_prepare htyped.1 hstored)
  | replaceDocument hstored =>
      exact h.withCollection _ _ fun c hc =>
        hc.replace _ (Store.arranged_of_prepare htyped.1 hstored)
  | deleteDocument => exact h.withCollection _ _ fun c hc => hc.remove _
  | load _ hloaded => exact .ofValue hloaded

theorem Sound.run (h : store.Sound) {operations : List Operation}
    (htyped : ∀ operation ∈ operations, operation.Typed) : (store.run operations).2.Sound :=
  run_keeps (fun _ _ _ hsound htyped => hsound.step htyped) h htyped

end PlainStore

end DocQuery
