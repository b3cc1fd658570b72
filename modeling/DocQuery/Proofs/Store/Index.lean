import DocQuery.Store.Basic
import Std.Data.HashMap.Lemmas

/-!
# The index of a collection

The positions of a collection are those that a scan of its documents finds: an id
that occurs is held with the index of the first document that has it, and no other
id is held.  Every change of a collection keeps this, the removals that shift later
documents included.
-/

namespace DocQuery

namespace Members

theorem get?_insert_self (members : Members) (name : String) (value : Value) :
    (members.insert name value).get? name = some value := by
  induction members with
  | nil => simp [insert, get?]
  | cons head rest ih =>
      obtain ⟨other, held⟩ := head
      simp only [get?] at ih
      unfold insert
      split
      · simp [get?]
      · split
        · rename_i hlt
          have hne : (name == other) = false := by
            rw [beq_eq_false_iff_ne]
            rintro rfl
            exact String.lt_irrefl name hlt
          simpa [get?, List.lookup_cons, hne] using ih
        · simp [get?]

theorem get?_insert_of_ne (members : Members) {name other : String} (value : Value)
    (h : other ≠ name) :
    (members.insert name value).get? other = members.get? other := by
  have hne : (other == name) = false := beq_false_of_ne h
  induction members with
  | nil => simp [insert, get?, h]
  | cons head rest ih =>
      obtain ⟨first, held⟩ := head
      simp only [get?] at ih
      unfold insert
      split
      · simp [get?, List.lookup_cons, hne]
      · split
        · simp [get?, List.lookup_cons, ih]
        · rename_i hle hge
          have heq : name = first :=
            String.le_antisymm (String.not_lt.mp hge) (String.not_lt.mp hle)
          subst heq
          simp [get?, List.lookup_cons, hne]

end Members

def Value.hasId (id : String) (document : Value) : Bool :=
  document.documentId? == some id

theorem Value.hasId_iff {id : String} {document : Value} :
    document.hasId id = true ↔ document.documentId? = some id := by
  simp [hasId]

theorem Value.hasId_of_documentId? {id other : String} {document : Value}
    (h : document.documentId? = some id) : document.hasId other = decide (id = other) := by
  rw [Bool.eq_iff_iff, hasId_iff, h]
  simp

namespace Positions

theorem getElem?_note (positions : Positions) (index : Nat) (document : Value) (id : String) :
    (positions.note index document)[id]? =
      if document.hasId id then some ((positions[id]?.map (min · index)).getD index)
      else positions[id]? := by
  unfold note Value.hasId
  cases hid : document.documentId? with
  | none => simp
  | some held =>
      by_cases heq : held = id
      · subst heq
        cases hpos : positions[held]? with
        | none => simp [hpos]
        | some old =>
            by_cases hlt : index < old
            · simp [hpos, hlt, Nat.min_eq_right (Nat.le_of_lt hlt)]
            · simp [hpos, hlt, Nat.min_eq_left (Nat.le_of_not_lt hlt)]
      · cases hpos : positions[held]? with
        | none => simp [hpos, heq, Std.HashMap.getElem?_insert]
        | some old =>
            by_cases hlt : index < old
            · simp [hpos, hlt, heq, Std.HashMap.getElem?_insert]
            · simp [hpos, hlt, heq]

def lower : Option Nat → Option Nat → Option Nat
  | some a, some b => some (min a b)
  | some a, none => some a
  | none, b => b

@[simp] theorem lower_none_left (position : Option Nat) : lower none position = position := by
  cases position <;> rfl

@[simp] theorem lower_none_right (position : Option Nat) : lower position none = position := by
  cases position <;> rfl

theorem getElem?_noteAll (documents : List Value) (positions : Positions) (start : Nat)
    (id : String) :
    (positions.noteAll start documents)[id]? =
      lower positions[id]? ((documents.findIdx? (Value.hasId id)).map (· + start)) := by
  induction documents generalizing positions start with
  | nil => simp [noteAll]
  | cons document rest ih =>
      rw [noteAll, ih, getElem?_note, List.findIdx?_cons]
      by_cases hid : document.hasId id = true
      · cases positions[id]? <;> cases rest.findIdx? (Value.hasId id) <;>
          simp [hid, lower] <;> omega
      · cases positions[id]? <;> cases rest.findIdx? (Value.hasId id) <;>
          simp [hid, lower] <;> omega

end Positions

namespace Collection

/-- The index of a collection finds what a scan of its documents finds. -/
def Indexed (c : Collection) : Prop :=
  ∀ id, c.position? id = c.documents.findIdx? (Value.hasId id)

theorem Indexed.empty (info : CollectionInfo) : (Collection.empty info).Indexed := by
  intro id
  simp [Collection.empty, position?]

@[simp] theorem documents_reindexFrom (c : Collection) (start : Nat) :
    (c.reindexFrom start).documents = c.documents := rfl

theorem position?_reindexFrom (c : Collection) (start : Nat) (id : String) :
    (c.reindexFrom start).position? id =
      Positions.lower (if start = 0 then none else c.position? id)
        (((c.documents.drop start).findIdx? (Value.hasId id)).map (· + start)) := by
  by_cases hstart : start = 0 <;>
    simp [reindexFrom, position?, Positions.getElem?_noteAll, hstart]

theorem Indexed.reindexed (c : Collection) : (c.reindexFrom 0).Indexed := by
  intro id
  simp [position?_reindexFrom]

theorem Indexed.ofDocuments (info : CollectionInfo) (documents : List Value) :
    (Collection.ofDocuments info documents).Indexed :=
  Indexed.reindexed _

/-- The document found by the index is the first one with the id. -/
theorem Indexed.document? {c : Collection} (h : c.Indexed) (id : String) :
    c.document? id = c.documents.find? (Value.hasId id) := by
  rw [Collection.document?, h id]
  cases hfound : c.documents.findIdx? (Value.hasId id) with
  | none =>
      rw [List.findIdx?_eq_none_iff] at hfound
      exact (List.find?_eq_none.mpr (by simpa using hfound)).symm
  | some index =>
      obtain ⟨hlt, hid, hbefore⟩ := List.findIdx?_eq_some_iff_getElem.mp hfound
      rw [Option.bind_some, List.getElem?_eq_getElem hlt]
      refine (List.find?_eq_some_iff_getElem.mpr ⟨hid, index, hlt, rfl, ?_⟩).symm
      intro j hj
      simpa using hbefore j hj

/-- No held position lies outside the documents. -/
theorem Indexed.position?_lt {c : Collection} (h : c.Indexed) {id : String} {index : Nat}
    (hpos : c.position? id = some index) : index < c.documents.length := by
  rw [h id] at hpos
  exact (List.findIdx?_eq_some_iff_getElem.mp hpos).1

theorem Indexed.push {c : Collection} (h : c.Indexed) {id : String} {document : Value}
    (hid : document.documentId? = some id) (hnew : c.position? id = none) :
    (c.push id document).Indexed := by
  intro other
  have hpos : (c.push id document).position? other =
      if id = other then some c.documents.length else c.position? other := by
    simp [Collection.push, position?, Std.HashMap.getElem?_insert]
  rw [hpos, h other, Collection.push, List.findIdx?_append, List.findIdx?_singleton,
    Value.hasId_of_documentId? hid]
  by_cases heq : id = other
  · subst heq
    rw [h id] at hnew
    simp [hnew]
  · simp [heq]

/-- Where an item stands is not changed by another one that passes the same tests. -/
theorem findIdx?_set_of_eq {α : Type} {p : α → Bool} {replacement : α} (items : List α)
    (index : Nat) (h : ∀ item, items[index]? = some item → p replacement = p item) :
    (items.set index replacement).findIdx? p = items.findIdx? p := by
  induction items generalizing index with
  | nil => rfl
  | cons item rest ih =>
      cases index with
      | zero =>
          have hsame : p replacement = p item := h item rfl
          simp [List.findIdx?_cons, hsame]
      | succ index =>
          have hrest := ih index fun other hother => h other (by simpa using hother)
          simp [List.findIdx?_cons, hrest]

theorem Indexed.replace {c : Collection} (h : c.Indexed) {id : String} {document : Value}
    (hid : document.documentId? = some id) {index : Nat} (hpos : c.position? id = some index) :
    (c.replace index document).Indexed := by
  intro other
  rw [h id] at hpos
  obtain ⟨hlt, hold, -⟩ := List.findIdx?_eq_some_iff_getElem.mp hpos
  have hsame : ∀ held, c.documents[index]? = some held →
      document.hasId other = held.hasId other := by
    intro held hheld
    rw [List.getElem?_eq_getElem hlt, Option.some.injEq] at hheld
    subst hheld
    rw [Value.hasId_of_documentId? hid, Value.hasId_of_documentId? (Value.hasId_iff.mp hold)]
  rw [Collection.replace, findIdx?_set_of_eq _ _ hsame]
  exact h other

theorem getElem?_forget (positions : Positions) (id : Option String) (index : Nat)
    (other : String) :
    (forget positions id index)[other]? =
      if id = some other ∧ positions[other]? = some index then none else positions[other]? := by
  unfold forget
  cases id with
  | none => simp
  | some id =>
      by_cases heq : id = other
      · subst heq
        by_cases hpos : positions[id]? = some index <;> simp [hpos]
      · by_cases hpos : positions[id]? = some index <;>
          simp [hpos, heq, Std.HashMap.getElem?_erase]

theorem remove_of_length_le {c : Collection} {index : Nat} (h : c.documents.length ≤ index) :
    c.remove index = c.reindexFrom index := by
  simp [remove, forget, List.getElem?_eq_none h, List.eraseIdx_of_length_le h]

/--
After a removal the index is noted anew from the gap on: ids found before the gap
keep their positions, the others get those of the shifted documents.
-/
theorem Indexed.remove {c : Collection} (h : c.Indexed) (index : Nat) :
    (c.remove index).Indexed := by
  rcases Nat.eq_zero_or_pos index with rfl | hpos
  · exact Indexed.reindexed _
  intro id
  have hne : index ≠ 0 := by omega
  by_cases hlt : index < c.documents.length
  · obtain ⟨before, removed, after, hsplit, hlen⟩ :
        ∃ before removed after, c.documents = before ++ removed :: after ∧
          before.length = index :=
      ⟨c.documents.take index, c.documents[index], c.documents.drop (index + 1), by simp,
        by simp; omega⟩
    have hheld := h id
    rw [hsplit, List.findIdx?_append, List.findIdx?_cons] at hheld
    have hdocuments : (c.remove index).documents = before ++ after := by
      simp [Collection.remove, hsplit, ← hlen, List.eraseIdx_append_of_length_le]
    have hposition : (c.remove index).position? id =
        Positions.lower
          (if removed.hasId id ∧ c.position? id = some index then none else c.position? id)
          ((after.findIdx? (Value.hasId id)).map (· + index)) := by
      have hat : c.documents[index]? = some removed := by
        simp [hsplit, ← hlen]
      have hafter : (c.documents.eraseIdx index).drop index = after := by
        simp [hsplit, ← hlen, List.eraseIdx_append_of_length_le]
      rw [Collection.remove, position?_reindexFrom, if_neg hne, hafter]
      simp only [position?, getElem?_forget, hat, Option.bind_some, Value.hasId_iff]
    rw [hdocuments, hposition, hheld, List.findIdx?_append]
    -- An id found before the gap is never the forgotten one: its position is lower.
    cases hbefore : before.findIdx? (Value.hasId id) with
    | some found =>
        have hfound : found < index :=
          hlen ▸ (List.findIdx?_eq_some_iff_getElem.mp hbefore).1
        have hkept : ¬ (removed.hasId id = true ∧ some found = some index) := by
          simp only [Option.some.injEq]
          omega
        rw [Option.some_or, Option.some_or, if_neg hkept]
        cases after.findIdx? (Value.hasId id) with
        | none => simp [Positions.lower]
        | some later =>
            simp [Positions.lower]
            omega
    | none =>
        by_cases hid : removed.hasId id = true <;> cases after.findIdx? (Value.hasId id) <;>
          simp [hid, hlen, Positions.lower]
  · rw [remove_of_length_le (by omega), position?_reindexFrom, List.drop_of_length_le (by omega)]
    simp [hne, h id]

end Collection

end DocQuery
