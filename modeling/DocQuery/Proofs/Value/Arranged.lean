import DocQuery.Json.Reader

/-!
# Arranged values

The members of an object ascend in their names, each name once.  Setting a member keeps
this order, reading a text arranges its objects so, and arranging changes nothing then.
-/

namespace DocQuery

namespace Members

def Ascending (members : Members) : Prop :=
  members.Pairwise fun first second => first.1 < second.1

theorem mem_of_mem_insert {name : String} {value : Value} {members : Members}
    {member : String × Value} (h : member ∈ members.insert name value) :
    member = (name, value) ∨ member ∈ members := by
  induction members with
  | nil => exact .inl (by simpa [insert] using h)
  | cons head rest ih =>
      obtain ⟨other, held⟩ := head
      unfold insert at h
      split at h
      · simpa using h
      · split at h
        · rcases List.mem_cons.mp h with hhead | hrest
          · exact .inr (hhead ▸ List.mem_cons_self)
          · rcases ih hrest with hnew | hold
            · exact .inl hnew
            · exact .inr (List.mem_cons_of_mem _ hold)
        · rcases List.mem_cons.mp h with hhead | hrest
          · exact .inl hhead
          · exact .inr (List.mem_cons_of_mem _ hrest)

theorem Ascending.insert {members : Members} (h : members.Ascending) (name : String)
    (value : Value) : (members.insert name value).Ascending := by
  induction members with
  | nil => simp [Members.insert, Ascending]
  | cons head rest ih =>
      obtain ⟨other, held⟩ := head
      obtain ⟨hhead, hrest⟩ := List.pairwise_cons.mp h
      unfold Members.insert
      split
      · rename_i hlt
        refine List.pairwise_cons.mpr ⟨fun member hmember => ?_, h⟩
        rcases List.mem_cons.mp hmember with rfl | hmember
        · exact hlt
        · exact String.lt_trans hlt (hhead member hmember)
      · split
        · rename_i hgt
          refine List.pairwise_cons.mpr ⟨fun member hmember => ?_, ih hrest⟩
          rcases mem_of_mem_insert hmember with rfl | hmember
          · exact hgt
          · exact hhead member hmember
        · rename_i hle hge
          have heq : name = other :=
            String.le_antisymm (String.not_lt.mp hge) (String.not_lt.mp hle)
          subst heq
          exact List.pairwise_cons.mpr ⟨hhead, hrest⟩

theorem ascending_ofList (assignments : List (String × Value)) :
    (ofList assignments).Ascending := by
  suffices ∀ members : Members, members.Ascending →
      (assignments.foldl (fun members assignment => members.insert assignment.1 assignment.2)
        members).Ascending from this [] List.Pairwise.nil
  induction assignments with
  | nil => exact fun _ h => h
  | cons assignment rest ih => exact fun members h => ih _ (h.insert _ _)

theorem mem_of_mem_ofList {assignments : List (String × Value)} {member : String × Value}
    (h : member ∈ ofList assignments) : member ∈ assignments := by
  suffices ∀ members : Members, member ∈ assignments.foldl
      (fun members assignment => members.insert assignment.1 assignment.2) members →
        member ∈ members ∨ member ∈ assignments from
    (this [] h).resolve_left List.not_mem_nil
  clear h
  induction assignments with
  | nil => exact fun _ h => .inl h
  | cons assignment rest ih =>
      intro members h
      rcases ih _ h with hset | hrest
      · rcases mem_of_mem_insert hset with rfl | hold
        · exact .inr List.mem_cons_self
        · exact .inl hold
      · exact .inr (List.mem_cons_of_mem _ hrest)

theorem insert_of_all_lt {name : String} {members : Members} (value : Value)
    (h : ∀ member ∈ members, member.1 < name) :
    members.insert name value = members ++ [(name, value)] := by
  induction members with
  | nil => rfl
  | cons head rest ih =>
      obtain ⟨other, held⟩ := head
      obtain ⟨hother, hrest⟩ := List.forall_mem_cons.mp h
      have hnot : ¬name < other := fun hlt => String.lt_irrefl _ (String.lt_trans hlt hother)
      rw [Members.insert, if_neg hnot, if_pos hother, ih hrest, List.cons_append]

/-- Members in order are kept as they are. -/
theorem Ascending.ofList_eq {members : Members} (h : members.Ascending) :
    ofList members = members := by
  suffices ∀ before : Members, (before ++ members).Ascending →
      members.foldl (fun members assignment => members.insert assignment.1 assignment.2) before =
        before ++ members from this [] h
  clear h
  induction members with
  | nil => simp
  | cons member rest ih =>
      intro before h
      have hbefore : ∀ earlier ∈ before, earlier.1 < member.1 := fun earlier hearlier =>
        (List.pairwise_append.mp h).2.2 earlier hearlier member List.mem_cons_self
      rw [List.foldl_cons, insert_of_all_lt member.2 hbefore]
      have hrest := ih (before ++ [(member.1, member.2)]) (by simpa using h)
      simpa using hrest

end Members

namespace Value

/-- The objects in a value have their members in order. -/
inductive Arranged : Value → Prop
  | null : Arranged null
  | bool (b : Bool) : Arranged (bool b)
  | number (n : Number) : Arranged (number n)
  | text (s : String) : Arranged (text s)
  | array {elements : List Value} (h : ∀ element ∈ elements, Arranged element) :
      Arranged (array elements)
  | object {members : Members} (hnames : members.Ascending)
      (h : ∀ member ∈ members, Arranged member.2) : Arranged (object members)

theorem Arranged.ofInt (n : Int) : (ofInt n).Arranged := by
  unfold Value.ofInt
  split
  · exact .number _
  · exact .null

theorem Arranged.ofFloat (x : Float) : (ofFloat x).Arranged := by
  unfold Value.ofFloat
  split
  · exact .number _
  · exact .null

end Value

namespace Json

theorem arrangedElements_eq (elements : List Value) :
    arrangedElements elements = elements.map arranged := by
  induction elements with
  | nil => rfl
  | cons element rest ih => rw [arrangedElements, ih, List.map_cons]

theorem arrangedMembers_eq (members : List (String × Value)) :
    arrangedMembers members = members.map fun member => (member.1, arranged member.2) := by
  induction members with
  | nil => rfl
  | cons member rest ih =>
      obtain ⟨name, value⟩ := member
      rw [arrangedMembers, ih, List.map_cons]

/-- Arranging a value that is in order changes nothing. -/
theorem arranged_eq {value : Value} (h : value.Arranged) : arranged value = value := by
  induction h with
  | null => rfl
  | bool b => rfl
  | number n => rfl
  | text s => rfl
  | array h ih =>
      rw [arranged, arrangedElements_eq, List.map_congr_left ih, List.map_id']
  | object hnames h ih =>
      have hmembers := List.map_congr_left fun member hmember =>
        congrArg (Prod.mk member.1) (ih member hmember)
      rw [arranged, arrangedMembers_eq, hmembers, List.map_id', hnames.ofList_eq]

theorem arrangedElements_of_arranged {elements : List Value}
    (h : ∀ element ∈ elements, element.Arranged) : arrangedElements elements = elements := by
  rw [arrangedElements_eq, List.map_congr_left fun element helement => arranged_eq (h _ helement),
    List.map_id']

mutual

theorem arranged_arranged : ∀ value : Value, (arranged value).Arranged
  | .null => .null
  | .bool b => .bool b
  | .number n => .number n
  | .text s => .text s
  | .array elements => by
      rw [arranged]
      exact .array (arranged_of_mem_elements elements)
  | .object members => by
      rw [arranged]
      exact .object (Members.ascending_ofList _) fun member hmember =>
        arranged_of_mem_members members member (Members.mem_of_mem_ofList hmember)

theorem arranged_of_mem_elements :
    ∀ (elements : List Value), ∀ element ∈ arrangedElements elements, element.Arranged
  | [] => by simp [arrangedElements]
  | element :: rest => by
      rw [arrangedElements, List.forall_mem_cons]
      exact ⟨arranged_arranged element, arranged_of_mem_elements rest⟩

theorem arranged_of_mem_members :
    ∀ (members : List (String × Value)), ∀ member ∈ arrangedMembers members, member.2.Arranged
  | [] => by simp [arrangedMembers]
  | (name, value) :: rest => by
      rw [arrangedMembers, List.forall_mem_cons]
      exact ⟨arranged_arranged value, arranged_of_mem_members rest⟩

end

end Json

end DocQuery
