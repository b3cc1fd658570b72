import DocQuery.Proofs.Json.Doubles

/-!
# Values are read as they are written

The indented text of a value is read as the value with each number as its own text is
read, if it nests no deeper than the reader allows, and is refused otherwise.  A value
whose doubles are read as they are written is read as the value.
-/

namespace DocQuery

namespace Value

mutual

def depth : Value → Nat
  | array elements => elementsDepth elements + 1
  | object members => membersDepth members + 1
  | _ => 0

def elementsDepth : List Value → Nat
  | [] => 0
  | element :: rest => max element.depth (elementsDepth rest)

def membersDepth : List (String × Value) → Nat
  | [] => 0
  | (_, value) :: rest => max value.depth (membersDepth rest)

end

@[simp] theorem depth_text (s : String) : (text s).depth = 0 := rfl

@[simp] theorem depth_ofInt (n : Int) : (ofInt n).depth = 0 := by
  unfold ofInt
  split <;> rfl

theorem depth_array_le {elements : List Value} {d : Nat} :
    (array elements).depth ≤ d + 1 ↔ ∀ element ∈ elements, element.depth ≤ d := by
  rw [depth, Nat.add_le_add_iff_right]
  induction elements with
  | nil => simp [elementsDepth]
  | cons element rest ih => rw [elementsDepth, Nat.max_le, ih, List.forall_mem_cons]

theorem depth_object_le {members : List (String × Value)} {d : Nat} :
    (object members).depth ≤ d + 1 ↔ ∀ member ∈ members, member.2.depth ≤ d := by
  rw [depth, Nat.add_le_add_iff_right]
  induction members with
  | nil => simp [membersDepth]
  | cons member rest ih =>
      obtain ⟨name, value⟩ := member
      rw [membersDepth, Nat.max_le, ih, List.forall_mem_cons]

/-- The JSON texts of all doubles in a value are read as these doubles. -/
inductive ReadsBack : Value → Prop
  | null : ReadsBack null
  | bool (b : Bool) : ReadsBack (bool b)
  | integer (n : Integer) : ReadsBack (number (.integer n))
  | float {x : FiniteFloat} (h : Json.FloatReadsBack x) : ReadsBack (number (.float x))
  | text (s : String) : ReadsBack (text s)
  | array {elements : List Value} (h : ∀ element ∈ elements, ReadsBack element) :
      ReadsBack (array elements)
  | object {members : List (String × Value)} (h : ∀ member ∈ members, ReadsBack member.2) :
      ReadsBack (object members)

theorem ReadsBack.ofInt (n : Int) : (ofInt n).ReadsBack := by
  unfold Value.ofInt
  split
  · exact .integer _
  · exact .null

end Value

namespace Json

variable {α : Type}

/-! ## Blanks -/

theorem skipSpaces_of_not_space {c : Char} (h : isSpace c = false) (cs : List Char) :
    skipSpaces (c :: cs) = c :: cs := by
  simp [skipSpaces, h]

theorem skipSpaces_lineBreak (level : Nat) (cs : List Char) :
    skipSpaces (lineBreak level ++ cs) = skipSpaces cs := by
  have hblanks (n : Nat) : skipSpaces (List.replicate n ' ' ++ cs) = skipSpaces cs := by
    induction n with
    | zero => rfl
    | succ n ih => exact ih
  exact hblanks _

theorem value_of_skipSpaces {text other : List Char} (h : skipSpaces text = skipSpaces other)
    (d : Nat) : value d text = value d other := by
  cases d with
  | zero => rw [value, value, h]
  | succ d => rw [value, value, h]

theorem value_scalar {text : List Char} (h : BeginsScalar text) (d : Nat) (rest : List Char) :
    value d (text ++ rest) = scalar (text ++ rest) := by
  obtain ⟨c, cs, rfl, hspace, hbracket, -, hbrace, -⟩ := h
  cases d with
  | zero =>
      rw [value, List.cons_append, skipSpaces_of_not_space hspace]
      split <;> simp_all
  | succ d =>
      rw [value, List.cons_append, skipSpaces_of_not_space hspace]
      split <;> simp_all

theorem Reads.of_scalar {text : List Char} {result : Option Value} (h : Reads scalar text result)
    (hbegins : BeginsScalar text) (d : Nat) : Reads (value d) text result := by
  intro rest hrest
  rw [value_scalar hbegins, h rest hrest]

/-! ## Items and members -/

/-- What follows the first item: the others, each after a comma, and the closing bracket. -/
def afterFirst (others : List (List Char)) (level : Nat) (close : Char) (rest : List Char) :
    List Char :=
  (others.flatMap fun text => ',' :: text) ++ (lineBreak level ++ close :: rest)

theorem afterFirst_cons (text : List Char) (others : List (List Char)) (level : Nat)
    (close : Char) (rest : List Char) :
    afterFirst (text :: others) level close rest =
      ',' :: (text ++ afterFirst others level close rest) := by
  simp [afterFirst]

theorem endsNumber_afterFirst (others : List (List Char)) (level : Nat) (close : Char)
    (rest : List Char) : EndsNumber (afterFirst others level close rest) := by
  cases others with
  | nil => exact endsNumber_lineBreak level _
  | cons text others =>
      rw [afterFirst_cons]
      exact endsNumber_comma _

theorem length_le_afterFirst (others : List (List Char)) (level : Nat) (close : Char)
    (rest : List Char) : others.length ≤ (afterFirst others level close rest).length := by
  induction others with
  | nil => exact Nat.zero_le _
  | cons text others ih =>
      rw [afterFirst_cons, List.length_cons, List.length_cons, List.length_append]
      omega

section Items

variable {close : Char} {item : Reader α}

/-- Items that are each read in their text are read one after the other, up to the bracket. -/
theorem itemsUntil_afterFirst (hspace : isSpace close = false) (hcomma : close ≠ ',')
    {first : List Char × Option α} {others : List (List Char × Option α)}
    (hfirst : Reads item first.1 first.2) (hothers : ∀ other ∈ others, Reads item other.1 other.2)
    (level : Nat) (rest : List Char) {budget : Nat} (hbudget : others.length < budget) :
    itemsUntil close item budget
        (first.1 ++ afterFirst (others.map Prod.fst) level close rest) =
      ((first :: others).mapM Prod.snd).map fun found => (found, rest) := by
  induction others generalizing first budget with
  | nil =>
      obtain ⟨budget, rfl⟩ := Nat.exists_eq_succ_of_ne_zero (Nat.ne_of_gt hbudget)
      have hbracket : skipSpaces (afterFirst [] level close rest) = close :: rest := by
        rw [afterFirst, List.flatMap_nil, List.nil_append, skipSpaces_lineBreak,
          skipSpaces_of_not_space hspace]
      simp only [itemsUntil, List.map_nil, hfirst _ (endsNumber_afterFirst [] level close rest),
        List.mapM_cons, List.mapM_nil]
      cases first.2 with
      | none => rfl
      | some found => simp [hbracket]
  | cons other others ih =>
      obtain ⟨budget, rfl⟩ := Nat.exists_eq_succ_of_ne_zero (Nat.ne_zero_of_lt hbudget)
      rw [List.forall_mem_cons] at hothers
      have hfewer : others.length < budget := by simpa using hbudget
      have hrest := ih hothers.1 hothers.2 hfewer
      have hcommaNext : skipSpaces (afterFirst ((other :: others).map Prod.fst) level close rest) =
          ',' :: (other.1 ++ afterFirst (others.map Prod.fst) level close rest) := by
        rw [List.map_cons, afterFirst_cons, skipSpaces_of_not_space rfl]
      have hall : (first :: other :: others).mapM Prod.snd = first.2.bind fun found =>
          ((other :: others).mapM Prod.snd).bind fun later => some (found :: later) :=
        List.mapM_cons
      simp only [itemsUntil, hfirst _ (endsNumber_afterFirst _ level close rest), hall]
      cases first.2 with
      | none => rfl
      | some found =>
          simp only [Option.map_some, Option.bind_eq_bind, Option.bind_some, hcommaNext, hrest]
          cases (other :: others).mapM Prod.snd <;> rfl

/-- The items of a list, each on a line of its own. -/
theorem items_lines {β : Type} (text : β → List Char) (read : β → Option α) {first : β}
    {others : List β} (hspace : isSpace close = false) (hcomma : close ≠ ',')
    (hbegins : ∃ c cs, text first = c :: cs ∧ isSpace c = false ∧ c ≠ close)
    (hread : ∀ each ∈ first :: others, Reads item (text each) (read each))
    (hpad : ∀ text result level, Reads item text result →
      Reads item (lineBreak level ++ text) result)
    (inner level : Nat) (rest : List Char) :
    items close item
        (lineBreak inner ++ (text first ++
          afterFirst (others.map fun each => lineBreak inner ++ text each) level close rest)) =
      ((first :: others).mapM read).map fun found => (found, rest) := by
  rw [List.forall_mem_cons] at hread
  let lines := others.map fun each => (lineBreak inner ++ text each, read each)
  have hothers : ∀ other ∈ lines, Reads item other.1 other.2 := by
    intro other hother
    obtain ⟨each, heach, rfl⟩ := List.mem_map.mp hother
    exact hpad _ _ _ (hread.2 each heach)
  have hlines : lines.map Prod.fst = others.map fun each => lineBreak inner ++ text each := by
    rw [List.map_map]
    rfl
  have hresults : ((text first, read first) :: lines).mapM Prod.snd =
      (first :: others).mapM read := by
    have hlater : lines.mapM Prod.snd = others.mapM read := List.mapM_map
    rw [List.mapM_cons, List.mapM_cons, hlater]
  have hfirst : Reads item (text first, read first).1 (text first, read first).2 := hread.1
  have hitems (budget : Nat) (hbudget : lines.length < budget) :=
    itemsUntil_afterFirst hspace hcomma hfirst hothers level rest hbudget
  rw [hlines, hresults] at hitems
  obtain ⟨c, cs, htext, hc, hne⟩ := hbegins
  rw [items, skipSpaces_lineBreak]
  rw [htext, List.cons_append] at hitems ⊢
  rw [skipSpaces_of_not_space hc]
  simp only [if_neg hne]
  refine hitems _ ?_
  have hlength := length_le_afterFirst (lines.map Prod.fst) level close rest
  rw [List.length_map, hlines] at hlength
  rw [Nat.succ_eq_add_one, List.length_append]
  omega

end Items

theorem Reads.pad {text : List Char} {result : Option Value} {d : Nat}
    (h : Reads (value d) text result) (level : Nat) :
    Reads (value d) (lineBreak level ++ text) result := by
  intro rest hrest
  rw [← h rest hrest, List.append_assoc]
  exact value_of_skipSpaces (skipSpaces_lineBreak level _) d

/-- A member is read as its name and what is read for its value. -/
theorem reads_member {readValue : String → Reader Value} {name : String} {text : List Char}
    {result : Option Value} {d : Nat} (hreader : readValue name = value d)
    (h : Reads (value d) text result) :
    Reads (member string readValue) (quote name.toList ++ [':', ' '] ++ text)
      (result.map fun value => (name, value)) := by
  intro rest hrest
  have hquote (cs : List Char) : skipSpaces (quote name.toList ++ cs) = quote name.toList ++ cs :=
    skipSpaces_of_not_space rfl _
  have hblank (cs : List Char) : value d (' ' :: cs) = value d cs :=
    value_of_skipSpaces (show skipSpaces (' ' :: cs) = skipSpaces cs from rfl) d
  have hcolon (cs : List Char) : skipSpaces (':' :: cs) = ':' :: cs :=
    skipSpaces_of_not_space rfl cs
  simp only [member, List.append_assoc, hquote, string_quote, Option.bind_eq_bind,
    Option.bind_some, List.cons_append, List.nil_append, hcolon, hreader, hblank, h rest hrest]
  cases result <;> rfl

theorem reads_pad_member {readValue : String → Reader Value} {text : List Char}
    {result : Option (String × Value)} (h : Reads (member string readValue) text result)
    (level : Nat) : Reads (member string readValue) (lineBreak level ++ text) result := by
  intro rest hrest
  rw [← h rest hrest, List.append_assoc, member, member, skipSpaces_lineBreak]

/-! ## Values -/

/--
What a reader of some depth makes of the text of a value: every number is what its own text
is read as, and everything else is as it was.
-/
def reread : Nat → Value → Option Value
  | _, .null => some .null
  | _, .bool b => some (.bool b)
  | _, .number n => numberRead n
  | _, .text s => some (.text s)
  | 0, .array _ => none
  | 0, .object _ => none
  | d + 1, .array elements => (elements.mapM (reread d)).map .array
  | d + 1, .object members =>
      (members.mapM fun member =>
        (reread d member.2).map fun value => (member.1, value)).map .object

theorem indentedElements_eq (level : Nat) (elements : List Value) :
    indentedElements level elements =
      (elements.map fun element => lineBreak level ++ indented level element).flatMap
        fun text => ',' :: text := by
  induction elements with
  | nil => rfl
  | cons element rest ih => simp [indentedElements, ih]

def memberText (level : Nat) (member : String × Value) : List Char :=
  quote member.1.toList ++ [':', ' '] ++ indented level member.2

theorem indentedMembers_eq (level : Nat) (members : List (String × Value)) :
    indentedMembers level members =
      (members.map fun member => lineBreak level ++ memberText level member).flatMap
        fun text => ',' :: text := by
  induction members with
  | nil => rfl
  | cons member rest ih =>
      obtain ⟨name, value⟩ := member
      simp [indentedMembers, memberText, ih]

/-- The text of a value begins with neither a blank nor a closing bracket. -/
theorem indented_begins (v : Value) (level : Nat) :
    ∃ c cs, indented level v = c :: cs ∧ isSpace c = false ∧ c ≠ ']' := by
  cases v with
  | null => exact ⟨'n', _, rfl, by decide⟩
  | bool b => cases b <;> exact ⟨_, _, rfl, by decide⟩
  | number n =>
      obtain ⟨c, cs, htext, hhead⟩ := head_number n
      obtain ⟨c', cs', hsame, hspace, -, hbracket, -⟩ := beginsScalar_of_head hhead cs
      obtain ⟨rfl, rfl⟩ := List.cons.inj hsame
      exact ⟨c, cs, htext, hspace, hbracket⟩
  | text s => exact ⟨'"', _, rfl, by decide⟩
  | array elements => cases elements <;> exact ⟨'[', _, rfl, by decide⟩
  | object members =>
      cases members with
      | nil => exact ⟨'{', _, rfl, by decide⟩
      | cons member rest => exact ⟨'{', _, rfl, by decide⟩

theorem reads_word {word : List Char} {v : Value}
    (hread : ∀ rest, scalar (word ++ rest) = some (v, rest)) (hbegins : BeginsScalar word)
    (d : Nat) : Reads (value d) word (some v) := by
  have hscalar : Reads scalar word (some v) := fun rest _ => hread rest
  exact hscalar.of_scalar hbegins d

theorem indented_array_append (level : Nat) (element : Value) (others : List Value)
    (rest : List Char) :
    indented level (.array (element :: others)) ++ rest =
      '[' :: (lineBreak (level + 1) ++ (indented (level + 1) element ++
        afterFirst (others.map fun other => lineBreak (level + 1) ++ indented (level + 1) other)
          level ']' rest)) := by
  simp [indented, indentedElements_eq, afterFirst]

theorem indented_object_append (level : Nat) (member : String × Value)
    (others : List (String × Value)) (rest : List Char) :
    indented level (.object (member :: others)) ++ rest =
      '{' :: (lineBreak (level + 1) ++ (memberText (level + 1) member ++
        afterFirst (others.map fun other => lineBreak (level + 1) ++ memberText (level + 1) other)
          level '}' rest)) := by
  obtain ⟨name, value⟩ := member
  simp [indented, indentedMembers_eq, memberText, afterFirst]

/-- The members of an object are read with their names and what is read for their values. -/
theorem items_members {readValue : String → Reader Value} {d : Nat} {first : String × Value}
    {others : List (String × Value)}
    (hreader : ∀ each ∈ first :: others, readValue each.1 = value d)
    (hread : ∀ each ∈ first :: others, ∀ level,
      Reads (value d) (indented level each.2) (reread d each.2))
    (level : Nat) (rest : List Char) :
    items '}' (member string readValue)
        (lineBreak (level + 1) ++ (memberText (level + 1) first ++
          afterFirst (others.map fun other => lineBreak (level + 1) ++ memberText (level + 1) other)
            level '}' rest)) =
      ((first :: others).mapM fun each =>
        (reread d each.2).map fun value => (each.1, value)).map fun found => (found, rest) := by
  have hbegins : ∃ c cs, memberText (level + 1) first = c :: cs ∧ isSpace c = false ∧ c ≠ '}' :=
    ⟨'"', _, rfl, by decide⟩
  exact items_lines (memberText (level + 1))
    (fun each => (reread d each.2).map fun value => (each.1, value)) rfl (by decide) hbegins
    (fun each heach => reads_member (hreader each heach) (hread each heach (level + 1)))
    (fun _ _ inner hmember => reads_pad_member hmember inner) (level + 1) level rest

/-- The text of a value is read, whatever follows, as the value with its numbers read. -/
theorem reads_reread :
    ∀ (d level : Nat) (v : Value), Reads (value d) (indented level v) (reread d v)
  | d, _, .null => by
      rw [reread]
      exact reads_word (fun _ => rfl) ⟨'n', _, rfl, by decide⟩ d
  | d, _, .bool false => by
      rw [reread]
      exact reads_word (fun _ => rfl) ⟨'f', _, rfl, by decide⟩ d
  | d, _, .bool true => by
      rw [reread]
      exact reads_word (fun _ => rfl) ⟨'t', _, rfl, by decide⟩ d
  | d, _, .number n => by
      obtain ⟨c, cs, htext, hhead⟩ := head_number n
      rw [reread]
      exact (reads_numberRead n).of_scalar (htext ▸ beginsScalar_of_head hhead cs) d
  | d, _, .text s => by
      rw [reread]
      exact (reads_text s).of_scalar ⟨'"', _, rfl, by decide⟩ d
  | 0, _, .array [] | 0, _, .array (_ :: _) | 0, _, .object [] | 0, _, .object (_ :: _) =>
      fun _ _ => rfl
  | d + 1, _, .array [] | d + 1, _, .object [] => fun _ _ => rfl
  | d + 1, level, .array (element :: others) => fun rest _ => by
      have hvalue (text : List Char) : value (d + 1) ('[' :: text) =
          (items ']' (value d) text).map fun result => (.array result.1, result.2) := rfl
      rw [indented_array_append, hvalue, items_lines (indented (level + 1)) (reread d) rfl
        (by decide) (indented_begins element (level + 1))
        (fun each _ => reads_reread d (level + 1) each)
        (fun _ _ inner hread => hread.pad inner) (level + 1) level rest, reread]
      cases (element :: others).mapM (reread d) <;> rfl
  | d + 1, level, .object (first :: others) => fun rest _ => by
      have hvalue (text : List Char) : value (d + 1) ('{' :: text) =
          (items '}' (member string fun _ => value d) text).map fun result =>
            (.object result.1, result.2) := rfl
      rw [indented_object_append, hvalue, items_members (fun _ _ => rfl)
        (fun each _ level => reads_reread d level each.2), reread]
      cases (first :: others).mapM fun each =>
        (reread d each.2).map fun value => (each.1, value) <;> rfl

/-- The indented text of a value is read as the value with its numbers read. -/
theorem readWritten_pretty (v : Value) : readWritten (pretty v) = reread maxDepth v := by
  have hread := reads_reread maxDepth 0 v [] endsNumber_nil
  rw [List.append_nil] at hread
  rw [readWritten, whole, pretty, hread]
  cases reread maxDepth v <;> rfl

/-- An object whose one name matters is read with its numbers read. -/
theorem readNames_pretty {names : List String} {name : String} (hname : names.contains name)
    (v : Value) :
    readNames names (pretty (.object [(name, v)])) = reread maxDepth (.object [(name, v)]) := by
  have hreader : ∀ each ∈ [(name, v)], knownValue names each.1 = value (maxDepth - 1) := by
    intro each heach
    obtain rfl : each = (name, v) := by simpa using heach
    funext text
    rw [knownValue, if_pos hname]
  have hobject (text : List Char) : valueOfNames names ('{' :: text) =
      (items '}' (member string (knownValue names)) text).map fun result =>
        (.object result.1, result.2) := rfl
  have htext := indented_object_append 0 (name, v) [] []
  rw [List.append_nil] at htext
  rw [readNames, whole, pretty, htext, hobject,
    items_members hreader fun each _ level => reads_reread _ level each.2]
  have hreread : reread maxDepth (.object [(name, v)]) =
      ([(name, v)].mapM fun each =>
        (reread (maxDepth - 1) each.2).map fun value => (each.1, value)).map .object := rfl
  rw [hreread]
  cases [(name, v)].mapM fun each =>
    (reread (maxDepth - 1) each.2).map fun value => (each.1, value) <;> rfl

/-! ## Values that are read as they are -/

def within (d : Nat) (value : Value) : Option Value :=
  if value.depth ≤ d then some value else none

theorem mapM_if {β : Type} (fits : β → Prop) [DecidablePred fits] (items : List β) :
    items.mapM (fun item => if fits item then some item else none) =
      if ∀ item ∈ items, fits item then some items else none := by
  induction items with
  | nil => simp
  | cons item rest ih =>
      rw [List.mapM_cons, ih]
      simp only [List.forall_mem_cons]
      by_cases hitem : fits item
      · by_cases hrest : ∀ item ∈ rest, fits item
        · rw [if_pos hitem, if_pos hrest, if_pos ⟨hitem, hrest⟩]
          rfl
        · have hboth : ¬(fits item ∧ ∀ item ∈ rest, fits item) := fun h => hrest h.2
          rw [if_pos hitem, if_neg hrest, if_neg hboth]
          rfl
      · have hboth : ¬(fits item ∧ ∀ item ∈ rest, fits item) := fun h => hitem h.1
        rw [if_neg hitem, if_neg hboth]
        rfl

theorem mapM_within (d : Nat) (elements : List Value) :
    elements.mapM (within d) =
      if (Value.array elements).depth ≤ d + 1 then some elements else none := by
  simp only [Value.depth_array_le]
  exact mapM_if (fun element => element.depth ≤ d) elements

theorem mapM_member_within (d : Nat) (members : List (String × Value)) :
    members.mapM (fun member => (within d member.2).map fun value => (member.1, value)) =
      if (Value.object members).depth ≤ d + 1 then some members else none := by
  have hmember : (fun member : String × Value =>
      (within d member.2).map fun value => (member.1, value)) =
        fun member => if member.2.depth ≤ d then some member else none := by
    funext member
    unfold within
    split <;> rfl
  simp only [hmember, Value.depth_object_le]
  exact mapM_if (fun member : String × Value => member.2.depth ≤ d) members

theorem mapM_congr {β γ : Type} {read read' : β → Option γ} {items : List β}
    (h : ∀ item ∈ items, read item = read' item) : items.mapM read = items.mapM read' := by
  induction items with
  | nil => rfl
  | cons item rest ih =>
      obtain ⟨hitem, hrest⟩ := List.forall_mem_cons.mp h
      rw [List.mapM_cons, List.mapM_cons, hitem, ih hrest]

theorem reread_number {n : Number} (h : number? (number n) = some (.number n, [])) (d : Nat) :
    reread d (.number n) = some (.number n) := by
  rw [reread, numberRead, h, Option.map_some]

/-- A value whose doubles are read as they are written is read as it is, unless it is too deep. -/
theorem reread_eq_within {v : Value} (h : v.ReadsBack) (d : Nat) : reread d v = within d v := by
  have hscalar {d : Nat} {v : Value} (hread : reread d v = some v) (hdepth : v.depth = 0) :
      reread d v = within d v := by
    rw [hread, within, if_pos (by omega)]
  induction h generalizing d with
  | null => exact hscalar (by rw [reread]) rfl
  | bool b => exact hscalar (by rw [reread]) rfl
  | integer n =>
      have hread : number? (number (.integer n)) = some (.number (.integer n), []) :=
        number?_integerText n
      exact hscalar (reread_number hread d) rfl
  | float hread => exact hscalar (reread_number hread d) rfl
  | text s => exact hscalar (by rw [reread]) rfl
  | @array elements hall ih =>
      cases d with
      | zero => rfl
      | succ d =>
          rw [reread, mapM_congr fun element helement => ih element helement d, mapM_within, within]
          split <;> rfl
  | @object members hall ih =>
      cases d with
      | zero => rfl
      | succ d =>
          have hmembers : members.mapM (fun member =>
                (reread d member.2).map fun value => (member.1, value)) =
              members.mapM fun member =>
                (within d member.2).map fun value => (member.1, value) :=
            mapM_congr fun member hmember => by rw [ih member hmember d]
          rw [reread, hmembers, mapM_member_within, within]
          split <;> rfl

end Json

end DocQuery
