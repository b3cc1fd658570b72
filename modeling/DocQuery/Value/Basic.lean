import DocQuery.Value.Number

/-!
# Values

The data that documents, parameters and results are made of.  The members of an
object are kept in ascending order of their names, each name once.
-/

namespace DocQuery

inductive Value where
  | null
  | bool (b : Bool)
  | number (n : Number)
  | text (s : String)
  | array (elements : List Value)
  | object (members : List (String × Value))

/-- The members of an object: names in ascending order, each with its value. -/
abbrev Members := List (String × Value)

namespace Members

def insert (name : String) (value : Value) : Members → Members
  | [] => [(name, value)]
  | (other, held) :: rest =>
      if name < other then (name, value) :: (other, held) :: rest
      else if other < name then (other, held) :: insert name value rest
      else (name, value) :: rest

def get? (members : Members) (name : String) : Option Value :=
  members.lookup name

/-- Members from a list of assignments, of which later ones win. -/
def ofList (assignments : List (String × Value)) : Members :=
  assignments.foldl (fun members assignment => members.insert assignment.1 assignment.2) []

end Members

namespace Value

instance : Inhabited Value := ⟨null⟩

/-- An integer value, when it is a signed word; nothing otherwise. -/
def ofInt (n : Int) : Value :=
  if h : FitsSigned n then
    number (.integer ⟨n, h.1, Int.le_trans h.2 (by decide)⟩)
  else null

def ofNat (n : Nat) : Value :=
  number (.integer (Integer.ofNat n))

/-- The value of a computed double; infinite and undefined results are null. -/
def ofFloat (x : Float) : Value :=
  if h : x.isFinite = true then number (.float ⟨x, h⟩) else null

def isNull : Value → Bool
  | null => true
  | _ => false

def isTrue : Value → Bool
  | bool true => true
  | _ => false

def elements : Value → List Value
  | array elements => elements
  | _ => []

def chars : Value → List Char
  | text s => s.toList
  | _ => []

def toInt? : Value → Option Int
  | number n => n.toInt?
  | _ => none

def toFloat? : Value → Option Float
  | number n => some n.toFloat
  | _ => none

/-- Whether a value is an integer of either range. -/
def isInteger : Value → Bool
  | number (.integer _) => true
  | _ => false

@[simp] theorem isTrue_bool (b : Bool) : (bool b).isTrue = b := by
  cases b <;> rfl

theorem toInt?_ofInt {n : Int} (h : FitsSigned n) : (ofInt n).toInt? = some n := by
  simp [ofInt, h, toInt?, Number.toInt?]

/-- The values that are read as a signed word are the integers in that range. -/
theorem toInt?_eq_some_iff {value : Value} {n : Int} :
    value.toInt? = some n ↔ FitsSigned n ∧ value = ofInt n := by
  constructor
  · intro h
    cases value with
    | number number =>
        have hfits : FitsSigned n := Number.toInt?_fits h
        cases number with
        | integer i =>
            simp only [toInt?, Number.toInt?] at h
            split at h
            · cases h
              exact ⟨hfits, by rw [ofInt, dif_pos hfits]⟩
            · cases h
        | float x => cases h
    | _ => cases h
  · rintro ⟨hfits, rfl⟩
    exact toInt?_ofInt hfits

/-- A count is read back as an integer as long as it is a signed word. -/
theorem toInt?_ofNat (n : Nat) :
    (ofNat n).toInt? = if FitsSigned n then some (n : Int) else none := by
  simp only [ofNat, toInt?, Number.toInt?, Integer.ofNat]
  by_cases h : FitsSigned n
  · have hmin : min n 18446744073709551615 = n := by
      have := h.2
      omega
    rw [hmin, if_pos h]
  · have hlarge : ¬FitsSigned (min n 18446744073709551615 : Nat) := by
      unfold FitsSigned at h ⊢
      omega
    rw [if_neg h, if_neg hlarge]

theorem ofInt_inj {m n : Int} (h : FitsSigned m) : ofInt m = ofInt n ↔ m = n := by
  refine ⟨fun heq => ?_, congrArg ofInt⟩
  have hread : (ofInt n).toInt? = some m := heq ▸ toInt?_ofInt h
  by_cases hn : FitsSigned n
  · rw [toInt?_ofInt hn] at hread
    exact (Option.some.inj hread).symm
  · simp [ofInt, hn, toInt?] at hread

theorem ofInt_eq_null_iff {n : Int} : ofInt n = null ↔ ¬ FitsSigned n := by
  unfold ofInt
  split <;> simp [*]

mutual

/-- Whether two values are the same in structure, numbers in kind and value. -/
def same : Value → Value → Bool
  | null, null => true
  | bool a, bool b => a == b
  | number a, number b => a.same b
  | text a, text b => a == b
  | array a, array b => sameElements a b
  | object a, object b => sameMembers a b
  | _, _ => false

def sameElements : List Value → List Value → Bool
  | [], [] => true
  | a :: as, b :: bs => same a b && sameElements as bs
  | _, _ => false

def sameMembers : List (String × Value) → List (String × Value) → Bool
  | [], [] => true
  | (m, a) :: as, (n, b) :: bs => m == n && same a b && sameMembers as bs
  | _, _ => false

end

end Value

end DocQuery
