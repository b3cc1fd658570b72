import DocQuery.Proofs.Value.Keys

/-!
# Doubles are read to their end

The JSON text of a double has the form of a number.  It is read to its end, in front of any
other text, or refused because of its value; the double read need not be the one written.
-/

namespace DocQuery

namespace Json

variable {text ds rest : List Char}

/-! ## Texts in the form of a number -/

/-- The text has the form of a number without its sign, whatever its value is. -/
def Spelled (text : List Char) : Prop :=
  ∃ whole second fraction third exponent, wholeDigits text = some (whole, second) ∧
    fractionDigits second = some (fraction, third) ∧ exponentPart third = some (exponent, [])

/-- What follows the form of a number changes nothing in its value and is left. -/
theorem Spelled.reads_magnitude (h : Spelled text) (negative : Bool) :
    Reads (magnitude negative) text ((magnitude negative text).map Prod.fst) := by
  obtain ⟨whole, second, fraction, third, exponent, hwhole, hfraction, hexponent⟩ := h
  intro rest hrest
  simp only [magnitude, Option.bind_eq_bind, hwhole, hfraction, hexponent,
    local_wholeDigits hwhole hrest, local_fractionDigits hfraction hrest,
    local_exponentPart hexponent hrest, Option.bind_some]
  cases numberOf negative whole fraction exponent <;> rfl

theorem Spelled.head (h : Spelled text) : ∃ c cs, text = c :: cs ∧ c.isDigit = true := by
  obtain ⟨whole, second, -, -, -, hwhole, -⟩ := h
  cases text with
  | nil => simp [wholeDigits, digits] at hwhole
  | cons c cs =>
      refine ⟨c, cs, rfl, ?_⟩
      by_contra hdigit
      simp [wholeDigits, digits, hdigit] at hwhole

structure Digits (ds : List Char) : Prop where
  ne_nil : ds ≠ []
  isDigit : ∀ c ∈ ds, c.isDigit = true

namespace Digits

theorem toDigits (n : Nat) : Digits (Nat.toDigits 10 n) :=
  ⟨Nat.toDigits_ne_nil, fun _ => isDigit_of_mem_toDigits⟩

theorem zeros_append (h : Digits ds) (count : Nat) : Digits (List.replicate count '0' ++ ds) := by
  refine ⟨List.append_ne_nil_of_right_ne_nil _ h.ne_nil, fun c hc => ?_⟩
  rcases List.mem_append.mp hc with hc | hc
  · rw [(List.mem_replicate.mp hc).2]
    rfl
  · exact h.isDigit c hc

theorem digits (h : Digits ds) (hrest : ∀ c ∈ rest.head?, c.isDigit = false) :
    Json.digits (ds ++ rest) = some (ds, rest) := by
  obtain ⟨hne, hdigits⟩ := h
  rw [Json.digits, takeWhile_append_of_head ds hrest, dropWhile_append_of_head ds hrest,
    List.takeWhile_eq_self_iff.mpr hdigits, List.dropWhile_eq_nil_iff.mpr hdigits]
  cases ds with
  | nil => exact absurd rfl hne
  | cons c cs => rfl

theorem wholeDigits (h : Digits ds) (hzero : ∀ c cs, ds ≠ '0' :: c :: cs)
    (hrest : ∀ c ∈ rest.head?, c.isDigit = false) :
    Json.wholeDigits (ds ++ rest) = some (ds, rest) := by
  simp only [Json.wholeDigits, h.digits hrest, Option.bind_eq_bind, Option.bind_some]

theorem fractionDigits (h : Digits ds) (hrest : ∀ c ∈ rest.head?, c.isDigit = false) :
    Json.fractionDigits ('.' :: (ds ++ rest)) = some (some ds, rest) := by
  rw [Json.fractionDigits, h.digits hrest, Option.map_some]

end Digits

theorem exponentPart_integerText (n : Int) :
    ∃ exponent, exponentPart ('e' :: ((if n < 0 then [] else ['+']) ++
      FloatNotation.integerText n)) = some (exponent, []) := by
  have hdigits (m : Nat) : digits (Nat.toDigits 10 m) = some (Nat.toDigits 10 m, []) :=
    digits_toDigits m
  by_cases hn : n < 0
  · refine ⟨some (-(digitsValue (Nat.toDigits 10 n.natAbs) : Int)), ?_⟩
    simp [FloatNotation.integerText, hn, exponentPart, hdigits]
  · refine ⟨some (digitsValue (Nat.toDigits 10 n.toNat) : Int), ?_⟩
    simp [FloatNotation.integerText, hn, exponentPart, hdigits]

/-! ## Texts of doubles -/

/-- A point with digits on both sides. -/
theorem spelled_point {whole fraction : List Char} (hwhole : Digits whole)
    (hzero : ∀ c cs, whole ≠ '0' :: c :: cs) (hfraction : Digits fraction) :
    Spelled (whole ++ '.' :: fraction) := by
  have hpoint : fractionDigits ('.' :: (fraction ++ [])) = some (some fraction, []) :=
    hfraction.fractionDigits (by simp)
  rw [List.append_nil] at hpoint
  exact ⟨whole, '.' :: fraction, some fraction, [], none,
    hwhole.wholeDigits hzero (by simp), hpoint, rfl⟩

theorem spelled_positional (h : Digits ds) (hzero : ∀ cs, ds ≠ '0' :: cs) (leading : Int) :
    Spelled (FloatNotation.positional ds leading) := by
  have hone : Digits ['0'] := ⟨List.cons_ne_nil _ _, by simp⟩
  unfold FloatNotation.positional
  split
  · exact spelled_point hone (by simp) (h.zeros_append _)
  · cases ds with
    | nil => exact absurd rfl h.ne_nil
    | cons c cs =>
        obtain ⟨hc, hcs⟩ := List.forall_mem_cons.mp h.isDigit
        have hfirst : c ≠ '0' := fun e => hzero cs (e ▸ rfl)
        refine spelled_point ⟨by simp, fun d hd => ?_⟩ (fun d ds hds => ?_) ?_
        · rcases List.mem_append.mp hd with hd | hd
          · exact h.isDigit d (List.mem_of_mem_take hd)
          · rw [(List.mem_replicate.mp hd).2]
            rfl
        · rw [List.take_succ_cons, List.cons_append] at hds
          exact hfirst (List.cons.inj hds).1
        · split
          · exact hone
          · rename_i hfraction
            exact ⟨by simpa using hfraction, fun d hd => h.isDigit d (List.mem_of_mem_drop hd)⟩

theorem spelled_scientific (h : Digits ds) (leading : Int) :
    Spelled (FloatNotation.json.scientific ds leading) := by
  cases ds with
  | nil => exact absurd rfl h.ne_nil
  | cons c cs =>
      obtain ⟨hc, hcs⟩ := List.forall_mem_cons.mp h.isDigit
      have hwhole : Digits [c] := ⟨List.cons_ne_nil _ _, List.forall_mem_singleton.mpr hc⟩
      obtain ⟨exponent, hexponent⟩ := exponentPart_integerText leading
      let power : List Char :=
        'e' :: ((if leading < 0 then [] else ['+']) ++ FloatNotation.integerText leading)
      have htext : FloatNotation.json.scientific (c :: cs) leading =
          [c] ++ ((if cs = [] then [] else '.' :: cs) ++ power) := by
        cases cs <;> simp [FloatNotation.scientific, FloatNotation.json, power]
      rw [htext]
      split
      · exact ⟨[c], power, none, power, exponent, hwhole.wholeDigits (by simp) (by simp [power]),
          fractionDigits_of_ne (by decide) _, hexponent⟩
      · rename_i hne
        exact ⟨[c], '.' :: (cs ++ power), some cs, power, exponent,
          hwhole.wholeDigits (by simp) (by simp), Digits.fractionDigits ⟨hne, hcs⟩
            (by simp [power]), hexponent⟩

theorem spelled_decimalText {d : Decimal} (h : d = ⟨0, 0⟩ ∨ d.coefficient ≠ 0) :
    Spelled (FloatNotation.json.decimalText d) := by
  rcases h with rfl | hcoefficient
  · exact ⟨['0'], ['.', '0'], some ['0'], [], none, rfl, rfl, rfl⟩
  · have hdigits : Digits d.digits := Digits.toDigits _
    unfold FloatNotation.decimalText
    split
    · exact spelled_positional hdigits (fun cs hcs => hcoefficient (eq_zero_of_toDigits hcs)) _
    · exact spelled_scientific hdigits _

/-! ## Numbers -/

/-- A number without its sign is read by its form, with or without a sign in front of it. -/
theorem Spelled.reads_number? (h : Spelled text) (negative : Bool) :
    let signed := (if negative then ['-'] else []) ++ text
    Reads number? signed ((number? signed).map Prod.fst) := by
  intro signed
  cases negative with
  | true => exact h.reads_magnitude true
  | false =>
      obtain ⟨c, cs, htext, hdigit⟩ := h.head
      have hminus : c ≠ '-' := by
        rintro rfl
        exact absurd hdigit (by decide)
      have hnumber (more : List Char) :
          number? (text ++ more) = magnitude false (text ++ more) := by
        rw [htext, List.cons_append, number?_of_ne hminus]
      have hsigned : signed = text := rfl
      intro rest hrest
      have hnone := hnumber []
      rw [List.append_nil] at hnone
      rw [hsigned, hnumber, hnone]
      exact h.reads_magnitude false rest hrest

/-- The text of a double has the form of a number, behind a possible sign. -/
theorem exists_spelled (x : FiniteFloat) :
    ∃ digits, Spelled digits ∧
      number (.float x) = (if isNegative x.val then ['-'] else []) ++ digits := by
  obtain ⟨digits, hdigits, htext⟩ := FloatNotation.text_of_isFinite FloatNotation.json x.isFinite
  refine ⟨digits, ?_, htext⟩
  rcases hdigits with rfl | ⟨d, hd, rfl⟩
  · exact ⟨['0'], ['.', '0'], some ['0'], [], none, rfl, rfl, rfl⟩
  · exact spelled_decimalText hd

/-- The text of a number begins with a sign or a digit. -/
theorem head_number (n : Number) : ∃ c cs, number n = c :: cs ∧ (c = '-' ∨ c.isDigit = true) := by
  cases n with
  | integer n => exact head_of_number? (number?_integerText n)
  | float x =>
      obtain ⟨digits, hspelled, htext⟩ := exists_spelled x
      obtain ⟨c, cs, rfl, hdigit⟩ := hspelled.head
      rw [htext]
      cases isNegative x.val with
      | true => exact ⟨'-', c :: cs, rfl, .inl rfl⟩
      | false => exact ⟨c, cs, rfl, .inr hdigit⟩

def numberRead (n : Number) : Option Value :=
  (number? (number n)).map Prod.fst

/-- The text of a number is read to its end or refused, whatever follows it. -/
theorem reads_numberRead (n : Number) : Reads scalar (number n) (numberRead n) := by
  have hnumber : Reads number? (number n) (numberRead n) := by
    cases n with
    | integer n =>
        intro rest hrest
        have hread : number? (number (.integer n)) = some (.number (.integer n), []) :=
          number?_integerText n
        rw [numberRead, hread]
        exact local_number? hread hrest
    | float x =>
        obtain ⟨digits, hspelled, htext⟩ := exists_spelled x
        rw [numberRead, htext]
        exact hspelled.reads_number? _
  obtain ⟨c, cs, htext, hhead⟩ := head_number n
  intro rest hrest
  rw [← hnumber rest hrest, htext, List.cons_append, scalar_eq_number? hhead]

end Json

end DocQuery
