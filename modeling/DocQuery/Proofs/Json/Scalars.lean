import DocQuery.Json.Printer
import DocQuery.Json.Reader
import Mathlib.Data.List.TakeWhile

/-!
# Scalars are read as they are written

A reader is judged by what it makes of a text at the front of a longer one.  Texts in
quotation marks end by themselves; a number ends where no digit, point or exponent
follows.
-/

namespace DocQuery

namespace Json

variable {α β : Type}

/-- No digit, point or exponent follows, so that a number ends here. -/
def EndsNumber (rest : List Char) : Prop :=
  ∀ c ∈ rest.head?, c.isDigit = false ∧ c ≠ '.' ∧ c ≠ 'e' ∧ c ≠ 'E'

theorem endsNumber_nil : EndsNumber [] := by
  simp [EndsNumber]

theorem endsNumber_comma (rest : List Char) : EndsNumber (',' :: rest) := by
  simp [EndsNumber]

theorem endsNumber_lineBreak (level : Nat) (rest : List Char) :
    EndsNumber (lineBreak level ++ rest) := by
  simp [EndsNumber, lineBreak]

/-- What a reader makes of a text at the front of any other in which a number would end. -/
def Reads (reader : Reader α) (text : List Char) (result : Option α) : Prop :=
  ∀ rest, EndsNumber rest → reader (text ++ rest) = result.map fun item => (item, rest)

/-! ## Texts in quotation marks -/

theorem hexValue?_hexDigit {n : Nat} (h : n < 16) : hexValue? (hexDigit n) = some n := by
  revert n
  decide

theorem unicodeEscape_control {c : Char} (h : c.toNat < 32) (rest : List Char) :
    unicodeEscape ('0' :: '0' :: hexDigit (c.toNat / 16) :: hexDigit (c.toNat % 16) :: rest) =
      some (c, rest) := by
  have hzero : hexValue? '0' = some 0 := by decide
  have hquad : hexQuad
      ('0' :: '0' :: hexDigit (c.toNat / 16) :: hexDigit (c.toNat % 16) :: rest) =
        some (c.toNat, rest) := by
    simp only [hexQuad, hzero, hexValue?_hexDigit (show c.toNat / 16 < 16 by omega),
      hexValue?_hexDigit (show c.toNat % 16 < 16 by omega), Option.bind_eq_bind, Option.bind_some,
      Option.some.injEq, Prod.mk.injEq, and_true]
    omega
  have hhigh : ¬(0xD800 ≤ c.toNat ∧ c.toNat < 0xDC00) := by omega
  have hlow : ¬(0xDC00 ≤ c.toNat ∧ c.toNat < 0xE000) := by omega
  simp only [unicodeEscape, hquad, Option.bind_eq_bind, Option.bind_some, if_neg hhigh,
    if_neg hlow, Char.ofNat_toNat]

theorem stringBody_cons {budget : Nat} {c : Char} (hquote : c ≠ '"') (hbackslash : c ≠ '\\')
    (hcontrol : ¬c.toNat < 32) (rest : List Char) :
    stringBody (budget + 1) (c :: rest) =
      (stringBody budget rest).map fun result => (c :: result.1, result.2) := by
  have hbare : ¬(c = '\\' ∨ c.toNat < 32) := by simp [hbackslash, hcontrol]
  rw [stringBody]
  · rw [if_neg hbare]
    cases stringBody budget rest <;> rfl
  · simp [hquote]
  · simp [hbackslash]
  · simp [hbackslash]

/-- An escaped character is read as the character. -/
theorem stringBody_escapeChar (budget : Nat) (c : Char) (rest : List Char) :
    stringBody (budget + 1) (escapeChar c ++ rest) =
      (stringBody budget rest).map fun result => (c :: result.1, result.2) := by
  have hmap {found : Char} (h : found = c) :
      ((stringBody budget rest).bind fun result => some (found :: result.1, result.2)) =
        (stringBody budget rest).map fun result => (c :: result.1, result.2) := by
    subst h
    cases stringBody budget rest <;> rfl
  unfold escapeChar
  -- The quote, the backslash, the line breaks and the tab: a letter stands for each of them.
  iterate 5
    split
    · rename_i h
      exact hmap h.symm
  split
  · rename_i h
    exact hmap (show Char.ofNat 8 = c by rw [← h, Char.ofNat_toNat])
  split
  · rename_i h
    exact hmap (show Char.ofNat 12 = c by rw [← h, Char.ofNat_toNat])
  split
  · rename_i h
    simp only [List.cons_append, List.nil_append, stringBody, unicodeEscape_control h,
      Option.bind_eq_bind, Option.bind_some]
    exact hmap rfl
  · exact stringBody_cons (by assumption) (by assumption) (by assumption) rest

theorem stringBody_quoted (cs rest : List Char) {budget : Nat} (h : cs.length < budget) :
    stringBody budget (cs.flatMap escapeChar ++ '"' :: rest) = some (cs, rest) := by
  induction cs generalizing budget with
  | nil =>
      obtain ⟨budget, rfl⟩ := Nat.exists_eq_succ_of_ne_zero (Nat.ne_of_gt h)
      rfl
  | cons c cs ih =>
      obtain ⟨budget, rfl⟩ := Nat.exists_eq_succ_of_ne_zero (Nat.ne_zero_of_lt h)
      rw [List.flatMap_cons, List.append_assoc, stringBody_escapeChar,
        ih (by simpa using h), Option.map_some]

theorem escapeChar_ne_nil (c : Char) : escapeChar c ≠ [] := by
  unfold escapeChar
  repeat' split
  all_goals exact List.cons_ne_nil _ _

theorem length_le_flatMap_escapeChar (cs : List Char) :
    cs.length ≤ (cs.flatMap escapeChar).length := by
  induction cs with
  | nil => exact Nat.le_refl 0
  | cons c cs ih =>
      have hpos := List.length_pos_iff.mpr (escapeChar_ne_nil c)
      rw [List.flatMap_cons, List.length_append, List.length_cons]
      omega

/-- A text in quotation marks is read as the text, whatever follows. -/
theorem string_quote (s : String) (rest : List Char) :
    string (quote s.toList ++ rest) = some (s, rest) := by
  have hbudget : s.toList.length < (s.toList.flatMap escapeChar ++ '"' :: rest).length := by
    have hle := length_le_flatMap_escapeChar s.toList
    rw [List.length_append, List.length_cons]
    omega
  have htext : quote s.toList ++ rest = '"' :: (s.toList.flatMap escapeChar ++ '"' :: rest) := by
    simp [quote]
  rw [htext, string, stringBody_quoted _ _ hbudget, Option.map_some, String.ofList_toList]

/-! ## Numbers -/

theorem takeWhile_append_of_head {p : α → Bool} (items : List α) {rest : List α}
    (h : ∀ item ∈ rest.head?, p item = false) :
    (items ++ rest).takeWhile p = items.takeWhile p := by
  induction items with
  | nil =>
      cases rest with
      | nil => rfl
      | cons item rest => simp [h item rfl]
  | cons item items ih =>
      rw [List.cons_append, List.takeWhile_cons, List.takeWhile_cons, ih]

theorem dropWhile_append_of_head {p : α → Bool} (items : List α) {rest : List α}
    (h : ∀ item ∈ rest.head?, p item = false) :
    (items ++ rest).dropWhile p = items.dropWhile p ++ rest := by
  induction items with
  | nil =>
      cases rest with
      | nil => rfl
      | cons item rest => simp [h item rfl]
  | cons item items ih =>
      rw [List.cons_append, List.dropWhile_cons, List.dropWhile_cons, ih]
      split <;> rfl

/-- A reader gives the same for a text at the front of one in which a number would end. -/
def Local (reader : Reader α) : Prop :=
  ∀ ⦃text item left rest⦄, reader text = some (item, left) → EndsNumber rest →
    reader (text ++ rest) = some (item, left ++ rest)

theorem local_digits : Local digits := by
  intro text found left rest h hrest
  have hends : ∀ c ∈ rest.head?, c.isDigit = false := fun c hc => (hrest c hc).1
  unfold digits at h ⊢
  rw [takeWhile_append_of_head text hends, dropWhile_append_of_head text hends]
  cases hfound : text.takeWhile Char.isDigit with
  | nil => simp [hfound] at h
  | cons c found =>
      rw [hfound] at h
      cases h
      rfl

theorem local_digits_map (f : List Char → β) :
    Local fun text => (digits text).map fun result => (f result.1, result.2) := by
  intro text item left rest h hrest
  obtain ⟨⟨found, middle⟩, hfound, heq⟩ := Option.map_eq_some_iff.mp h
  cases heq
  simp only [local_digits hfound hrest, Option.map_some]

theorem local_wholeDigits : Local wholeDigits := by
  intro text found left rest h hrest
  simp only [wholeDigits, Option.bind_eq_bind, Option.bind_eq_some_iff, Prod.exists] at h
  obtain ⟨ds, middle, hfound, hwhole⟩ := h
  simp only [wholeDigits, local_digits hfound hrest, Option.bind_eq_bind, Option.bind_some]
  split at hwhole
  · cases hwhole
  · cases hwhole
    rfl

theorem fractionDigits_of_ne {c : Char} (h : c ≠ '.') (cs : List Char) :
    fractionDigits (c :: cs) = some (none, c :: cs) := by
  rw [fractionDigits]
  simp [h]

theorem exponentPart_of_ne {c : Char} (hlower : c ≠ 'e') (hupper : c ≠ 'E') (cs : List Char) :
    exponentPart (c :: cs) = some (none, c :: cs) := by
  simp [exponentPart, hlower, hupper]

theorem exponentPart_unsigned {letter c : Char} (hletter : letter = 'e' ∨ letter = 'E')
    (hplus : c ≠ '+') (hminus : c ≠ '-') (cs : List Char) :
    exponentPart (letter :: c :: cs) = (digits (c :: cs)).map fun result =>
      (some (digitsValue result.1 : Int), result.2) := by
  rw [exponentPart, if_pos hletter]
  · simp [hplus]
  · simp [hminus]

theorem number?_of_ne {c : Char} (h : c ≠ '-') (cs : List Char) :
    number? (c :: cs) = magnitude false (c :: cs) := by
  rw [number?]
  simp [h]

theorem local_fractionDigits : Local fractionDigits := by
  intro text item left rest h hrest
  cases text with
  | nil =>
      cases h
      cases rest with
      | nil => rfl
      | cons c rest => exact fractionDigits_of_ne (hrest c rfl).2.1 rest
  | cons c text =>
      by_cases hpoint : c = '.'
      · subst hpoint
        exact local_digits_map some h hrest
      · rw [fractionDigits_of_ne hpoint] at h
        cases h
        exact fractionDigits_of_ne hpoint _

theorem local_exponentPart : Local exponentPart := by
  intro text item left rest h hrest
  cases text with
  | nil =>
      cases h
      cases rest with
      | nil => rfl
      | cons c rest => exact exponentPart_of_ne (hrest c rfl).2.2.1 (hrest c rfl).2.2.2 rest
  | cons letter text =>
      by_cases hletter : letter = 'e' ∨ letter = 'E'
      · cases text with
        | nil => simp [exponentPart, hletter, digits] at h
        | cons c text =>
            by_cases hplus : c = '+'
            · subst hplus
              simp only [List.cons_append, exponentPart, if_pos hletter] at h ⊢
              exact local_digits_map (fun ds => some (digitsValue ds : Int)) h hrest
            · by_cases hminus : c = '-'
              · subst hminus
                simp only [List.cons_append, exponentPart, if_pos hletter] at h ⊢
                exact local_digits_map (fun ds => some (-(digitsValue ds : Int))) h hrest
              · rw [exponentPart_unsigned hletter hplus hminus] at h
                rw [List.cons_append, List.cons_append,
                  exponentPart_unsigned hletter hplus hminus]
                exact local_digits_map (fun ds => some (digitsValue ds : Int)) h hrest
      · rw [not_or] at hletter
        rw [exponentPart_of_ne hletter.1 hletter.2] at h
        cases h
        exact exponentPart_of_ne hletter.1 hletter.2 _

theorem local_magnitude (negative : Bool) : Local (magnitude negative) := by
  intro text item left rest h hrest
  simp only [magnitude, Option.bind_eq_bind, Option.bind_eq_some_iff, Prod.exists] at h
  obtain ⟨whole, second, hwhole, fraction, third, hfraction, exponent, last, hexponent, value,
    hvalue, heq⟩ := h
  cases heq
  simp only [magnitude, Option.bind_eq_bind, local_wholeDigits hwhole hrest,
    local_fractionDigits hfraction hrest, local_exponentPart hexponent hrest, hvalue,
    Option.bind_some]

theorem local_number? : Local number? := by
  intro text item left rest h hrest
  cases text with
  | nil => cases h
  | cons c text =>
      by_cases hminus : c = '-'
      · subst hminus
        exact local_magnitude true h hrest
      · rw [number?_of_ne hminus] at h
        rw [List.cons_append, number?_of_ne hminus]
        exact local_magnitude false h hrest

/-! ### Integers -/

theorem digits_toDigits (n : Nat) :
    digits (Nat.toDigits 10 n) = some (Nat.toDigits 10 n, []) := by
  have hall : ∀ c ∈ Nat.toDigits 10 n, c.isDigit = true := fun c hc =>
    Nat.isDigit_of_mem_toDigits (by decide) (by decide) hc
  rw [digits, List.takeWhile_eq_self_iff.mpr hall, List.dropWhile_eq_nil_iff.mpr hall]
  cases h : Nat.toDigits 10 n with
  | nil => exact absurd h Nat.toDigits_ne_nil
  | cons c cs => rfl

/-- Only the digits of zero begin with a zero. -/
theorem eq_zero_of_toDigits {n : Nat} {cs : List Char} (h : Nat.toDigits 10 n = '0' :: cs) :
    n = 0 := by
  induction n using Nat.strongRecOn generalizing cs with
  | ind n ih =>
      rw [Nat.toDigits_eq_if (by decide)] at h
      split at h
      · exact Nat.digitChar_eq_zero.mp (List.cons.inj h).1
      · cases hfront : Nat.toDigits 10 (n / 10) with
        | nil => exact absurd hfront Nat.toDigits_ne_nil
        | cons c front =>
            obtain rfl : c = '0' := by
              rw [hfront, List.cons_append] at h
              exact (List.cons.inj h).1
            have := ih (n / 10) (by omega) hfront
            omega

theorem toDigits_ne_zero_cons (n : Nat) (c : Char) (cs : List Char) :
    Nat.toDigits 10 n ≠ '0' :: c :: cs := by
  intro h
  rw [eq_zero_of_toDigits h, Nat.toDigits_zero] at h
  cases h

theorem wholeDigits_toDigits (n : Nat) :
    wholeDigits (Nat.toDigits 10 n) = some (Nat.toDigits 10 n, []) := by
  simp only [wholeDigits, digits_toDigits, Option.bind_eq_bind, Option.bind_some]
  split
  · rename_i heq
    exact absurd heq (toDigits_ne_zero_cons n _ _)
  · rfl

theorem le_ofDigitChars (n : Nat) (cs : List Char) : n ≤ Nat.ofDigitChars 10 cs n := by
  induction cs generalizing n with
  | nil => exact Nat.le_refl n
  | cons c cs ih =>
      rw [Nat.ofDigitChars_cons]
      exact Nat.le_trans (by omega) (ih _)

/-- Digits of an unsigned word are read to their end. -/
theorem absorb_eq {n : Nat} {cs : List Char}
    (h : Nat.ofDigitChars 10 cs n ≤ 18446744073709551615) :
    absorb n cs = (Nat.ofDigitChars 10 cs n, []) := by
  induction cs generalizing n with
  | nil => rfl
  | cons c cs ih =>
      rw [Nat.ofDigitChars_cons] at h ⊢
      have hgrown : 10 * n + (c.toNat - '0'.toNat) ≤ 18446744073709551615 :=
        Nat.le_trans (le_ofDigitChars _ cs) h
      rw [absorb, if_pos hgrown, ih h]

theorem absorb_toDigits {n : Nat} (h : n ≤ 18446744073709551615) :
    absorb 0 (Nat.toDigits 10 n) = (n, []) := by
  have hvalue : Nat.ofDigitChars 10 (Nat.toDigits 10 n) 0 = n :=
    Nat.ofDigitChars_toDigits (by decide) (by decide)
  rw [absorb_eq (by rwa [hvalue]), hvalue]

theorem magnitude_toDigits (negative : Bool) (n : Nat) :
    magnitude negative (Nat.toDigits 10 n) =
      (numberOf negative (Nat.toDigits 10 n) none none).map fun value => (value, []) := by
  simp only [magnitude, wholeDigits_toDigits, fractionDigits, exponentPart, Option.bind_eq_bind,
    Option.bind_some]
  cases numberOf negative (Nat.toDigits 10 n) none none <;> rfl

theorem number?_integerText (n : Integer) :
    number? (FloatNotation.integerText n.val) = some (.number (.integer n), []) := by
  have hleast := n.least_le
  have hgreatest := n.le_greatest
  have hcast {m : Int} (h : m = n.val) :
      ((Integer.ofInt? m).map fun i => Value.number (.integer i)) =
        some (.number (.integer n)) := by
    rw [h, Integer.ofInt?_val, Option.map_some]
  rw [FloatNotation.integerText]
  split
  · have hvalue : numberOf true (Nat.toDigits 10 n.val.natAbs) none none =
        some (.number (.integer n)) := by
      have hsmall : ¬(n.val.natAbs = 0 ∨ 9223372036854775808 < n.val.natAbs) := by omega
      simp only [numberOf, absorb_toDigits (show n.val.natAbs ≤ 18446744073709551615 by omega),
        if_true, if_neg hsmall]
      exact hcast (by omega)
    rw [number?, magnitude_toDigits, hvalue, Option.map_some]
  · have hvalue : numberOf false (Nat.toDigits 10 n.val.toNat) none none =
        some (.number (.integer n)) := by
      simp only [numberOf, absorb_toDigits (show n.val.toNat ≤ 18446744073709551615 by omega),
        Bool.false_eq_true, if_false]
      exact hcast (by omega)
    cases hdigits : Nat.toDigits 10 n.val.toNat with
    | nil => exact absurd hdigits Nat.toDigits_ne_nil
    | cons c cs =>
        have hdigit : c.isDigit = true := Nat.isDigit_of_mem_toDigits (by decide) (by decide)
          (hdigits ▸ List.mem_cons_self)
        rw [number?_of_ne (by rintro rfl; exact absurd hdigit (by decide)), ← hdigits,
          magnitude_toDigits, hvalue, Option.map_some]

/-! ### Doubles -/

def FloatReadsBack (x : FiniteFloat) : Prop :=
  number? (number (.float x)) = some (.number (.float x), [])

/-! ## Scalars -/

/-- A number begins with a sign or a digit. -/
theorem head_of_number? {text : List Char} {result : Value × List Char}
    (h : number? text = some result) :
    ∃ c cs, text = c :: cs ∧ (c = '-' ∨ c.isDigit = true) := by
  cases text with
  | nil => cases h
  | cons c cs =>
      refine ⟨c, cs, rfl, ?_⟩
      by_cases hminus : c = '-'
      · exact .inl hminus
      · refine .inr ?_
        by_contra hdigit
        rw [number?_of_ne hminus] at h
        simp [magnitude, wholeDigits, digits, hdigit] at h

def BeginsScalar (text : List Char) : Prop :=
  ∃ c cs, text = c :: cs ∧ isSpace c = false ∧ c ≠ '[' ∧ c ≠ ']' ∧ c ≠ '{' ∧ c ≠ '}'

theorem beginsScalar_of_head {c : Char} (h : c = '-' ∨ c.isDigit = true) (cs : List Char) :
    BeginsScalar (c :: cs) := by
  rcases h with rfl | hdigit
  · exact ⟨'-', cs, rfl, by decide⟩
  · have hne {d : Char} (hd : d.isDigit = false) : c ≠ d := by
      rintro rfl
      rw [hd] at hdigit
      cases hdigit
    refine ⟨c, cs, rfl, ?_, hne rfl, hne rfl, hne rfl, hne rfl⟩
    simp [isSpace, hne (d := ' ') rfl, hne (d := '\t') rfl, hne (d := '\n') rfl,
      hne (d := '\r') rfl]

theorem scalar_eq_number? {c : Char} (h : c = '-' ∨ c.isDigit = true) (cs : List Char) :
    scalar (c :: cs) = number? (c :: cs) := by
  have hne {d : Char} (hminus : d ≠ '-') (hd : d.isDigit = false) : c ≠ d := by
    rintro rfl
    rcases h with hc | hc
    · exact hminus hc
    · rw [hd] at hc
      cases hc
  rw [scalar]
  · simp [hne (d := 'n') (by decide) rfl]
  · simp [hne (d := 't') (by decide) rfl]
  · simp [hne (d := 'f') (by decide) rfl]
  · simp [hne (d := '"') (by decide) rfl]

theorem reads_text (s : String) : Reads scalar (quote s.toList) (some (.text s)) := by
  intro rest _
  have htext : quote s.toList ++ rest = '"' :: (s.toList.flatMap escapeChar ++ '"' :: rest) := by
    simp [quote]
  have hstring := string_quote s rest
  rw [htext] at hstring ⊢
  rw [scalar, hstring, Option.map_some, Option.map_some]

end Json

end DocQuery
