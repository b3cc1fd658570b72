import DocQuery.Proofs.Json.Scalars
import DocQuery.Proofs.Token.Cutting

/-!
# Tokens in front of blanks

What ends a token is seen in the characters behind it, up to two of them.  A blank ends
every token, so blanks put in somewhere behind a token leave it as it is.
-/

namespace DocQuery

namespace Lexer

open Json (takeWhile_append_of_head dropWhile_append_of_head)

variable {c : Char} {cs cs' left left' rest : List Char} {α : Type}

/-! ## Blanks -/

theorem isDigit_of_isBlank (h : Text.isBlank c) : c.isDigit = false := by
  have hdigit : Text.Spans.holds [(48, 57)] c = false :=
    Text.Spans.holds_eq_false_of_disjoint (by decide) h
  rw [← Bool.not_eq_true] at hdigit ⊢
  intro hc
  simp only [Char.isDigit, Bool.and_eq_true, decide_eq_true_eq] at hc
  exact hdigit (Text.Spans.holds_eq_true_iff.mpr ⟨(48, 57), List.mem_singleton_self _, hc⟩)

theorem continuesWord_of_isBlank (h : Text.isBlank c) : continuesWord c = false := by
  have hspan : otherSpans.holds c := by
    rw [otherSpans, Text.Spans.holds, List.any_append, Bool.or_eq_true]
    exact .inl h
  have hnumeral : Text.numericSpans.holds c = false :=
    Text.Spans.holds_eq_false_of_disjoint (by decide +kernel) h
  have hbegins := beginsWord_eq_false hspan
  simp only [beginsWord, Bool.or_eq_false_iff] at hbegins
  obtain ⟨⟨hletter, hunderscore⟩, hdollar⟩ := hbegins
  simp only [continuesWord, Text.isLetterOrNumeral, Text.isNumeral, hletter, hunderscore, hdollar,
    isDigit_of_isBlank h, hnumeral, Bool.or_false]

/-- The second text is the first one, or it is up to some place and goes on with a blank there. -/
inductive UpToBlank : List Char → List Char → Prop where
  | nil : UpToBlank [] []
  | blank {b : Char} (hb : Text.isBlank b) (cs cs' : List Char) : UpToBlank cs (b :: cs')
  | cons (c : Char) {cs cs' : List Char} (h : UpToBlank cs cs') : UpToBlank (c :: cs) (c :: cs')

namespace UpToBlank

theorem refl (cs : List Char) : UpToBlank cs cs := by
  induction cs with
  | nil => exact .nil
  | cons c cs ih => exact .cons c ih

theorem append (front : List Char) (h : UpToBlank cs cs') :
    UpToBlank (front ++ cs) (front ++ cs') := by
  induction front with
  | nil => exact h
  | cons c front ih => exact .cons c ih

theorem of_blanks {blanks : List Char} (h : ∀ b ∈ blanks, Text.isBlank b) (cs : List Char) :
    UpToBlank cs (blanks ++ cs) := by
  cases blanks with
  | nil => exact refl cs
  | cons b blanks => exact .blank (List.forall_mem_cons.mp h).1 cs _

/-- What no blank is and the first character is not, it is not either behind more blanks. -/
theorem head {p : Char → Bool} (h : UpToBlank cs cs')
    (hblank : ∀ b, Text.isBlank b → p b = false) (hcs : ∀ c ∈ cs.head?, p c = false) :
    ∀ c ∈ cs'.head?, p c = false := by
  cases h with
  | nil => exact hcs
  | blank hb cs cs' => simpa using hblank _ hb
  | cons c h => simpa using hcs

theorem ne_cons {d : Char} (h : UpToBlank cs cs') (hd : Text.isBlank d = false)
    (hcs : ∀ rest, cs ≠ d :: rest) (rest : List Char) : cs' ≠ d :: rest := by
  rintro rfl
  cases h with
  | blank hb => exact Bool.false_ne_true (hd.symm.trans hb)
  | cons _ h => exact hcs _ rfl

end UpToBlank

/-! ## Readers -/

/--
A reader takes some characters and takes the same when what follows goes on with a blank
earlier.
-/
def Steady (reader : List Char → Option (α × List Char)) : Prop :=
  ∀ ⦃cs item left⦄, reader cs = some (item, left) →
    ∃ front, cs = front ++ left ∧
      ∀ left', UpToBlank left left' → reader (front ++ left') = some (item, left')

/-- What a reader takes nothing of, it takes nothing of behind more blanks. -/
def Declines (reader : List Char → Option (α × List Char)) : Prop :=
  ∀ ⦃cs cs'⦄, reader cs = none → UpToBlank cs cs' → reader cs' = none

theorem eq_false_of_head?_dropWhile {p : Char → Bool} :
    ∀ c ∈ (cs.dropWhile p).head?, p c = false := by
  intro c hc
  have hdrop := List.head?_dropWhile_not p cs
  rw [hc] at hdrop
  exact hdrop

theorem digits_upToBlank (cs : List Char) (h : UpToBlank (digits cs).2 left') :
    digits ((digits cs).1 ++ left') = ((digits cs).1, left') := by
  have hhead : ∀ c ∈ left'.head?, c.isDigit = false :=
    h.head (fun _ => isDigit_of_isBlank) eq_false_of_head?_dropWhile
  have hall : ∀ c ∈ (digits cs).1, c.isDigit := fun c hc => List.mem_takeWhile_imp hc
  rw [digits, takeWhile_append_of_head _ hhead, dropWhile_append_of_head _ hhead,
    List.takeWhile_eq_self_iff.mpr hall, List.dropWhile_eq_nil_iff.mpr hall, List.nil_append]

theorem digits_cons (hc : c.isDigit) (cs : List Char) :
    digits (c :: cs) = (c :: (digits cs).1, (digits cs).2) := by
  simp only [digits, List.takeWhile_cons_of_pos hc, List.dropWhile_cons_of_pos hc]

theorem digits_append (cs : List Char) : cs = (digits cs).1 ++ (digits cs).2 :=
  (List.takeWhile_append_dropWhile).symm

/-! ## Numbers -/

theorem beginsWithDigit_eq_false_iff :
    beginsWithDigit cs = false ↔ ∀ c ∈ cs.head?, c.isDigit = false := by
  cases cs <;> simp [beginsWithDigit]

theorem beginsWithDigit_append (h : beginsWithDigit cs) (rest : List Char) :
    beginsWithDigit ((digits cs).1 ++ rest) := by
  cases cs with
  | nil => cases h
  | cons c cs =>
      have hc : c.isDigit := h
      rw [digits, List.takeWhile_cons_of_pos hc]
      exact hc

theorem UpToBlank.beginsWithDigit_eq_false (h : UpToBlank cs cs')
    (hcs : beginsWithDigit cs = false) : beginsWithDigit cs' = false :=
  beginsWithDigit_eq_false_iff.mpr
    (h.head (fun _ => isDigit_of_isBlank) (beginsWithDigit_eq_false_iff.mp hcs))

theorem fraction_of_ne (h : c ≠ '.') : fraction (c :: rest) = none := by
  simp [fraction, h]

theorem steady_fraction : Steady fraction := by
  intro cs item left h
  unfold fraction at h
  split at h
  · rename_i rest
    split at h
    · rename_i hdigit
      cases h
      refine ⟨'.' :: (digits rest).1, congrArg ('.' :: ·) (digits_append rest),
        fun left' hleft => ?_⟩
      rw [List.cons_append, fraction, if_pos (beginsWithDigit_append hdigit left'),
        digits_upToBlank rest hleft]
      rfl
    · cases h
  · cases h

theorem declines_fraction : Declines fraction := by
  intro cs cs' h hcs
  cases hcs with
  | nil => rfl
  | blank hb cs cs' => exact fraction_of_ne (by rintro rfl; cases hb)
  | @cons c cs cs' hcs =>
      by_cases hc : c = '.'
      · subst hc
        have hdigit : beginsWithDigit cs = false := by
          simpa [fraction] using h
        rw [fraction, hcs.beginsWithDigit_eq_false hdigit, if_neg Bool.false_ne_true]
      · exact fraction_of_ne hc

theorem exponent_of_ne (h : ¬(c = 'e' ∨ c = 'E')) : exponent (c :: rest) = none := by
  rw [exponent, if_neg h]

theorem exponent_eq_none_iff (h : c = 'e' ∨ c = 'E') :
    exponent (c :: rest) = none ↔ beginsWithDigit (exponentSign rest).2 = false := by
  simp [exponent, h]

/-- A sign is seen in front of any digits. -/
theorem exists_exponentSign (cs : List Char) :
    ∃ sign, cs = sign ++ (exponentSign cs).2 ∧
      ∀ rest, beginsWithDigit rest → exponentSign (sign ++ rest) = ((exponentSign cs).1, rest) := by
  unfold exponentSign
  split
  · exact ⟨['-'], rfl, fun _ _ => rfl⟩
  · exact ⟨['+'], rfl, fun _ _ => rfl⟩
  · refine ⟨[], rfl, fun rest hrest => ?_⟩
    rw [List.nil_append]
    split
    · cases hrest
    · cases hrest
    · rfl

theorem UpToBlank.exponentSign (h : UpToBlank cs cs') :
    UpToBlank (exponentSign cs).2 (exponentSign cs').2 := by
  cases h with
  | nil => exact .nil
  | @blank b hb cs cs' =>
      have hsign : Lexer.exponentSign (b :: cs') = (false, b :: cs') := by
        unfold Lexer.exponentSign
        split <;> rename_i heq
        · cases heq
          cases hb
        · cases heq
          cases hb
        · rfl
      rw [hsign]
      exact .blank hb _ _
  | cons c h =>
      by_cases hminus : c = '-'
      · subst hminus
        exact h
      · by_cases hplus : c = '+'
        · subst hplus
          exact h
        · simpa [Lexer.exponentSign, hminus, hplus] using h.cons c

theorem steady_exponent : Steady exponent := by
  intro cs item left h
  unfold exponent at h
  split at h
  · rename_i c rest
    split at h
    · rename_i hc
      dsimp only at h
      split at h
      · rename_i hdigit
        cases h
        obtain ⟨sign, hsign, hread⟩ := exists_exponentSign rest
        refine ⟨c :: (sign ++ (digits (exponentSign rest).2).1), ?_, fun left' hleft => ?_⟩
        · rw [List.cons_append, List.append_assoc, ← digits_append, ← hsign]
        · have hfront := beginsWithDigit_append hdigit left'
          rw [List.cons_append, List.append_assoc, exponent, if_pos hc, hread _ hfront]
          dsimp only
          rw [if_pos hfront, digits_upToBlank _ hleft]
      · cases h
    · cases h
  · cases h

theorem declines_exponent : Declines exponent := by
  intro cs cs' h hcs
  cases hcs with
  | nil => rfl
  | blank hb cs cs' => exact exponent_of_ne (by rintro (rfl | rfl) <;> cases hb)
  | @cons c cs cs' hcs =>
      by_cases hc : c = 'e' ∨ c = 'E'
      · rw [exponent_eq_none_iff hc] at h ⊢
        exact hcs.exponentSign.beginsWithDigit_eq_false h
      · exact exponent_of_ne hc

/-- What is read when a reader may take nothing. -/
theorem Steady.getD {reader : List Char → Option (α × List Char)} (hsteady : Steady reader)
    (hdeclines : Declines reader) (default : α) (cs : List Char) :
    ∃ front, cs = front ++ ((reader cs).getD (default, cs)).2 ∧
      ∀ left', UpToBlank ((reader cs).getD (default, cs)).2 left' →
        (reader (front ++ left')).getD (default, front ++ left') =
            (((reader cs).getD (default, cs)).1, left') ∧
          (reader (front ++ left')).isNone = (reader cs).isNone := by
  cases hread : reader cs with
  | none =>
      refine ⟨[], rfl, fun left' hleft => ?_⟩
      rw [List.nil_append, hdeclines hread hleft]
      exact ⟨rfl, rfl⟩
  | some result =>
      obtain ⟨front, hfront, hsame⟩ := hsteady hread
      refine ⟨front, hfront, fun left' hleft => ?_⟩
      rw [hsame left' hleft]
      exact ⟨rfl, rfl⟩

/-- The token of a number; a plain one has neither a fraction nor an exponent. -/
def numeral (plain : Bool) (whole decimals : List Char) (power : Int) :
    Except LexicalError Token :=
  if plain then
    let n := (Decimal.ofDigits whole [] 0).coefficient
    if n ≤ greatestInteger then .ok (.integer n) else .error (.integerTooLarge whole)
  else .ok (.float (Decimal.ofDigits whole decimals power).toFloat)

theorem number_eq {whole decimals middle : List Char} {power : Int}
    (hdigits : digits cs = (whole, rest))
    (hfraction : (fraction rest).getD ([], rest) = (decimals, middle))
    (hexponent : (exponent middle).getD (0, middle) = (power, left)) :
    number cs =
      (numeral ((fraction rest).isNone && (exponent middle).isNone) whole decimals power).map
        fun t => (t, left) := by
  rw [number, hdigits]
  simp only [hfraction, hexponent, numeral]
  split
  · rename_i hnone
    -- A plain number ends where its fraction and its exponent would begin.
    rw [Bool.and_eq_true, Option.isNone_iff_eq_none, Option.isNone_iff_eq_none] at hnone
    rw [hnone.1, Option.getD_none] at hfraction
    cases hfraction
    rw [hnone.2, Option.getD_none] at hexponent
    cases hexponent
    split <;> rfl
  · rfl

theorem number_upToBlank {t : Token} (hc : c.isDigit) (h : number (c :: rest) = .ok (t, left)) :
    ∃ front, rest = front ++ left ∧ ∀ left', UpToBlank left left' →
      number (c :: (front ++ left')) = .ok (t, left') := by
  obtain ⟨whole, last, hdigits⟩ : ∃ whole last, digits rest = (whole, last) := ⟨_, _, rfl⟩
  have hdigits_cons : digits (c :: rest) = (c :: whole, last) := by rw [digits_cons hc, hdigits]
  obtain ⟨point, hpoint, hfraction⟩ := steady_fraction.getD declines_fraction [] last
  obtain ⟨decimals, middle, hdecimals⟩ : ∃ decimals middle,
    (fraction last).getD ([], last) = (decimals, middle) := ⟨_, _, rfl⟩
  obtain ⟨power, hpower, hexponent⟩ := steady_exponent.getD declines_exponent 0 middle
  obtain ⟨value, final, hvalue⟩ : ∃ value final,
    (exponent middle).getD (0, middle) = (value, final) := ⟨_, _, rfl⟩
  rw [hdecimals] at hpoint hfraction
  rw [hvalue] at hpower hexponent
  rw [number_eq hdigits_cons hdecimals hvalue] at h
  obtain ⟨rfl, hnumeral⟩ : final = left ∧ numeral
      ((fraction last).isNone && (exponent middle).isNone) (c :: whole) decimals value = .ok t := by
    cases hnumeral : numeral ((fraction last).isNone && (exponent middle).isNone) (c :: whole)
      decimals value
    all_goals rw [hnumeral] at h; cases h
    exact ⟨rfl, rfl⟩
  refine ⟨whole ++ (point ++ power), ?_, fun left' hleft => ?_⟩
  · rw [List.append_assoc, List.append_assoc, ← hpower, ← hpoint]
    simpa [hdigits] using digits_append rest
  · obtain ⟨hexponent', hnone'⟩ := hexponent left' hleft
    have hmiddle : UpToBlank middle (power ++ left') := hpower ▸ hleft.append power
    obtain ⟨hfraction', hnone⟩ := hfraction _ hmiddle
    have hlast : UpToBlank (digits rest).2 (point ++ (power ++ left')) := by
      rw [hdigits, hpoint]
      exact hmiddle.append point
    have hdigits' := digits_upToBlank rest hlast
    rw [hdigits] at hdigits'
    have hdigits_cons' := (digits_cons hc _).trans (congrArg (fun p => (c :: p.1, p.2)) hdigits')
    rw [List.append_assoc, List.append_assoc, number_eq hdigits_cons' hfraction' hexponent', hnone,
      hnone', hnumeral]
    rfl

/-! ## Tokens -/

theorem token_number {afterDot : Bool} {offset : Nat} (h : c.isDigit) :
    token afterDot offset (c :: rest) = number (c :: rest) := by
  rw [token, if_pos h]

/-- The end of a quoted text does not depend on what follows. -/
theorem quoted_append {quote : Char} {content : List Char}
    (h : quoted quote cs = some (content, left)) :
    ∃ front, cs = front ++ left ∧
      ∀ left', quoted quote (front ++ left') = some (content, left') := by
  fun_induction quoted quote cs generalizing content with
  | case1 => cases h
  | case2 rest =>
      cases h
      exact ⟨[quote], rfl, fun left' => quoted_quote quote⟩
  | case3 hquote => cases h
  | case4 escaped rest hquote ih =>
      obtain ⟨⟨content, left⟩, hrest, heq⟩ := Option.map_eq_some_iff.mp h
      cases heq
      obtain ⟨front, rfl, hread⟩ := ih hrest
      refine ⟨'\\' :: escaped :: front, rfl, fun left' => ?_⟩
      rw [List.cons_append, List.cons_append, quoted_escaped hquote, hread]
      rfl
  | case5 c rest hquote hbackslash ih =>
      obtain ⟨⟨content, left⟩, hrest, heq⟩ := Option.map_eq_some_iff.mp h
      cases heq
      obtain ⟨front, rfl, hread⟩ := ih hrest
      refine ⟨c :: front, rfl, fun left' => ?_⟩
      rw [List.cons_append, quoted_plain hquote hbackslash, hread]
      rfl

theorem UpToBlank.endsWord (h : UpToBlank cs cs') (hcs : EndsWord cs) : EndsWord cs' :=
  h.head (fun _ => continuesWord_of_isBlank) hcs

theorem endsWord_dropWhile (cs : List Char) : EndsWord (cs.dropWhile continuesWord) :=
  eq_false_of_head?_dropWhile

/-- The longest mark stays the longest one. -/
theorem mark?_upToBlank {m : Mark} (h : mark? cs = some (m, left)) :
    ∃ c front, cs = c :: (front ++ left) ∧ ∀ left', UpToBlank left left' →
      mark? (c :: (front ++ left')) = some (m, left') := by
  unfold mark? at h
  split at h
  · cases h
    exact ⟨'!', ['='], rfl, fun left' _ => rfl⟩
  · cases h
    exact ⟨'<', ['='], rfl, fun left' _ => rfl⟩
  · cases h
    exact ⟨'<', ['>'], rfl, fun left' _ => rfl⟩
  · rename_i hequal hgreater
    cases h
    refine ⟨'<', [], rfl, fun left' hleft => ?_⟩
    have hequal' := hleft.ne_cons (d := '=') rfl hequal
    have hgreater' := hleft.ne_cons (d := '>') rfl hgreater
    rw [List.nil_append, mark?]
    · exact hequal'
    · exact hgreater'
  · cases h
    exact ⟨'>', ['='], rfl, fun left' _ => rfl⟩
  · rename_i hequal
    cases h
    refine ⟨'>', [], rfl, fun left' hleft => ?_⟩
    have hequal' := hleft.ne_cons (d := '=') rfl hequal
    rw [List.nil_append, mark?]
    exact hequal'
  · rename_i c rest _ _ _ _ _ _
    obtain ⟨m, hm, heq⟩ := Option.map_eq_some_iff.mp h
    cases heq
    exact ⟨c, [], rfl, fun left' _ => mark?_single hm⟩
  · cases h

/-- What a token can be, with what the reader of its kind makes of the text. -/
theorem token_cases {afterDot : Bool} {offset : Nat} {t : Token}
    (h : token afterDot offset (c :: rest) = .ok (t, left)) :
    (c.isDigit ∧ number (c :: rest) = .ok (t, left)) ∨
      ((c = '\'' ∨ c = '"') ∧
        ∃ content, quoted c rest = some (content, left) ∧ t = .text (String.ofList content)) ∨
      (beginsWord c ∧ ∃ name, word (c :: rest) = (name, left) ∧ t = wordToken afterDot name) ∨
      (c = '@' ∧ ∃ name, word rest = (name, left) ∧ name ≠ [] ∧
        t = .parameter (String.ofList ('@' :: name))) ∨
      ∃ m, mark? (c :: rest) = some (m, left) ∧ t = .mark m := by
  rw [token] at h
  split at h
  · exact .inl ⟨by assumption, h⟩
  · split at h
    · rename_i hquote
      split at h
      · rename_i content left hquoted
        cases h
        exact .inr (.inl ⟨hquote, content, hquoted, rfl⟩)
      · cases h
    · split at h
      · cases h
        exact .inr (.inr (.inl ⟨by assumption, _, rfl, rfl⟩))
      · split at h
        · rename_i hat
          dsimp only at h
          split at h
          · cases h
          · rename_i hempty
            cases h
            have hne : (word rest).1 ≠ [] := mt List.isEmpty_iff.mpr hempty
            exact .inr (.inr (.inr (.inl ⟨hat, _, rfl, hne, rfl⟩)))
        · split at h
          · rename_i m left hmark
            cases h
            exact .inr (.inr (.inr (.inr ⟨m, hmark, rfl⟩)))
          · cases h

/-- A token in front of more blanks is the same token, wherever it stands in the whole text. -/
theorem token_upToBlank {afterDot : Bool} {offset : Nat} {t : Token}
    (h : token afterDot offset (c :: rest) = .ok (t, left)) :
    ∃ front, rest = front ++ left ∧ ∀ offset left', UpToBlank left left' →
      token afterDot offset (c :: (front ++ left')) = .ok (t, left') := by
  rcases token_cases h with ⟨hdigit, hnumber⟩ | ⟨hquote, content, hquoted, rfl⟩ |
    ⟨hbegins, name, hname, rfl⟩ | ⟨rfl, name, hname, hne, rfl⟩ | ⟨m, hmark, rfl⟩
  · obtain ⟨front, rfl, hread⟩ := number_upToBlank hdigit hnumber
    refine ⟨front, rfl, fun offset left' hleft => ?_⟩
    rw [token_number hdigit, hread left' hleft]
  · obtain ⟨front, rfl, hread⟩ := quoted_append hquoted
    exact ⟨front, rfl, fun offset left' _ => token_quoted hquote (hread left')⟩
  · have hc := continuesWord_of_beginsWord hbegins
    rw [word, List.takeWhile_cons_of_pos hc, List.dropWhile_cons_of_pos hc] at hname
    cases hname
    have hisWord : isWord (c :: rest.takeWhile continuesWord) := by
      rw [isWord, hbegins, Bool.true_and, List.all_takeWhile]
    exact ⟨rest.takeWhile continuesWord, List.takeWhile_append_dropWhile.symm,
      fun offset left' hleft => token_word hisWord (hleft.endsWord (endsWord_dropWhile rest))⟩
  · cases hname
    exact ⟨rest.takeWhile continuesWord, List.takeWhile_append_dropWhile.symm,
      fun offset left' hleft => token_parameter hne (fun a ha => List.mem_takeWhile_imp ha)
        (hleft.endsWord (endsWord_dropWhile rest))⟩
  · obtain ⟨d, front, heq, hread⟩ := mark?_upToBlank hmark
    cases heq
    exact ⟨front, rfl, fun offset left' hleft => token_mark (hread left' hleft)⟩

end Lexer

end DocQuery
