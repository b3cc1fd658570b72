import DocQuery.Proofs.Token.Scan
import Mathlib

/-!
# Tokens that are written are read

Tokens written one after the other with a space between them are read back, each where it
was written.
-/

namespace DocQuery

namespace Text

theorem upperChar_toLower (c : Char) : upperChar c.toLower = upperChar c := by
  by_cases hc : c.isUpper
  · have hcapitals : ∀ n < 91, upperChar (Char.ofNat n).toLower = upperChar (Char.ofNat n) := by
      decide
    have hlast : c.toNat ≤ 90 := (of_decide_eq_true hc).2
    have h := hcapitals c.toNat (Nat.lt_succ_of_le hlast)
    rwa [Char.ofNat_toNat] at h
  · rw [Char.toLower_eq_of_not_isUpper hc]

theorem upper_map_toLower (cs : List Char) : upper (cs.map Char.toLower) = upper cs := by
  rw [upper, List.flatMap_map]
  exact List.flatMap_congr fun c _ => upperChar_toLower c

end Text

/-! ## Keywords and marks -/

theorem Keyword.all_isLower_spelling (k : Keyword) : k.spelling.toList.all Char.isLower := by
  cases k <;> decide

theorem Keyword.spelling_ne_nil (k : Keyword) : k.spelling.toList ≠ [] := by
  cases k <;> decide

theorem Keyword.map_toLower_spelling (k : Keyword) :
    k.spelling.toList.map Char.toLower = k.spelling.toList := by
  cases k <;> decide

theorem Keyword.ofWord?_spelling (k : Keyword) : ofWord? k.spelling.toList = some k := by
  have hall : all.all fun k => decide (ofWord? k.spelling.toList = some k) := by decide +kernel
  exact of_decide_eq_true (List.all_eq_true.mp hall k k.mem_all)

theorem Mark.spellings_ne_nil (m : Mark) : m.spellings ≠ [] := by
  cases m <;> exact List.cons_ne_nil _ _

namespace Token

open Lexer

/-- A token as it is written; a keyword in any mixture of cases, a text in either kind of quotes. -/
inductive Writes : Token → List Char → Prop where
  | keyword (k : Keyword) {word : List Char} (h : word.map Char.toLower = k.spelling.toList) :
      Writes (.keyword k) word
  | mark (m : Mark) {cs : List Char} (h : cs ∈ m.spellings) : Writes (.mark m) cs
  | identifier (name : String) : Writes (.identifier name) name.toList
  | text (content : String) (quote : Char) (h : quote = '\'' ∨ quote = '"') :
      Writes (.text content) ((Quotation.enclosing quote h).write content.toList)
  | parameter (name : String) : Writes (.parameter name) name.toList
  | integer (n : Nat) : Writes (.integer n) (Nat.toDigits 10 n)

/-- Whether a token can be read; the flag says whether a dot stands before it. -/
def Lexable (afterDot : Bool) : Token → Prop
  | .keyword _ => afterDot = false
  | .mark _ => True
  | .identifier name =>
      isWord name.toList ∧ (afterDot = false → Keyword.ofWord? name.toList = none)
  | .text _ => True
  | .parameter name =>
      ∃ word, name.toList = '@' :: word ∧ word ≠ [] ∧ ∀ c ∈ word, continuesWord c
  | .integer n => n ≤ greatestInteger
  | .float _ => False
  | .finish => False

theorem Lexable.exists_writes {afterDot : Bool} {t : Token} (h : t.Lexable afterDot) :
    ∃ cs, t.Writes cs := by
  cases t with
  | keyword k => exact ⟨_, .keyword k k.map_toLower_spelling⟩
  | mark m =>
      obtain ⟨cs, hcs⟩ := List.exists_mem_of_ne_nil _ m.spellings_ne_nil
      exact ⟨cs, .mark m hcs⟩
  | identifier name => exact ⟨_, .identifier name⟩
  | text content => exact ⟨_, .text content '"' (.inr rfl)⟩
  | parameter name => exact ⟨_, .parameter name⟩
  | integer n => exact ⟨_, .integer n⟩
  | float x => exact h.elim
  | finish => exact h.elim

end Token

namespace Lexer

variable {afterDot : Bool} {offset : Nat}

theorem isWord_of_isAlpha {c : Char} {rest : List Char} (h : (c :: rest).all Char.isAlpha) :
    isWord (c :: rest) := by
  have hletter {a : Char} (ha : a.isAlpha) : beginsWord a := by
    simp [beginsWord, Text.isLetter, ha]
  rw [List.all_cons, Bool.and_eq_true, List.all_eq_true] at h
  rw [isWord, hletter h.1, Bool.true_and, List.all_eq_true]
  exact fun a ha => continuesWord_of_beginsWord (hletter (h.2 a ha))

theorem number_toDigits {n : Nat} (h : n ≤ greatestInteger) :
    number (Nat.toDigits 10 n) = .ok (.integer n, []) := by
  have hall : ∀ c ∈ Nat.toDigits 10 n, c.isDigit = true := fun c hc =>
    Nat.isDigit_of_mem_toDigits (by decide) (by decide) hc
  have hdigits : digits (Nat.toDigits 10 n) = (Nat.toDigits 10 n, []) := by
    rw [digits, List.takeWhile_eq_self_iff.mpr hall, List.dropWhile_eq_nil_iff.mpr hall]
  have hvalue : (Decimal.ofDigits (Nat.toDigits 10 n) [] 0).coefficient = n := by
    rw [Decimal.ofDigits, List.append_nil]
    exact Nat.ofDigitChars_toDigits (by decide) (by decide)
  rw [number_eq hdigits rfl rfl]
  simp only [numeral, fraction, exponent, Option.isNone_none, Bool.and_self, if_true, hvalue, h]
  rfl

theorem ofWord?_of_map_toLower {k : Keyword} {word : List Char}
    (h : word.map Char.toLower = k.spelling.toList) : Keyword.ofWord? word = some k := by
  rw [← Keyword.ofWord?_spelling, ← h, Keyword.ofWord?, Keyword.ofWord?, Text.upper_map_toLower]

theorem isWord_of_map_toLower {k : Keyword} {word : List Char}
    (h : word.map Char.toLower = k.spelling.toList) : isWord word := by
  have hlower := k.all_isLower_spelling
  rw [← h, List.all_map] at hlower
  cases word with
  | nil => exact (k.spelling_ne_nil h.symm).elim
  | cons c rest =>
      exact isWord_of_isAlpha (by simpa [Function.comp_def] using hlower)

theorem exists_toDigits (n : Nat) : ∃ c rest, Nat.toDigits 10 n = c :: rest ∧ c.isDigit := by
  cases hdigits : Nat.toDigits 10 n with
  | nil => exact absurd hdigits Nat.toDigits_ne_nil
  | cons c rest =>
      have hmem : c ∈ Nat.toDigits 10 n := hdigits ▸ List.mem_cons_self
      exact ⟨c, rest, rfl, Nat.isDigit_of_mem_toDigits (by decide) (by decide) hmem⟩

theorem token_toDigits {n : Nat} (h : n ≤ greatestInteger) :
    token afterDot offset (Nat.toDigits 10 n) = .ok (.integer n, []) := by
  have hnumber := number_toDigits h
  obtain ⟨c, rest, hdigits, hc⟩ := exists_toDigits n
  rw [hdigits] at hnumber ⊢
  rw [token_number hc, hnumber]

theorem beginsToken_toDigits (n : Nat) : beginsToken (Nat.toDigits 10 n) := by
  obtain ⟨c, rest, hdigits, hc⟩ := exists_toDigits n
  have hblank : Text.isBlank c = false := by
    rw [← Bool.not_eq_true]
    exact fun hblank => Bool.false_ne_true ((isDigit_of_isBlank hblank).symm.trans hc)
  rw [hdigits]
  refine beginsToken_cons_iff.mpr ⟨?_, ?_, hblank⟩ <;> rintro rfl <;> cases hc

/-- Each way to write a mark is read as the mark. -/
theorem mark?_spelling (m : Mark) :
    m.spellings.all fun cs => beginsToken cs && decide (mark? cs = some (m, [])) := by
  cases m <;> decide

theorem token_isWord {cs : List Char} (h : isWord cs) :
    beginsToken cs ∧ ∀ offset, token afterDot offset cs = .ok (wordToken afterDot cs, []) := by
  rw [← List.append_nil cs]
  refine ⟨beginsToken_of_isWord h [], fun offset => ?_⟩
  rw [token_word h endsWord_nil, List.append_nil]

/-- A token that can be read is read from what is written for it alone. -/
theorem token_written {t : Token} {cs : List Char} (hwritten : t.Writes cs)
    (h : t.Lexable afterDot) :
    beginsToken cs ∧ ∀ offset, token afterDot offset cs = .ok (t, []) := by
  cases hwritten with
  | keyword k hword =>
      obtain rfl : afterDot = false := h
      have hisWord := isWord_of_map_toLower hword
      have hkeyword : wordToken false cs = .keyword k := by
        rw [wordToken, if_neg Bool.false_ne_true, ofWord?_of_map_toLower hword]
      exact hkeyword ▸ token_isWord hisWord
  | mark m hcs =>
      obtain ⟨hbegins, hmark⟩ :=
        Bool.and_eq_true_iff.mp (List.all_eq_true.mp (mark?_spelling m) cs hcs)
      obtain ⟨c, rest, rfl⟩ := exists_cons_of_beginsToken hbegins
      exact ⟨hbegins, fun offset => token_mark (of_decide_eq_true hmark)⟩
  | identifier name =>
      obtain ⟨hisWord, hname⟩ := h
      have hidentifier : wordToken afterDot name.toList = .identifier name := by
        cases afterDot with
        | true => simp [wordToken]
        | false => simp [wordToken, hname rfl]
      exact hidentifier ▸ token_isWord hisWord
  | text content quote hquote =>
      rw [← List.append_nil (Quotation.write _ _)]
      refine ⟨Quotation.beginsToken_write _ _ _, fun offset => ?_⟩
      rw [Quotation.token_write, String.ofList_toList]
  | parameter name =>
      obtain ⟨word, hname, hne, hword⟩ := h
      have htoken (offset : Nat) : token afterDot offset ('@' :: (word ++ [])) =
          .ok (.parameter (String.ofList ('@' :: word)), []) :=
        token_parameter hne hword endsWord_nil
      rw [List.append_nil, ← hname, String.ofList_toList] at htoken
      exact ⟨hname ▸ rfl, htoken⟩
  | integer n => exact ⟨beginsToken_toDigits n, fun offset => token_toDigits h⟩

/-! ## Lists of tokens -/

def LexableFrom : Bool → List Token → Prop
  | _, [] => True
  | afterDot, t :: ts => t.Lexable afterDot ∧ LexableFrom (isDot t) ts

/-- Where tokens stand when each text but the last has a space behind it. -/
def placings : Nat → List Token → List (List Char) → List Placed
  | offset, t :: ts, cs :: texts => ⟨t, offset⟩ :: placings (offset + cs.length + 1) ts texts
  | _, _, _ => []

def spaced (texts : List (List Char)) : List Char :=
  texts.flatMap (' ' :: ·)

theorem intercalate_eq_spaced (cs : List Char) (texts : List (List Char)) :
    [' '].intercalate (cs :: texts) = cs ++ spaced texts := by
  induction texts generalizing cs with
  | nil => simp [spaced]
  | cons text texts ih =>
      rw [List.intercalate_cons_cons, ih, List.append_assoc]
      rfl

theorem upToBlank_spaced (texts : List (List Char)) : UpToBlank [] (spaced texts) := by
  cases texts with
  | nil => exact .nil
  | cons cs texts => exact .blank (by decide) _ _

theorem exists_texts {ts : List Token} (h : LexableFrom afterDot ts) :
    ∃ texts, List.Forall₂ Token.Writes ts texts := by
  induction ts generalizing afterDot with
  | nil => exact ⟨[], .nil⟩
  | cons t ts ih =>
      obtain ⟨cs, hcs⟩ := h.1.exists_writes
      obtain ⟨texts, htexts⟩ := ih h.2
      exact ⟨cs :: texts, .cons hcs htexts⟩

theorem Scan.cons_written {t : Token} {gap cs : List Char} {texts : List (List Char)}
    {ps : List (Token × Nat)} (hgap : Gap gap) (hwritten : t.Writes cs)
    (h : t.Lexable afterDot) (hscan : Scan (isDot t) (spaced texts) ps) :
    Scan afterDot (gap ++ (cs ++ spaced texts)) ((t, (cs ++ spaced texts).length) :: ps) := by
  obtain ⟨hbegins, htoken⟩ := token_written hwritten h
  obtain ⟨c, rest, rfl⟩ := exists_cons_of_beginsToken hbegins
  obtain ⟨front, hfront, hread⟩ := token_upToBlank (htoken 0)
  rw [List.append_nil] at hfront
  subst hfront
  have hbehind := upToBlank_spaced texts
  have hrest : UpToBlank rest (rest ++ spaced texts) := by
    simpa using hbehind.append rest
  exact .token hgap (hrest.beginsToken hbegins) (fun offset => hread offset _ hbehind) hscan

theorem exists_scan_spaced {ts : List Token} {texts : List (List Char)}
    (hwritten : List.Forall₂ Token.Writes ts texts) (h : LexableFrom afterDot ts) :
    ∃ ps, Scan afterDot (spaced texts) ps ∧ ∀ offset,
      ps.map (place (offset + (spaced texts).length)) =
        placings (offset + 1) ts texts ++ [⟨.finish, offset + (spaced texts).length⟩] := by
  -- The offset is the place of the space in front of the first token.
  induction hwritten generalizing afterDot with
  | nil => exact ⟨_, .finish skipBetween_nil, fun offset => rfl⟩
  | @cons t cs ts texts hcs hwritten ih =>
      obtain ⟨ht, hts⟩ := h
      obtain ⟨ps, hscan, hplaced⟩ := ih hts
      have hgap : Gap [' '] := .blank rfl .nil
      refine ⟨_, .cons_written hgap hcs ht hscan, fun offset => ?_⟩
      have hlength : offset + (spaced (cs :: texts)).length =
          offset + 1 + cs.length + (spaced texts).length := by
        simp only [spaced, List.flatMap_cons, List.length_append, List.length_cons]
        omega
      have hplace : place (offset + 1 + cs.length + (spaced texts).length)
          (t, (cs ++ spaced texts).length) = ⟨t, offset + 1⟩ := by
        rw [place, List.length_append, Nat.add_assoc, Nat.add_sub_cancel]
      rw [hlength, List.map_cons, hplace, hplaced, placings]
      rfl

end Lexer

open Lexer

/--
Tokens that can be read one after the other are read from their texts with a space between
them, each where its text was written, and then comes the end.
-/
theorem tokenize_written {ts : List Token} (h : LexableFrom false ts) :
    (∃ texts, List.Forall₂ Token.Writes ts texts) ∧
      ∀ texts, List.Forall₂ Token.Writes ts texts →
        tokenize ([' '].intercalate texts) =
          .ok (placings 0 ts texts ++ [⟨.finish, ([' '].intercalate texts).length⟩]) := by
  refine ⟨exists_texts h, fun texts hwritten => ?_⟩
  cases hwritten with
  | nil => rfl
  | @cons t cs ts texts hcs hwritten =>
      obtain ⟨ht, hts⟩ := h
      obtain ⟨ps, hscan, hplaced⟩ := exists_scan_spaced hwritten hts
      rw [intercalate_eq_spaced, tokenize_eq_ok_iff]
      refine ⟨_, .cons_written .nil hcs ht hscan, ?_⟩
      rw [List.length_append, List.map_cons, hplaced, place, Nat.sub_self, placings,
        Nat.zero_add, List.cons_append]

/-- A reserved word behind a dot, a text with a quote and a comment in it, and mixed cases. -/
theorem tokenize_written_mixed :
    let ts : List Token := [.identifier "c", .mark .dot, .identifier "top", .mark .notEqual,
      .text "it's --", .keyword .and, .parameter "@p", .integer 70]
    LexableFrom false ts ∧ tokenize "c . top <> 'it\\'s --' AnD @p 70".toList =
      .ok [⟨.identifier "c", 0⟩, ⟨.mark .dot, 2⟩, ⟨.identifier "top", 4⟩, ⟨.mark .notEqual, 8⟩,
        ⟨.text "it's --", 11⟩, ⟨.keyword .and, 22⟩, ⟨.parameter "@p", 26⟩, ⟨.integer 70, 29⟩,
        ⟨.finish, 31⟩] := by
  intro ts
  have h : LexableFrom false ts := by
    refine ⟨⟨by decide, fun _ => by decide +kernel⟩, trivial, ⟨by decide, fun h => by cases h⟩,
      trivial, trivial, rfl, ⟨['p'], rfl, by decide, ?_⟩, ?_, trivial⟩
    · exact List.all_eq_true.mp (by decide)
    · exact Nat.le_of_ble_eq_true rfl
  have hwritten : List.Forall₂ Token.Writes ts ["c".toList, ['.'], "top".toList, ['<', '>'],
      "'it\\'s --'".toList, "AnD".toList, "@p".toList, "70".toList] :=
    .cons (.identifier _) <| .cons (.mark _ (by decide)) <| .cons (.identifier _) <|
      .cons (.mark _ (by decide)) <| .cons (.text _ '\'' (.inl rfl)) <|
      .cons (.keyword _ (by decide)) <| .cons (.parameter _) <| .cons (.integer 70) .nil
  have hread := (tokenize_written h).2 _ hwritten
  have htext : [' '].intercalate ["c".toList, ['.'], "top".toList, ['<', '>'],
      "'it\\'s --'".toList, "AnD".toList, "@p".toList, "70".toList] =
        "c . top <> 'it\\'s --' AnD @p 70".toList := by decide
  rw [htext] at hread
  exact ⟨h, hread⟩

end DocQuery
