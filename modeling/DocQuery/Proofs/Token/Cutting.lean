import DocQuery.Proofs.Token.Gaps
import Mathlib.Data.List.TakeWhile

/-!
# Texts and their tokens

A word, a mark and a text between quotes are each cut off the front of a longer text as
one token.  A whole text is cut token by token, blanks between them left out.
-/

namespace DocQuery

namespace Text

def Spans.disjoint (spans others : Spans) : Bool :=
  spans.all fun a => others.all fun b => decide (a.2 < b.1) || decide (b.2 < a.1)

theorem Spans.holds_eq_false_of_disjoint {spans others : Spans} (h : spans.disjoint others)
    {c : Char} (hc : spans.holds c) : others.holds c = false := by
  rw [← Bool.not_eq_true]
  intro hother
  obtain ⟨a, ha, hlow, hhigh⟩ := holds_eq_true_iff.mp hc
  obtain ⟨b, hb, hlow', hhigh'⟩ := holds_eq_true_iff.mp hother
  have hapart := List.all_eq_true.mp (List.all_eq_true.mp h a ha) b hb
  rw [Bool.or_eq_true, decide_eq_true_eq, decide_eq_true_eq] at hapart
  omega

end Text

def Mark.spellings : Mark → List (List Char)
  | equal => [['=']]
  | notEqual => [['!', '='], ['<', '>']]
  | less => [['<']]
  | lessOrEqual => [['<', '=']]
  | greater => [['>']]
  | greaterOrEqual => [['>', '=']]
  | plus => [['+']]
  | minus => [['-']]
  | star => [['*']]
  | slash => [['/']]
  | comma => [[',']]
  | dot => [['.']]
  | colon => [[':']]
  | leftParen => [['(']]
  | rightParen => [[')']]
  | leftBracket => [['[']]
  | rightBracket => [[']']]
  | leftBrace => [['\x7b']]
  | rightBrace => [['\x7d']]

namespace Lexer

variable {c : Char} {rest : List Char} {afterDot : Bool} {offset : Nat}

/-! ## Words -/

def wordSpans : Text.Spans :=
  [(36, 36), (65, 90), (95, 95), (97, 122)] ++ Text.alphabeticSpans

theorem holds_of_beginsWord (h : beginsWord c) : wordSpans.holds c := by
  unfold beginsWord Text.isLetter Char.isAlpha Char.isUpper Char.isLower at h
  simp only [Bool.or_eq_true, Bool.and_eq_true, decide_eq_true_eq] at h
  rw [wordSpans, Text.Spans.holds, List.any_append, Bool.or_eq_true]
  rcases h with (((h | h) | h) | rfl) | rfl
  · exact .inl (Text.Spans.holds_eq_true_iff.mpr ⟨(65, 90), by decide, h⟩)
  · exact .inl (Text.Spans.holds_eq_true_iff.mpr ⟨(97, 122), by decide, h⟩)
  · exact .inr h
  · exact .inl rfl
  · exact .inl rfl

/-- Blanks, digits, quotes and marks, none of which begins a word, as ranges. -/
def otherSpans : Text.Spans :=
  Text.blankSpans ++ [(33, 35), (37, 64), (91, 94), (96, 96), (123, 126)]

theorem beginsWord_eq_false (h : otherSpans.holds c) : beginsWord c = false := by
  have hdisjoint : wordSpans.disjoint otherSpans := by decide +kernel
  rw [← Bool.not_eq_true]
  intro hbegins
  rw [Text.Spans.holds_eq_false_of_disjoint hdisjoint (holds_of_beginsWord hbegins)] at h
  cases h

theorem isDigit_of_beginsWord (h : beginsWord c) : c.isDigit = false := by
  rw [← Bool.not_eq_true]
  intro hdigit
  simp only [Char.isDigit, Bool.and_eq_true, decide_eq_true_eq] at hdigit
  obtain ⟨hlow, hhigh⟩ : 48 ≤ c.toNat ∧ c.toNat ≤ 57 := hdigit
  have hspan : otherSpans.holds c :=
    Text.Spans.holds_eq_true_iff.mpr ⟨(37, 64), by decide, by omega, by omega⟩
  rw [beginsWord_eq_false hspan] at h
  cases h

theorem isBlank_of_beginsWord (h : beginsWord c) : Text.isBlank c = false := by
  rw [← Bool.not_eq_true]
  intro hblank
  have hspan : otherSpans.holds c := by
    rw [otherSpans, Text.Spans.holds, List.any_append, Bool.or_eq_true]
    exact .inl hblank
  rw [beginsWord_eq_false hspan] at h
  cases h

theorem continuesWord_of_beginsWord (h : beginsWord c) : continuesWord c := by
  simp only [beginsWord, continuesWord, Text.isLetterOrNumeral, Bool.or_eq_true] at h ⊢
  exact h.imp_left (Or.imp_left .inl)

def isWord : List Char → Bool
  | [] => false
  | c :: rest => beginsWord c && rest.all continuesWord

def EndsWord (rest : List Char) : Prop :=
  ∀ c ∈ rest.head?, continuesWord c = false

theorem endsWord_nil : EndsWord [] := by
  simp [EndsWord]

theorem endsWord_cons (h : continuesWord c = false) : EndsWord (c :: rest) := by
  simpa [EndsWord] using h

theorem word_append {name : List Char} (hname : ∀ a ∈ name, continuesWord a)
    (hrest : EndsWord rest) : word (name ++ rest) = (name, rest) := by
  rw [word, List.takeWhile_append_of_pos hname, List.dropWhile_append_of_pos hname]
  cases rest with
  | nil => simp
  | cons d rest => simp [hrest d rfl]

theorem token_word {name : List Char} (hname : isWord name) (hrest : EndsWord rest) :
    token afterDot offset (name ++ rest) = .ok (wordToken afterDot name, rest) := by
  cases name with
  | nil => cases hname
  | cons c others =>
      obtain ⟨hbegins, hothers⟩ := Bool.and_eq_true_iff.mp hname
      have hquote : ¬(c = '\'' ∨ c = '"') := by
        rintro (rfl | rfl) <;> cases (beginsWord_eq_false rfl).symm.trans hbegins
      have hword := word_append
        (List.forall_mem_cons.mpr
          ⟨continuesWord_of_beginsWord hbegins, List.all_eq_true.mp hothers⟩) hrest
      rw [List.cons_append] at hword
      rw [List.cons_append, token, isDigit_of_beginsWord hbegins, if_neg Bool.false_ne_true,
        if_neg hquote, if_pos hbegins, hword]

/-- A parameter is its name behind an at sign. -/
theorem token_parameter {name : List Char} (hne : name ≠ [])
    (hname : ∀ a ∈ name, continuesWord a) (hrest : EndsWord rest) :
    token afterDot offset ('@' :: (name ++ rest)) =
      .ok (.parameter (String.ofList ('@' :: name)), rest) := by
  have hquote : ¬('@' = '\'' ∨ '@' = '"') := by decide
  have hempty : name.isEmpty = false := List.isEmpty_eq_false_iff.mpr hne
  rw [token, if_neg (by decide), if_neg hquote, beginsWord_eq_false rfl,
    if_neg Bool.false_ne_true, if_pos rfl, word_append hname hrest]
  dsimp only
  rw [hempty, if_neg Bool.false_ne_true]

theorem beginsToken_of_isWord {name : List Char} (h : isWord name) (rest : List Char) :
    beginsToken (name ++ rest) := by
  cases name with
  | nil => cases h
  | cons c others =>
      have hbegins : beginsWord c := (Bool.and_eq_true_iff.mp h).1
      refine beginsToken_cons_iff.mpr ⟨?_, ?_, isBlank_of_beginsWord hbegins⟩ <;> rintro rfl <;>
        cases (beginsWord_eq_false rfl).symm.trans hbegins

theorem isDot_wordToken (afterDot : Bool) (name : List Char) :
    isDot (wordToken afterDot name) = false := by
  unfold wordToken
  split
  · rfl
  · cases Keyword.ofWord? name <;> rfl

/-! ## Marks -/

def markCharacters : List Char :=
  ['+', '-', '*', '/', ',', '.', ':', '(', ')', '[', ']', '\x7b', '\x7d', '=']

theorem mem_markCharacters {m : Mark} (h : singleMark? c = some m) : c ∈ markCharacters := by
  by_contra hother
  simp only [markCharacters, List.mem_cons, List.not_mem_nil, or_false, not_or] at hother
  simp [singleMark?, hother] at h

/-- A character that is a mark alone begins nothing else. -/
theorem begins_only_mark (h : c ∈ markCharacters) :
    c.isDigit = false ∧ ¬(c = '\'' ∨ c = '"') ∧ beginsWord c = false ∧ c ≠ '@' ∧
      c ≠ '!' ∧ c ≠ '<' ∧ c ≠ '>' := by
  simp only [markCharacters, List.mem_cons, List.not_mem_nil, or_false] at h
  rcases h with
      rfl | rfl | rfl | rfl | rfl | rfl | rfl | rfl | rfl | rfl | rfl | rfl | rfl | rfl <;>
    exact ⟨rfl, by decide, beginsWord_eq_false rfl, by decide, by decide, by decide, by decide⟩

theorem mark?_single {m : Mark} (h : singleMark? c = some m) :
    mark? (c :: rest) = some (m, rest) := by
  obtain ⟨-, -, -, -, hbang, hless, hgreater⟩ := begins_only_mark (mem_markCharacters h)
  rw [mark?, h]
  · rfl
  all_goals simp [hbang, hless, hgreater]

/-- What begins a mark begins nothing else. -/
theorem token_mark {m : Mark} {left : List Char} (h : mark? (c :: rest) = some (m, left)) :
    token afterDot offset (c :: rest) = .ok (.mark m, left) := by
  have hc : c ∈ markCharacters ∨ c = '!' ∨ c = '<' ∨ c = '>' := by
    unfold mark? at h
    split at h
    case h_7 =>
      rename_i heq
      obtain ⟨m, hm, -⟩ := Option.map_eq_some_iff.mp h
      rw [(List.cons.inj heq).1]
      exact .inl (mem_markCharacters hm)
    case h_8 => cases h
    all_goals
      rename_i heq
      cases heq
      simp
  obtain ⟨hdigit, hquote, hword, hparameter⟩ : c.isDigit = false ∧ ¬(c = '\'' ∨ c = '"') ∧
      beginsWord c = false ∧ c ≠ '@' := by
    rcases hc with hc | rfl | rfl | rfl
    · obtain ⟨hdigit, hquote, hword, hparameter, -⟩ := begins_only_mark hc
      exact ⟨hdigit, hquote, hword, hparameter⟩
    all_goals exact ⟨rfl, by decide, beginsWord_eq_false rfl, by decide⟩
  rw [token, hdigit, if_neg Bool.false_ne_true, if_neg hquote, hword, if_neg Bool.false_ne_true,
    if_neg hparameter, h]

theorem token_singleMark {m : Mark} (h : singleMark? c = some m) :
    token afterDot offset (c :: rest) = .ok (.mark m, rest) :=
  token_mark (mark?_single h)

/-! ## Texts between quotes -/

theorem token_quoted {content left : List Char} (hc : c = '\'' ∨ c = '"')
    (h : quoted c rest = some (content, left)) :
    token afterDot offset (c :: rest) = .ok (.text (String.ofList content), left) := by
  have hdigit : c.isDigit = false := by
    rcases hc with rfl | rfl <;> rfl
  rw [token, hdigit, if_neg Bool.false_ne_true, if_pos hc, h]

theorem quoted_quote (quote : Char) : quoted quote (quote :: rest) = some ([], rest) := by
  cases rest <;> simp [quoted]

theorem quoted_escaped {quote : Char} (h : '\\' ≠ quote) :
    quoted quote ('\\' :: c :: rest) =
      (quoted quote rest).map fun result => (unescape c :: result.1, result.2) := by
  simp [quoted, h]

theorem quoted_plain {quote : Char} (hquote : c ≠ quote) (hbackslash : c ≠ '\\') :
    quoted quote (c :: rest) = (quoted quote rest).map fun result => (c :: result.1, result.2) := by
  cases rest <;> simp [quoted, hquote, hbackslash]

/-- A way to write texts: a quote, and the characters that get a backslash. -/
structure Quotation where
  quote : Char
  marked : Char → Bool
  quote_eq : quote = '\'' ∨ quote = '"'
  marked_quote : marked quote
  marked_backslash : marked '\\'
  of_marked : ∀ c, marked c → c = '\'' ∨ c = '"' ∨ c = '\\'

namespace Quotation

def escape (w : Quotation) : List Char → List Char
  | [] => []
  | c :: rest => if w.marked c then '\\' :: c :: w.escape rest else c :: w.escape rest

def write (w : Quotation) (text : List Char) : List Char :=
  w.quote :: (w.escape text ++ [w.quote])

/-- A backslash stands before each enclosing quote and each backslash, and nowhere else. -/
def enclosing (quote : Char) (h : quote = '\'' ∨ quote = '"') : Quotation where
  quote := quote
  marked c := c = quote || c = '\\'
  quote_eq := h
  marked_quote := by simp
  marked_backslash := by simp
  of_marked c hc := by
    rw [Bool.or_eq_true, decide_eq_true_eq, decide_eq_true_eq] at hc
    rcases hc with rfl | rfl
    · exact h.imp_right .inl
    · exact .inr (.inr rfl)

theorem unescape_of_marked (w : Quotation) (h : w.marked c) : unescape c = c := by
  rcases w.of_marked c h with rfl | rfl | rfl <;> rfl

/-- What is written between quotes is read back. -/
theorem quoted_escape (w : Quotation) (text rest : List Char) :
    quoted w.quote (w.escape text ++ w.quote :: rest) = some (text, rest) := by
  induction text with
  | nil => exact quoted_quote w.quote
  | cons c others ih =>
      by_cases hc : w.marked c
      · have hbackslash : '\\' ≠ w.quote := by
          rcases w.quote_eq with h | h <;> rw [h] <;> decide
        rw [escape, if_pos hc, List.cons_append, List.cons_append, quoted_escaped hbackslash, ih,
          unescape_of_marked w hc]
        rfl
      · have hquote : c ≠ w.quote := fun h => hc (h ▸ w.marked_quote)
        have hbackslash : c ≠ '\\' := fun h => hc (h ▸ w.marked_backslash)
        rw [escape, if_neg hc, List.cons_append, quoted_plain hquote hbackslash, ih]
        rfl

theorem token_write (w : Quotation) (text : List Char) :
    token afterDot offset (w.write text ++ rest) = .ok (.text (String.ofList text), rest) := by
  have hread : quoted w.quote (w.escape text ++ [w.quote] ++ rest) = some (text, rest) := by
    rw [List.append_assoc]
    exact w.quoted_escape text rest
  exact token_quoted w.quote_eq hread

theorem beginsToken_write (w : Quotation) (text rest : List Char) :
    beginsToken (w.write text ++ rest) := by
  rw [write]
  rcases w.quote_eq with hquote | hquote <;> rw [hquote] <;> rfl

end Quotation

/-! ## Cuts -/

/-- A text is blanks and then tokens up to its end; the flag says whether a dot stands before it. -/
inductive Cuts : Bool → List Char → List Token → Prop where
  | finish {afterDot : Bool} {cs : List Char} (h : skipBetween cs = []) : Cuts afterDot cs [.finish]
  | token {afterDot : Bool} {cs front left : List Char} {t : Token} {ts : List Token}
      (hfront : skipBetween cs = front) (hne : front ≠ [])
      (htoken : ∀ offset, Lexer.token afterDot offset front = .ok (t, left))
      (h : Cuts (isDot t) left ts) : Cuts afterDot cs (t :: ts)

theorem skipBetween_blanks {blanks cs : List Char} (hblanks : ∀ b ∈ blanks, Text.isBlank b)
    (h : beginsToken cs) : skipBetween (blanks ++ cs) = cs := by
  rw [(Gap.of_blanks hblanks).skipBetween_append, skipBetween_of_beginsToken h]

namespace Cuts

variable {blanks : List Char} {ts : List Token}

theorem word (hblanks : ∀ b ∈ blanks, Text.isBlank b) {name : List Char} (hname : isWord name)
    {t : Token} (ht : wordToken afterDot name = t) (hrest : EndsWord rest)
    (h : Cuts false rest ts) : Cuts afterDot (blanks ++ (name ++ rest)) (t :: ts) := by
  subst ht
  have hbegins := beginsToken_of_isWord hname rest
  obtain ⟨c, others, hcons⟩ := exists_cons_of_beginsToken hbegins
  refine .token (skipBetween_blanks hblanks hbegins) (hcons ▸ List.cons_ne_nil _ _)
    (fun _ => token_word hname hrest) ?_
  rwa [isDot_wordToken]

theorem mark (hblanks : ∀ b ∈ blanks, Text.isBlank b) {m : Mark} (hm : singleMark? c = some m)
    (hblank : Text.isBlank c = false) (hdash : c ≠ '-') (hslash : c ≠ '/')
    (h : Cuts (isDot (.mark m)) rest ts) : Cuts afterDot (blanks ++ c :: rest) (.mark m :: ts) := by
  have hbegins : beginsToken (c :: rest) :=
    beginsToken_cons_iff.mpr ⟨fun hc => absurd hc hdash, fun hc => absurd hc hslash, hblank⟩
  exact .token (skipBetween_blanks hblanks hbegins) (List.cons_ne_nil _ _)
    (fun _ => token_singleMark hm) h

theorem text (hblanks : ∀ b ∈ blanks, Text.isBlank b) (w : Quotation) (content : List Char)
    (h : Cuts false rest ts) :
    Cuts afterDot (blanks ++ (w.write content ++ rest))
      (.text (String.ofList content) :: ts) :=
  .token (skipBetween_blanks hblanks (w.beginsToken_write content rest)) (List.cons_ne_nil _ _)
    (fun _ => w.token_write content) h

end Cuts

end Lexer

end DocQuery
