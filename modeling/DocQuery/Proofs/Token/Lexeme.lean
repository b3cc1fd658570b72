import DocQuery.Proofs.Token.Spacing

/-!
# The characters of a token

A token takes characters of one shape from the front of a text: a word, a mark, a numeral,
a text up to the quote that closes it, or a parameter.  What follows is not looked at here.
-/

namespace DocQuery

namespace Lexer

variable {c quote : Char} {cs left rest : List Char} {t : Token}

/-- What stands between two quotes, and the text that it is read as. -/
inductive Quoted (quote : Char) : List Char → List Char → Prop where
  | nil : Quoted quote [] []
  | plain {c : Char} {inside content : List Char} (hquote : c ≠ quote) (hbackslash : c ≠ '\\')
      (h : Quoted quote inside content) : Quoted quote (c :: inside) (c :: content)
  | escaped (c : Char) {inside content : List Char} (h : Quoted quote inside content) :
      Quoted quote ('\\' :: c :: inside) (unescape c :: content)

def IsDigits (cs : List Char) : Prop :=
  cs ≠ [] ∧ ∀ c ∈ cs, c.isDigit

def IsFraction (cs : List Char) : Prop :=
  ∃ ds, IsDigits ds ∧ cs = '.' :: ds

def IsExponent (cs : List Char) : Prop :=
  ∃ letter sign ds, (letter = 'e' ∨ letter = 'E') ∧ sign ∈ [[], ['-'], ['+']] ∧ IsDigits ds ∧
    cs = letter :: (sign ++ ds)

/-- A token and the characters it is made of. -/
inductive Lexeme : Token → List Char → Prop where
  | word (afterDot : Bool) {name : List Char} (h : isWord name) :
      Lexeme (wordToken afterDot name) name
  | parameter {name : List Char} (hne : name ≠ []) (h : ∀ c ∈ name, continuesWord c) :
      Lexeme (.parameter (String.ofList ('@' :: name))) ('@' :: name)
  | mark {m : Mark} {cs : List Char} (h : cs ∈ m.spellings) : Lexeme (.mark m) cs
  | text {quote : Char} {inside content : List Char} (hquote : quote = '\'' ∨ quote = '"')
      (h : Quoted quote inside content) :
      Lexeme (.text (String.ofList content)) (quote :: (inside ++ [quote]))
  | integer {ds : List Char} (h : IsDigits ds) :
      Lexeme (.integer (Decimal.ofDigits ds [] 0).coefficient) ds
  | float (x : Float) {whole point power : List Char} (hwhole : IsDigits whole)
      (hpoint : point = [] ∨ IsFraction point) (hpower : power = [] ∨ IsExponent power) :
      Lexeme (.float x) (whole ++ (point ++ power))

/-! ## Numerals -/

theorem isDigits_digits (h : beginsWithDigit cs) : IsDigits (digits cs).1 := by
  cases cs with
  | nil => cases h
  | cons c cs =>
      have hc : c.isDigit := h
      refine ⟨?_, fun d hd => List.mem_takeWhile_imp hd⟩
      rw [digits_cons hc]
      exact List.cons_ne_nil _ _

theorem isFraction_of_fraction {ds : List Char} (h : fraction cs = some (ds, left)) :
    ∃ point, IsFraction point ∧ cs = point ++ left := by
  unfold fraction at h
  split at h
  · rename_i rest
    split at h
    · rename_i hdigit
      cases h
      exact ⟨_, ⟨_, isDigits_digits hdigit, rfl⟩, congrArg ('.' :: ·) (digits_append rest)⟩
    · cases h
  · cases h

theorem exponentSign_eq (cs : List Char) :
    ∃ sign ∈ [[], ['-'], ['+']], cs = sign ++ (exponentSign cs).2 := by
  unfold exponentSign
  split
  · exact ⟨['-'], by simp, rfl⟩
  · exact ⟨['+'], by simp, rfl⟩
  · exact ⟨[], by simp, rfl⟩

theorem isExponent_of_exponent {value : Int} (h : exponent cs = some (value, left)) :
    ∃ power, IsExponent power ∧ cs = power ++ left := by
  unfold exponent at h
  split at h
  · rename_i letter rest
    split at h
    · rename_i hletter
      dsimp only at h
      split at h
      · rename_i hdigit
        cases h
        obtain ⟨sign, hsign, hrest⟩ := exponentSign_eq rest
        refine ⟨_, ⟨letter, sign, _, hletter, hsign, isDigits_digits hdigit, rfl⟩, ?_⟩
        rw [List.cons_append, List.append_assoc, ← digits_append, ← hrest]
      · cases h
    · cases h
  · cases h

theorem exists_point (cs : List Char) :
    ∃ point, (point = [] ∨ IsFraction point) ∧ cs = point ++ ((fraction cs).getD ([], cs)).2 := by
  cases h : fraction cs with
  | none => exact ⟨[], .inl rfl, rfl⟩
  | some read =>
      obtain ⟨point, hpoint, hcs⟩ := isFraction_of_fraction h
      exact ⟨point, .inr hpoint, hcs⟩

theorem exists_power (cs : List Char) :
    ∃ power, (power = [] ∨ IsExponent power) ∧ cs = power ++ ((exponent cs).getD (0, cs)).2 := by
  cases h : exponent cs with
  | none => exact ⟨[], .inl rfl, rfl⟩
  | some read =>
      obtain ⟨power, hpower, hcs⟩ := isExponent_of_exponent h
      exact ⟨power, .inr hpower, hcs⟩

theorem exists_lexeme_of_number (hc : c.isDigit) (h : number (c :: rest) = .ok (t, left)) :
    ∃ lexeme, c :: rest = lexeme ++ left ∧ Lexeme t lexeme := by
  have hwhole : IsDigits (digits (c :: rest)).1 := isDigits_digits hc
  have hcs := digits_append (c :: rest)
  obtain ⟨point, hpoint, hlast⟩ := exists_point (digits (c :: rest)).2
  obtain ⟨power, hpower, hmiddle⟩ :=
    exists_power ((fraction (digits (c :: rest)).2).getD ([], (digits (c :: rest)).2)).2
  unfold number at h
  dsimp only at h
  split at h
  · split at h
    · cases h
      exact ⟨_, hcs, .integer hwhole⟩
    · cases h
  · cases h
    refine ⟨_, ?_, .float _ hwhole hpoint hpower⟩
    rw [List.append_assoc, List.append_assoc, ← hmiddle, ← hlast, ← hcs]

/-! ## Tokens -/

theorem quoted_of_eq_some {content : List Char} (h : quoted quote cs = some (content, left)) :
    ∃ inside, cs = inside ++ quote :: left ∧ Quoted quote inside content := by
  fun_induction quoted quote cs generalizing content with
  | case1 => cases h
  | case2 rest =>
      cases h
      exact ⟨[], rfl, .nil⟩
  | case3 hquote => cases h
  | case4 escaped rest hquote ih =>
      obtain ⟨⟨content, left⟩, hrest, heq⟩ := Option.map_eq_some_iff.mp h
      cases heq
      obtain ⟨inside, rfl, hinside⟩ := ih hrest
      exact ⟨'\\' :: escaped :: inside, rfl, .escaped escaped hinside⟩
  | case5 c rest hquote hbackslash ih =>
      obtain ⟨⟨content, left⟩, hrest, heq⟩ := Option.map_eq_some_iff.mp h
      cases heq
      obtain ⟨inside, rfl, hinside⟩ := ih hrest
      exact ⟨c :: inside, rfl, .plain hquote hbackslash hinside⟩

theorem mem_spellings_of_singleMark? {m : Mark} (h : singleMark? c = some m) :
    [c] ∈ m.spellings := by
  have hc := mem_markCharacters h
  simp only [markCharacters, List.mem_cons, List.not_mem_nil, or_false] at hc
  rcases hc with
      rfl | rfl | rfl | rfl | rfl | rfl | rfl | rfl | rfl | rfl | rfl | rfl | rfl | rfl <;>
    cases h <;> exact List.mem_singleton_self _

theorem exists_lexeme_of_mark {m : Mark} (h : mark? cs = some (m, left)) :
    ∃ lexeme, cs = lexeme ++ left ∧ lexeme ∈ m.spellings := by
  unfold mark? at h
  split at h
  case h_7 =>
    obtain ⟨m, hm, heq⟩ := Option.map_eq_some_iff.mp h
    cases heq
    exact ⟨[_], rfl, mem_spellings_of_singleMark? hm⟩
  case h_8 => cases h
  all_goals cases h
  · exact ⟨['!', '='], rfl, by simp [Mark.spellings]⟩
  · exact ⟨['<', '='], rfl, by simp [Mark.spellings]⟩
  · exact ⟨['<', '>'], rfl, by simp [Mark.spellings]⟩
  · exact ⟨['<'], rfl, by simp [Mark.spellings]⟩
  · exact ⟨['>', '='], rfl, by simp [Mark.spellings]⟩
  · exact ⟨['>'], rfl, by simp [Mark.spellings]⟩

/-- What is taken from the front of a text has the shape of the token. -/
theorem exists_lexeme_of_token {afterDot : Bool} {offset : Nat}
    (h : token afterDot offset (c :: rest) = .ok (t, left)) :
    ∃ lexeme, c :: rest = lexeme ++ left ∧ Lexeme t lexeme := by
  rcases token_cases h with ⟨hdigit, hnumber⟩ | ⟨hquote, content, hquoted, rfl⟩ |
    ⟨hbegins, name, hname, rfl⟩ | ⟨rfl, name, hname, hne, rfl⟩ | ⟨m, hmark, rfl⟩
  · exact exists_lexeme_of_number hdigit hnumber
  · obtain ⟨inside, rfl, hinside⟩ := quoted_of_eq_some hquoted
    exact ⟨c :: (inside ++ [c]), by simp, .text hquote hinside⟩
  · have hc := continuesWord_of_beginsWord hbegins
    rw [word, List.takeWhile_cons_of_pos hc, List.dropWhile_cons_of_pos hc] at hname
    cases hname
    refine ⟨c :: rest.takeWhile continuesWord, ?_, .word afterDot ?_⟩
    · rw [List.cons_append, List.takeWhile_append_dropWhile]
    · rw [isWord, hbegins, Bool.true_and, List.all_takeWhile]
  · cases hname
    refine ⟨'@' :: rest.takeWhile continuesWord, ?_,
      .parameter hne fun a ha => List.mem_takeWhile_imp ha⟩
    rw [List.cons_append, List.takeWhile_append_dropWhile]
  · obtain ⟨lexeme, hcs, hlexeme⟩ := exists_lexeme_of_mark hmark
    exact ⟨lexeme, hcs, .mark hlexeme⟩

end Lexer

end DocQuery
