import DocQuery.Token.Lexer

/-!
# What stands between tokens

Blanks and comments are skipped before a token.  What is skipped is a run of blanks and of
comments that have an end, unless nothing but an unfinished comment is left.
-/

namespace DocQuery

namespace Lexer

variable {c : Char} {cs rest : List Char}

/-! ## Skipping without a budget -/

theorem skipSeparators_congr {m n : Nat} (hm : cs.length < m) (hn : cs.length < n) :
    skipSeparators m cs = skipSeparators n cs := by
  induction m generalizing cs n with
  | zero => omega
  | succ m ih =>
      obtain ⟨n, rfl⟩ : ∃ fewer, n = fewer + 1 := Nat.exists_eq_succ_of_ne_zero (by omega)
      have hdrop : (cs.dropWhile Text.isBlank).length ≤ cs.length :=
        (List.dropWhile_suffix _).length_le
      simp only [skipSeparators]
      split
      · rename_i rest hfront
        have hline := length_skipLine_le rest
        rw [hfront, List.length_cons, List.length_cons] at hdrop
        exact ih (by omega) (by omega)
      · rename_i rest hfront
        have hblock := length_skipBlock_le rest
        rw [hfront, List.length_cons, List.length_cons] at hdrop
        exact ih (by omega) (by omega)
      · rfl

theorem skipBetween_line : skipBetween ('-' :: '-' :: rest) = skipBetween (skipLine rest) := by
  have hline := length_skipLine_le rest
  have hdrop : ('-' :: '-' :: rest).dropWhile Text.isBlank = '-' :: '-' :: rest :=
    List.dropWhile_cons_of_neg (by decide)
  rw [skipBetween, skipSeparators, hdrop]
  exact skipSeparators_congr (by simp only [List.length_cons]; omega) (Nat.lt_succ_self _)

theorem skipBetween_block : skipBetween ('/' :: '*' :: rest) = skipBetween (skipBlock rest) := by
  have hblock := length_skipBlock_le rest
  have hdrop : ('/' :: '*' :: rest).dropWhile Text.isBlank = '/' :: '*' :: rest :=
    List.dropWhile_cons_of_neg (by decide)
  rw [skipBetween, skipSeparators, hdrop]
  exact skipSeparators_congr (by simp only [List.length_cons]; omega) (Nat.lt_succ_self _)

theorem skipBetween_blank (hc : Text.isBlank c) : skipBetween (c :: rest) = skipBetween rest := by
  have hbudget : skipBetween rest = skipSeparators (rest.length + 2) rest :=
    skipSeparators_congr (by omega) (by omega)
  rw [hbudget, skipBetween, List.length_cons]
  simp only [skipSeparators, List.dropWhile_cons_of_pos hc]

/-- Whether a text begins with neither a blank nor a comment. -/
def beginsToken : List Char → Bool
  | '-' :: '-' :: _ => false
  | '/' :: '*' :: _ => false
  | c :: _ => !Text.isBlank c
  | [] => false

theorem beginsToken_cons_iff :
    beginsToken (c :: cs) ↔
      (c = '-' → ∀ rest, cs ≠ '-' :: rest) ∧ (c = '/' → ∀ rest, cs ≠ '*' :: rest) ∧
        Text.isBlank c = false := by
  unfold beginsToken
  split <;> simp_all

theorem exists_cons_of_beginsToken (h : beginsToken cs) : ∃ c rest, cs = c :: rest :=
  List.exists_cons_of_ne_nil (by rintro rfl; cases h)

theorem skipBetween_nil : skipBetween [] = [] := rfl

/-- Nothing is skipped in front of a token. -/
theorem skipBetween_of_beginsToken (h : beginsToken cs) : skipBetween cs = cs := by
  unfold beginsToken at h
  split at h
  · cases h
  · cases h
  · rename_i c rest hline hblock
    have hc : ¬Text.isBlank c := by simpa using h
    rw [skipBetween, skipSeparators, List.dropWhile_cons_of_neg hc]
    split
    · rename_i rest' heq
      obtain ⟨rfl, rfl⟩ := List.cons.inj heq
      exact (hline rest' rfl rfl).elim
    · rename_i rest' heq
      obtain ⟨rfl, rfl⟩ := List.cons.inj heq
      exact (hblock rest' rfl rfl).elim
    · rfl
  · cases h

/-- What is skipped, piece by piece. -/
theorem skipping_induction {P : List Char → Prop} (nil : P [])
    (blank : ∀ c rest, Text.isBlank c → P rest → P (c :: rest))
    (line : ∀ rest, P (skipLine rest) → P ('-' :: '-' :: rest))
    (block : ∀ rest, P (skipBlock rest) → P ('/' :: '*' :: rest))
    (token : ∀ cs, beginsToken cs → P cs) (cs : List Char) : P cs := by
  induction hlength : cs.length using Nat.strongRecOn generalizing cs with
  | ind n ih =>
      subst hlength
      by_cases hbegins : beginsToken cs
      · exact token cs hbegins
      · unfold beginsToken at hbegins
        split at hbegins
        · rename_i rest
          have hline := length_skipLine_le rest
          exact line rest (ih _ (by simp only [List.length_cons]; omega) _ rfl)
        · rename_i rest
          have hblock := length_skipBlock_le rest
          exact block rest (ih _ (by simp only [List.length_cons]; omega) _ rfl)
        · rename_i c rest _ _
          exact blank c rest (by simpa using hbegins) (ih _ (by simp) _ rfl)
        · exact nil

/-! ## Gaps -/

/-- Blanks and comments; each comment has its end. -/
inductive Gap : List Char → Prop where
  | nil : Gap []
  | blank {c : Char} {cs : List Char} (hc : Text.isBlank c) (h : Gap cs) : Gap (c :: cs)
  /-- A comment up to the end of its line. -/
  | line {text cs : List Char} (htext : '\n' ∉ text) (h : Gap cs) :
      Gap ('-' :: '-' :: (text ++ '\n' :: cs))
  /-- A comment up to the first mark that closes it. -/
  | block {text cs : List Char} (htext : ¬['*', '/'] <:+: text ++ ['*']) (h : Gap cs) :
      Gap ('/' :: '*' :: (text ++ '*' :: '/' :: cs))

theorem skipLine_append {text : List Char} (h : '\n' ∉ text) :
    skipLine (text ++ '\n' :: rest) = rest := by
  induction text with
  | nil => simp [skipLine]
  | cons c text ih =>
      obtain ⟨hc, htext⟩ := not_or.mp (fun hmem => h (List.mem_cons.mpr hmem))
      rw [List.cons_append, skipLine, if_neg (Ne.symm hc), ih htext]

theorem skipBlock_append {text : List Char} (h : ¬['*', '/'] <:+: text ++ ['*']) :
    skipBlock (text ++ '*' :: '/' :: rest) = rest := by
  induction text with
  | nil => rfl
  | cons c text ih =>
      have htext : ¬['*', '/'] <:+: text ++ ['*'] := fun hwithin =>
        h (hwithin.trans (List.infix_cons (List.infix_refl _)))
      rw [List.cons_append, skipBlock]
      · exact ih htext
      · rintro rest' rfl heq
        cases text with
        | nil => cases heq
        | cons d text =>
            obtain rfl := (List.cons.inj heq).1
            exact h ⟨[], text ++ ['*'], rfl⟩

theorem skipLine_of_not_mem {text : List Char} (h : '\n' ∉ text) : skipLine text = [] := by
  induction text with
  | nil => rfl
  | cons c text ih =>
      obtain ⟨hc, htext⟩ := not_or.mp (fun hmem => h (List.mem_cons.mpr hmem))
      rw [skipLine, if_neg (Ne.symm hc), ih htext]

/-- A comment is closed by the first mark that can close it, or there is none. -/
theorem skipBlock_cases (cs : List Char) :
    (∃ text, ¬['*', '/'] <:+: text ++ ['*'] ∧ cs = text ++ '*' :: '/' :: skipBlock cs) ∨
      (¬['*', '/'] <:+: cs ∧ skipBlock cs = []) := by
  fun_induction skipBlock cs with
  | case1 => exact .inr ⟨by decide, rfl⟩
  | case2 rest => exact .inl ⟨[], by decide, rfl⟩
  | case3 c rest hclose ih =>
      rcases ih with ⟨text, htext, hrest⟩ | ⟨hrest, hnil⟩
      · refine .inl ⟨c :: text, fun hwithin => ?_, congrArg (c :: ·) hrest⟩
        rcases List.infix_cons_iff.mp hwithin with hfront | hwithin
        · obtain ⟨hc, hslash⟩ := List.cons_prefix_cons.mp hfront
          cases text with
          | nil => cases (List.cons_prefix_cons.mp hslash).1
          | cons d text =>
              obtain rfl := (List.cons_prefix_cons.mp hslash).1
              exact hclose _ hc.symm hrest
        · exact htext hwithin
      · refine .inr ⟨fun hwithin => ?_, hnil⟩
        rcases List.infix_cons_iff.mp hwithin with ⟨left, hfront⟩ | hwithin
        · obtain ⟨hc, hslash⟩ := List.cons.inj hfront
          exact hclose left hc.symm hslash.symm
        · exact hrest hwithin

/-- What is skipped in front of a token is a gap. -/
theorem exists_gap (cs : List Char) :
    ∃ gap, cs = gap ++ skipBetween cs ∧
      (skipBetween cs ≠ [] → Gap gap ∧ beginsToken (skipBetween cs)) := by
  induction cs using skipping_induction with
  | nil => exact ⟨[], rfl, fun h => (h rfl).elim⟩
  | blank c rest hc ih =>
      obtain ⟨gap, hrest, hgap⟩ := ih
      rw [skipBetween_blank hc]
      exact ⟨c :: gap, congrArg (c :: ·) hrest, fun h => (hgap h).imp_left (.blank hc)⟩
  | line rest ih =>
      rw [skipBetween_line]
      by_cases hmem : '\n' ∈ rest
      · obtain ⟨text, rest, rfl, htext⟩ := List.eq_append_cons_of_mem hmem
        rw [skipLine_append htext] at ih ⊢
        obtain ⟨gap, hrest, hgap⟩ := ih
        refine ⟨'-' :: '-' :: (text ++ '\n' :: gap), ?_, fun h => (hgap h).imp_left (.line htext)⟩
        simpa using hrest
      · rw [skipLine_of_not_mem hmem]
        exact ⟨'-' :: '-' :: rest, (List.append_nil _).symm, fun h => (h rfl).elim⟩
  | block rest ih =>
      rw [skipBetween_block]
      rcases skipBlock_cases rest with ⟨text, htext, hrest⟩ | ⟨-, hnil⟩
      · obtain ⟨gap, hgap, hbegins⟩ := ih
        refine ⟨'/' :: '*' :: (text ++ '*' :: '/' :: gap), ?_,
          fun h => (hbegins h).imp_left (.block htext)⟩
        have hgap' : rest = text ++ '*' :: '/' :: (gap ++ skipBetween (skipBlock rest)) := by
          rw [← hgap, ← hrest]
        simpa using hgap'
      · rw [hnil]
        exact ⟨'/' :: '*' :: rest, (List.append_nil _).symm, fun h => (h rfl).elim⟩
  | token cs h =>
      rw [skipBetween_of_beginsToken h]
      exact ⟨[], rfl, fun _ => ⟨.nil, h⟩⟩

namespace Gap

variable {gap gap' : List Char}

theorem skipBetween_append (h : Gap gap) (cs : List Char) :
    skipBetween (gap ++ cs) = skipBetween cs := by
  induction h with
  | nil => rfl
  | blank hc _ ih => rw [List.cons_append, skipBetween_blank hc, ih]
  | line htext _ ih =>
      rw [List.cons_append, List.cons_append, List.append_assoc, skipBetween_line, List.cons_append,
        skipLine_append htext, ih]
  | block htext _ ih =>
      rw [List.cons_append, List.cons_append, List.append_assoc, skipBetween_block,
        List.cons_append, List.cons_append, skipBlock_append htext, ih]

theorem append (h : Gap gap) (h' : Gap gap') : Gap (gap ++ gap') := by
  induction h with
  | nil => exact h'
  | blank hc _ ih => exact .blank hc ih
  | line htext _ ih =>
      rw [List.cons_append, List.cons_append, List.append_assoc, List.cons_append]
      exact .line htext ih
  | block htext _ ih =>
      rw [List.cons_append, List.cons_append, List.append_assoc, List.cons_append, List.cons_append]
      exact .block htext ih

theorem of_blanks (h : ∀ c ∈ gap, Text.isBlank c) : Gap gap := by
  induction gap with
  | nil => exact .nil
  | cons c rest ih =>
      obtain ⟨hc, hrest⟩ := List.forall_mem_cons.mp h
      exact .blank hc (ih hrest)

end Gap

/-! ## Blanks at the end -/

section Blanks

variable {blanks : List Char}

theorem skipLine_suffix (cs : List Char) : skipLine cs <:+ cs := by
  induction cs with
  | nil => exact List.suffix_refl _
  | cons c rest ih =>
      rw [skipLine]
      split
      · exact List.suffix_cons c rest
      · exact ih.trans (List.suffix_cons c rest)

theorem skipBlock_suffix (cs : List Char) : skipBlock cs <:+ cs := by
  fun_induction skipBlock cs with
  | case1 => exact List.suffix_refl _
  | case2 rest => exact ⟨['*', '/'], rfl⟩
  | case3 c rest _ ih => exact ih.trans (List.suffix_cons c rest)

/-- Blanks behind a comment of one line stay there, or the comment goes on into them. -/
theorem exists_skipLine_append (cs : List Char) (hblanks : ∀ b ∈ blanks, Text.isBlank b) :
    ∃ left, (∀ b ∈ left, Text.isBlank b) ∧ skipLine (cs ++ blanks) = skipLine cs ++ left := by
  induction cs with
  | nil => exact ⟨skipLine blanks, fun b hb => hblanks b ((skipLine_suffix _).mem hb), rfl⟩
  | cons c rest ih =>
      rw [List.cons_append, skipLine, skipLine]
      split
      · exact ⟨blanks, hblanks, rfl⟩
      · exact ih

/-- Blanks do not close a comment. -/
theorem exists_skipBlock_append (cs : List Char) (hblanks : ∀ b ∈ blanks, Text.isBlank b) :
    ∃ left, (∀ b ∈ left, Text.isBlank b) ∧ skipBlock (cs ++ blanks) = skipBlock cs ++ left := by
  fun_induction skipBlock cs with
  | case1 => exact ⟨skipBlock blanks, fun b hb => hblanks b ((skipBlock_suffix _).mem hb), rfl⟩
  | case2 rest => exact ⟨blanks, hblanks, rfl⟩
  | case3 c rest hclose ih =>
      rw [List.cons_append, skipBlock]
      · exact ih
      · intro rest' hc heq
        cases rest with
        | nil =>
            obtain rfl : blanks = '/' :: rest' := heq
            cases hblanks '/' List.mem_cons_self
        | cons d rest => exact hclose rest hc (by rw [(List.cons.inj heq).1])

/-- Where nothing is left to read, there is nothing with blanks behind it either. -/
theorem skipBetween_append_blanks (h : skipBetween cs = [])
    (hblanks : ∀ b ∈ blanks, Text.isBlank b) : skipBetween (cs ++ blanks) = [] := by
  induction cs using skipping_induction generalizing blanks with
  | nil =>
      have hgap := (Gap.of_blanks hblanks).skipBetween_append []
      rwa [List.append_nil] at hgap
  | blank c rest hc ih =>
      rw [skipBetween_blank hc] at h
      rw [List.cons_append, skipBetween_blank hc]
      exact ih h hblanks
  | line rest ih =>
      rw [skipBetween_line] at h
      obtain ⟨left, hleft, hskip⟩ := exists_skipLine_append rest hblanks
      rw [List.cons_append, List.cons_append, skipBetween_line, hskip]
      exact ih h hleft
  | block rest ih =>
      rw [skipBetween_block] at h
      obtain ⟨left, hleft, hskip⟩ := exists_skipBlock_append rest hblanks
      rw [List.cons_append, List.cons_append, skipBetween_block, hskip]
      exact ih h hleft
  | token cs hbegins =>
      rw [skipBetween_of_beginsToken hbegins] at h
      subst h
      cases hbegins

end Blanks

end Lexer

end DocQuery
