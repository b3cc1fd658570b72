import DocQuery.Proofs.Token.Lexeme
import DocQuery.Proofs.Token.Scan

/-!
# Tokens cover a text

Gaps and tokens in turn make up a text from its start to its end.  Every token takes a
character, so offsets go up, and there are no more tokens than characters but for the one that
marks the end.
-/

namespace DocQuery

namespace Lexer

inductive Unclosed : List Char → Prop where
  | line {text : List Char} (h : '\n' ∉ text) : Unclosed ('-' :: '-' :: text)
  | block {text : List Char} (h : ¬['*', '/'] <:+: text) : Unclosed ('/' :: '*' :: text)

/-- Blanks and comments up to the end of the text, which may cut off the last comment. -/
inductive LastGap : List Char → Prop where
  | closed {gap : List Char} (h : Gap gap) : LastGap gap
  | unclosed {gap comment : List Char} (h : Gap gap) (hcomment : Unclosed comment) :
      LastGap (gap ++ comment)

/--
From some place on, a text is gaps and tokens in turn.  Each token is what is read at its
offset, its own text has the shape of such a token, and the next gap begins where this text
stops; the flag says whether the token before the first gap is a dot.
-/
inductive Covers (query : List Char) : Bool → Nat → List Placed → Prop where
  | finish {afterDot : Bool} {start : Nat} (hstart : start ≤ query.length)
      (hgap : LastGap (query.drop start)) : Covers query afterDot start [⟨.finish, query.length⟩]
  | token {afterDot : Bool} {start offset stop : Nat} {t : Token} {others : List Placed}
      (hstart : start ≤ offset) (hgap : Gap ((query.drop start).take (offset - start)))
      (hoffset : offset < stop) (hstop : stop ≤ query.length)
      (hbegins : beginsToken (query.drop offset))
      (htoken : Lexer.token afterDot offset (query.drop offset) = .ok (t, query.drop stop))
      (hlexeme : Lexeme t ((query.drop offset).take (stop - offset)))
      (h : Covers query (isDot t) stop others) :
      Covers query afterDot start (⟨t, offset⟩ :: others)

variable {c : Char} {afterDot : Bool} {query cs rest left : List Char} {start offset : Nat}
  {t : Token} {ps : List (Token × Nat)} {placed : List Placed} {p : Placed}

/-! ## The last gap -/

theorem skipBlock_of_not_infix (h : ¬['*', '/'] <:+: cs) : skipBlock cs = [] := by
  rcases skipBlock_cases cs with ⟨text, -, htext⟩ | ⟨-, hnil⟩
  · rw [htext] at h
    exact absurd ⟨text, skipBlock cs, by simp⟩ h
  · exact hnil

theorem Unclosed.skipBetween (h : Unclosed cs) : skipBetween cs = [] := by
  cases h with
  | line h => rw [skipBetween_line, skipLine_of_not_mem h, skipBetween_nil]
  | block h => rw [skipBetween_block, skipBlock_of_not_infix h, skipBetween_nil]

theorem LastGap.prepend {gap : List Char} (h : LastGap cs) (hgap : Gap gap) :
    LastGap (gap ++ cs) := by
  cases h with
  | closed h => exact .closed (hgap.append h)
  | unclosed h hcomment =>
      rw [← List.append_assoc]
      exact .unclosed (hgap.append h) hcomment

/-- Nothing is left to read exactly where there is a last gap. -/
theorem skipBetween_eq_nil_iff : skipBetween cs = [] ↔ LastGap cs := by
  constructor
  · intro h
    induction cs using skipping_induction with
    | nil => exact .closed .nil
    | blank c rest hc ih =>
        rw [skipBetween_blank hc] at h
        exact (ih h).prepend (.blank hc .nil)
    | line rest ih =>
        rw [skipBetween_line] at h
        by_cases hmem : '\n' ∈ rest
        · obtain ⟨text, rest, rfl, htext⟩ := List.eq_append_cons_of_mem hmem
          rw [skipLine_append htext] at ih h
          simpa using (ih h).prepend (.line htext .nil)
        · exact .unclosed .nil (.line hmem)
    | block rest ih =>
        rw [skipBetween_block] at h
        rcases skipBlock_cases rest with ⟨text, htext, hrest⟩ | ⟨hopen, -⟩
        · have hcomment : '/' :: '*' :: rest =
              '/' :: '*' :: (text ++ '*' :: '/' :: skipBlock rest) := by rw [← hrest]
          rw [hcomment]
          simpa using (ih h).prepend (.block htext .nil)
        · exact .unclosed .nil (.block hopen)
    | token cs hbegins =>
        rw [skipBetween_of_beginsToken hbegins] at h
        subst h
        cases hbegins
  · intro h
    cases h with
    | closed h =>
        have hskip := h.skipBetween_append []
        rwa [List.append_nil] at hskip
    | unclosed h hcomment => rw [h.skipBetween_append, hcomment.skipBetween]

/-! ## Budgets -/

/-- Every token takes a character, so no text needs more budget than it has characters. -/
theorem tokensFrom_congr (total : Nat) {m n : Nat} (hm : cs.length ≤ m) (hn : cs.length ≤ n) :
    tokensFrom total m afterDot cs = tokensFrom total n afterDot cs := by
  induction m generalizing afterDot cs n with
  | zero =>
      obtain rfl := List.length_eq_zero_iff.mp (Nat.le_zero.mp hm)
      cases n <;> rfl
  | succ m ih =>
      obtain ⟨gap, hcs, -⟩ := exists_gap cs
      cases hskip : skipBetween cs with
      | nil =>
          rw [tokensFrom, hskip]
          cases n <;> rw [tokensFrom, hskip]
      | cons c rest =>
          rw [hskip] at hcs
          have hlength := congrArg List.length hcs
          rw [List.length_append, List.length_cons] at hlength
          obtain ⟨n, rfl⟩ : ∃ fewer, n = fewer + 1 := Nat.exists_eq_succ_of_ne_zero (by omega)
          rw [tokensFrom, tokensFrom, hskip]
          cases htoken : token afterDot (total - (rest.length + 1)) (c :: rest) with
          | error error => simp only [htoken]
          | ok result =>
              have hleft := length_lt_of_token htoken
              rw [List.length_cons] at hleft
              have hothers := @ih (isDot result.1) result.2 n (by omega) (by omega)
              simp only [htoken, hothers]

/-! ## Scans and covers -/

theorem ne_finish_of_number (h : number cs = .ok (t, left)) : t ≠ .finish := by
  simp only [number] at h
  split at h
  · split at h <;> cases h
    simp
  · cases h
    simp

theorem ne_finish_of_token (h : token afterDot offset (c :: rest) = .ok (t, left)) :
    t ≠ .finish := by
  rcases token_cases h with ⟨-, hnumber⟩ | ⟨-, content, -, rfl⟩ | ⟨-, name, -, rfl⟩ |
    ⟨-, name, -, -, rfl⟩ | ⟨m, -, rfl⟩
  · exact ne_finish_of_number hnumber
  · simp
  · unfold wordToken
    split
    · simp
    · split <;> simp
  · simp
  · simp

theorem Scan.covers (h : Scan afterDot cs ps) (hcs : cs = query.drop start)
    (hstart : start ≤ query.length) :
    Covers query afterDot start (ps.map (place query.length)) := by
  induction h generalizing start with
  | finish h =>
      subst hcs
      exact .finish hstart (skipBetween_eq_nil_iff.mp h)
  | @token afterDot gap front left t ps hgap hbegins htoken h ih =>
      obtain ⟨c, rest, rfl⟩ := exists_cons_of_beginsToken hbegins
      obtain ⟨lexeme, rfl, -⟩ := token_upToBlank (htoken 0)
      have hlength := congrArg List.length hcs
      simp only [List.length_append, List.length_cons, List.length_drop] at hlength
      have hoffset : place query.length (t, (c :: (lexeme ++ left)).length) =
          ⟨t, start + gap.length⟩ := by
        simp only [place, List.length_cons, List.length_append]
        congr 1
        omega
      have hfront : query.drop (start + gap.length) = c :: (lexeme ++ left) := by
        rw [← List.drop_drop, ← hcs, List.drop_left]
      have hleft : query.drop (start + gap.length + (lexeme.length + 1)) = left := by
        rw [← List.drop_drop, hfront, List.drop_succ_cons, List.drop_left]
      rw [List.map_cons, hoffset]
      have hstop : start + gap.length < start + gap.length + (lexeme.length + 1) := by omega
      obtain ⟨own, hown, hlexeme⟩ := exists_lexeme_of_token (htoken 0)
      obtain rfl : c :: lexeme = own := List.append_cancel_right hown
      refine .token (Nat.le_add_right _ _) ?_ hstop (by omega) ?_ ?_ ?_ (ih hleft.symm (by omega))
      · rw [← hcs, Nat.add_sub_cancel_left, List.take_left]
        exact hgap
      · rwa [hfront]
      · rw [hfront, hleft]
        exact htoken _
      · rwa [hfront, Nat.add_sub_cancel_left, ← List.cons_append, ← List.length_cons,
          List.take_left]

theorem Covers.exists_scan (h : Covers query afterDot start placed) :
    ∃ ps, Scan afterDot (query.drop start) ps ∧ placed = ps.map (place query.length) := by
  induction h with
  | finish hstart hgap => exact ⟨_, .finish (skipBetween_eq_nil_iff.mpr hgap), rfl⟩
  | @token afterDot start offset stop t others hstart hgap hoffset hstop hbegins htoken hlexeme h
      ih =>
      obtain ⟨ps, hscan, rfl⟩ := ih
      have hfront : query.drop start =
          (query.drop start).take (offset - start) ++ query.drop offset := by
        have hbehind : (query.drop start).drop (offset - start) = query.drop offset := by
          rw [List.drop_drop, Nat.add_sub_cancel' hstart]
        rw [← hbehind, List.take_append_drop]
      have hread : ∀ offset', Lexer.token afterDot offset' (query.drop offset) =
          .ok (t, query.drop stop) := by
        obtain ⟨c, rest, hcons⟩ := exists_cons_of_beginsToken hbegins
        rw [hcons] at htoken ⊢
        obtain ⟨lexeme, rfl, hread⟩ := token_upToBlank htoken
        exact fun offset' => hread offset' _ (.refl _)
      rw [hfront]
      refine ⟨_, .token hgap hbegins hread hscan, ?_⟩
      rw [List.map_cons, place, List.length_drop, Nat.sub_sub_self (by omega)]

/-! ## What is covered -/

namespace Covers

theorem le_offset (h : Covers query afterDot start placed) (hp : p ∈ placed) :
    start ≤ p.offset := by
  induction h with
  | finish hstart =>
      obtain rfl := List.mem_singleton.mp hp
      exact hstart
  | token hstart hgap hoffset hstop hbegins htoken hlexeme h ih =>
      rcases List.mem_cons.mp hp with rfl | hothers
      · exact hstart
      · have hlater := ih hothers
        omega

/-- A token takes a character, so the next one stands behind it. -/
theorem increasing (h : Covers query afterDot start placed) :
    placed.Pairwise fun p q => p.offset < q.offset := by
  induction h with
  | finish => exact List.pairwise_singleton _ _
  | token hstart hgap hoffset hstop hbegins htoken hlexeme h ih =>
      exact .cons (fun q hq => Nat.lt_of_lt_of_le hoffset (h.le_offset hq)) ih

theorem length_le (h : Covers query afterDot start placed) :
    start + placed.length ≤ query.length + 1 := by
  induction h with
  | finish hstart =>
      rw [List.length_singleton]
      omega
  | token hstart hgap hoffset hstop hbegins htoken hlexeme h ih =>
      rw [List.length_cons]
      omega

/-- Only the last token marks the end, and only it stands there. -/
theorem exists_finish (h : Covers query afterDot start placed) :
    ∃ earlier, placed = earlier ++ [⟨.finish, query.length⟩] ∧
      ∀ p ∈ earlier, p.token ≠ .finish ∧ p.offset < query.length := by
  induction h with
  | finish => exact ⟨[], rfl, List.forall_mem_nil _⟩
  | @token afterDot start offset stop t others hstart hgap hoffset hstop hbegins htoken hlexeme h
      ih =>
      obtain ⟨earlier, rfl, hearlier⟩ := ih
      obtain ⟨c, rest, hcons⟩ := exists_cons_of_beginsToken hbegins
      rw [hcons] at htoken
      exact ⟨⟨t, offset⟩ :: earlier, rfl, List.forall_mem_cons.mpr
        ⟨⟨ne_finish_of_token htoken, Nat.lt_of_lt_of_le hoffset hstop⟩, hearlier⟩⟩

end Covers

end Lexer

open Lexer

/-- The tokens of a text cover it, and no others do. -/
theorem tokenize_eq_ok_iff_covers {query : List Char} {placed : List Placed} :
    tokenize query = .ok placed ↔ Covers query false 0 placed := by
  rw [tokenize_eq_ok_iff]
  constructor
  · rintro ⟨ps, hscan, rfl⟩
    exact hscan.covers rfl (Nat.zero_le _)
  · exact fun h => h.exists_scan

/--
Cutting a text into tokens ends by itself: neither its budget nor that of skipping is ever used
up.  It gives exactly the tokens that cover the text, with nothing but blanks and comments
between the own text of one and the start of the next; there are at most as many as characters
and one that marks the end, which stands last and at the end, and each stands behind the one
before it.
-/
theorem tokenize_partitions (query : List Char) :
    (∀ budget, query.length ≤ budget →
      tokensFrom query.length budget false query = tokenize query) ∧
    (∀ cs budget, cs.length < budget → skipSeparators budget cs = skipBetween cs) ∧
    ∀ placed : List Placed,
      (tokenize query = .ok placed ↔ Covers query false 0 placed) ∧
      (tokenize query = .ok placed →
        placed.length ≤ query.length + 1 ∧
        (∃ earlier, placed = earlier ++ [⟨.finish, query.length⟩] ∧
          ∀ p ∈ earlier, p.token ≠ .finish) ∧
        placed.Pairwise fun p q => p.offset < q.offset) := by
  refine ⟨fun budget hbudget => tokensFrom_congr _ hbudget (Nat.le_refl _),
    fun cs budget hbudget => skipSeparators_congr hbudget (Nat.lt_succ_self _),
    fun placed => ⟨tokenize_eq_ok_iff_covers, fun h => ?_⟩⟩
  have hcovers := tokenize_eq_ok_iff_covers.mp h
  obtain ⟨earlier, hplaced, hearlier⟩ := hcovers.exists_finish
  have hlength := hcovers.length_le
  rw [Nat.zero_add] at hlength
  exact ⟨hlength, ⟨earlier, hplaced, fun p hp => (hearlier p hp).1⟩, hcovers.increasing⟩

/-- In `a--\n.b/*/` a comment stands before the dot, and another one is cut off by the end. -/
theorem tokenize_partitions_comments :
    let query := "a--\n.b/*/".toList
    let placed : List Placed :=
      [⟨.identifier "a", 0⟩, ⟨.mark .dot, 4⟩, ⟨.identifier "b", 5⟩, ⟨.finish, 9⟩]
    tokenize query = .ok placed ∧ tokensFrom 9 10 false query = .ok placed ∧
      skipSeparators 4 "/*/".toList = [] ∧ Covers query false 0 placed ∧
      placed.Pairwise fun p q => p.offset < q.offset := by
  intro query placed
  have hplaced : tokenize query = .ok placed := by decide +kernel
  obtain ⟨hbudget, hskip, hcovers⟩ := tokenize_partitions query
  obtain ⟨hiff, hlaw⟩ := hcovers placed
  exact ⟨hplaced, (hbudget 10 (by decide)).trans hplaced, (hskip _ 4 (by decide)).trans rfl,
    hiff.mp hplaced, (hlaw hplaced).2.2⟩

end DocQuery
