import DocQuery.Proofs.Statement.Descent
import DocQuery.Proofs.Token.Offsets

/-!
# Positions of readers

A reader of a query moves over the tokens that the query is cut into and never past the one that
marks the end.  It moves by at least one token unless what it reads may be absent, no loop is cut
short, and an error quotes the query at a token.
-/

namespace DocQuery

open DocQuery.Parser Grammar

variable {α : Type}

/-! ## Places among the tokens -/

/--
A reader put at a position moves by at least so many tokens, to a position of the same tokens;
an error stands at the offset of a token that the reader has come to.
-/
structure Advances (least : Nat) (tokens : List Placed) (reader : Parser α) : Prop where
  ok : ∀ position value rest, position < tokens.length →
    reader (tokens.drop position) = .ok (value, rest) →
    ∃ next, position + least ≤ next ∧ next < tokens.length ∧ rest = tokens.drop next
  error : ∀ position e, position < tokens.length →
    reader (tokens.drop position) = .error e →
    ∃ next, ∃ h : next < tokens.length, position ≤ next ∧ e.offset = some tokens[next].offset

/-- A budget of as many rounds as there are tokens is never used up. -/
def Ample (loop : Nat → Parser α) : Prop :=
  ∀ ts m n, ts.length ≤ m → ts.length ≤ n → loop m ts = loop n ts

/-- Where the readers of a grammar move, and which of them may stay where they are. -/
structure Grammar.Advances (tokens : List Placed) (inner : Grammar) : Prop where
  level : ∀ level, DocQuery.Advances 1 tokens (inner.readers level)
  column : DocQuery.Advances 1 tokens (column inner)
  columns : DocQuery.Advances 1 tokens (separated (.mark .comma) (Grammar.column inner))
  values : DocQuery.Advances 1 tokens (separated (.mark .comma) (value inner))
  sortKeys : DocQuery.Advances 1 tokens (separated (.mark .comma) (sortKey inner))
  membership : ∀ negated needle, DocQuery.Advances 1 tokens (membership inner negated needle)
  compound : DocQuery.Advances 1 tokens (compound inner)
  call : ∀ name, DocQuery.Advances 1 tokens (call inner name)
  object : DocQuery.Advances 1 tokens (closedBy .rightBrace (member inner))
  array : DocQuery.Advances 1 tokens (closedBy .rightBracket (term inner))
  source : DocQuery.Advances 1 tokens (source inner)
  join : DocQuery.Advances 1 tokens (join inner)
  label : DocQuery.Advances 1 tokens label
  label? : DocQuery.Advances 0 tokens label?
  pathFrom : ∀ first, DocQuery.Advances 0 tokens (pathFrom first)

structure Grammar.Ample (inner : Grammar) : Prop where
  conjunctions : DocQuery.Ample (separatedFrom (.keyword .or) (conjunction inner))
  negations : DocQuery.Ample (separatedFrom (.keyword .and) (negation inner))
  products : ∀ left, DocQuery.Ample fun budget =>
    chainFrom (product inner) additive? combine budget left
  operands : ∀ left, DocQuery.Ample fun budget =>
    chainFrom (operand inner) multiplicative? combine budget left
  terms : DocQuery.Ample (separatedFrom (.mark .comma) (term inner))
  members : DocQuery.Ample (separatedFrom (.mark .comma) (member inner))
  segments : DocQuery.Ample segmentsFrom
  modifiers : ∀ found, DocQuery.Ample fun budget => modifiersFrom budget found
  columns : DocQuery.Ample (separatedFrom (.mark .comma) (column inner))
  joins : DocQuery.Ample (separatedFrom (.keyword .join) (join inner))
  values : DocQuery.Ample (separatedFrom (.mark .comma) (value inner))
  sortKeys : DocQuery.Ample (separatedFrom (.mark .comma) (sortKey inner))

/--
What a level reads at a position depends on no calls but those at later positions, and those at
the same one to levels that bind tighter.
-/
def CallsFurther (tokens : List Placed) : Prop :=
  ∀ (read : Readers) (level : Level) (position : Nat), position < tokens.length →
    (∀ level' next, next < tokens.length →
      position < next ∨ next = position ∧ level.rank < level'.rank →
      read level' (tokens.drop next) = reads level' (tokens.drop next)) →
    read.round read.brackets level (tokens.drop position) = reads level (tokens.drop position)

section Places

variable {least position : Nat} {tokens rest : List Placed} {reader : Parser α}

theorem Ends.length_pos (h : Ends tokens) : 0 < tokens.length := by
  cases h <;> exact Nat.zero_lt_succ _

theorem Ends.drop (h : Ends tokens) (hposition : position < tokens.length) :
    Ends (tokens.drop position) := by
  induction h generalizing position with
  | last hp =>
      obtain rfl := Nat.lt_one_iff.mp hposition
      exact .last hp
  | cons hp h ih =>
      cases position with
      | zero => exact .cons hp h
      | succ position => exact ih (Nat.lt_of_succ_lt_succ hposition)

theorem Passes.exists_position (hends : Ends tokens) (hposition : position < tokens.length)
    (h : Passes least (tokens.drop position) rest) :
    ∃ next, position + least ≤ next ∧ next < tokens.length ∧ rest = tokens.drop next := by
  have hsuffix : rest <:+ tokens := h.suffix.trans (List.drop_suffix _ _)
  have hrest := (h.ends (hends.drop hposition)).length_pos
  have hle := h.length_le
  rw [List.length_drop] at hle
  exact ⟨tokens.length - rest.length, by omega, by omega, List.suffix_iff_eq_drop.mp hsuffix⟩

/-- Positions are counted by the tokens that are left. -/
theorem Advances.of_accord (hends : Ends tokens)
    (h : ∀ ts, Accord least ts (reader ts) (reader ts)) : Advances least tokens reader := by
  constructor
  · intro position value rest hposition hok
    have haccord := h (tokens.drop position)
    rw [hok] at haccord
    cases haccord with
    | ok _ hpasses => exact hpasses.exists_position hends hposition
  · intro position e hposition herror
    have haccord := h (tokens.drop position)
    rw [herror] at haccord
    cases haccord with
    | error problem hpasses =>
        obtain ⟨next, hle, hnext, rfl⟩ := hpasses.exists_position hends hposition
        refine ⟨next, hnext, hle, ?_⟩
        simp only [errorAt, List.head?_drop, List.getElem?_eq_getElem hnext, Option.map_some]

theorem callsFurther_of_ends (hends : Ends tokens) : CallsFurther tokens := by
  intro read level position hposition h
  refine round_eq_reads fun level' rest hfurther => ?_
  rcases hfurther with hpasses | ⟨rfl, hrank⟩
  · obtain ⟨next, hle, hnext, rfl⟩ := hpasses.exists_position hends hposition
    exact h level' next hnext (.inl hle)
  · exact h level' position hposition (.inr ⟨rfl, hrank⟩)

end Places

/-! ## The readers of a grammar -/

section Readers

variable {depth : Nat} {tokens : List Placed}

theorem agree_readers_self (level : Level) (n : Nat) (ts : List Placed) :
    Agree n ts ((ofDepth depth).readers level) ((ofDepth depth).readers level) :=
  fun _ _ => accord_readers level (agree_ofDepth_self 1)

theorem agree_column_self (n : Nat) (ts : List Placed) :
    Agree n ts (column (ofDepth depth)) (column (ofDepth depth)) :=
  agree_column (agree_readers_self .disjunction n ts)

theorem agree_value_self (n : Nat) (ts : List Placed) :
    Agree n ts (value (ofDepth depth)) (value (ofDepth depth)) :=
  agree_value (agree_readers_self .disjunction n ts)

theorem agree_sortKey_self (n : Nat) (ts : List Placed) :
    Agree n ts (sortKey (ofDepth depth)) (sortKey (ofDepth depth)) :=
  agree_sortKey (agree_readers_self .sum n ts)

theorem Grammar.advances_ofDepth (hends : Ends tokens) : (ofDepth depth).Advances tokens := by
  have hself {n : Nat} {ts : List Placed} : (ofDepth depth).Agree n ts (ofDepth depth) :=
    agree_ofDepth_self n
  exact {
    level := fun level => .of_accord hends fun ts => accord_readers level hself
    column := .of_accord hends fun ts => (agree_column_self 0 ts).here
    columns := .of_accord hends fun ts => accord_separated (by simp) (agree_column_self 0 ts)
    values := .of_accord hends fun ts => accord_separated (by simp) (agree_value_self 0 ts)
    sortKeys := .of_accord hends fun ts => accord_separated (by simp) (agree_sortKey_self 0 ts)
    membership := fun negated needle => .of_accord hends fun ts =>
      accord_membership negated needle hself
    compound := .of_accord hends fun ts => accord_compound hself
    call := fun name => .of_accord hends fun ts => accord_call name hself
    object := .of_accord hends fun ts => accord_closedBy (agree_member hself)
    array := .of_accord hends fun ts => accord_closedBy (agree_term hself)
    source := .of_accord hends fun ts => accord_source hself
    join := .of_accord hends fun ts => (agree_join (n := 0) hself).here
    label := .of_accord hends fun ts => accord_label
    label? := .of_accord hends fun ts => accord_label?
    pathFrom := fun first => .of_accord hends fun ts => accord_pathFrom first }

theorem ample_separatedFrom {separator : Token} {item : Parser α} (hsep : separator ≠ .finish)
    (h : ∀ ts, Agree 1 ts item item) : Ample (separatedFrom separator item) :=
  fun ts _ _ hm hn => (accord_separatedFrom hsep (h ts) hm hn).eq

theorem ample_chainFrom {β : Type} {operator? : Token → Option β} {combine : β → α → α → α}
    {operand : Parser α} (hop : operator? .finish = none) (h : ∀ ts, Agree 1 ts operand operand)
    (left : α) : Ample fun budget => chainFrom operand operator? combine budget left :=
  fun ts _ _ hm hn => (accord_chainFrom hop (h ts) left hm hn).eq

theorem Grammar.ample_ofDepth : (ofDepth depth).Ample where
  conjunctions := ample_separatedFrom (by simp) (agree_readers_self .conjunction 1)
  negations := ample_separatedFrom (by simp) (agree_readers_self .negation 1)
  products := ample_chainFrom rfl (agree_readers_self .product 1)
  operands := ample_chainFrom rfl (agree_readers_self .operand 1)
  terms := ample_separatedFrom (by simp) fun _ => agree_term (agree_ofDepth_self 1)
  members := ample_separatedFrom (by simp) fun _ => agree_member (agree_ofDepth_self 1)
  segments := fun _ _ _ hm hn => (accord_segmentsFrom hm hn).eq
  modifiers := fun found _ _ _ hm hn => (accord_modifiersFrom found hm hn).eq
  columns := ample_separatedFrom (by simp) (agree_column_self 1)
  joins := ample_separatedFrom (by simp) fun _ => agree_join (agree_ofDepth_self 1)
  values := ample_separatedFrom (by simp) (agree_value_self 1)
  sortKeys := ample_separatedFrom (by simp) (agree_sortKey_self 1)

end Readers

/-! ## Queries -/

section Queries

open Lexer

variable {query : List Char} {tokens : List Placed} {placed : Placed} {problem : Misplacement}

theorem Ends.of_append {earlier : List Placed} (h : ∀ p ∈ earlier, p.token ≠ .finish)
    {last : Placed} (hlast : last.token = .finish) : Ends (earlier ++ [last]) := by
  induction earlier with
  | nil => exact .last hlast
  | cons p earlier ih =>
      obtain ⟨hp, hothers⟩ := List.forall_mem_cons.mp h
      exact .cons hp (ih hothers)

theorem Ends.of_tokenize (h : tokenize query = .ok tokens) : Ends tokens := by
  obtain ⟨earlier, rfl, hearlier⟩ := (tokenize_eq_ok_iff_covers.mp h).exists_finish
  exact .of_append (fun p hp => (hearlier p hp).1) rfl

/-- Only the token that marks the end stands where nothing is left to quote. -/
theorem token_eq_finish_iff (h : tokenize query = .ok tokens) (hplaced : placed ∈ tokens) :
    placed.token = .finish ↔ query.length ≤ placed.offset := by
  obtain ⟨earlier, rfl, hearlier⟩ := (tokenize_eq_ok_iff_covers.mp h).exists_finish
  rcases List.mem_append.mp hplaced with hmem | hmem
  · obtain ⟨htoken, hoffset⟩ := hearlier placed hmem
    exact iff_of_false htoken (Nat.not_le_of_lt hoffset)
  · obtain rfl := List.mem_singleton.mp hmem
    exact iff_of_true rfl (Nat.le_refl _)

theorem message_of_mem (h : tokenize query = .ok tokens) (hplaced : placed ∈ tokens) :
    (PlacedError.mk problem (some placed.offset)).message query =
      if placed.token = .finish then problem.message ++ " at end of input"
      else problem.message ++ " near '" ++
        String.ofList ((query.drop placed.offset).take PlacedError.quotedLength) ++
        "' (position " ++ toString placed.offset ++ ")" := by
  have hquoted : ((query.drop placed.offset).take PlacedError.quotedLength).isEmpty = true ↔
      placed.token = .finish := by
    rw [token_eq_finish_iff h hplaced, List.isEmpty_iff, List.take_eq_nil_iff,
      List.drop_eq_nil_iff]
    exact or_iff_right (by decide)
  simp only [PlacedError.message, Option.getD_some, hquoted]

/-- Wherever reading stops, there is a token, if only the one that marks the end. -/
theorem Passes.exists_placed {rest : List Placed} (hends : Ends tokens)
    (h : Passes 0 tokens rest) (problem : Misplacement) :
    ∃ placed ∈ tokens, errorAt problem rest = ⟨problem, some placed.offset⟩ := by
  have hrest := h.ends hends
  cases rest with
  | nil => cases hrest
  | cons placed others => exact ⟨placed, h.suffix.mem (.head others), rfl⟩

theorem exists_placed_of_ofTokens {error : PlacedError} (hends : Ends tokens)
    (h : Statement.ofTokens tokens = .error error) :
    ∃ problem, ∃ placed ∈ tokens, error = ⟨problem, some placed.offset⟩ := by
  have haccord : Accord 1 tokens (Grammar.query (ofDepth tokens.length) tokens)
      (Grammar.query (ofDepth tokens.length) tokens) :=
    accord_readers .statement (agree_ofDepth_self 1)
  unfold Statement.ofTokens at h
  cases hquery : Grammar.query (ofDepth tokens.length) tokens with
  | error e =>
      rw [hquery] at h haccord
      cases haccord with
      | error problem hpasses =>
          cases h
          exact ⟨problem, hpasses.exists_placed hends problem⟩
  | ok result =>
      rw [hquery] at h haccord
      cases haccord with
      | @ok s rest hpasses =>
          simp only [ok_bind] at h
          split at h
          · cases h
          · cases h
            exact ⟨_, (hpasses.mono (Nat.zero_le 1)).exists_placed hends _⟩

/-- A query that has tokens is found wrong at one of them. -/
theorem exists_placed_of_parse {error : ParseError} (h : tokenize query = .ok tokens)
    (herror : Statement.parse query = .error error) :
    ∃ problem, ∃ placed ∈ tokens, error = .placed ⟨problem, some placed.offset⟩ := by
  simp only [Statement.parse, Statement.read, h] at herror
  cases htokens : Statement.ofTokens tokens with
  | ok s =>
      rw [htokens] at herror
      cases herror
  | error e =>
      rw [htokens] at herror
      cases herror
      obtain ⟨problem, placed, hmem, rfl⟩ := exists_placed_of_ofTokens (.of_tokenize h) htokens
      exact ⟨problem, placed, hmem, rfl⟩

end Queries

/--
However deep brackets nest, the readers of a query move on over its tokens and stay before their
end, and no loop is cut short.  A level calls others further on only, so there is one family of
readers that answer each other's calls, on all tokens, and the one that is run is this family.
Where a query has tokens and is refused, it is refused at one of them, and quoted from there
unless that is the one that marks the end.
-/
theorem Statement.parse_advances (query : List Char) (tokens : List Placed)
    (h : tokenize query = .ok tokens) :
    (∀ depth, (ofDepth depth).Advances tokens ∧ (ofDepth depth).Ample) ∧
    CallsFurther tokens ∧
    (∀ read : Readers, read.round read.brackets = read ↔ read = reads) ∧
    (∀ level ts depth, ts.length ≤ depth → (ofDepth depth).readers level ts = reads level ts) ∧
    ∀ error, Statement.parse query = .error error →
      ∃ problem, ∃ placed ∈ tokens, error = .placed ⟨problem, some placed.offset⟩ ∧
        error.message query = "Parse error: " ++
          if placed.token = .finish then problem.message ++ " at end of input"
          else problem.message ++ " near '" ++
            String.ofList ((query.drop placed.offset).take PlacedError.quotedLength) ++
            "' (position " ++ toString placed.offset ++ ")" := by
  have hends : Ends tokens := .of_tokenize h
  refine ⟨fun depth => ⟨advances_ofDepth hends, ample_ofDepth⟩, callsFurther_of_ends hends,
    fun read => round_eq_self_iff, fun level ts depth hdepth => (accord_reads level hdepth).eq.symm,
    fun error herror => ?_⟩
  obtain ⟨problem, placed, hplaced, rfl⟩ := exists_placed_of_parse h herror
  refine ⟨problem, placed, hplaced, rfl, ?_⟩
  rw [ParseError.message, message_of_mem h hplaced]

/-- A path that stops after its dot is refused at the end, and not beyond it. -/
theorem Statement.parse_advances_truncated :
    let query := "SELECT c.".toList
    let tokens : List Placed :=
      [⟨.keyword .select, 0⟩, ⟨.identifier "c", 7⟩, ⟨.mark .dot, 8⟩, ⟨.finish, 9⟩]
    tokenize query = .ok tokens ∧ (ofDepth 4).Advances tokens ∧
      (ofDepth 9).readers .operand (tokens.drop 1) = reads .operand (tokens.drop 1) ∧
      ∃ error, Statement.parse query = .error error ∧
        (∃ problem, ∃ placed ∈ tokens, error = .placed ⟨problem, some placed.offset⟩) ∧
        error.message query = "Parse error: Expected identifier, found Eof at end of input" := by
  intro query tokens
  have htokens : tokenize query = .ok tokens := by decide +kernel
  have hparse : Statement.parse query =
      .error (.placed ⟨.expectedName .finish, some 9⟩) := by
    simp only [Statement.parse, htokens]
    rfl
  obtain ⟨hreaders, -, -, hreads, herrors⟩ := Statement.parse_advances query tokens htokens
  obtain ⟨problem, placed, hplaced, herror, -⟩ := herrors _ hparse
  exact ⟨htokens, (hreaders 4).1, hreads .operand _ 9 (by decide), _, hparse,
    ⟨problem, placed, hplaced, herror⟩, by decide +kernel⟩

end DocQuery
