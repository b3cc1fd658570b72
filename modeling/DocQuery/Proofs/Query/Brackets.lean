import DocQuery.Proofs.Query.Binding
import DocQuery.Proofs.Statement.Reading

/-!
# Keys in brackets

A text in brackets after a path names a member of an object, whatever characters it has,
except that a text that begins with `@` is read as the parameter of that name.
-/

namespace DocQuery

open DocQuery.Parser Lexer

/-! ## The query for a key -/

def bracketQuery (w : Quotation) (key : String) : List Char :=
  "SELECT VALUE c[".toList ++ w.write key.toList ++ "] FROM c".toList

def bracketStatement (key : String) : Statement :=
  .selecting (.plain (.path ["c", key])) (.path ["c"] none)

def bracketTokens (key : String) : List Token :=
  [.keyword .select, .keyword .value, .identifier "c", .mark .leftBracket, .text key,
    .mark .rightBracket, .keyword .from, .identifier "c", .finish]

/-! ## Its tokens -/

variable {rest : List Char} {ts : List Token}

theorem isBlank_space : ∀ b ∈ [' '], Text.isBlank b :=
  List.forall_mem_singleton.mpr rfl

theorem endsWord_space (rest : List Char) : EndsWord (' ' :: rest) :=
  endsWord_cons (by decide +kernel)

theorem cuts_select (h : Cuts false (' ' :: rest) ts) :
    Cuts false ("SELECT".toList ++ ' ' :: rest) (.keyword .select :: ts) :=
  have hword : isWord "SELECT".toList := rfl
  .word (List.forall_mem_nil _) hword rfl (endsWord_space _) h

theorem cuts_word {word : List Char} {t : Token} (hword : isWord word)
    (ht : wordToken false word = t) (hrest : EndsWord rest) (h : Cuts false rest ts) :
    Cuts false (' ' :: (word ++ rest)) (t :: ts) :=
  .word isBlank_space hword ht hrest h

theorem cuts_value (h : Cuts false (' ' :: rest) ts) :
    Cuts false (' ' :: ("VALUE".toList ++ ' ' :: rest)) (.keyword .value :: ts) :=
  cuts_word rfl rfl (endsWord_space _) h

theorem cuts_name (hrest : EndsWord rest) (h : Cuts false rest ts) :
    Cuts false (' ' :: ("c".toList ++ rest)) (.identifier "c" :: ts) :=
  cuts_word rfl rfl hrest h

theorem cuts_from : Cuts false (' ' :: ("FROM".toList ++ ' ' :: ("c".toList ++ [])))
    [.keyword .from, .identifier "c", .finish] :=
  cuts_word rfl rfl (endsWord_space _) (cuts_name endsWord_nil (.finish rfl))

theorem cuts_bracket (w : Quotation) (key : String) (h : Cuts false rest ts) :
    Cuts false ([] ++ '[' :: ([] ++ (w.write key.toList ++ ([] ++ ']' :: rest))))
      (.mark .leftBracket :: .text (String.ofList key.toList) :: .mark .rightBracket :: ts) :=
  have hnone : ∀ b ∈ [], Text.isBlank b := List.forall_mem_nil _
  .mark hnone rfl rfl (by decide) (by decide)
    (.text hnone w key.toList (.mark hnone rfl rfl (by decide) (by decide) h))

theorem cuts_bracketQuery (w : Quotation) (key : String) :
    Cuts false (bracketQuery w key) (bracketTokens key) := by
  have hfront : "SELECT VALUE c[".toList =
      "SELECT".toList ++ (' ' :: ("VALUE".toList ++ (' ' :: ("c".toList ++ ['['])))) :=
    rfl
  have hback : "] FROM c".toList = ']' :: ' ' :: ("FROM".toList ++ (' ' :: "c".toList)) := rfl
  have hquery := cuts_select (cuts_value
    (cuts_name (endsWord_cons (by decide +kernel)) (cuts_bracket w key cuts_from)))
  unfold bracketQuery bracketTokens
  simpa only [hfront, hback, String.ofList_toList, List.append_assoc, List.cons_append,
    List.nil_append, List.append_nil] using hquery

/-! ## Its results -/

namespace Statement

/-- The query for a key is read as such, in whatever way the key is written. -/
theorem parse_bracketQuery (w : Quotation) (key : String) :
    parse (bracketQuery w key) = .ok (bracketStatement key) := by
  have htokens := tokensOf?_of_cuts (cuts_bracketQuery w key)
  refine parse_of_tokensOf? htokens fun placed hplaced => ?_
  obtain _ | ⟨_, _ | ⟨_, _ | ⟨_, _ | ⟨_, _ | ⟨_, _ | ⟨_, _ | ⟨_, _ | ⟨_, _ | ⟨_, _ | _⟩⟩⟩⟩⟩⟩⟩⟩⟩ :=
    Spells.of_map_token hplaced
  rfl

/-- What is under a key is what is under the text that the key stands for. -/
theorem run_bracketStatement (key : String) (parameters : Parameters) (draws : Draws)
    (document : Value) :
    (bracketStatement key).run parameters draws [document] =
      [((parameters.segment? key).bind fun text => document.child? text).getD .null] := by
  have hbound : (bracketStatement key).bound parameters draws [document] =
      [Row.ofDocument (draws.part 0) "c" document] :=
    bound_name rfl (by decide) parameters draws [document]
  have hrun := run_selecting (t := .plain (.path ["c", key])) rfl (.path ["c"] none) parameters
    draws [document]
  rw [bracketStatement, hrun, ← bracketStatement, hbound, List.map_singleton, Term.resolve_path]
  change [document.follow parameters [key]] = _
  rw [Value.follow]
  cases (parameters.segment? key).bind fun text => document.child? text <;> rfl

/--
The query for a key gives the member of an object under it, or null, for each key that does
not begin with `@`, however it is written in quotes.
-/
theorem run_bracketQuery (w : Quotation) {key : String} (hkey : ¬Parameters.isName key)
    (parameters : Parameters) (draws : Draws) (members : Members) :
    ∃ s, parse (bracketQuery w key) = .ok s ∧
      s.run parameters draws [.object members] = [(Members.get? members key).getD .null] := by
  refine ⟨bracketStatement key, parse_bracketQuery w key, ?_⟩
  rw [run_bracketStatement, Parameters.segment?, if_neg hkey]
  rfl

/-- Quotes and a backslash in a key are the key's own, and its digit is no index. -/
theorem run_bracketQuery_quotes :
    let draws : Draws := fun _ _ => 0.5
    let w : Quotation := .enclosing '\'' (.inl rfl)
    let key := "7.'\"\\"
    let members : Members := [("7", .bool false), (key, .bool true)]
    ¬Parameters.isName key ∧
      bracketQuery w key = "SELECT VALUE c['7.\\'\"\\\\'] FROM c".toList ∧
      ∃ s, parse (bracketQuery w key) = .ok s ∧
        s.run [("@7", .text "7")] draws [.object members] = [.bool true] := by
  intro draws w key members
  have hkey : ¬Parameters.isName key := by decide
  exact ⟨hkey, by decide +kernel, run_bracketQuery w hkey [("@7", .text "7")] draws members⟩

/-- A key that begins with `@` is taken for a parameter, and its member is not found. -/
theorem not_run_bracketQuery_of_isName :
    ¬ ∀ (w : Quotation) (key : String) (parameters : Parameters) (draws : Draws)
        (members : Members),
      ∃ s, parse (bracketQuery w key) = .ok s ∧
        s.run parameters draws [.object members] = [(Members.get? members key).getD .null] := by
  intro h
  let draws : Draws := fun _ _ => 0.5
  obtain ⟨s, hparse, hrun⟩ := h (.enclosing '"' (.inr rfl)) "@x" [] draws [("@x", .bool true)]
  rw [parse_bracketQuery] at hparse
  cases hparse
  rw [run_bracketStatement] at hrun
  cases (List.cons.inj hrun).1

end Statement

end DocQuery
