import DocQuery.Proofs.Statement.LocalClauses
import DocQuery.Proofs.Statement.Reading

/-!
# Blanks between tokens

Blanks put in front of any token of a text, or behind its last one, change where its tokens
stand and nothing else, and so the text is the same statement with them.
-/

namespace DocQuery

open DocQuery.Parser

theorem Parser.peek_congr {ts ts' : List Placed}
    (h : ts.map Placed.token = ts'.map Placed.token) : peek ts = peek ts' := by
  cases ts <;> cases ts' <;> simp_all [peek]

namespace Statement

variable {s : Statement}

/-- Where the tokens stand makes no difference to the statement they spell. -/
theorem ofTokens_of_map_eq {ts again : List Placed} (h : ofTokens ts = .ok s)
    (hagain : again.map Placed.token = ts.map Placed.token) : ofTokens again = .ok s := by
  simp only [ofTokens, bind_eq_ok] at h
  obtain ⟨⟨found, rest⟩, hquery, h⟩ := h
  dsimp only at h
  split at h
  · rename_i hpeek
    cases h
    obtain ⟨xs, htakes, hreads⟩ := local_query (Grammar.ofDepth_consistent _) _ _ _ hquery
    rw [htakes.spells.map_token_eq] at hagain
    obtain ⟨rest', hspells, hrest⟩ := Spells.of_map_eq hagain
    exact ofTokens_of_spells hreads hspells ((Parser.peek_congr hrest).trans hpeek)
  · cases h

theorem read_of_map_eq {ts again : List Placed} (h : read ts = .ok s)
    (hagain : again.map Placed.token = ts.map Placed.token) : read again = .ok s := by
  obtain ⟨t, ht, rfl⟩ := read_eq_ok.mp h
  exact read_eq_ok.mpr ⟨t, ofTokens_of_map_eq ht hagain, rfl⟩

theorem parse_eq_ok_iff {query : List Char} :
    parse query = .ok s ↔ ∃ placed, tokenize query = .ok placed ∧ read placed = .ok s := by
  unfold parse
  split
  · simp_all
  · split <;> simp_all

/-- Texts with the same tokens are the same statement. -/
theorem parse_congr {query query' : List Char} (htokens : tokensOf? query = tokensOf? query')
    (h : parse query = .ok s) : parse query' = .ok s := by
  obtain ⟨placed, hplaced, hread⟩ := parse_eq_ok_iff.mp h
  rw [tokensOf?_of_tokenize hplaced] at htokens
  exact parse_of_tokensOf? htokens.symm fun again hagain => read_of_map_eq hread hagain

end Statement

/--
Blanks in front of a token move this token and the later ones.  They change no token, and the
text is the same statement with them and without.
-/
theorem blanks_between_tokens {query blanks : List Char} {earlier later : List Placed}
    {p : Placed} (h : tokenize query = .ok (earlier ++ p :: later))
    (hblanks : ∀ b ∈ blanks, Text.isBlank b) :
    let spaced := query.take p.offset ++ (blanks ++ query.drop p.offset)
    tokenize spaced = .ok (earlier ++ (p :: later).map (Placed.shift blanks.length)) ∧
      ∀ s, Statement.parse spaced = .ok s ↔ Statement.parse query = .ok s := by
  intro spaced
  have hspaced : tokenize spaced = _ := tokenize_insert h hblanks
  have htokens : tokensOf? spaced = tokensOf? query := by
    rw [tokensOf?_of_tokenize hspaced, tokensOf?_of_tokenize h, List.map_append, List.map_map,
      List.map_append]
    rfl
  exact ⟨hspaced, fun s => ⟨Statement.parse_congr htokens, Statement.parse_congr htokens.symm⟩⟩

/-- The text `select a.top--*` ends within a comment, and blanks are put in there. -/
theorem blanks_between_tokens_comment :
    let query := "select a.top--*".toList
    let blanks := ['\n', '\u3000']
    ∃ earlier p later, tokenize query = .ok (earlier ++ p :: later) ∧
      (∀ b ∈ blanks, Text.isBlank b) ∧
      tokenize (query.take p.offset ++ (blanks ++ query.drop p.offset)) =
        .ok (earlier ++ (p :: later).map (Placed.shift 2)) := by
  have h : tokenize "select a.top--*".toList =
      .ok ([⟨.keyword .select, 0⟩, ⟨.identifier "a", 7⟩, ⟨.mark .dot, 8⟩, ⟨.identifier "top", 9⟩] ++
        ⟨.finish, 15⟩ :: []) := by decide +kernel
  have hblanks : ∀ b ∈ ['\n', '\u3000'], Text.isBlank b :=
    List.all_eq_true.mp (by decide)
  exact ⟨_, _, _, h, hblanks, (blanks_between_tokens h hblanks).1⟩

end DocQuery
