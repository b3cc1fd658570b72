import DocQuery.Proofs.Statement.Spelling
import DocQuery.Proofs.Token.Scan

/-!
# Texts that are read

A text is read by its tokens alone: where they stand in it makes no difference to the
statement, and it is enough to know how the text is cut.
-/

namespace DocQuery

open Lexer

def tokensOf? (query : List Char) : Option (List Token) :=
  (tokenize query).toOption.map (List.map Placed.token)

section

variable {query : List Char} {ts : List Token}

theorem exists_of_tokensOf? (h : tokensOf? query = some ts) :
    ∃ placed, tokenize query = .ok placed ∧ placed.map Placed.token = ts := by
  unfold tokensOf? at h
  cases htokenize : tokenize query with
  | error failure => simp [htokenize, Except.toOption] at h
  | ok placed => exact ⟨placed, rfl, by simpa [htokenize, Except.toOption] using h⟩

theorem tokensOf?_of_tokenize {placed : List Placed} (h : tokenize query = .ok placed) :
    tokensOf? query = some (placed.map Placed.token) := by
  simp [tokensOf?, h, Except.toOption]

theorem tokensOf?_of_cuts (h : Cuts false query ts) : tokensOf? query = some ts := by
  obtain ⟨placed, hplaced, rfl⟩ := tokenize_of_cuts h
  exact tokensOf?_of_tokenize hplaced

/-- A text is read as a statement when all placings of its tokens are. -/
theorem Statement.parse_of_tokensOf? {s : Statement} (h : tokensOf? query = some ts)
    (hread : ∀ placed, placed.map Placed.token = ts → read placed = .ok s) :
    parse query = .ok s := by
  obtain ⟨placed, hplaced, htokens⟩ := exists_of_tokensOf? h
  simp only [parse, hplaced, hread placed htokens]

end

end DocQuery
