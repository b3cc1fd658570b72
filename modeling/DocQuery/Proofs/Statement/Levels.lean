import DocQuery.Proofs.Statement.Rendering
import DocQuery.Proofs.Statement.Spelling

/-!
# Levels of the grammar

A reader of some level stops at every token that binds looser.  What is read at a level
is read at each looser one as well, and what is put in brackets is read as an operand.
-/

namespace DocQuery

open DocQuery.Parser Grammar

/-! ## Tokens that go on, and tokens that begin -/

/-- How tight a token binds what stands before it. -/
def grip : Token → Nat
  | .mark .dot | .mark .leftBracket | .mark .leftParen => 6
  | .mark .star | .mark .slash => 5
  | .mark .plus | .mark .minus => 4
  | .mark .equal | .mark .notEqual | .mark .less | .mark .lessOrEqual | .mark .greater
  | .mark .greaterOrEqual | .keyword .in | .keyword .not => 3
  | .keyword .and => 2
  | .keyword .or => 1
  | _ => 0

def Looser (level : Nat) (token : Token) : Prop :=
  grip token < level

instance (level : Nat) (token : Token) : Decidable (Looser level token) :=
  inferInstanceAs (Decidable (grip token < level))

theorem Looser.mono {level level' : Nat} {token : Token} (h : Looser level token)
    (hle : level ≤ level') : Looser level' token :=
  Nat.lt_of_lt_of_le h hle

theorem multiplicative?_eq_none {token : Token} (h : Looser 5 token) :
    multiplicative? token = none := by
  cases token with
  | mark m => cases m <;> simp_all [Looser, grip, multiplicative?]
  | _ => rfl

theorem additive?_eq_none {token : Token} (h : Looser 4 token) : additive? token = none := by
  cases token with
  | mark m => cases m <;> simp_all [Looser, grip, additive?]
  | _ => rfl

theorem comparison?_eq_none {token : Token} (h : Looser 3 token) : comparison? token = none := by
  cases token with
  | mark m => cases m <;> simp_all [Looser, grip, comparison?]
  | _ => rfl

/--
The place of the clause that a token begins, counted from `FROM`, with the end of a
statement behind all clauses; nothing else has a place.
-/
def clauseRank : Token → Nat
  | .keyword .from => 1
  | .keyword .join => 2
  | .keyword .where => 3
  | .keyword .group => 4
  | .keyword .order => 5
  | .keyword .offset | .keyword .limit => 6
  | .mark .rightParen | .finish => 7
  | _ => 0

/-- A token begins a clause that comes after some place, or ends the statement. -/
def Beyond (place : Nat) (token : Token) : Prop :=
  place < clauseRank token

instance (place : Nat) (token : Token) : Decidable (Beyond place token) :=
  inferInstanceAs (Decidable (place < clauseRank token))

theorem Beyond.mono {place place' : Nat} {token : Token} (h : Beyond place token)
    (hle : place' ≤ place) : Beyond place' token :=
  Nat.lt_of_le_of_lt hle h

theorem Beyond.looser {place : Nat} {token : Token} (h : Beyond place token) : Looser 1 token := by
  unfold Beyond clauseRank at h
  split at h <;> first | decide | omega

def opensOperand : Token → Bool
  | .identifier _ | .text _ | .parameter _ | .integer _ | .float _ => true
  | .mark .minus | .mark .leftParen | .mark .leftBrace | .mark .leftBracket => true
  | .keyword .exists | .keyword .true | .keyword .false | .keyword .null => true
  | _ => false

def opens (token : Token) : Bool :=
  opensOperand token || token = .keyword .not

theorem opensOperand_of_compound {inner : Grammar} {ts : List Placed} {result}
    (h : compound inner ts = .ok result) : opensOperand (peek ts) = true := by
  unfold compound at h
  split at h <;> simp_all [opensOperand, fail]

theorem opensOperand_of_operand {inner : Grammar} {ts : List Placed} {result}
    (h : operand inner ts = .ok result) : opensOperand (peek ts) = true := by
  cases ts with
  | nil => exact opensOperand_of_compound h
  | cons first rest =>
      rw [operand] at h
      rw [peek_cons]
      cases hliteral : literal? first.token with
      | some c =>
          unfold literal? at hliteral
          split at hliteral <;> simp_all [opensOperand]
      | none =>
          by_cases hminus : first.token = .mark .minus
          · simp [hminus, opensOperand]
          · simp only [hliteral, if_neg hminus] at h
            exact opensOperand_of_compound h

theorem opensOperand_of_sum {inner : Grammar} {ts : List Placed} {result}
    (h : sum inner ts = .ok result) : opensOperand (peek ts) = true := by
  simp only [sum, product, chain, bind_eq_ok] at h
  obtain ⟨_, ⟨_, h, -⟩, -⟩ := h
  exact opensOperand_of_operand h

theorem opensOperand_of_comparison {inner : Grammar} {ts : List Placed} {result}
    (h : comparison inner ts = .ok result) : opensOperand (peek ts) = true := by
  simp only [comparison, bind_eq_ok] at h
  obtain ⟨_, h, -⟩ := h
  exact opensOperand_of_sum h

theorem opens_of_negation {inner : Grammar} {ts : List Placed} {result}
    (h : negation inner ts = .ok result) : opens (peek ts) = true := by
  cases ts with
  | nil => simp [opens, opensOperand_of_comparison h]
  | cons first rest =>
      rw [negation] at h
      by_cases hnot : first.token = .keyword .not
      · simp [opens, hnot]
      · rw [if_neg hnot] at h
        have hopens := opensOperand_of_comparison h
        rw [peek_cons] at hopens ⊢
        simp [opens, hopens]

theorem opens_of_disjunction {inner : Grammar} {ts : List Placed} {result}
    (h : disjunction inner ts = .ok result) : opens (peek ts) = true := by
  simp only [disjunction, conjunction, separated, bind_eq_ok] at h
  obtain ⟨_, ⟨_, ⟨_, ⟨_, h, -⟩, -⟩, -⟩, -⟩ := h
  exact opens_of_negation h

theorem opens_of_value {inner : Grammar} {ts : List Placed} {result}
    (h : value inner ts = .ok result) : opens (peek ts) = true := by
  simp only [value, bind_eq_ok] at h
  obtain ⟨_, h, -⟩ := h
  exact opens_of_disjunction h

/-! ## From a level to the next looser one -/

section Levels

variable {xs ys : List Token} {t left right : Term} {c : Condition}

theorem Chains.reads_product (h : Chains (Looser 6) operand multiplicative? combine xs t) :
    Reads (Looser 5) product xs t :=
  h.reads.mono fun _ hstop => ⟨hstop.mono (by omega), multiplicative?_eq_none hstop⟩

theorem Chains.reads_sum (h : Chains (Looser 5) product additive? combine xs t) :
    Reads (Looser 4) sum xs t :=
  h.reads.mono fun _ hstop => ⟨hstop.mono (by omega), additive?_eq_none hstop⟩

theorem Reads.comparison (h : Reads (Looser 4) sum xs t) :
    Reads (Looser 3) comparison xs (.term t) := by
  intro depth ts rest hdepth hts hstop
  have hsum := h depth ts rest hdepth hts (hstop.mono (by omega))
  simp only [Grammar.comparison, hsum, ok_bind]
  split
  · rename_i hpeek
    simp [hpeek, Looser, grip] at hstop
  · rename_i hpeek
    simp [hpeek, Looser, grip] at hstop
  · simp [comparison?_eq_none hstop]

theorem Reads.negation (h : Reads (Looser 3) Grammar.comparison xs c) :
    Reads (Looser 3) negation xs c := by
  intro depth ts rest hdepth hts hstop
  have hcomparison := h depth ts rest hdepth hts hstop
  have hopens := opensOperand_of_comparison hcomparison
  cases ts with
  | nil => exact hcomparison
  | cons first others =>
      have hnot : ¬ first.token = .keyword .not := by
        intro hnot
        simp [hnot, opensOperand] at hopens
      rw [Grammar.negation, if_neg hnot]
      exact hcomparison

theorem Reads.not (h : Reads (Looser 3) Grammar.negation xs c) :
    Reads (Looser 3) Grammar.negation (.keyword .not :: xs) c.negate := by
  intro depth ts rest hdepth hts hstop
  cases hts with
  | cons offset hts =>
      have hread := h depth _ _ (by simp at hdepth; omega) hts hstop
      simp [Grammar.negation, hread]

/-- Conditions joined by `AND`; one alone is not joined. -/
theorem Reads.conjunction_parts {part : List Token × Condition}
    {others : List (List Token × Condition)}
    (h : ∀ p ∈ part :: others, Reads (Looser 3) Grammar.negation p.1 p.2) :
    Reads (Looser 2) conjunction (part.1 ++ spellParts (.keyword .and) others)
      (joined .all (part.2 :: others.map Prod.snd)) := by
  intro depth ts rest hdepth hts hstop
  have hlist := Reads.separated_parts (Looser 3) (.keyword .and) (by decide) h depth ts rest
    hdepth hts ⟨hstop.mono (by omega), ne_of_stops hstop _ (by decide)⟩
  simp only [Grammar.conjunction, hlist, ok_bind]

/-- Conditions joined by `OR`; one alone is not joined. -/
theorem Reads.disjunction_parts {part : List Token × Condition}
    {others : List (List Token × Condition)}
    (h : ∀ p ∈ part :: others, Reads (Looser 2) Grammar.conjunction p.1 p.2) :
    Reads (Looser 1) disjunction (part.1 ++ spellParts (.keyword .or) others)
      (joined .any (part.2 :: others.map Prod.snd)) := by
  intro depth ts rest hdepth hts hstop
  have hlist := Reads.separated_parts (Looser 2) (.keyword .or) (by decide) h depth ts rest
    hdepth hts ⟨hstop.mono (by omega), ne_of_stops hstop _ (by decide)⟩
  simp only [Grammar.disjunction, hlist, ok_bind]

theorem Reads.conjunction (h : Reads (Looser 3) Grammar.negation xs c) :
    Reads (Looser 2) conjunction xs c := by
  have hparts : ∀ p ∈ [(xs, c)], Reads (Looser 3) Grammar.negation p.1 p.2 :=
    List.forall_mem_singleton.mpr h
  simpa [spellParts, joined] using Reads.conjunction_parts hparts

theorem Reads.disjunction (h : Reads (Looser 2) Grammar.conjunction xs c) :
    Reads (Looser 1) disjunction xs c := by
  have hparts : ∀ p ∈ [(xs, c)], Reads (Looser 2) Grammar.conjunction p.1 p.2 :=
    List.forall_mem_singleton.mpr h
  simpa [spellParts, joined] using Reads.disjunction_parts hparts

theorem Reads.value (h : Reads (Looser 1) Grammar.disjunction xs c) :
    Reads (Looser 1) value xs (Term.ofCondition c) := by
  intro depth ts rest hdepth hts hstop
  simp [Grammar.value, h depth ts rest hdepth hts hstop]

/-- What a condition of the tightest kind reads, the loosest one reads. -/
theorem Reads.disjunction_of_negation (h : Reads (Looser 3) Grammar.negation xs c) :
    Reads (Looser 1) Grammar.disjunction xs c :=
  h.conjunction.disjunction

theorem Reads.all {first second : Condition} {rest : List Condition}
    (h : ∀ part ∈ first :: second :: rest,
      Reads (Looser 3) Grammar.negation part.tokens part) :
    Reads (Looser 2) Grammar.conjunction
      (spellEach (.keyword .and) Condition.tokens (first :: second :: rest)).tail
      (.all (first :: second :: rest)) := by
  have hparts := Reads.conjunction_parts (reads_parts h)
  rw [map_snd_parts, spellParts_map] at hparts
  rwa [spellEach_cons, List.tail_cons]

theorem Reads.any {first second : Condition} {rest : List Condition}
    (h : ∀ part ∈ first :: second :: rest,
      Reads (Looser 2) Grammar.conjunction part.tokens part) :
    Reads (Looser 1) Grammar.disjunction
      (spellEach (.keyword .or) Condition.tokens (first :: second :: rest)).tail
      (.any (first :: second :: rest)) := by
  have hparts := Reads.disjunction_parts (reads_parts h)
  rw [map_snd_parts, spellParts_map] at hparts
  rwa [spellEach_cons, List.tail_cons]

theorem eq_of_joined {join : List Condition → Condition} {parts : List Condition} {c : Condition}
    (h : joined join parts = c) : parts = [c] ∨ c = join parts := by
  unfold joined at h
  split at h
  · exact .inl (by rw [h])
  · exact .inr h.symm

/-! ## Brackets -/

theorem operand_of_compound {inner : Grammar} {token : Token} {offset : Nat} {ts : List Placed}
    (hliteral : literal? token = none) (hminus : token ≠ .mark .minus) :
    operand inner (⟨token, offset⟩ :: ts) = compound inner (⟨token, offset⟩ :: ts) := by
  simp [operand, hliteral, hminus]

/-- The readers of a grammar one level of brackets further in. -/
def Grammar.inside (inner : Grammar) : Grammar :=
  ⟨Grammar.disjunction inner, query inner⟩

/-- Behind a bracket is read with one level of brackets less. -/
theorem Reads.behind {α : Type} {stops : Token → Prop} (reader : Grammar → Parser α) {value : α}
    (h : Reads stops (fun inner => reader inner.inside) xs value) {token : Token} {depth : Nat}
    {ts rest : List Placed} (hdepth : xs.length < depth) (hts : Spells (token :: xs) ts rest)
    (hstop : stops (peek rest)) :
    ∃ offset after, ts = ⟨token, offset⟩ :: after ∧ Spells xs after rest ∧
      reader (ofDepth depth) after = .ok (value, rest) := by
  obtain ⟨depth, rfl⟩ : ∃ n, depth = n + 1 := ⟨depth - 1, by omega⟩
  cases hts with
  | cons offset hts => exact ⟨offset, _, rfl, hts, h depth _ _ (by omega) hts hstop⟩

/-- What is read as a value is read as an operand between brackets. -/
theorem Reads.inParens (h : Reads (Looser 1) Grammar.value xs t) :
    Reads (Looser 6) operand (inParens xs) t := by
  intro depth ts rest hdepth hts _
  obtain ⟨depth, rfl⟩ : ∃ n, depth = n + 1 :=
    ⟨depth - 1, by simp [DocQuery.inParens] at hdepth; omega⟩
  cases hts with
  | @cons _ _ inside _ offset hts =>
      obtain ⟨offset', hvalue⟩ := h.before_bracket (show Looser 1 (.mark .rightParen) by decide)
        (Nat.le_of_succ_le_succ hdepth) hts
      have hselect : ¬ peek inside = .keyword .select := by
        intro hselect
        have hopens := opens_of_value hvalue
        simp [hselect, opens, opensOperand] at hopens
      have hterm : term (ofDepth (depth + 1)) inside = _ := hvalue
      rw [operand_of_compound rfl (by simp)]
      simp [compound, hselect, hterm]

end Levels

/-! ## Conditions with a word between them -/

/-- Tokens are parts with a word between them, each read as one of several conditions. -/
def ReadsEach (word : Keyword) (stops : Token → Prop) (reader : Grammar → Parser Condition)
    (xs : List Token) (cs : List Condition) : Prop :=
  ∃ (part : List Token × Condition) (others : List (List Token × Condition)),
    xs = part.1 ++ spellParts (.keyword word) others ∧ cs = part.2 :: others.map Prod.snd ∧
      ∀ p ∈ part :: others, Reads stops reader p.1 p.2

namespace ReadsEach

variable {word : Keyword} {stops : Token → Prop} {reader : Grammar → Parser Condition}
  {xs ys : List Token} {cs ds : List Condition}

theorem single {c : Condition} (h : Reads stops reader xs c) :
    ReadsEach word stops reader xs [c] :=
  ⟨(xs, c), [], by simp [spellParts], rfl, List.forall_mem_singleton.mpr h⟩

theorem append (h : ReadsEach word stops reader xs cs) (h' : ReadsEach word stops reader ys ds) :
    ReadsEach word stops reader (xs ++ .keyword word :: ys) (cs ++ ds) := by
  obtain ⟨part, others, rfl, rfl, hparts⟩ := h
  obtain ⟨part', others', rfl, rfl, hparts'⟩ := h'
  refine ⟨part, others ++ part' :: others', ?_, by simp, fun p hp => ?_⟩
  · simp [spellParts]
  · rw [← List.cons_append] at hp
    exact (List.mem_append.mp hp).elim (hparts p) (hparts' p)

theorem exists_cons (h : ReadsEach word stops reader xs cs) : ∃ c rest, cs = c :: rest := by
  obtain ⟨part, others, -, rfl, -⟩ := h
  exact ⟨_, _, rfl⟩

theorem conjunction (h : ReadsEach .and (Looser 3) negation xs cs) :
    Reads (Looser 2) conjunction xs (joined .all cs) := by
  obtain ⟨part, others, rfl, rfl, hparts⟩ := h
  exact .conjunction_parts hparts

theorem disjunction (h : ReadsEach .or (Looser 2) Grammar.conjunction xs cs) :
    Reads (Looser 1) disjunction xs (joined .any cs) := by
  obtain ⟨part, others, rfl, rfl, hparts⟩ := h
  exact .disjunction_parts hparts

end ReadsEach

end DocQuery
