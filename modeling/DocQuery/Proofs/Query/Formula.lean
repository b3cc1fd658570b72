import DocQuery.Proofs.Query.Filtering
import DocQuery.Proofs.Statement.Reading
import DocQuery.Proofs.Statement.Sites

/-!
# Formulas as filters

A formula of comparisons, membership and existence tests is written with `NOT`, `AND` and
`OR` and with brackets where their binding asks for them, or more.  However it is written,
it is read as a filter that keeps a row when the formula is true there, where each test
counts as it does when it is a filter alone.  A test that is written twice is two tests, each
with draws of its own.
-/

namespace DocQuery

open DocQuery.Parser Grammar

/-! ## Tests as they are written -/

/-- A test in the words of a text, which is read as that test when it is a filter alone. -/
structure Atom where
  tokens : List Token
  test : Condition
  isTest : test.IsTest
  finish_not_mem : Token.finish ∉ tokens
  alone : ∃ placed, placed.map Placed.token = filteringTokens tokens ∧
    Statement.ofTokens placed = .ok (.filtering test)

/-- A test is read alike in any condition. -/
theorem Atom.reads (a : Atom) : Reads (Looser 3) negation a.tokens a.test := by
  obtain ⟨placed, hplaced, hread⟩ := a.alone
  obtain ⟨after, hspells, hafter⟩ := Spells.of_map_eq hplaced
  simp only [Statement.ofTokens, bind_eq_ok] at hread
  obtain ⟨⟨s, rest⟩, hquery, hread⟩ := hread
  dsimp only at hread
  split at hread
  · rename_i hfinish
    cases hread
    obtain ⟨c, hcondition, hc⟩ := disjunction_of_query hspells hquery
    have htest : c.asFilter.IsTest := hc ▸ a.isTest
    obtain rfl : c = a.test := htest.of_asFilter ▸ hc
    obtain ⟨xs, htakes, hreads⟩ :=
      local_negation (ofDepth_consistent _) _ _ _ (a.isTest.negation hcondition)
    rwa [htakes.eq_of_finish hafter a.finish_not_mem hfinish] at hreads
  · cases hread

/-- A test at one of the places where it is written, which gives its calls their sites. -/
structure Occurrence where
  atom : Atom
  site : List Nat

def Occurrence.test (o : Occurrence) : Condition :=
  o.atom.test.sited o.site

/-! ## Formulas -/

inductive Formula (α : Type) where
  | atom (a : α)
  | not (f : Formula α)
  | and (f g : Formula α)
  | or (f g : Formula α)

namespace Formula

variable {f g : Formula Atom} {xs ys : List Token}

def truth {α : Type} (value : α → Bool) : Formula α → Bool
  | atom a => value a
  | not f => !f.truth value
  | and f g => f.truth value && g.truth value
  | or f g => f.truth value || g.truth value

def map {α β : Type} (h : α → β) : Formula α → Formula β
  | atom a => atom (h a)
  | not f => not (f.map h)
  | and f g => and (f.map h) (g.map h)
  | or f g => or (f.map h) (g.map h)

def atoms {α : Type} : Formula α → List α
  | atom a => [a]
  | not f => f.atoms
  | and f g | or f g => f.atoms ++ g.atoms

theorem truth_map {α β : Type} {h : α → β} {value : β → Bool} {value' : α → Bool}
    {f : Formula α} (hvalue : ∀ a ∈ f.atoms, value (h a) = value' a) :
    (f.map h).truth value = f.truth value' := by
  induction f with
  | atom a => exact hvalue a (List.mem_singleton_self a)
  | not f ih => rw [map, truth, truth, ih hvalue]
  | and f g ihf ihg =>
      rw [map, truth, truth, ihf fun a ha => hvalue a (List.mem_append_left _ ha),
        ihg fun a ha => hvalue a (List.mem_append_right _ ha)]
  | or f g ihf ihg =>
      rw [map, truth, truth, ihf fun a ha => hvalue a (List.mem_append_left _ ha),
        ihg fun a ha => hvalue a (List.mem_append_right _ ha)]

theorem atoms_map {α β : Type} (h : α → β) (f : Formula α) :
    (f.map h).atoms = f.atoms.map h := by
  induction f with
  | atom a => rfl
  | not f ih => rw [map, atoms, atoms, ih]
  | and f g ihf ihg | or f g ihf ihg => rw [map, atoms, atoms, ihf, ihg, List.map_append]

/-- How tight a formula binds: `OR` 1, `AND` 2, `NOT` and a test 3. -/
def level : Formula Atom → Nat
  | or _ _ => 1
  | and _ _ => 2
  | not _ | atom _ => 3

/-- A formula with brackets only where its binding asks for them. -/
def tokens : Formula Atom → List Token
  | atom a => a.tokens
  | not f => .keyword .not :: atLevel 3 f.level f.tokens
  | and f g => atLevel 2 f.level f.tokens ++ .keyword .and :: atLevel 2 g.level g.tokens
  | or f g => atLevel 1 f.level f.tokens ++ .keyword .or :: atLevel 1 g.level g.tokens

/-- Tokens write a formula where at least a level stands; brackets may stand anywhere. -/
inductive Writes : Nat → Formula Atom → List Token → Prop where
  | atom (a : Atom) : Writes 3 (.atom a) a.tokens
  | not {f : Formula Atom} {xs : List Token} (h : Writes 3 f xs) :
      Writes 3 (.not f) (.keyword .not :: xs)
  | and {f g : Formula Atom} {xs ys : List Token} (hf : Writes 2 f xs) (hg : Writes 2 g ys) :
      Writes 2 (.and f g) (xs ++ .keyword .and :: ys)
  | or {f g : Formula Atom} {xs ys : List Token} (hf : Writes 1 f xs) (hg : Writes 1 g ys) :
      Writes 1 (.or f g) (xs ++ .keyword .or :: ys)
  | looser {n : Nat} {f : Formula Atom} {xs : List Token} (h : Writes (n + 1) f xs) : Writes n f xs
  | brackets {f : Formula Atom} {xs : List Token} (h : Writes 1 f xs) : Writes 3 f (inParens xs)

/-! ## Fewest brackets -/

theorem Writes.mono {m n : Nat} (h : Writes n f xs) (hle : m ≤ n) : Writes m f xs := by
  induction hle using Nat.decreasingInduction with
  | of_succ k _ ih => exact .looser ih
  | self => exact h

theorem one_le_level (f : Formula Atom) : 1 ≤ f.level := by
  cases f <;> simp [level]

/-- What writes a formula at its own level writes it at another with brackets if need be. -/
theorem Writes.atLevel (h : Writes f.level f xs) {wanted : Nat} (hwanted : wanted ≤ 3) :
    Writes wanted f (atLevel wanted f.level xs) := by
  by_cases hlevel : wanted ≤ f.level
  · rw [atLevel_of_le hlevel]
    exact h.mono hlevel
  · rw [atLevel_of_lt (by omega)]
    exact (Writes.brackets (h.mono f.one_le_level)).mono hwanted

theorem writes_tokens (f : Formula Atom) : Writes f.level f f.tokens := by
  induction f with
  | atom a => exact .atom a
  | not f ih => exact .not (ih.atLevel (by decide))
  | and f g ihf ihg => exact .and (ihf.atLevel (by decide)) (ihg.atLevel (by decide))
  | or f g ihf ihg => exact .or (ihf.atLevel (by decide)) (ihg.atLevel (by decide))

def bracketCount (xs : List Token) : Nat :=
  xs.count (.mark .leftParen)

theorem bracketCount_append (xs ys : List Token) :
    bracketCount (xs ++ ys) = bracketCount xs + bracketCount ys :=
  List.count_append

theorem bracketCount_keyword (word : Keyword) (xs : List Token) :
    bracketCount (.keyword word :: xs) = bracketCount xs :=
  List.count_cons_of_ne (by simp)

theorem bracketCount_inParens (xs : List Token) :
    bracketCount (inParens xs) = bracketCount xs + 1 := by
  simp [bracketCount, inParens]

theorem bracketCount_atLevel_mono {m n level : Nat} (h : m ≤ n) (xs : List Token) :
    bracketCount (DocQuery.atLevel m level xs) ≤ bracketCount (DocQuery.atLevel n level xs) := by
  by_cases hm : m ≤ level
  · rw [atLevel_of_le hm]
    by_cases hn : n ≤ level
    · rw [atLevel_of_le hn]
    · rw [atLevel_of_lt (by omega), bracketCount_inParens]
      omega
  · rw [atLevel_of_lt (by omega), atLevel_of_lt (by omega)]

theorem bracketCount_atLevel_le (wanted level : Nat) (xs : List Token) :
    bracketCount (DocQuery.atLevel wanted level xs) ≤ bracketCount xs + 1 := by
  unfold DocQuery.atLevel
  split
  · rw [bracketCount_inParens]
  · omega

/-- No writing of a formula has fewer brackets than its own tokens. -/
theorem Writes.bracketCount_le {n : Nat} (h : Writes n f xs) :
    bracketCount (DocQuery.atLevel n f.level f.tokens) ≤ bracketCount xs := by
  induction h with
  | atom a => exact Nat.le_refl _
  | not h ih =>
      rw [level, atLevel_of_le (Nat.le_refl 3), tokens, bracketCount_keyword, bracketCount_keyword]
      exact ih
  | and hf hg ihf ihg =>
      rw [level, atLevel_of_le (Nat.le_refl 2), tokens, bracketCount_append, bracketCount_append,
        bracketCount_keyword, bracketCount_keyword]
      exact Nat.add_le_add ihf ihg
  | or hf hg ihf ihg =>
      rw [level, atLevel_of_le (Nat.le_refl 1), tokens, bracketCount_append, bracketCount_append,
        bracketCount_keyword, bracketCount_keyword]
      exact Nat.add_le_add ihf ihg
  | looser h ih => exact (bracketCount_atLevel_mono (by omega) _).trans ih
  | @brackets f xs h ih =>
      rw [atLevel_of_le f.one_le_level] at ih
      rw [bracketCount_inParens]
      exact (bracketCount_atLevel_le _ _ _).trans (by omega)

/-! ## Reading what was written -/

/-- Rows pass a test where a formula is true, each of its tests at a site of its own. -/
def Tells (f : Formula Atom) (test : Parameters → Row → Bool) : Prop :=
  ∃ g : Formula Occurrence, g.map Occurrence.atom = f ∧ ∀ parameters row,
    test parameters row = g.truth fun o => o.test.holds parameters row

section Tells

variable {test other : Parameters → Row → Bool}

theorem Tells.not (h : f.Tells test) :
    (not f).Tells fun parameters row => !test parameters row := by
  obtain ⟨g, rfl, hg⟩ := h
  exact ⟨.not g, rfl, fun parameters row => by simp only [hg, truth]⟩

theorem Tells.and (hf : f.Tells test) (hg : g.Tells other) :
    (and f g).Tells fun parameters row => test parameters row && other parameters row := by
  obtain ⟨f, rfl, hf⟩ := hf
  obtain ⟨g, rfl, hg⟩ := hg
  exact ⟨.and f g, rfl, fun parameters row => by simp only [hf, hg, truth]⟩

theorem Tells.or (hf : f.Tells test) (hg : g.Tells other) :
    (or f g).Tells fun parameters row => test parameters row || other parameters row := by
  obtain ⟨f, rfl, hf⟩ := hf
  obtain ⟨g, rfl, hg⟩ := hg
  exact ⟨.or f g, rfl, fun parameters row => by simp only [hf, hg, truth]⟩

end Tells

/-- A condition is true where a formula is, wherever it stands. -/
structure Tested (f : Formula Atom) (c : Condition) : Prop where
  boolean : ∀ site, (c.sited site).Boolean
  tells : ∀ site, f.Tells fun parameters row => (c.sited site).holds parameters row

theorem Tested.ofAtom (a : Atom) : (Formula.atom a).Tested a.test :=
  ⟨fun site => (a.isTest.sited site).boolean,
    fun site => ⟨.atom ⟨a, site⟩, rfl, fun _ _ => rfl⟩⟩

theorem Tested.not {c : Condition} (h : f.Tested c) : (not f).Tested c.negate where
  boolean site := by
    rw [Condition.sited_negate]
    exact (h.boolean site).negate
  tells site := by
    simp only [Condition.sited_negate, (h.boolean site).holds_negate]
    exact (h.tells site).not

theorem Tested.ofCondition {c : Condition} (h : f.Tested c) :
    f.Tested (.term (Term.ofCondition c)) where
  boolean site := by
    rw [Condition.sited_ofCondition]
    exact (h.boolean site).ofCondition
  tells site := by
    simp only [Condition.sited_ofCondition, Condition.holds_ofCondition]
    exact h.tells site

theorem Tested.tells_all {cs : List Condition} (h : f.Tested (joined .all cs))
    (site : List Nat) :
    f.Tells fun parameters row =>
      (sitedConditions site cs).all fun c => c.holds parameters row := by
  obtain ⟨site', hsame⟩ := Condition.exists_sited_joined .all
    (fun cs site => by rw [Condition.sited]) cs site
  simp only [← Condition.holds_joined_all, hsame]
  exact h.tells site'

theorem Tested.tells_any {cs : List Condition} (h : f.Tested (joined .any cs))
    (site : List Nat) :
    f.Tells fun parameters row =>
      (sitedConditions site cs).any fun c => c.holds parameters row := by
  obtain ⟨site', hsame⟩ := Condition.exists_sited_joined .any
    (fun cs site => by rw [Condition.sited]) cs site
  simp only [← Condition.holds_joined_any, hsame]
  exact h.tells site'

/-- What a formula is read as where at least a level stands. -/
def ReadsAt (f : Formula Atom) : Nat → List Token → Prop
  | 0, xs | 1, xs => ∃ cs, ReadsEach .or (Looser 2) conjunction xs cs ∧ f.Tested (joined .any cs)
  | 2, xs => ∃ cs, ReadsEach .and (Looser 3) negation xs cs ∧ f.Tested (joined .all cs)
  | _, xs => ∃ c, Reads (Looser 3) negation xs c ∧ f.Tested c

theorem ReadsAt.and (hf : f.ReadsAt 2 xs) (hg : g.ReadsAt 2 ys) :
    (and f g).ReadsAt 2 (xs ++ .keyword .and :: ys) := by
  obtain ⟨cs, hcs, hf⟩ := hf
  obtain ⟨ds, hds, hg⟩ := hg
  obtain ⟨c, cs, rfl⟩ := hcs.exists_cons
  obtain ⟨d, ds, rfl⟩ := hds.exists_cons
  have hjoined := Condition.joined_append .all c d cs ds
  refine ⟨_, hcs.append hds, fun site => ?_, fun site => ?_⟩
  · rw [hjoined, Condition.sited]
    exact Condition.boolean_of_ofCondition rfl
  · obtain ⟨site', happend⟩ := Condition.exists_sitedConditions_append (c :: cs) site
    simp only [hjoined, Condition.sited, Condition.holds, Condition.allHold_eq_all, happend,
      List.all_append]
    exact (hf.tells_all site).and (hg.tells_all site')

theorem ReadsAt.or (hf : f.ReadsAt 1 xs) (hg : g.ReadsAt 1 ys) :
    (or f g).ReadsAt 1 (xs ++ .keyword .or :: ys) := by
  obtain ⟨cs, hcs, hf⟩ := hf
  obtain ⟨ds, hds, hg⟩ := hg
  obtain ⟨c, cs, rfl⟩ := hcs.exists_cons
  obtain ⟨d, ds, rfl⟩ := hds.exists_cons
  have hjoined := Condition.joined_append .any c d cs ds
  refine ⟨_, hcs.append hds, fun site => ?_, fun site => ?_⟩
  · rw [hjoined, Condition.sited]
    exact Condition.boolean_of_ofCondition rfl
  · obtain ⟨site', happend⟩ := Condition.exists_sitedConditions_append (c :: cs) site
    simp only [hjoined, Condition.sited, Condition.holds, Condition.anyHolds_eq_any, happend,
      List.any_append]
    exact (hf.tells_any site).or (hg.tells_any site')

theorem ReadsAt.looser {n : Nat} (h : f.ReadsAt (n + 1) xs) : f.ReadsAt n xs := by
  match n, h with
  | 0, h => exact h
  | 1, ⟨cs, hcs, hf⟩ => exact ⟨[joined .all cs], .single hcs.conjunction, hf⟩
  | 2, ⟨c, hc, hf⟩ => exact ⟨[c], .single hc, hf⟩
  | n + 3, h => exact h

/-- As a whole, a formula is read as a condition that is true where the formula is. -/
theorem ReadsAt.exists_disjunction (h : f.ReadsAt 1 xs) :
    ∃ c, Reads (Looser 1) disjunction xs c ∧ f.Tested c := by
  obtain ⟨cs, hcs, hf⟩ := h
  exact ⟨_, hcs.disjunction, hf⟩

theorem ReadsAt.brackets (h : f.ReadsAt 1 xs) : f.ReadsAt 3 (inParens xs) := by
  obtain ⟨c, hc, hf⟩ := h.exists_disjunction
  have hproduct : Chains (Looser 6) operand multiplicative? combine (inParens xs)
      (Term.ofCondition c) := hc.value.inParens.chains
  have hsum : Chains (Looser 5) product additive? combine (inParens xs) (Term.ofCondition c) :=
    hproduct.reads_product.chains
  exact ⟨_, hsum.reads_sum.comparison.negation, hf.ofCondition⟩

theorem Writes.readsAt {n : Nat} (h : Writes n f xs) : f.ReadsAt n xs := by
  induction h with
  | atom a => exact ⟨a.test, a.reads, .ofAtom a⟩
  | not h ih =>
      obtain ⟨c, hc, hf⟩ := ih
      exact ⟨c.negate, hc.not, hf.not⟩
  | and hf hg ihf ihg => exact ihf.and ihg
  | or hf hg ihf ihg => exact ihf.or ihg
  | looser h ih => exact ih.looser
  | brackets h ih => exact ih.brackets

/--
A formula's own tokens write it with the fewest brackets.  However it is written, it is read
as a filter, in any statement and in a text of its own, and a row is kept when the formula
is true there, where each test has the truth value that it has as a filter alone, with what is
drawn where it stands.  A test that draws nothing has one truth value wherever it stands.  The
results of the text are the documents whose rows are kept.
-/
theorem parse_of_writes (f : Formula Atom) :
    Writes 1 f f.tokens ∧ ∀ xs, Writes 1 f xs → bracketCount f.tokens ≤ bracketCount xs ∧
      ∃ c, ReadsClause 2 filterClause (.keyword .where :: xs) (some c) ∧
        (∀ query, tokensOf? query = some (filteringTokens xs) →
          Statement.parse query = .ok (.filtering (c.sited [3]))) ∧
        ∀ site, ∃ g : Formula Occurrence, g.map Occurrence.atom = f ∧
          (∀ parameters row, (Statement.filtering (c.sited site)).keeps parameters row =
            g.truth fun o => (Statement.filtering o.test).keeps parameters row) ∧
          ((∀ a ∈ f.atoms, a.test.mentions [.draws] = false) → ∀ parameters row,
            (Statement.filtering (c.sited site)).keeps parameters row =
              f.truth fun a => (Statement.filtering a.test).keeps parameters row) ∧
          ∀ parameters draws documents,
            (Statement.filtering (c.sited site)).run parameters draws documents =
              (documents.zipIdx.filter fun (document, index) => g.truth fun o =>
                (Statement.filtering o.test).keeps parameters
                  (Row.ofDocument (draws.part index) "c" document)).map Prod.fst := by
  refine ⟨f.writes_tokens.mono f.one_le_level, fun xs h => ⟨?_, ?_⟩⟩
  · have hcount := h.bracketCount_le
    rwa [atLevel_of_le f.one_le_level] at hcount
  · obtain ⟨c, hc, hf⟩ := h.readsAt.exists_disjunction
    refine ⟨c.asFilter, hc.filterClause, fun query hquery => ?_, fun site => ?_⟩
    · refine Statement.parse_of_tokensOf? hquery fun placed hplaced => ?_
      exact Statement.read_eq_ok.mpr
        ⟨_, hc.filtering hplaced, Statement.sited_filtering c.asFilter []⟩
    · obtain ⟨g, rfl, hg⟩ := hf.tells site
      have hkeeps (parameters : Parameters) (row : Row) :
          (Statement.filtering (c.asFilter.sited site)).keeps parameters row =
            g.truth fun o => (Statement.filtering o.test).keeps parameters row := by
        simp only [Statement.keeps_filtering, Condition.sited_asFilter, Condition.holds_asFilter,
          hg]
      refine ⟨g, rfl, hkeeps, fun hdraws parameters row => ?_, fun parameters draws documents => ?_⟩
      · rw [hkeeps]
        refine (truth_map fun o ho => ?_).symm
        have hsame : o.test = o.atom.test := by
          refine Condition.sited_of_unmentioned _ (hdraws _ ?_) o.site
          rw [atoms_map]
          exact List.mem_map_of_mem ho
        rw [hsame]
      · simp only [Statement.run_filtering, hkeeps]

/-- Brackets around one test are not needed, those around two are; two negations cancel. -/
theorem parse_of_writes_negations :
    let query := "SELECT * FROM c WHERE NOT (c.a = 1 OR (c.b NOT IN (2))) " ++
      "AND NOT NOT EXISTS (SELECT * FROM c)"
    ∃ a b e : Atom,
      a.tokens = [.identifier "c", .mark .dot, .identifier "a", .mark .equal, .integer 1] ∧
      b.tokens = [.identifier "c", .mark .dot, .identifier "b", .keyword .not, .keyword .in,
        .mark .leftParen, .integer 2, .mark .rightParen] ∧
      e.tokens = [.keyword .exists, .mark .leftParen, .keyword .select, .mark .star,
        .keyword .from, .identifier "c", .mark .rightParen] ∧
      ∃ c, Statement.parse query.toList = .ok (.filtering c) ∧
        ∀ parameters row, (Statement.filtering c).keeps parameters row =
          (!((Statement.filtering a.test).keeps parameters row ||
            (Statement.filtering b.test).keeps parameters row) &&
              !!(Statement.filtering e.test).keeps parameters row) := by
  intro query
  let as : List Token :=
    [.identifier "c", .mark .dot, .identifier "a", .mark .equal, .integer 1]
  let bs : List Token := [.identifier "c", .mark .dot, .identifier "b", .keyword .not,
    .keyword .in, .mark .leftParen, .integer 2, .mark .rightParen]
  let es : List Token := [.keyword .exists, .mark .leftParen, .keyword .select, .mark .star,
    .keyword .from, .identifier "c", .mark .rightParen]
  let placing : List Token → List Placed := fun xs =>
    (filteringTokens xs).map fun token => ⟨token, 0⟩
  have ha : Statement.ofTokens (placing as) = .ok (.filtering
    (.compare .equal (.plain (.path ["c", "a"])) (.plain (.constant (.integer 1))))) := rfl
  have hb : Statement.ofTokens (placing bs) = .ok (.filtering
    (.term ⟨none, true, .call .membership
      [.plain (.path ["c", "b"]), .plain (.constant (.integer 2))]⟩)) := rfl
  have he : Statement.ofTokens (placing es) = .ok (.filtering (.term ⟨none, false, .existence
    ⟨.value (.plain (.path ["c"])), .path ["c"] none, [], none, [], [], false, 0, none⟩⟩)) := rfl
  let a : Atom := ⟨as, _, .compare _ _ _, by decide, placing as, rfl, ha⟩
  let b : Atom := ⟨bs, _, .membership _ _, by decide, placing bs, rfl, hb⟩
  let e : Atom := ⟨es, _, .existence _ _, by decide, placing es, rfl, he⟩
  have hwrites := Writes.and
    (Writes.not (.brackets (.or (Writes.atom a).looser.looser
      (Writes.brackets (Writes.atom b).looser.looser).looser.looser))).looser
    (Writes.not (.not (.atom e))).looser
  obtain ⟨-, hall⟩ :=
    parse_of_writes (.and (.not (.or (.atom a) (.atom b))) (.not (.not (.atom e))))
  obtain ⟨-, c, -, hparse, hsites⟩ := hall _ hwrites.looser
  obtain ⟨-, -, -, hkeeps, -⟩ := hsites [3]
  have htokens : tokensOf? query.toList = some
      (filteringTokens (.keyword .not :: inParens (as ++ .keyword .or :: inParens bs) ++
        .keyword .and :: .keyword .not :: .keyword .not :: es)) := by
    decide +kernel
  have hdraws : ∀ atom ∈ [a, b, e], atom.test.mentions [.draws] = false :=
    List.forall_mem_cons.mpr ⟨rfl, List.forall_mem_cons.mpr ⟨rfl, List.forall_mem_cons.mpr
      ⟨rfl, List.forall_mem_nil _⟩⟩⟩
  exact ⟨a, b, e, rfl, rfl, rfl, c.sited [3], hparse _ htokens, hkeeps hdraws⟩

end Formula

end DocQuery
