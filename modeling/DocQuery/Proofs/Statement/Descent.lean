import DocQuery.Proofs.Statement.Progress

/-!
# Readers call each other further on

Every call that one reader of the grammar makes to another, or to itself, is made at a later
token, or at the same token to a level that binds tighter.  So the calls come to an end, and the
grammar without a bound on how deep brackets nest describes one family of readers only: the one
that is run.
-/

namespace DocQuery

open DocQuery.Parser Grammar

/-! ## Readers and their calls -/

/-- The readers that call one another: statements, and the levels of binding from loose to tight. -/
inductive Level where
  | statement | disjunction | conjunction | negation | comparison | sum | product | operand

namespace Level

abbrev Result : Level → Type
  | statement => Statement
  | disjunction | conjunction | negation | comparison => Condition
  | sum | product | operand => Term

def rank : Level → Nat
  | statement => 0
  | disjunction => 1
  | conjunction => 2
  | negation => 3
  | comparison => 4
  | sum => 5
  | product => 6
  | operand => 7

theorem rank_le (level : Level) : level.rank ≤ 7 := by
  cases level <;> decide

end Level

abbrev Readers := (level : Level) → Parser level.Result

namespace Readers

def brackets (read : Readers) : Grammar :=
  ⟨read .disjunction, read .statement⟩

section Bodies

variable (inner : Grammar) (read : Readers)

def value : Parser Term := fun ts => do
  let (condition, rest) ← read .disjunction ts
  .ok (Term.ofCondition condition, rest)

def column : Parser Term := fun ts => do
  let (value, rest) ← read.value ts
  match ← label? rest with
  | (some label, rest) => .ok (value.withLabel label, rest)
  | (none, rest) => .ok (value, rest)

def projection? (valueOnly : Bool) : Parser (Option Projection) := fun ts =>
  if valueOnly then do
    let (terms, rest) ← separated (.mark .comma) read.column ts
    match terms with
    | [term] => .ok (some (.value term), rest)
    | _ => fail .notOneValue rest
  else if peek ts = .mark .star then .ok (none, ts.tail)
  else do
    let (terms, rest) ← separated (.mark .comma) read.column ts
    .ok (some (.columns terms), rest)

def filterClause : Parser (Option Condition) := fun ts =>
  if peek ts = .keyword .where then do
    let (condition, rest) ← read .disjunction ts.tail
    .ok (some condition.asFilter, rest)
  else .ok (none, ts)

def groupingClause : Parser (List Term) := fun ts =>
  if peek ts = .keyword .group then do
    let ((), rest) ← expect (.keyword .by) ts.tail
    separated (.mark .comma) read.value rest
  else .ok ([], ts)

def sortKey : Parser SortKey := fun ts => do
  let (term, rest) ← read .sum ts
  match peek rest with
  | .keyword .desc => .ok (⟨term, .descending⟩, rest.tail)
  | .keyword .asc => .ok (⟨term, .ascending⟩, rest.tail)
  | _ => .ok (⟨term, .ascending⟩, rest)

def orderingClause : Parser (List SortKey) := fun ts =>
  if peek ts = .keyword .order then do
    let ((), rest) ← expect (.keyword .by) ts.tail
    separated (.mark .comma) read.sortKey rest
  else .ok ([], ts)

def query : Parser Statement := fun ts => do
  let ((), rest) ← expect (.keyword .select) ts
  let (modifiers, rest) ← modifiers rest
  let (projection?, rest) ← read.projection? modifiers.value rest
  let (source, rest) ← sourceClause inner rest
  let (projection, rest) ← starred source projection? rest
  let (joins, rest) ← joinClauses inner rest
  let (filter, rest) ← read.filterClause rest
  let (grouping, rest) ← read.groupingClause rest
  let (ordering, rest) ← read.orderingClause rest
  let ((offset, count), rest) ← window modifiers.count rest
  .ok (⟨projection, source, joins, filter, grouping, ordering, modifiers.distinct, offset, count⟩,
    rest)

def comparison : Parser Condition := fun ts => do
  let (left, rest) ← read .sum ts
  match peek rest with
  | .keyword .in => membership inner false left rest.tail
  | .keyword .not =>
      if peek rest.tail = .keyword .in then membership inner true left rest.tail.tail
      else .ok (.term left, rest)
  | found =>
      match comparison? found with
      | some op => do
          let (right, rest) ← read .sum rest.tail
          .ok (.compare op left right, rest)
      | none => .ok (.term left, rest)

def negation : Parser Condition
  | [] => read .comparison []
  | first :: rest =>
      if first.token = .keyword .not then do
        let (condition, rest) ← read .negation rest
        .ok (condition.negate, rest)
      else read .comparison (first :: rest)

def operand : Parser Term
  | [] => compound inner []
  | first :: rest =>
      match literal? first.token with
      | some c => .ok (Term.plain (.constant c), rest)
      | none =>
          if first.token = .mark .minus then
            match negativeLiteral? (peek rest) with
            | some c => .ok (Term.plain (.constant c), rest.tail)
            | none => do
                let (value, rest) ← read .operand rest
                .ok (combine .subtract (Term.plain (.constant (.integer 0))) value, rest)
          else compound inner (first :: rest)

/-- One round of each reader: the calls that it makes are answered by given readers. -/
def round : Readers
  | .statement => read.query inner
  | .disjunction => fun ts => do
      let (parts, rest) ← separated (.keyword .or) (read .conjunction) ts
      .ok (joined .any parts, rest)
  | .conjunction => fun ts => do
      let (parts, rest) ← separated (.keyword .and) (read .negation) ts
      .ok (joined .all parts, rest)
  | .negation => read.negation
  | .comparison => read.comparison inner
  | .sum => chain (read .product) additive? combine
  | .product => chain (read .operand) multiplicative? combine
  | .operand => read.operand inner

end Bodies

end Readers

def Grammar.readers (inner : Grammar) : Readers
  | .statement => query inner
  | .disjunction => disjunction inner
  | .conjunction => conjunction inner
  | .negation => negation inner
  | .comparison => comparison inner
  | .sum => sum inner
  | .product => product inner
  | .operand => operand inner

theorem Grammar.round_readers (inner : Grammar) : inner.readers.round inner = inner.readers := by
  funext level ts
  cases level with
  | negation => cases ts <;> rfl
  | operand => cases ts <;> rfl
  | _ => rfl

/-! ## In brackets -/

/-- Two grammars agree on what is left of some tokens when at least so many of them are passed. -/
structure Grammar.Agree (least : Nat) (ts : List Placed) (inner inner' : Grammar) : Prop where
  condition : DocQuery.Agree least ts inner.condition inner'.condition
  statement : DocQuery.Agree least ts inner.statement inner'.statement

section Brackets

variable {k m n : Nat} {ts rest : List Placed} {inner inner' : Grammar}

theorem Grammar.Agree.beyond (h : inner.Agree m ts inner') (hpasses : Passes k ts rest)
    (hle : m ≤ k + n) : inner.Agree n rest inner' :=
  ⟨h.condition.beyond hpasses hle, h.statement.beyond hpasses hle⟩

theorem agree_term (h : inner.Agree n ts inner') : Agree n ts (term inner) (term inner') :=
  fun rest hrest => (h.condition rest hrest).map Term.ofCondition

theorem agree_closedStatement (h : inner.Agree n ts inner') :
    Agree n ts (closedStatement inner) (closedStatement inner') :=
  fun rest hrest => (h.statement rest hrest).bind fun s _ _ =>
    ((accord_expect (by simp)).map fun _ => s).weaken

theorem accord_key : Accord 1 ts (key ts) (key ts) := by
  unfold key
  split
  · rename_i hpeek
    exact .ok _ (.of_peek (by simp) hpeek)
  · rename_i hpeek
    exact .ok _ (.of_peek (by simp) hpeek)
  · rename_i hpeek
    exact .ok _ (.of_peek (by simp) hpeek)
  · exact .fail _ ts

theorem agree_member (h : inner.Agree n ts inner') : Agree n ts (member inner) (member inner') := by
  intro rest hrest
  refine accord_key.bind fun name middle hname => ?_
  refine ((accord_expect (by simp)).bind fun _ last hcolon => ?_).weaken
  have hlast := hrest.trans (hname.trans hcolon)
  have hvalue := agree_term (h.beyond (n := 0) hlast (by omega))
  exact (hvalue.here.map fun t => t.withLabel name).weaken

theorem accord_arguments (h : inner.Agree 1 ts inner') :
    Accord 1 ts (arguments inner ts) (arguments inner' ts) :=
  (accord_expect (by simp)).bind fun _ _ hopen =>
    (accord_closedBy (agree_term (h.beyond hopen (by decide)))).weaken

theorem accord_call (name : String) (h : inner.Agree 1 ts inner') :
    Accord 1 ts (call inner name ts) (call inner' name ts) := by
  unfold call
  split
  · exact .fail _ ts
  · rename_i f _
    exact (accord_arguments h).map fun terms => Term.plain (.call f terms)

theorem accord_compound (h : inner.Agree 1 ts inner') :
    Accord 1 ts (compound inner ts) (compound inner' ts) := by
  unfold compound
  split
  · rename_i hpeek
    have hopen : Passes 1 ts ts.tail := .of_peek (by simp) hpeek
    have hinside := h.beyond (n := 0) hopen (by decide)
    refine .after hopen ?_
    split
    · exact ((agree_closedStatement hinside).here.map fun s => Term.plain (.subquery s)).weaken
    · refine ((agree_term hinside).here.bind fun t rest _ => ?_).weaken
      exact ((accord_expect (by simp)).map fun _ => t).weaken
  · rename_i hpeek
    have hexists : Passes 1 ts ts.tail := .of_peek (by simp) hpeek
    refine .after hexists ((accord_expect (by simp)).bind fun _ last hopen => ?_).weaken
    have hinside := h.beyond (n := 0) (hexists.trans hopen) (by decide)
    exact ((agree_closedStatement hinside).here.map fun s => Term.plain (.existence s)).weaken
  · rename_i hpeek
    have hopen : Passes 1 ts ts.tail := .of_peek (by simp) hpeek
    have hmembers := agree_member (h.beyond (n := 0) hopen (by decide))
    exact .after hopen ((accord_closedBy hmembers).map fun ms => Term.plain (.object ms)).weaken
  · rename_i hpeek
    have hopen : Passes 1 ts ts.tail := .of_peek (by simp) hpeek
    have helements := agree_term (h.beyond (n := 0) hopen (by decide))
    exact .after hopen ((accord_closedBy helements).map fun es => Term.plain (.array es)).weaken
  · rename_i name hpeek
    have hname : Passes 1 ts ts.tail := .of_peek (by simp) hpeek
    refine .after hname ?_
    split
    · exact (accord_call name (h.beyond hname (by decide))).weaken
    · exact (accord_pathFrom name).map fun segments => Term.plain (.path segments)
  · exact .fail _ ts

theorem accord_membership (negated : Bool) (needle : Term) (h : inner.Agree 1 ts inner') :
    Accord 1 ts (membership inner negated needle ts) (membership inner' negated needle ts) :=
  (accord_arguments h).map fun candidates =>
    Condition.term ⟨none, negated, .call .membership (needle :: candidates)⟩

theorem accord_labelledSubquery (hbegins : beginsSubquery ts = true) (h : inner.Agree 1 ts inner') :
    Accord 1 ts (labelledSubquery inner ts) (labelledSubquery inner' ts) := by
  simp only [beginsSubquery, Bool.and_eq_true, decide_eq_true_eq] at hbegins
  have hopen : Passes 1 ts ts.tail := .of_peek (by simp) hbegins.1
  have hinside := agree_closedStatement (h.beyond (n := 0) hopen (by decide))
  refine .after hopen (hinside.here.bind fun s rest _ => ?_).weaken
  exact (accord_label.map fun label => (s, label)).weaken

theorem accord_source (h : inner.Agree 1 ts inner') :
    Accord 1 ts (source inner ts) (source inner' ts) := by
  unfold source
  split
  · rename_i hbegins
    exact (accord_labelledSubquery hbegins h).map fun found => Source.subquery found.1 found.2
  · refine accord_name.bind fun first rest _ => ?_
    dsimp only
    split
    · rename_i hin
      have hskip : Passes 1 rest rest.tail := .of_peek (by simp) hin
      exact (accord_path.map fun segments => Source.each first segments).behind hskip
    · refine (accord_pathFrom first).bind fun segments rest _ => ?_
      exact accord_label?.map fun label => Source.path segments label

theorem accord_sourceClause (h : inner.Agree 1 ts inner') :
    Accord 0 ts (sourceClause inner ts) (sourceClause inner' ts) := by
  unfold sourceClause
  split
  · rename_i hfrom
    have hskip : Passes 1 ts ts.tail := .of_peek (by simp) hfrom
    exact (accord_source (h.beyond hskip (by decide))).behind hskip
  · exact .done _ ts

theorem agree_join (h : inner.Agree n ts inner') : Agree n ts (join inner) (join inner') := by
  intro rest hrest
  unfold join
  split
  · rename_i hbegins
    exact (accord_labelledSubquery hbegins (h.beyond hrest (Nat.le_succ n))).map fun found =>
      Join.subquery found.1 found.2
  · refine accord_name.bind fun first rest _ => ?_
    refine ((accord_expect (by simp)).bind fun _ rest _ => ?_).weaken
    exact (accord_path.map fun segments => Join.each first segments).weaken

theorem accord_joinClauses (h : inner.Agree 1 ts inner') :
    Accord 0 ts (joinClauses inner ts) (joinClauses inner' ts) :=
  accord_separatedFrom (by simp) (agree_join h) (Nat.le_refl _) (Nat.le_refl _)

theorem accord_window (top : Option Nat) : Accord 0 ts (window top ts) (window top ts) := by
  unfold window
  split
  · rename_i hoffset
    have hskip : Passes 1 ts ts.tail := .of_peek (by simp) hoffset
    refine (accord_count.bind fun offset rest _ => ?_).behind hskip
    refine ((accord_expect (by simp)).bind fun _ rest _ => ?_).weaken
    exact (accord_count.map fun n => (offset, some n)).weaken
  · rename_i hlimit
    have hskip : Passes 1 ts ts.tail := .of_peek (by simp) hlimit
    exact (accord_count.map fun n => (0, some n)).behind hskip
  · exact .done _ ts

theorem accord_starred (found : Source) (projected : Option Projection) :
    Accord 0 ts (starred found projected ts) (starred found projected ts) := by
  cases projected with
  | some projection => exact .done _ ts
  | none =>
      simp only [starred]
      split
      · exact .done _ ts
      · exact .fail _ ts

end Brackets

/-! ## One round of calls -/

section Rounds

variable {n : Nat} {ts : List Placed} {inner inner' : Grammar} {read read' : Readers}

theorem agree_value (h : Agree n ts (read .disjunction) (read' .disjunction)) :
    Agree n ts read.value read'.value :=
  fun rest hrest => (h rest hrest).map Term.ofCondition

theorem agree_column (h : Agree n ts (read .disjunction) (read' .disjunction)) :
    Agree n ts read.column read'.column := by
  intro rest hrest
  refine (agree_value h rest hrest).bind fun t rest _ => ?_
  refine accord_label?.bind fun found rest _ => ?_
  cases found with
  | none => exact .done t rest
  | some label => exact .done (t.withLabel label) rest

theorem accord_projection? (valueOnly : Bool)
    (h : Agree 0 ts (read .disjunction) (read' .disjunction)) :
    Accord 1 ts (read.projection? valueOnly ts) (read'.projection? valueOnly ts) := by
  have hcolumns : Accord 1 ts (separated (.mark .comma) read.column ts)
      (separated (.mark .comma) read'.column ts) := accord_separated (by simp) (agree_column h)
  unfold Readers.projection?
  split
  · refine hcolumns.bind fun terms rest _ => ?_
    dsimp only
    split
    · exact .done _ rest
    · exact .fail _ rest
  · split
    · rename_i hstar
      exact .ok _ (.of_peek (by simp) hstar)
    · exact hcolumns.map fun terms => some (Projection.columns terms)

theorem accord_filterClause (h : Agree 1 ts (read .disjunction) (read' .disjunction)) :
    Accord 0 ts (read.filterClause ts) (read'.filterClause ts) := by
  unfold Readers.filterClause
  split
  · rename_i hwhere
    have hskip : Passes 1 ts ts.tail := .of_peek (by simp) hwhere
    exact ((h _ hskip).map fun c => some c.asFilter).behind hskip
  · exact .done _ ts

theorem accord_groupingClause (h : Agree 1 ts (read .disjunction) (read' .disjunction)) :
    Accord 0 ts (read.groupingClause ts) (read'.groupingClause ts) := by
  unfold Readers.groupingClause
  split
  · rename_i hgroup
    have hskip : Passes 1 ts ts.tail := .of_peek (by simp) hgroup
    refine ((accord_expect (by simp)).bind fun _ rest hby => ?_).behind hskip
    have hvalues := agree_value (h.beyond (n := 0) (hskip.trans hby) (by decide))
    exact (accord_separated (by simp) hvalues).weaken
  · exact .done _ ts

theorem agree_sortKey (h : Agree n ts (read .sum) (read' .sum)) :
    Agree n ts read.sortKey read'.sortKey := by
  intro rest hrest
  refine (h rest hrest).bind fun t rest _ => ?_
  dsimp only
  split
  · rename_i hdesc
    exact (Accord.ok _ (.of_peek (by simp) hdesc)).weaken
  · rename_i hasc
    exact (Accord.ok _ (.of_peek (by simp) hasc)).weaken
  · exact .done _ rest

theorem accord_orderingClause (h : Agree 1 ts (read .sum) (read' .sum)) :
    Accord 0 ts (read.orderingClause ts) (read'.orderingClause ts) := by
  unfold Readers.orderingClause
  split
  · rename_i horder
    have hskip : Passes 1 ts ts.tail := .of_peek (by simp) horder
    refine ((accord_expect (by simp)).bind fun _ rest hby => ?_).behind hskip
    have hkeys := agree_sortKey (h.beyond (n := 0) (hskip.trans hby) (by decide))
    exact (accord_separated (by simp) hkeys).weaken
  · exact .done _ ts

theorem accord_query (hinner : inner.Agree 1 ts inner')
    (h : ∀ level, Agree 1 ts (read level) (read' level)) :
    Accord 1 ts (read.query inner ts) (read'.query inner' ts) := by
  -- `SELECT` is passed first, so every clause, even an empty one, makes its calls further on.
  refine (accord_expect (by simp)).bind fun _ r₁ h₁ => ?_
  refine (accord_modifiersFrom _ (Nat.le_refl _) (Nat.le_refl _)).bind fun modifiers r₂ h₂ => ?_
  have h₂ := h₁.trans h₂
  refine ((accord_projection? _ ((h .disjunction).beyond h₂ (by decide))).bind
    fun projected r₃ h₃ => ?_).weaken
  have h₃ := h₂.trans h₃
  refine (accord_sourceClause (hinner.beyond h₃ (by decide))).bind fun source r₄ h₄ => ?_
  have h₄ := h₃.trans h₄
  refine (accord_starred source projected).bind fun projection r₅ h₅ => ?_
  have h₅ := h₄.trans h₅
  refine (accord_joinClauses (hinner.beyond h₅ (by decide))).bind fun joins r₆ h₆ => ?_
  have h₆ := h₅.trans h₆
  refine (accord_filterClause ((h .disjunction).beyond h₆ (by decide))).bind
    fun filter r₇ h₇ => ?_
  have h₇ := h₆.trans h₇
  refine (accord_groupingClause ((h .disjunction).beyond h₇ (by decide))).bind
    fun grouping r₈ h₈ => ?_
  have h₈ := h₇.trans h₈
  refine (accord_orderingClause ((h .sum).beyond h₈ (by decide))).bind fun ordering r₉ _ => ?_
  exact (accord_window _).bind fun found rest _ => .done _ rest

theorem accord_comparison (hinner : inner.Agree 1 ts inner')
    (h : Agree 0 ts (read .sum) (read' .sum)) :
    Accord 1 ts (read.comparison inner ts) (read'.comparison inner' ts) := by
  refine h.here.bind fun left rest hleft => ?_
  dsimp only
  split
  · rename_i hin
    have hskip : Passes 1 rest rest.tail := .of_peek (by simp) hin
    have hcandidates := hinner.beyond (n := 1) (hleft.trans hskip) (by decide)
    exact (accord_membership false left hcandidates).behind hskip
  · rename_i hnot
    split
    · rename_i hin
      have hskip : Passes 2 rest rest.tail.tail :=
        (Passes.of_peek (by simp) hnot).trans (.of_peek (by simp) hin)
      have hcandidates := hinner.beyond (n := 1) (hleft.trans hskip) (by decide)
      exact (accord_membership true left hcandidates).behind hskip
    · exact .done _ rest
  · cases hop : comparison? (peek rest) with
    | none => exact .done _ rest
    | some op =>
        have hfinish : peek rest ≠ .finish := fun hfinish => by
          rw [hfinish] at hop
          cases hop
        have hskip := Passes.skip hfinish
        have hright := h.beyond (n := 0) (hleft.trans hskip) (by decide)
        exact (hright.here.map fun right => Condition.compare op left right).behind hskip

theorem accord_negation (hnegation : Agree 1 ts (read .negation) (read' .negation))
    (hcomparison : Agree 0 ts (read .comparison) (read' .comparison)) :
    Accord 1 ts (read.negation ts) (read'.negation ts) := by
  cases ts with
  | nil => exact hcomparison.here
  | cons first ts =>
      simp only [Readers.negation]
      split
      · rename_i hnot
        have hskip : Passes 1 (first :: ts) ts := .uncons (by simp [hnot])
        exact .after hskip ((hnegation _ hskip).map Condition.negate).weaken
      · exact hcomparison.here

theorem accord_operand (hinner : inner.Agree 1 ts inner')
    (h : Agree 1 ts (read .operand) (read' .operand)) :
    Accord 1 ts (read.operand inner ts) (read'.operand inner' ts) := by
  cases ts with
  | nil => exact accord_compound hinner
  | cons first ts =>
      simp only [Readers.operand]
      cases hliteral : literal? first.token with
      | some c =>
          have hfinish : first.token ≠ .finish := fun hfinish => by
            rw [hfinish] at hliteral
            cases hliteral
          exact .ok _ (.uncons hfinish)
      | none =>
          dsimp only
          split
          · rename_i hminus
            have hskip : Passes 1 (first :: ts) ts := .uncons (by simp [hminus])
            cases hnegative : negativeLiteral? (peek ts) with
            | some c =>
                have hfinish : peek ts ≠ .finish := fun hfinish => by
                  rw [hfinish] at hnegative
                  cases hnegative
                exact .after hskip (Accord.ok _ (.skip hfinish)).weaken
            | none => exact .after hskip ((h _ hskip).map fun t => combine .subtract
                (Term.plain (.constant (.integer 0))) t).weaken
          · exact accord_compound hinner

/-- A call at a later token, or at the same one to a level that binds tighter. -/
def Further (level : Level) (ts : List Placed) (level' : Level) (rest : List Placed) : Prop :=
  Passes 1 ts rest ∨ rest = ts ∧ level.rank < level'.rank

theorem accord_round {level : Level} (hinner : inner.Agree 1 ts inner')
    (h : ∀ level' rest, Further level ts level' rest →
      Accord 1 rest (read level' rest) (read' level' rest)) :
    Accord 1 ts (read.round inner level ts) (read'.round inner' level ts) := by
  have hlater (level' : Level) : Agree 1 ts (read level') (read' level') :=
    fun rest hrest => h level' rest (.inl hrest)
  have htighter (level' : Level) (hrank : level.rank < level'.rank) :
      Agree 0 ts (read level') (read' level') := by
    intro rest hrest
    rcases hrest.eq_or with rfl | hrest
    · exact h level' rest (.inr ⟨rfl, hrank⟩)
    · exact hlater level' rest hrest
  cases level with
  | statement => exact accord_query hinner hlater
  | disjunction =>
      exact (accord_separated (by simp) (htighter .conjunction (by decide))).map (joined .any)
  | conjunction =>
      exact (accord_separated (by simp) (htighter .negation (by decide))).map (joined .all)
  | negation => exact accord_negation (hlater .negation) (htighter .comparison (by decide))
  | comparison => exact accord_comparison hinner (htighter .sum (by decide))
  | sum => exact accord_chain rfl (htighter .product (by decide))
  | product => exact accord_chain rfl (htighter .operand (by decide))
  | operand => exact accord_operand hinner (hlater .operand)

end Rounds

/-! ## All rounds -/

section Families

variable {ts rest : List Placed} {inner inner' : Grammar} {read : Readers} {level level' : Level}
  {depth depth' : Nat}

/-- What goes down with every call: fewer tokens, or as many and fewer levels left. -/
def callMeasure (level : Level) (ts : List Placed) : Nat :=
  8 * ts.length + (7 - level.rank)

theorem Further.measure_lt (h : Further level ts level' rest) :
    callMeasure level' rest < callMeasure level ts := by
  unfold callMeasure
  rcases h with hpasses | ⟨rfl, hrank⟩
  · have hlength := hpasses.length_le
    omega
  · have hle := level'.rank_le
    omega

theorem accord_readers (level : Level) (h : inner.Agree 1 ts inner') :
    Accord 1 ts (inner.readers level ts) (inner'.readers level ts) := by
  -- The readers are one round of themselves, whose calls the induction answers.
  induction hmeasure : callMeasure level ts using Nat.strongRecOn generalizing level ts with
  | ind k ih =>
      subst hmeasure
      rw [← inner.round_readers, ← inner'.round_readers]
      refine accord_round h fun level' rest hfurther => ih _ hfurther.measure_lt level' ?_ rfl
      rcases hfurther with hpasses | ⟨rfl, -⟩
      · exact h.beyond hpasses (by decide)
      · exact h

theorem Grammar.Agree.of_nil : inner.Agree 1 [] inner' := by
  have hnone {rest : List Placed} : ¬Passes 1 [] rest := fun hrest =>
    Nat.not_succ_le_zero _ hrest.length_le
  exact ⟨fun _ hrest => absurd hrest hnone, fun _ hrest => absurd hrest hnone⟩

/-- A bracket is a token, so brackets do not nest deeper than there are tokens. -/
theorem agree_ofDepth (h : ts.length ≤ depth) (h' : ts.length ≤ depth') :
    (ofDepth depth).Agree 1 ts (ofDepth depth') := by
  induction hlength : ts.length using Nat.strongRecOn generalizing ts depth depth' with
  | ind k ih =>
      cases ts with
      | nil => exact .of_nil
      | cons p ts =>
          obtain ⟨depth, rfl⟩ := exists_budget_of_cons h
          obtain ⟨depth', rfl⟩ := exists_budget_of_cons h'
          subst hlength
          -- The grammars inside are asked behind a bracket only, where fewer tokens are left.
          have hdeeper {rest : List Placed} (hrest : Passes 1 (p :: ts) rest) :
              (ofDepth depth).Agree 1 rest (ofDepth depth') := by
            have hle := hrest.length_le
            exact ih _ hle (by omega) (by omega) rfl
          exact ⟨fun rest hrest => accord_readers .disjunction (hdeeper hrest),
            fun rest hrest => accord_readers .statement (hdeeper hrest)⟩

/-- A grammar agrees with itself, also where brackets nest deeper than it reads. -/
theorem agree_ofDepth_self (n : Nat) : (ofDepth depth).Agree n ts (ofDepth depth) := by
  induction depth generalizing n ts with
  | zero => exact ⟨fun rest _ => .fail _ rest, fun rest _ => .fail _ rest⟩
  | succ depth ih =>
      exact ⟨fun rest _ => accord_readers .disjunction (ih 1),
        fun rest _ => accord_readers .statement (ih 1)⟩

/-! ## The family that is run -/

/-- Every level reads with brackets that nest as deep as there are tokens. -/
def reads : Readers := fun level ts =>
  (ofDepth ts.length).readers level ts

theorem accord_reads (level : Level) (h : ts.length ≤ depth) :
    Accord 1 ts (reads level ts) ((ofDepth depth).readers level ts) :=
  accord_readers level (agree_ofDepth (Nat.le_refl _) h)

theorem agree_reads (h : ts.length ≤ depth) : reads.brackets.Agree 1 ts (ofDepth depth) := by
  cases ts with
  | nil => exact .of_nil
  | cons p ts =>
      obtain ⟨depth, rfl⟩ := exists_budget_of_cons h
      have hdeeper {rest : List Placed} (hrest : Passes 1 (p :: ts) rest) :
          rest.length ≤ depth := by
        have hle := hrest.length_le
        omega
      exact ⟨fun rest hrest => accord_reads .disjunction (hdeeper hrest),
        fun rest hrest => accord_reads .statement (hdeeper hrest)⟩

/-- It does what one round does whose calls it answers itself. -/
theorem round_reads : reads.round reads.brackets = reads := by
  funext level ts
  have hround : Accord 1 ts (reads.round reads.brackets level ts)
      ((ofDepth ts.length).readers.round (ofDepth ts.length) level ts) := by
    refine accord_round (agree_reads (Nat.le_refl _)) fun level' rest hfurther => ?_
    refine accord_reads level' ?_
    rcases hfurther with hpasses | ⟨rfl, -⟩
    · exact Nat.le_of_add_right_le hpasses.length_le
    · exact Nat.le_refl _
  rw [hround.eq, Grammar.round_readers]
  rfl

/-- A round makes its calls further on only: how others would be answered makes no difference. -/
theorem round_eq_reads
    (h : ∀ level' rest, Further level ts level' rest → read level' rest = reads level' rest) :
    read.round read.brackets level ts = reads level ts := by
  have hcalls (level' : Level) (rest : List Placed) (hfurther : Further level ts level' rest) :
      Accord 1 rest (read level' rest) (reads level' rest) := by
    rw [h level' rest hfurther]
    exact accord_reads level' (Nat.le_refl _)
  have hbrackets : read.brackets.Agree 1 ts reads.brackets :=
    ⟨fun rest hrest => hcalls .disjunction rest (.inl hrest),
      fun rest hrest => hcalls .statement rest (.inl hrest)⟩
  rw [(accord_round hbrackets hcalls).eq, round_reads]

/-- There is one family of readers that answer each other's calls. -/
theorem round_eq_self_iff : read.round read.brackets = read ↔ read = reads := by
  constructor
  · intro h
    funext level ts
    induction hmeasure : callMeasure level ts using Nat.strongRecOn generalizing level ts with
    | ind k ih =>
        subst hmeasure
        rw [← h]
        exact round_eq_reads fun level' rest hfurther => ih _ hfurther.measure_lt _ _ rfl
  · rintro rfl
    exact round_reads

end Families

end DocQuery
