import DocQuery.Proofs.Statement.Levels
import DocQuery.Proofs.Value.Negation

/-!
# Reading terms back

A form is read back when its tokens, in brackets where the place asks for it, give the
form at every place.  That follows from reading it at its own level; each kind of form
is read back when its parts are.
-/

namespace DocQuery

open DocQuery.Parser Grammar

/-- A form is read back from its tokens wherever it may stand. -/
structure Form.ReadBack (f : Form) : Prop where
  operand : Reads (Looser 6) operand (atLevel 6 f.level f.tokens) (.plain f)
  product : Chains (Looser 6) Grammar.operand multiplicative? combine
    (atLevel 5 f.level f.tokens) (.plain f)
  sum : Chains (Looser 5) Grammar.product additive? combine (atLevel 4 f.level f.tokens) (.plain f)
  /-- As a condition, in which a bare predicate would not be a term. -/
  part : Reads (Looser 3) negation (Condition.tokens (.term (.plain f))) (.term (.plain f))
  negated : Reads (Looser 3) negation (.keyword .not :: atLevel 3 f.level f.tokens)
    (.term ⟨none, true, f⟩)
  value : Reads (Looser 1) value f.tokens (.plain f)

/-- A term without a label is read back when its form is. -/
structure Term.ReadBack (t : Term) : Prop where
  label : t.label = none
  form : t.form.ReadBack

/-! ## From the level of a form to all places -/

section Places

variable {f : Form} {t : Term}

theorem atLevel_of_le {wanted level : Nat} (h : wanted ≤ level) (xs : List Token) :
    atLevel wanted level xs = xs :=
  if_neg (by omega)

theorem atLevel_of_lt {wanted level : Nat} (h : level < wanted) (xs : List Token) :
    atLevel wanted level xs = inParens xs :=
  if_pos h

theorem Condition.one_le_level (c : Condition) : 1 ≤ c.level := by
  cases c <;> simp [Condition.level]

theorem Form.one_le_level (f : Form) : 1 ≤ f.level := by
  cases f with
  | call g arguments => cases g <;> simp [Form.level]
  | arithmetic op left right => cases op <;> simp [Form.level, Arithmetic.level]
  | condition c => exact c.one_le_level
  | _ => simp [Form.level]

theorem Condition.tokens_term_plain (h : (Term.plain f).isPredicate = false) :
    Condition.tokens (.term (.plain f)) = f.tokens := by
  rw [Condition.tokens, h, if_neg (by simp), Term.plain, Term.tokens,
    atLevel_of_le f.one_le_level]

/-- A form that is no predicate and binds at least like a comparison. -/
theorem Form.ReadBack.of_comparison (hlevel : 3 ≤ f.level)
    (hpredicate : (Term.plain f).isPredicate = false)
    (hoperand : Reads (Looser 6) Grammar.operand (atLevel 6 f.level f.tokens) (.plain f))
    (hproduct : Chains (Looser 6) Grammar.operand multiplicative? combine
      (atLevel 5 f.level f.tokens) (.plain f))
    (hsum : Chains (Looser 5) Grammar.product additive? combine
      (atLevel 4 f.level f.tokens) (.plain f))
    (h : Reads (Looser 3) comparison f.tokens (.term (.plain f))) : f.ReadBack where
  operand := hoperand
  product := hproduct
  sum := hsum
  part := by
    rw [Condition.tokens_term_plain hpredicate]
    exact h.negation
  negated := by
    rw [atLevel_of_le hlevel]
    exact h.negation.not
  value := h.negation.disjunction_of_negation.value

theorem Form.isPredicate_eq_false (h : 3 < f.level) : (Term.plain f).isPredicate = false := by
  cases f with
  | condition c => cases c <;> simp [Form.level, Condition.level] at h
  | _ => rfl

theorem Form.ReadBack.of_sum (hlevel : f.level = 4)
    (h : Chains (Looser 5) Grammar.product additive? combine f.tokens (.plain f)) :
    f.ReadBack := by
  have hcomparison := h.reads_sum.comparison
  have hoperand := hcomparison.negation.disjunction_of_negation.value.inParens
  refine .of_comparison (by omega) (f.isPredicate_eq_false (by omega)) ?_ ?_ ?_ hcomparison
  · rwa [atLevel_of_lt (by omega)]
  · rw [atLevel_of_lt (by omega)]
    exact hoperand.chains
  · rwa [atLevel_of_le (by omega)]

theorem Form.ReadBack.of_product (hlevel : f.level = 5)
    (h : Chains (Looser 6) Grammar.operand multiplicative? combine f.tokens (.plain f)) :
    f.ReadBack := by
  have hsum : Chains (Looser 5) Grammar.product additive? combine f.tokens (.plain f) :=
    h.reads_product.chains
  have hcomparison := hsum.reads_sum.comparison
  refine .of_comparison (by omega) (f.isPredicate_eq_false (by omega)) ?_ ?_ ?_ hcomparison
  · rw [atLevel_of_lt (by omega)]
    exact hcomparison.negation.disjunction_of_negation.value.inParens
  · rwa [atLevel_of_le (by omega)]
  · rwa [atLevel_of_le (by omega)]

theorem Form.ReadBack.of_operand (hlevel : f.level = 6)
    (h : Reads (Looser 6) Grammar.operand f.tokens (.plain f)) : f.ReadBack := by
  have hproduct : Chains (Looser 6) Grammar.operand multiplicative? combine f.tokens (.plain f) :=
    h.chains
  have hsum : Chains (Looser 5) Grammar.product additive? combine f.tokens (.plain f) :=
    hproduct.reads_product.chains
  refine .of_comparison (by omega) (f.isPredicate_eq_false (by omega)) ?_ ?_ ?_
    hsum.reads_sum.comparison
  · rwa [atLevel_of_le (by omega)]
  · rwa [atLevel_of_le (by omega)]
  · rwa [atLevel_of_le (by omega)]

/-- A membership test, which binds like a comparison. -/
theorem Form.ReadBack.of_membership (hlevel : f.level = 3)
    (hpredicate : (Term.plain f).isPredicate = false)
    (h : Reads (Looser 3) comparison f.tokens (.term (.plain f))) : f.ReadBack := by
  have hoperand := h.negation.disjunction_of_negation.value.inParens
  have hproduct : Chains (Looser 6) Grammar.operand multiplicative? combine
      (inParens f.tokens) (.plain f) := hoperand.chains
  refine .of_comparison (by omega) hpredicate ?_ ?_ ?_ h
  · rwa [atLevel_of_lt (by omega)]
  · rwa [atLevel_of_lt (by omega)]
  · rw [atLevel_of_lt (by omega)]
    exact hproduct.reads_product.chains

/-- A predicate; in a condition it stands in brackets. -/
theorem Form.ReadBack.of_condition {c : Condition}
    (hof : Term.ofCondition c = Term.plain (.condition c))
    (hnegate : c.negate = .term ⟨none, true, .condition c⟩)
    (h : Reads (Looser 1) disjunction c.tokens c)
    (hbare : c.level = 3 → Reads (Looser 3) comparison c.tokens c) :
    (Form.condition c).ReadBack := by
  have htokens : (Form.condition c).tokens = c.tokens := by rw [Form.tokens]
  have hlevel : c.level ≤ 3 := by cases c <;> simp [Condition.level]
  have hvalue : Reads (Looser 1) Grammar.value (Form.condition c).tokens
      (.plain (.condition c)) := by
    rw [htokens, ← hof]
    exact h.value
  have hoperand := hvalue.inParens
  have hproduct : Chains (Looser 6) Grammar.operand multiplicative? combine
      (inParens (Form.condition c).tokens) (.plain (.condition c)) := hoperand.chains
  have hsum : Chains (Looser 5) Grammar.product additive? combine
      (inParens (Form.condition c).tokens) (.plain (.condition c)) :=
    hproduct.reads_product.chains
  have hpart := hsum.reads_sum.comparison.negation
  refine ⟨?_, ?_, ?_, ?_, ?_, hvalue⟩
  · rwa [Form.level, atLevel_of_lt (by omega)]
  · rwa [Form.level, atLevel_of_lt (by omega)]
  · rwa [Form.level, atLevel_of_lt (by omega)]
  · have hpredicate : (Term.plain (.condition c)).isPredicate = true := rfl
    rw [Condition.tokens, if_pos hpredicate, Term.plain, Term.tokens,
      atLevel_of_le (Form.one_le_level _)]
    exact hpart
  · rw [Form.level]
    by_cases hthree : c.level = 3
    · rw [atLevel_of_le (by omega), htokens, ← hnegate]
      exact (hbare hthree).negation.not
    · rw [atLevel_of_lt (by omega)]
      exact hpart.not

/-! ## Terms -/

theorem Term.ReadBack.reads_value (h : t.ReadBack) :
    Reads (Looser 1) Grammar.value (t.tokens 1) t := by
  obtain ⟨label, negated, f⟩ := t
  obtain rfl : label = none := h.label
  cases negated with
  | false =>
      rw [Term.tokens, atLevel_of_le f.one_le_level]
      exact h.form.value
  | true =>
      rw [Term.tokens, atLevel_of_le (by omega)]
      exact h.form.negated.disjunction_of_negation.value

theorem Term.ReadBack.reads_operand (h : t.ReadBack) :
    Reads (Looser 6) Grammar.operand (t.tokens 6) t := by
  obtain ⟨label, negated, f⟩ := t
  obtain rfl : label = none := h.label
  cases negated with
  | false =>
      rw [Term.tokens]
      exact h.form.operand
  | true =>
      have hvalue := h.reads_value
      rw [Term.tokens, atLevel_of_le (by omega)] at hvalue
      rw [Term.tokens, atLevel_of_lt (by omega)]
      exact hvalue.inParens

theorem Term.ReadBack.chains_product (h : t.ReadBack) :
    Chains (Looser 6) Grammar.operand multiplicative? combine (t.tokens 5) t := by
  have hoperand := h.reads_operand
  obtain ⟨label, negated, f⟩ := t
  obtain rfl : label = none := h.label
  cases negated with
  | false =>
      rw [Term.tokens]
      exact h.form.product
  | true =>
      rw [Term.tokens, atLevel_of_lt (by omega)] at hoperand ⊢
      exact hoperand.chains

theorem Term.ReadBack.chains_sum (h : t.ReadBack) :
    Chains (Looser 5) Grammar.product additive? combine (t.tokens 4) t := by
  have hproduct := h.chains_product
  obtain ⟨label, negated, f⟩ := t
  obtain rfl : label = none := h.label
  cases negated with
  | false =>
      rw [Term.tokens]
      exact h.form.sum
  | true =>
      rw [Term.tokens, atLevel_of_lt (by omega)] at hproduct ⊢
      exact hproduct.reads_product.chains

theorem Term.ReadBack.reads_part (h : t.ReadBack) :
    Reads (Looser 3) Grammar.negation (Condition.tokens (.term t)) (.term t) := by
  obtain ⟨label, negated, f⟩ := t
  obtain rfl : label = none := h.label
  cases negated with
  | false => exact h.form.part
  | true =>
      rw [Condition.tokens, if_neg (by simp [Term.isPredicate]), Term.tokens,
        atLevel_of_le (by omega)]
      exact h.form.negated

theorem Form.ReadBack.arithmetic {op : Arithmetic} {left right : Term} (hleft : left.ReadBack)
    (hright : right.ReadBack) : (Form.arithmetic op left right).ReadBack := by
  have htokens : (Form.arithmetic op left right).tokens =
      left.tokens op.level ++ .mark op.mark :: right.tokens (op.level + 1) := by
    rw [Form.tokens]
  cases op with
  | add =>
      refine .of_sum rfl ?_
      rw [htokens]
      exact hleft.chains_sum.snoc hright.chains_product.reads_product rfl (by decide)
  | subtract =>
      refine .of_sum rfl ?_
      rw [htokens]
      exact hleft.chains_sum.snoc hright.chains_product.reads_product rfl (by decide)
  | multiply =>
      refine .of_product rfl ?_
      rw [htokens]
      exact hleft.chains_product.snoc hright.reads_operand rfl (by decide)
  | divide =>
      refine .of_product rfl ?_
      rw [htokens]
      exact hleft.chains_product.snoc hright.reads_operand rfl (by decide)

end Places

/-! ## Literals and paths -/

theorem literal?_reads {token : Token} {c : Constant} (h : literal? token = some c) :
    Reads (Looser 6) operand [token] (.plain (.constant c)) := by
  intro depth ts rest _ hts _
  cases hts with
  | cons offset hts =>
      cases hts
      simp [operand, h]

theorem negativeLiteral?_reads {token : Token} {c : Constant}
    (h : negativeLiteral? token = some c) :
    Reads (Looser 6) operand [.mark .minus, token] (.plain (.constant c)) := by
  intro depth ts rest _ hts _
  cases hts with
  | cons offset hts =>
      cases hts with
      | cons offset' hts =>
          cases hts
          simp [operand, literal?, h]

/-- A minus sign before what is not a literal number subtracts it from zero. -/
theorem Reads.minus {token : Token} {xs : List Token} {t : Term}
    (htoken : negativeLiteral? token = none) (h : Reads (Looser 6) operand (token :: xs) t) :
    Reads (Looser 6) operand (.mark .minus :: token :: xs)
      (combine .subtract (.plain (.constant (.integer 0))) t) := by
  intro depth ts rest hdepth hts hstop
  rw [List.length_cons] at hdepth
  cases hts with
  | @cons _ _ after _ offset hts =>
      have hread := h depth _ _ (by omega) hts hstop
      have hpeek : peek after = token := by
        cases hts
        rfl
      simp [operand, literal?, hpeek, htoken, hread]

theorem Form.ReadBack.constant (c : Constant) : (Form.constant c).ReadBack := by
  refine .of_operand rfl ?_
  rw [Form.tokens]
  cases c with
  | null => exact literal?_reads rfl
  | bool b => cases b <;> exact literal?_reads rfl
  | integer n =>
      rw [Constant.tokens]
      by_cases hn : 0 ≤ n
      · rw [if_pos hn]
        exact literal?_reads (by rw [literal?, Int.toNat_of_nonneg hn])
      · rw [if_neg hn]
        exact negativeLiteral?_reads
          (by rw [negativeLiteral?, Int.toNat_of_nonneg (by omega), Int.neg_neg])
  | float x =>
      rw [Constant.tokens]
      cases isNegative x with
      | false => exact literal?_reads rfl
      | true => exact negativeLiteral?_reads (by rw [negativeLiteral?, Binary64.neg_neg])
  | text s => exact literal?_reads rfl
  | parameter name => exact literal?_reads rfl

def OpensSegment (token : Token) : Prop :=
  token = .mark .dot ∨ token = .mark .leftBracket

structure GoesOn (xs : List Token) (segments : List String) : Prop where
  opens : ∀ y ∈ xs.head?, OpensSegment y
  length_le : segments.length ≤ xs.length
  read : ∀ (budget : Nat) (ts rest : List Placed), segments.length ≤ budget → Spells xs ts rest →
    Looser 6 (peek rest) → segmentsFrom budget ts = .ok (segments, rest)

namespace GoesOn

variable {xs : List Token} {segments : List String}

theorem nil : GoesOn [] [] where
  opens := by simp
  length_le := Nat.le_refl _
  read := by
    intro budget ts rest _ hts hstop
    cases hts
    cases budget with
    | zero => rfl
    | succ budget =>
        rw [segmentsFrom]
        split
        · rename_i hpeek
          simp [hpeek, Looser, grip] at hstop
        · rename_i hpeek
          simp [hpeek, Looser, grip] at hstop
        · rfl

theorem dot (segment : String) (h : GoesOn xs segments) :
    GoesOn (.mark .dot :: .identifier segment :: xs) (segment :: segments) where
  opens := by simp [OpensSegment]
  length_le := by
    have hlength := h.length_le
    simp only [List.length_cons]
    omega
  read := by
    intro budget ts rest hbudget hts hstop
    obtain ⟨budget, rfl⟩ : ∃ n, budget = n + 1 := ⟨budget - 1, by simp at hbudget; omega⟩
    have hsegments : segments.length ≤ budget := by simpa using hbudget
    cases hts with
    | cons _ hts =>
        cases hts with
        | cons _ hts => simp [segmentsFrom, name, h.read _ _ _ hsegments hts hstop]

theorem bracket {token : Token} {segment : String}
    (hsegment : ∀ offset offset' rest, bracketSegment
      (⟨token, offset⟩ :: ⟨.mark .rightBracket, offset'⟩ :: rest) = .ok (segment, rest))
    (h : GoesOn xs segments) :
    GoesOn (.mark .leftBracket :: token :: .mark .rightBracket :: xs) (segment :: segments) where
  opens := by simp [OpensSegment]
  length_le := by
    have hlength := h.length_le
    simp only [List.length_cons]
    omega
  read := by
    intro budget ts rest hbudget hts hstop
    obtain ⟨budget, rfl⟩ : ∃ n, budget = n + 1 := ⟨budget - 1, by simp at hbudget; omega⟩
    have hsegments : segments.length ≤ budget := by simpa using hbudget
    cases hts with
    | cons _ hts =>
        cases hts with
        | cons _ hts =>
            cases hts with
            | cons _ hts => simp [segmentsFrom, hsegment, h.read _ _ _ hsegments hts hstop]

theorem pathFrom (h : GoesOn xs segments) (first : String) {ts rest : List Placed}
    (hts : Spells xs ts rest) (hstop : Looser 6 (peek rest)) :
    pathFrom first ts = .ok (first :: segments, rest) := by
  have hlength := h.length_le
  have hbudget := hts.length_eq
  simp [Parser.pathFrom, h.read ts.length ts rest (by omega) hts hstop]

end GoesOn

/-- A path is read from its first name and what goes on with it. -/
theorem Reads.path (first : String) {xs : List Token} {others : List String}
    (h : GoesOn xs others) :
    Reads (Looser 6) operand (.identifier first :: xs) (.plain (.path (first :: others))) := by
  intro depth ts rest _ hts hstop
  cases hts with
  | @cons _ _ after _ offset hts =>
      have hparen : ¬ peek after = .mark .leftParen := by
        have hrest : ¬ peek rest = .mark .leftParen := ne_of_stops hstop _ (by decide)
        refine hts.peek_of_head (P := fun token => ¬ token = .mark .leftParen)
          (fun y hy => ?_) hrest
        rcases h.opens y hy with rfl | rfl <;> decide
      rw [operand_of_compound rfl (by simp)]
      simp [compound, hparen, h.pathFrom first hts hstop]

theorem goesOn_segmentTokens (segments : List String) :
    GoesOn (segmentTokens segments) segments := by
  induction segments with
  | nil => exact .nil
  | cons segment others ih =>
      have hsegment : ∀ offset offset' rest, bracketSegment
          (⟨.text segment, offset⟩ :: ⟨.mark .rightBracket, offset'⟩ :: rest) =
            .ok (segment, rest) := by
        simp [bracketSegment]
      exact ih.bracket hsegment

theorem Form.ReadBack.path (first : String) (others : List String) :
    (Form.path (first :: others)).ReadBack := by
  refine .of_operand rfl ?_
  rw [Form.tokens]
  exact .path first (goesOn_segmentTokens others)

/-! ## Lists of terms -/

def spellMember (t : Term) : List Token :=
  .text (t.label.getD "") :: .mark .colon :: t.tokens 1

theorem termsTokens_eq (ts : List Term) :
    termsTokens ts = spellEach (.mark .comma) (Term.tokens 1) ts := by
  induction ts with
  | nil => rw [termsTokens, spellEach, List.flatMap_nil]
  | cons t rest ih => rw [termsTokens, ih, spellEach_cons, List.cons_append]

theorem memberTokens_eq (ts : List Term) :
    memberTokens ts = spellEach (.mark .comma) spellMember ts := by
  induction ts with
  | nil => rw [memberTokens, spellEach, List.flatMap_nil]
  | cons t rest ih =>
      obtain ⟨label, negated, f⟩ := t
      rw [memberTokens, ih, spellEach_cons]
      rfl

theorem value_ne_closing (inner : Grammar) {ts : List Placed} {result} {close : Mark}
    (h : Grammar.value inner ts = .ok result) (hclose : opens (.mark close) = false) :
    peek ts ≠ .mark close := by
  intro hpeek
  have hopens := opens_of_value h
  simp [hpeek, hclose] at hopens

theorem reads_terms {ts : List Term} (h : ∀ t ∈ ts, t.ReadBack) (close : Mark)
    (hcomma : close ≠ .comma) (hlooser : Looser 1 (.mark close))
    (hclose : opens (.mark close) = false) :
    Reads (fun _ => True) (fun inner => closedBy close (term inner.inside))
      ((termsTokens ts).tail ++ [.mark close]) ts := by
  rw [termsTokens_eq]
  exact .closedBy (Looser 1) (Term.tokens 1) (by decide) hlooser hcomma
    (fun inner _ _ hread => value_ne_closing inner hread hclose) fun t ht => (h t ht).reads_value

theorem Reads.arguments {xs : List Token} {ts : List Term}
    (h : Reads (fun _ => True) (fun inner => Parser.closedBy .rightParen (term inner.inside)) xs
      ts) :
    Reads (fun _ => True) arguments (.mark .leftParen :: xs) ts := by
  intro depth placed rest hdepth hplaced hstop
  obtain ⟨offset, after, rfl, -, hread⟩ :=
    h.behind (fun inner => Parser.closedBy .rightParen (term inner)) hdepth hplaced hstop
  simp [Grammar.arguments, hread]

theorem reads_arguments {ts : List Term} (h : ∀ t ∈ ts, t.ReadBack) :
    Reads (fun _ => True) arguments (inParens (termsTokens ts).tail) ts :=
  Reads.arguments (reads_terms h .rightParen (by decide) (by decide) (by decide))

theorem Reads.array {xs : List Token} {elements : List Term}
    (h : Reads (fun _ => True) (fun inner => Parser.closedBy .rightBracket (term inner.inside)) xs
      elements) :
    Reads (Looser 6) operand (.mark .leftBracket :: xs) (.plain (.array elements)) := by
  intro depth ts rest hdepth hts _
  obtain ⟨offset, after, rfl, -, hread⟩ :=
    h.behind (fun inner => Parser.closedBy .rightBracket (term inner)) hdepth hts trivial
  rw [operand_of_compound rfl (by simp)]
  simp [compound, hread]

theorem Form.ReadBack.array {elements : List Term} (h : ∀ t ∈ elements, t.ReadBack) :
    (Form.array elements).ReadBack := by
  refine .of_operand rfl ?_
  rw [Form.tokens]
  exact Reads.array (reads_terms h .rightBracket (by decide) (by decide) (by decide))

theorem Term.tokens_unlabelled (wanted : Nat) (label : Option String) (negated : Bool) (f : Form) :
    Term.tokens wanted ⟨label, negated, f⟩ = Term.tokens wanted ⟨none, negated, f⟩ := by
  cases negated <;> rw [Term.tokens, Term.tokens]

/-- A member is read from its key, a colon and its value. -/
theorem Reads.member {token : Token} {name : String}
    (hkey : ∀ offset rest, key (⟨token, offset⟩ :: rest) = .ok (name, rest)) {xs : List Token}
    {t : Term} (h : Reads (Looser 1) Grammar.value xs t) :
    Reads (Looser 1) (fun inner => member inner.inside) (token :: .mark .colon :: xs)
      (t.withLabel name) := by
  intro depth ts rest hdepth hts hstop
  cases hts with
  | cons offset hts =>
      cases hts with
      | @cons _ _ after _ offset' hts =>
          have hread : term (ofDepth depth).inside after = .ok (t, rest) :=
            h depth _ _ (by simp only [List.length_cons] at hdepth; omega) hts hstop
          simp [Grammar.member, hkey, hread]

theorem reads_member {t : Term} {key : String} (hlabel : t.label = some key)
    (h : t.form.ReadBack) :
    Reads (Looser 1) (fun inner => member inner.inside) (spellMember t) t := by
  obtain ⟨label, negated, f⟩ := t
  obtain rfl : label = some key := hlabel
  have hterm : Term.ReadBack ⟨none, negated, f⟩ := ⟨rfl, h⟩
  rw [spellMember, Term.tokens_unlabelled]
  exact hterm.reads_value.member fun _ _ => rfl

theorem member_ne_closing (inner : Grammar) (ts : List Placed) (result : Term × List Placed)
    (h : member inner ts = .ok result) : peek ts ≠ .mark .rightBrace := by
  intro hpeek
  simp [member, Grammar.key, hpeek, fail, bind, Except.bind] at h

theorem Reads.object {xs : List Token} {members : List Term}
    (h : Reads (fun _ => True)
      (fun inner => Parser.closedBy .rightBrace (Grammar.member inner.inside)) xs members) :
    Reads (Looser 6) operand (.mark .leftBrace :: xs) (.plain (.object members)) := by
  intro depth ts rest hdepth hts _
  obtain ⟨offset, after, rfl, -, hread⟩ :=
    h.behind (fun inner => Parser.closedBy .rightBrace (Grammar.member inner)) hdepth hts trivial
  rw [operand_of_compound rfl (by simp)]
  simp [compound, hread]

theorem Form.ReadBack.object {members : List Term}
    (h : ∀ t ∈ members, (∃ key, t.label = some key) ∧ t.form.ReadBack) :
    (Form.object members).ReadBack := by
  refine .of_operand rfl ?_
  rw [Form.tokens, memberTokens_eq]
  refine Reads.object (.closedBy (Looser 1) spellMember (by decide) (by decide) (by decide)
    (fun inner => member_ne_closing inner.inside) fun t ht => ?_)
  obtain ⟨⟨key, hkey⟩, hform⟩ := h t ht
  exact reads_member hkey hform

/-! ## Calls -/

theorem Function.mem_names {name : String} {f : Function}
    (h : Function.ofName? name = some f) : (Text.upperString name, f) ∈ Function.names := by
  obtain ⟨before, after, hnames, -⟩ := List.lookup_eq_some_iff.mp h
  simp [hnames]

theorem Function.ofName?_of_mem : ∀ entry ∈ Function.names,
    Function.ofName? entry.1 = some entry.2 := by
  decide +kernel

/-- The name by which a function is called denotes it, if any name does. -/
theorem Function.ofName?_callName {name : String} {f : Function}
    (h : Function.ofName? name = some f) : Function.ofName? f.callName = some f := by
  cases hfind : Function.names.find? fun entry => entry.2 == f with
  | none =>
      have hne := List.find?_eq_none.mp hfind _ (Function.mem_names h)
      simp at hne
  | some entry =>
      have hf : entry.2 = f := by simpa using List.find?_some hfind
      have hentry := Function.ofName?_of_mem entry (List.mem_of_find?_eq_some hfind)
      rw [hf] at hentry
      simpa [Function.callName, hfind] using hentry

theorem Reads.call {name : String} {f : Function} (hname : Function.ofName? name = some f)
    {xs : List Token} {ts : List Term}
    (h : Reads (fun _ => True) Grammar.arguments (.mark .leftParen :: xs) ts) :
    Reads (Looser 6) operand (.identifier name :: .mark .leftParen :: xs)
      (.plain (.call f ts)) := by
  intro depth placed rest hdepth hplaced _
  rw [List.length_cons] at hdepth
  cases hplaced with
  | @cons _ _ after _ offset hplaced =>
      have hread := h depth _ _ (by omega) hplaced trivial
      have hparen : peek after = .mark .leftParen := by
        cases hplaced
        rfl
      rw [operand_of_compound rfl (by simp)]
      simp [compound, hparen, Grammar.call, hname, hread]

theorem Form.ReadBack.call {f : Function} {ts : List Term}
    (hname : Function.ofName? f.callName = some f) (hf : f ≠ .membership)
    (h : ∀ t ∈ ts, t.ReadBack) : (Form.call f ts).ReadBack := by
  have htokens : (Form.call f ts).tokens =
      .identifier f.callName :: inParens (termsTokens ts).tail := by
    rw [Form.tokens]
    · exact fun heq => absurd heq hf
    · exact fun _ _ heq => absurd heq hf
  have hlevel : (Form.call f ts).level = 6 := by
    cases f with
    | membership => exact absurd rfl hf
    | _ => rfl
  refine .of_operand hlevel ?_
  rw [htokens]
  exact (reads_arguments h).call hname

/-! ## Comparisons and membership -/

section Comparisons

variable {xs ys : List Token} {left right : Term} {ts : List Term}

theorem Reads.compare {token : Token} {op : Comparison} (hop : comparison? token = some op)
    (htoken : Looser 4 token) (hleft : Reads (Looser 4) Grammar.sum xs left)
    (hright : Reads (Looser 4) Grammar.sum ys right) :
    Reads (Looser 3) Grammar.comparison (xs ++ token :: ys) (Condition.compare op left right) := by
  intro depth ts rest hdepth hts hstop
  rw [List.length_append, List.length_cons] at hdepth
  obtain ⟨middle, hxs, hys⟩ := Spells.append_iff.mp hts
  cases hys with
  | cons offset hys =>
      have hfirst := hleft depth _ _ (by omega) hxs htoken
      have hsecond := hright depth _ _ (by omega) hys (hstop.mono (by omega))
      simp only [Grammar.comparison, hfirst, ok_bind, peek_cons, List.tail_cons, hsecond]
      split
      · cases hop
      · cases hop
      · rw [hop]

theorem Reads.membership (hleft : Reads (Looser 4) Grammar.sum xs left)
    (h : Reads (fun _ => True) Grammar.arguments ys ts) :
    Reads (Looser 3) Grammar.comparison (xs ++ .keyword .in :: ys)
      (.term (.plain (.call .membership (left :: ts)))) := by
  intro depth placed rest hdepth hplaced _
  rw [List.length_append, List.length_cons] at hdepth
  obtain ⟨middle, hxs, hys⟩ := Spells.append_iff.mp hplaced
  cases hys with
  | cons offset hys =>
      have hsum := hleft depth _ _ (by omega) hxs (show Looser 4 (.keyword .in) by decide)
      have hread := h depth _ _ (by omega) hys trivial
      simp [Grammar.comparison, hsum, Grammar.membership, hread, Term.plain]

theorem Reads.notMembership (hleft : Reads (Looser 4) Grammar.sum xs left)
    (h : Reads (fun _ => True) Grammar.arguments ys ts) :
    Reads (Looser 3) Grammar.comparison (xs ++ .keyword .not :: .keyword .in :: ys)
      (.term ⟨none, true, .call .membership (left :: ts)⟩) := by
  intro depth placed rest hdepth hplaced _
  rw [List.length_append, List.length_cons, List.length_cons] at hdepth
  obtain ⟨middle, hxs, hys⟩ := Spells.append_iff.mp hplaced
  cases hys with
  | cons offset hys =>
      cases hys with
      | cons offset' hys =>
          have hsum := hleft depth _ _ (by omega) hxs (show Looser 4 (.keyword .not) by decide)
          have hread := h depth _ _ (by omega) hys trivial
          simp [Grammar.comparison, hsum, Grammar.membership, hread]

theorem reads_compare (op : Comparison) (hleft : left.ReadBack) (hright : right.ReadBack) :
    Reads (Looser 3) comparison (Condition.compare op left right).tokens
      (.compare op left right) := by
  have hop : comparison? (.mark op.mark) = some op := by cases op <;> rfl
  have hmark : Looser 4 (.mark op.mark) := by cases op <;> decide
  rw [Condition.tokens]
  exact .compare hop hmark hleft.chains_sum.reads_sum hright.chains_sum.reads_sum

theorem Form.ReadBack.membership (hneedle : left.ReadBack) (h : ∀ t ∈ ts, t.ReadBack) :
    (Form.call .membership (left :: ts)).ReadBack := by
  refine .of_membership rfl rfl ?_
  rw [Form.tokens]
  exact hneedle.chains_sum.reads_sum.membership (reads_arguments h)

end Comparisons

/-! ## Statements in brackets -/

/-- A statement is read back from its tokens wherever a statement may end. -/
def Statement.ReadBack (s : Statement) : Prop :=
  Reads (Beyond 6) query s.tokens s

theorem Statement.tokens_eq_select (s : Statement) :
    ∃ xs, s.tokens = .keyword .select :: xs := by
  obtain ⟨projection, source, joins, filter, grouping, ordering, distinct, offset, count⟩ := s
  exact ⟨_, by rw [Statement.tokens]; rfl⟩

/-- A statement begins with its first word. -/
theorem Reads.exists_select {xs : List Token} {s : Statement}
    (hread : Reads (Beyond 6) query xs s) : ∃ ys, xs = .keyword .select :: ys := by
  obtain ⟨x, ys, rfl, rfl⟩ := hread.exists_first (P := fun token => token = .keyword .select)
    (by decide)
    (fun inner ts result hquery => by
      simp only [query, bind_eq_ok] at hquery
      obtain ⟨⟨_, _⟩, hselect, -⟩ := hquery
      exact (expect_eq_ok hselect).1) (by decide)
  exact ⟨ys, rfl⟩

section Subqueries

variable {xs : List Token} {s : Statement}

theorem Reads.closedStatement (h : Reads (Beyond 6) query xs s) :
    Reads (fun _ => True) (fun inner => Grammar.closedStatement inner.inside)
      (xs ++ [.mark .rightParen]) s := by
  intro depth ts rest hdepth hts _
  obtain ⟨offset, hread⟩ := h.before_bracket (show Beyond 6 (.mark .rightParen) by decide)
    hdepth hts
  simp [Grammar.closedStatement, Grammar.inside, hread]

theorem Reads.subquery (h : Reads (Beyond 6) query (.keyword .select :: xs) s) :
    Reads (Looser 6) operand (DocQuery.inParens (.keyword .select :: xs))
      (.plain (.subquery s)) := by
  intro depth ts rest hdepth hts _
  obtain ⟨offset, after, rfl, hafter, hread⟩ :=
    h.closedStatement.behind Grammar.closedStatement hdepth hts trivial
  have hselect : peek after = .keyword .select := by
    cases hafter
    rfl
  rw [operand_of_compound rfl (by simp)]
  simp [compound, hselect, hread]

theorem Reads.existence (h : Reads (Beyond 6) query xs s) :
    Reads (Looser 6) operand (.keyword .exists :: DocQuery.inParens xs)
      (.plain (.existence s)) := by
  intro depth ts rest hdepth hts _
  rw [List.length_cons] at hdepth
  cases hts with
  | cons offset hts =>
      obtain ⟨offset', after, rfl, -, hread⟩ :=
        h.closedStatement.behind Grammar.closedStatement (Nat.lt_of_succ_lt hdepth) hts trivial
      rw [operand_of_compound rfl (by simp)]
      simp [compound, hread]

theorem Form.ReadBack.subquery (h : s.ReadBack) : (Form.subquery s).ReadBack := by
  obtain ⟨xs, hxs⟩ := s.tokens_eq_select
  refine .of_operand rfl ?_
  rw [Form.tokens, hxs]
  rw [Statement.ReadBack, hxs] at h
  exact h.subquery

theorem Form.ReadBack.existence (h : s.ReadBack) : (Form.existence s).ReadBack := by
  refine .of_operand rfl ?_
  rw [Form.tokens]
  exact Reads.existence h

end Subqueries

end DocQuery
