import DocQuery.Proofs.Statement.Operands

/-!
# Reading clauses back

Conditions, labels and the clauses of a statement are read back when their terms are.
A clause stops at the word that begins a later one, so that they are read one after the
other.
-/

namespace DocQuery

open DocQuery.Parser Grammar

/-! ## Conditions -/

/-- A term or a comparison, whose terms are read back. -/
inductive Condition.Simple : Condition → Prop where
  | term {t : Term} (h : t.ReadBack) : Simple (.term t)
  | compare (op : Comparison) {left right : Term} (hleft : left.ReadBack)
      (hright : right.ReadBack) : Simple (.compare op left right)

inductive Condition.Joint : Condition → Prop where
  | simple {c : Condition} (h : c.Simple) : Joint c
  | all {first second : Condition} {rest : List Condition}
      (h : ∀ part ∈ first :: second :: rest, part.Simple) : Joint (.all (first :: second :: rest))

inductive Condition.ReadBack : Condition → Prop where
  | joint {c : Condition} (h : c.Joint) : ReadBack c
  | any {first second : Condition} {rest : List Condition}
      (h : ∀ part ∈ first :: second :: rest, part.Joint) :
      ReadBack (.any (first :: second :: rest))

theorem partTokens_eq (word : Keyword) (parts : List Condition) :
    partTokens word parts = spellEach (.keyword word) Condition.tokens parts := by
  induction parts with
  | nil => rw [partTokens, spellEach, List.flatMap_nil]
  | cons part rest ih => rw [partTokens, ih, spellEach_cons, List.cons_append]

theorem Condition.Simple.reads {c : Condition} (h : c.Simple) :
    Reads (Looser 3) negation c.tokens c := by
  cases h with
  | term h => exact h.reads_part
  | compare op hleft hright => exact (reads_compare op hleft hright).negation

theorem Condition.Joint.reads {c : Condition} (h : c.Joint) :
    Reads (Looser 2) conjunction c.tokens c := by
  cases h with
  | simple h => exact h.reads.conjunction
  | all h =>
      rw [Condition.tokens, partTokens_eq]
      exact .all fun part hpart => (h part hpart).reads

theorem Condition.ReadBack.reads {c : Condition} (h : c.ReadBack) :
    Reads (Looser 1) disjunction c.tokens c := by
  cases h with
  | joint h => exact h.reads.disjunction
  | any h =>
      rw [Condition.tokens, partTokens_eq]
      exact .any fun part hpart => (h part hpart).reads

/-- A condition is read back as a term. -/
theorem Condition.ReadBack.term {c : Condition} (h : c.ReadBack) :
    (Term.ofCondition c).ReadBack := by
  have hreads := h.reads
  cases h with
  | joint h =>
      cases h with
      | simple h =>
          cases h with
          | term h => exact h
          | compare op hleft hright =>
              exact ⟨rfl, .of_condition rfl rfl hreads fun _ => reads_compare op hleft hright⟩
      | all h => exact ⟨rfl, .of_condition rfl rfl hreads fun hlevel => by cases hlevel⟩
  | any h => exact ⟨rfl, .of_condition rfl rfl hreads fun hlevel => by cases hlevel⟩

theorem Condition.Simple.negate {c : Condition} (h : c.Simple) : c.negate.Simple := by
  cases h with
  | term h => exact .term ⟨h.label, h.form⟩
  | compare op hleft hright =>
      have hterm := Condition.ReadBack.term (.joint (.simple (.compare op hleft hright)))
      exact .term ⟨rfl, hterm.form⟩

theorem Condition.tokens_asFilter (c : Condition) : c.asFilter.tokens = c.tokens := by
  unfold Condition.asFilter
  split
  · rw [Condition.tokens, Condition.tokens, if_neg (by simp [Term.isPredicate]), Term.tokens,
      atLevel_of_le (Form.one_le_level _), Form.tokens]
  · rfl

/-! ## Labels and columns -/

/-- A token ends an item of a list: a comma, or what begins a clause or ends a statement. -/
def EndsItem (token : Token) : Prop :=
  token = .mark .comma ∨ Beyond 0 token

theorem EndsItem.looser {token : Token} (h : EndsItem token) : Looser 1 token := by
  rcases h with rfl | h
  · decide
  · exact h.looser

theorem Beyond.endsItem {place : Nat} {token : Token} (h : Beyond place token) : EndsItem token :=
  .inr (h.mono (Nat.zero_le _))

/-- A label begins with `AS` or is a bare name. -/
def OpensLabel (token : Token) : Prop :=
  token = .keyword .as ∨ ∃ name, token = .identifier name

theorem OpensLabel.looser {token : Token} (h : OpensLabel token) : Looser 1 token := by
  rcases h with rfl | ⟨name, rfl⟩
  · decide
  · exact Nat.zero_lt_one

structure ReadsLabel (xs : List Token) (label : Option String) : Prop where
  opens : ∀ y ∈ xs.head?, OpensLabel y
  reads : Reads EndsItem (fun _ => label?) xs label

theorem ReadsLabel.looser {xs : List Token} {label : Option String} (h : ReadsLabel xs label)
    {ts rest : List Placed} (hts : Spells xs ts rest) (hstop : EndsItem (peek rest)) :
    Looser 1 (peek ts) :=
  hts.peek_of_head (fun y hy => (h.opens y hy).looser) hstop.looser

theorem label?_of_endsItem {ts : List Placed} (h : EndsItem (peek ts)) :
    label? ts = .ok (none, ts) := by
  unfold label?
  split
  · rename_i hpeek
    simp [hpeek, EndsItem, Beyond, clauseRank] at h
  · rename_i hpeek
    simp [hpeek, EndsItem, Beyond, clauseRank] at h
  · rfl

theorem ReadsLabel.none : ReadsLabel [] none := by
  refine ⟨by simp, fun depth ts rest _ hts hstop => ?_⟩
  cases hts
  exact label?_of_endsItem hstop

theorem label?_spelled (label : String) {ts rest : List Placed}
    (hts : Spells (labelTokens (some label)) ts rest) : label? ts = .ok (some label, rest) := by
  cases hts with
  | cons offset hts =>
      cases hts with
      | cons offset' hts =>
          cases hts
          cases hkeyword : Keyword.ofSpelling? label with
          | none => simp [label?, labelToken, hkeyword, name]
          | some keyword =>
              have hspelling : keyword.spelling = label := by
                simpa using List.find?_some hkeyword
              simp [label?, labelToken, hkeyword, hspelling]

theorem readsLabel_labelTokens : (label : Option String) → ReadsLabel (labelTokens label) label
  | none => .none
  | some label =>
      ⟨by simp [labelTokens, OpensLabel], fun _ _ _ _ hts _ => label?_spelled label hts⟩

/-- A label that must be there. -/
theorem ReadsLabel.some {xs : List Token} {label : String} (h : ReadsLabel xs (some label)) :
    Reads EndsItem (fun _ => Parser.label) xs label := by
  intro depth ts rest hdepth hts hstop
  have hread : label? ts = .ok (Option.some label, rest) := h.reads depth ts rest hdepth hts hstop
  simp [Parser.label, hread]

/-- A column is read from its value and its label. -/
theorem Reads.column {xs ys : List Token} {t : Term} {label : Option String}
    (h : Reads (Looser 1) Grammar.value xs t) (hlabel : ReadsLabel ys label) :
    Reads EndsItem column (xs ++ ys) (label.elim t t.withLabel) := by
  intro depth ts rest hdepth hts hstop
  rw [List.length_append] at hdepth
  obtain ⟨middle, hvalue, hys⟩ := Spells.append_iff.mp hts
  have hread := h depth _ _ (by omega) hvalue (hlabel.looser hys hstop)
  have hreadLabel : label? middle = .ok (label, rest) :=
    hlabel.reads depth _ _ (by omega) hys hstop
  simp only [Grammar.column, hread, ok_bind, hreadLabel]
  cases label <;> rfl

def spellColumn (t : Term) : List Token :=
  t.tokens 1 ++ labelTokens t.label

theorem columnTokens_eq (ts : List Term) :
    columnTokens ts = spellEach (.mark .comma) spellColumn ts := by
  induction ts with
  | nil => rw [columnTokens, spellEach, List.flatMap_nil]
  | cons t rest ih =>
      obtain ⟨label, negated, f⟩ := t
      rw [columnTokens, ih, spellEach_cons]
      rfl

theorem reads_column {t : Term} (h : t.form.ReadBack) :
    Reads EndsItem column (spellColumn t) t := by
  obtain ⟨label, negated, f⟩ := t
  have hterm : Term.ReadBack ⟨none, negated, f⟩ := ⟨rfl, h⟩
  have hread := hterm.reads_value.column (readsLabel_labelTokens label)
  rw [spellColumn, Term.tokens_unlabelled]
  cases label <;> exact hread

/-! ## Projections -/

def OpensProjection (token : Token) : Prop :=
  opens token = true ∨ token = .mark .star

theorem modifiersFrom_of_opens {ts : List Placed} (h : OpensProjection (peek ts)) (budget : Nat)
    (found : Modifiers) : modifiersFrom budget found ts = .ok (found, ts) := by
  cases budget with
  | zero => rfl
  | succ budget =>
      unfold modifiersFrom
      split
      · rename_i hpeek
        simp [hpeek, OpensProjection, opens, opensOperand] at h
      · rename_i hpeek
        simp [hpeek, OpensProjection, opens, opensOperand] at h
      · rename_i hpeek
        simp [hpeek, OpensProjection, opens, opensOperand] at h
      · rfl

/-- Some tokens before a projection add to the modifiers found so far. -/
def Modifies (xs : List Token) (found result : Modifiers) : Prop :=
  ∀ (budget : Nat) (ts rest : List Placed), xs.length ≤ budget → Spells xs ts rest →
    OpensProjection (peek rest) → modifiersFrom budget found ts = .ok (result, rest)

namespace Modifies

variable {xs : List Token} {found result : Modifiers}

theorem nil (found : Modifiers) : Modifies [] found found := by
  intro budget ts rest _ hts hstop
  cases hts
  exact modifiersFrom_of_opens hstop budget found

theorem distinct (h : Modifies xs ⟨true, found.count, found.value⟩ result) :
    Modifies (.keyword .distinct :: xs) found result := by
  intro budget ts rest hbudget hts hstop
  obtain ⟨budget, rfl⟩ : ∃ n, budget = n + 1 := ⟨budget - 1, by simp at hbudget; omega⟩
  cases hts with
  | cons _ hts => exact h budget _ _ (Nat.le_of_succ_le_succ hbudget) hts hstop

theorem top (n : Nat) (h : Modifies xs ⟨found.distinct, some n, found.value⟩ result) :
    Modifies (.keyword .top :: .integer n :: xs) found result := by
  intro budget ts rest hbudget hts hstop
  obtain ⟨budget, rfl⟩ : ∃ n, budget = n + 1 := ⟨budget - 1, by simp at hbudget; omega⟩
  cases hts with
  | cons _ hts =>
      cases hts with
      | cons _ hts => exact h budget _ _ (by simp at hbudget; omega) hts hstop

theorem value (found : Modifiers) :
    Modifies [.keyword .value] found ⟨found.distinct, found.count, true⟩ := by
  intro budget ts rest hbudget hts _
  obtain ⟨budget, rfl⟩ : ∃ n, budget = n + 1 := ⟨budget - 1, by simp at hbudget; omega⟩
  cases hts with
  | cons _ hts =>
      cases hts
      rfl

theorem reads (h : Modifies xs ⟨false, none, false⟩ found) :
    Reads OpensProjection (fun _ => modifiers) xs found := by
  intro depth ts rest _ hts hstop
  have hlength := hts.length_eq
  exact h ts.length ts rest (by omega) hts hstop

end Modifies

theorem opens_of_column {inner : Grammar} {ts : List Placed} {result}
    (h : column inner ts = .ok result) : opens (peek ts) = true := by
  simp only [column, bind_eq_ok] at h
  obtain ⟨_, h, -⟩ := h
  exact opens_of_value h

theorem opens_of_columns {inner : Grammar} {ts : List Placed} {result}
    (h : separated (.mark .comma) (column inner) ts = .ok result) : opens (peek ts) = true := by
  simp only [separated, bind_eq_ok] at h
  obtain ⟨_, h, -⟩ := h
  exact opens_of_column h

theorem opensProjection_of_projection? {inner : Grammar} {valueOnly : Bool} {ts : List Placed}
    {result} (h : projection? inner valueOnly ts = .ok result) : OpensProjection (peek ts) := by
  unfold projection? at h
  split at h
  · simp only [bind_eq_ok] at h
    obtain ⟨_, h, -⟩ := h
    exact .inl (opens_of_columns h)
  · split at h
    · exact .inr (by assumption)
    · simp only [bind_eq_ok] at h
      obtain ⟨_, h, -⟩ := h
      exact .inl (opens_of_columns h)

theorem reads_star :
    Reads (Beyond 0) (fun inner => projection? inner false) [.mark .star] none := by
  intro depth ts rest _ hts _
  cases hts with
  | cons offset hts =>
      cases hts
      simp [projection?]

section Columns

variable {xs : List Token} {terms : List Term}

theorem Reads.columns
    (h : Reads (Beyond 0) (fun inner => Parser.separated (.mark .comma) (Grammar.column inner)) xs
      terms) :
    Reads (Beyond 0) (fun inner => projection? inner false) xs (some (.columns terms)) := by
  intro depth ts rest hdepth hts hstop
  have hread := h depth ts rest hdepth hts hstop
  have hopens := opens_of_columns hread
  have hstar : ¬ peek ts = .mark .star := by
    intro hpeek
    simp [hpeek, opens, opensOperand] at hopens
  simp [projection?, hstar, hread]

theorem Reads.onlyValue {t : Term}
    (h : Reads (Beyond 0) (fun inner => Parser.separated (.mark .comma) (Grammar.column inner)) xs
      [t]) :
    Reads (Beyond 0) (fun inner => projection? inner true) xs (some (.value t)) := by
  intro depth ts rest hdepth hts hstop
  simp [projection?, h depth ts rest hdepth hts hstop]

end Columns

/-! ## Clauses -/

/-- Tokens are read as a clause; if there are any, they begin with a word of its place. -/
structure ReadsClause {α : Type} (place : Nat) (reader : Grammar → Parser α) (xs : List Token)
    (value : α) : Prop where
  opens : ∀ y ∈ xs.head?, Beyond place y
  reads : Reads (Beyond (place + 1)) reader xs value

/-- The token before which a clause stops is one before which the clause in front stops. -/
theorem ReadsClause.beyond {α : Type} {place : Nat} {reader : Grammar → Parser α}
    {xs : List Token} {value : α} (h : ReadsClause place reader xs value) {ts rest : List Placed}
    (hts : Spells xs ts rest) (hrest : Beyond (place + 1) (peek rest)) : Beyond place (peek ts) :=
  hts.peek_of_head h.opens (hrest.mono (by omega))

/-! ## Sources and joins -/

/-- A path and the name before it, in the order of a source or a join. -/
theorem GoesOn.path {xs : List Token} {others : List String} (h : GoesOn xs others)
    (first : String) {ts rest : List Placed} (hts : Spells (.identifier first :: xs) ts rest)
    (hstop : Looser 6 (peek rest)) : path ts = .ok (first :: others, rest) := by
  cases hts with
  | cons offset hts => simp [Parser.path, name, h.pathFrom first hts hstop]

section Sources

variable {xs ys : List Token} {s : Statement} {label : String} {others : List String}

theorem Reads.labelledSubquery (h : Reads (Beyond 6) query xs s)
    (hlabel : Reads EndsItem (fun _ => Parser.label) ys label) :
    Reads EndsItem labelledSubquery (DocQuery.inParens xs ++ ys) (s, label) := by
  intro depth ts rest hdepth hts hstop
  rw [List.length_append] at hdepth
  obtain ⟨middle, hs, hys⟩ := Spells.append_iff.mp hts
  obtain ⟨offset, after, rfl, -, hread⟩ :=
    (Reads.closedStatement h).behind Grammar.closedStatement (Nat.le_of_add_right_le hdepth) hs
      trivial
  have hreadLabel : Parser.label middle = .ok (label, rest) :=
    hlabel depth _ _ (by omega) hys hstop
  simp [Grammar.labelledSubquery, hread, hreadLabel]

theorem beginsSubquery_spelled (h : Reads (Beyond 6) query xs s) {ts rest : List Placed}
    (hts : Spells (inParens xs ++ ys) ts rest) : beginsSubquery ts = true := by
  obtain ⟨zs, rfl⟩ := h.exists_select
  cases hts with
  | cons offset hts =>
      cases hts
      simp [beginsSubquery]

theorem Reads.sourceOfSubquery (h : Reads (Beyond 6) query xs s)
    (hlabel : Reads EndsItem (fun _ => Parser.label) ys label) :
    Reads (Beyond 1) source (DocQuery.inParens xs ++ ys) (.subquery s label) := by
  intro depth ts rest hdepth hts hstop
  have hread := h.labelledSubquery hlabel depth ts rest hdepth hts hstop.endsItem
  simp [source, beginsSubquery_spelled h hts, hread]

theorem reads_sourceOfPath (first : String) (h : GoesOn xs others) {label : Option String}
    (hlabel : ReadsLabel ys label) :
    Reads (Beyond 1) source (.identifier first :: (xs ++ ys)) (.path (first :: others) label) := by
  intro depth ts rest hdepth hts hstop
  rw [List.length_cons, List.length_append] at hdepth
  cases hts with
  | @cons _ _ after _ offset hts =>
      obtain ⟨middle, hxs, hys⟩ := Spells.append_iff.mp hts
      have hlooser := hlabel.looser hys hstop.endsItem
      have hin : ¬ peek after = .keyword .in := by
        refine hxs.peek_of_head (P := fun token => ¬ token = .keyword .in) (fun y hy => ?_)
          fun hin => ?_
        · rcases h.opens y hy with rfl | rfl <;> decide
        · simp [hin, Looser, grip] at hlooser
      have hreadLabel : label? middle = .ok (label, rest) :=
        hlabel.reads depth _ _ (by omega) hys hstop.endsItem
      simp [source, beginsSubquery, name, hin, h.pathFrom first hxs (hlooser.mono (by omega)),
        hreadLabel]

theorem reads_sourceOfEach (name first : String) (h : GoesOn xs others) :
    Reads (Beyond 1) source (.identifier name :: .keyword .in :: .identifier first :: xs)
      (.each name (first :: others)) := by
  intro depth ts rest _ hts hstop
  cases hts with
  | cons offset hts =>
      cases hts with
      | cons offset' hts =>
          simp [source, beginsSubquery, Parser.name,
            h.path first hts (hstop.looser.mono (by omega))]

theorem Reads.sourceClause {found : Source} (h : Reads (Beyond 1) source xs found) :
    ReadsClause 0 sourceClause (.keyword .from :: xs) found := by
  refine ⟨by simp [Beyond, clauseRank], fun depth ts rest hdepth hts hstop => ?_⟩
  rw [List.length_cons] at hdepth
  cases hts with
  | cons offset hts => simp [Grammar.sourceClause, h depth _ _ (by omega) hts hstop]

theorem readsClause_documents : ReadsClause 0 sourceClause [] .documents := by
  refine ⟨by simp, fun depth ts rest _ hts hstop => ?_⟩
  cases hts
  simp [sourceClause, ne_of_stops hstop (.keyword .from) (by decide)]

theorem Reads.joinOfSubquery (h : Reads (Beyond 6) query xs s)
    (hlabel : Reads EndsItem (fun _ => Parser.label) ys label) :
    Reads (Beyond 1) join (DocQuery.inParens xs ++ ys) (.subquery s label) := by
  intro depth ts rest hdepth hts hstop
  have hread := h.labelledSubquery hlabel depth ts rest hdepth hts hstop.endsItem
  simp [join, beginsSubquery_spelled h hts, hread]

theorem reads_joinOfEach (name first : String) (h : GoesOn xs others) :
    Reads (Beyond 1) join (.identifier name :: .keyword .in :: .identifier first :: xs)
      (.each name (first :: others)) := by
  intro depth ts rest _ hts hstop
  cases hts with
  | cons offset hts =>
      cases hts with
      | cons offset' hts =>
          simp [join, beginsSubquery, Parser.name,
            h.path first hts (hstop.looser.mono (by omega))]

end Sources

theorem readsClause_joins {parts : List (List Token × Join)}
    (h : ∀ part ∈ parts, Reads (Beyond 1) join part.1 part.2) :
    ReadsClause 1 joinClauses (spellParts (.keyword .join) parts) (parts.map Prod.snd) := by
  refine ⟨fun y hy => ?_, fun depth ts rest hdepth hts hstop => ?_⟩
  · cases parts with
    | nil => simp [spellParts] at hy
    | cons part others =>
        obtain rfl : Token.keyword .join = y := by simpa [spellParts] using hy
        decide
  · have hlength := hts.length_eq
    have hcount := length_le_spellParts (.keyword .join) parts
    exact separatedFrom_parts (Beyond 1) (by decide) h depth hdepth (by omega) hts
      (hstop.mono (by omega)) (ne_of_stops hstop _ (by decide))

/-- A source is read back where a later clause begins or the statement ends. -/
def Source.ReadBack (found : Source) : Prop :=
  ReadsClause 0 sourceClause found.tokens found

theorem Source.ReadBack.documents : Source.documents.ReadBack := by
  rw [Source.ReadBack, Source.tokens]
  exact readsClause_documents

theorem Source.ReadBack.path (first : String) (others : List String) (label : Option String) :
    (Source.path (first :: others) label).ReadBack := by
  rw [Source.ReadBack, Source.tokens, pathTokens]
  exact (reads_sourceOfPath first (goesOn_segmentTokens others)
    (readsLabel_labelTokens label)).sourceClause

theorem Source.ReadBack.each (name first : String) (others : List String) :
    (Source.each name (first :: others)).ReadBack := by
  rw [Source.ReadBack, Source.tokens, pathTokens]
  exact (reads_sourceOfEach name first (goesOn_segmentTokens others)).sourceClause

theorem Source.ReadBack.subquery {s : Statement} (h : s.ReadBack) (label : String) :
    (Source.subquery s label).ReadBack := by
  rw [Source.ReadBack, Source.tokens]
  exact (Reads.sourceOfSubquery h (readsLabel_labelTokens (some label)).some).sourceClause

def Join.ReadBack (j : Join) : Prop :=
  Reads (Beyond 1) join j.tokens j

theorem Join.ReadBack.each (name first : String) (others : List String) :
    (Join.each name (first :: others)).ReadBack := by
  rw [Join.ReadBack, Join.tokens, pathTokens]
  exact reads_joinOfEach name first (goesOn_segmentTokens others)

theorem Join.ReadBack.subquery {s : Statement} (h : s.ReadBack) (label : String) :
    (Join.subquery s label).ReadBack := by
  rw [Join.ReadBack, Join.tokens]
  exact Reads.joinOfSubquery h (readsLabel_labelTokens (some label)).some

theorem joinTokens_eq (js : List Join) :
    joinTokens js = spellEach (.keyword .join) Join.tokens js := by
  induction js with
  | nil => rw [joinTokens, spellEach, List.flatMap_nil]
  | cons j rest ih => rw [joinTokens, ih, spellEach_cons, List.cons_append]

theorem reads_joins {js : List Join} (h : ∀ j ∈ js, j.ReadBack) :
    ReadsClause 1 joinClauses (joinTokens js) js := by
  have hclause := readsClause_joins (reads_parts h)
  rwa [map_snd_parts, spellParts_map, ← joinTokens_eq] at hclause

/-! ## The other clauses -/

section Others

variable {xs : List Token}

theorem Reads.filterClause {c : Condition} (h : Reads (Looser 1) Grammar.disjunction xs c) :
    ReadsClause 2 filterClause (.keyword .where :: xs) (some c.asFilter) := by
  refine ⟨by simp [Beyond, clauseRank], fun depth ts rest hdepth hts hstop => ?_⟩
  rw [List.length_cons] at hdepth
  cases hts with
  | cons offset hts =>
      simp [Grammar.filterClause, h depth _ _ (by omega) hts hstop.looser]

theorem readsClause_noFilter : ReadsClause 2 filterClause [] none := by
  refine ⟨by simp, fun depth ts rest _ hts hstop => ?_⟩
  cases hts
  simp [filterClause, ne_of_stops hstop (.keyword .where) (by decide)]

theorem Reads.groupingClause {terms : List Term}
    (h : Reads (fun token => Looser 1 token ∧ token ≠ .mark .comma)
      (fun inner => Parser.separated (.mark .comma) (Grammar.value inner)) xs terms) :
    ReadsClause 3 groupingClause (.keyword .group :: .keyword .by :: xs) terms := by
  refine ⟨by simp [Beyond, clauseRank], fun depth ts rest hdepth hts hstop => ?_⟩
  rw [List.length_cons, List.length_cons] at hdepth
  cases hts with
  | cons offset hts =>
      cases hts with
      | cons offset' hts =>
          have hread := h depth _ _ (by omega) hts ⟨hstop.looser, ne_of_stops hstop _ (by decide)⟩
          simp [Grammar.groupingClause, hread]

theorem readsClause_noGrouping : ReadsClause 3 groupingClause [] [] := by
  refine ⟨by simp, fun depth ts rest _ hts hstop => ?_⟩
  cases hts
  simp [groupingClause, ne_of_stops hstop (.keyword .group) (by decide)]

theorem Reads.descending {t : Term} (h : Reads (Looser 4) Grammar.sum xs t) :
    Reads EndsItem sortKey (xs ++ [.keyword .desc]) ⟨t, .descending⟩ := by
  intro depth ts rest hdepth hts _
  rw [List.length_append] at hdepth
  obtain ⟨middle, hxs, hlast⟩ := Spells.append_iff.mp hts
  cases hlast with
  | cons offset hlast =>
      cases hlast
      have hread := h depth _ _ (by omega) hxs (show Looser 4 (.keyword .desc) by decide)
      simp [sortKey, hread]

theorem Reads.ascending {t : Term} (h : Reads (Looser 4) Grammar.sum xs t) :
    Reads EndsItem sortKey (xs ++ [.keyword .asc]) ⟨t, .ascending⟩ := by
  intro depth ts rest hdepth hts _
  rw [List.length_append] at hdepth
  obtain ⟨middle, hxs, hlast⟩ := Spells.append_iff.mp hts
  cases hlast with
  | cons offset hlast =>
      cases hlast
      have hread := h depth _ _ (by omega) hxs (show Looser 4 (.keyword .asc) by decide)
      simp [sortKey, hread]

theorem Reads.undirected {t : Term} (h : Reads (Looser 4) Grammar.sum xs t) :
    Reads EndsItem sortKey xs ⟨t, .ascending⟩ := by
  intro depth ts rest hdepth hts hstop
  simp only [sortKey, h depth ts rest hdepth hts (hstop.looser.mono (by omega)), ok_bind]
  split
  · rename_i hpeek
    simp [hpeek, EndsItem, Beyond, clauseRank] at hstop
  · rename_i hpeek
    simp [hpeek, EndsItem, Beyond, clauseRank] at hstop
  · rfl

theorem Reads.orderingClause {keys : List SortKey}
    (h : Reads (fun token => EndsItem token ∧ token ≠ .mark .comma)
      (fun inner => Parser.separated (.mark .comma) (sortKey inner)) xs keys) :
    ReadsClause 4 orderingClause (.keyword .order :: .keyword .by :: xs) keys := by
  refine ⟨by simp [Beyond, clauseRank], fun depth ts rest hdepth hts hstop => ?_⟩
  rw [List.length_cons, List.length_cons] at hdepth
  cases hts with
  | cons offset hts =>
      cases hts with
      | cons offset' hts =>
          have hread := h depth _ _ (by omega) hts
            ⟨hstop.endsItem, ne_of_stops hstop _ (by decide)⟩
          simp [Grammar.orderingClause, hread]

theorem readsClause_noOrdering : ReadsClause 4 orderingClause [] [] := by
  refine ⟨by simp, fun depth ts rest _ hts hstop => ?_⟩
  cases hts
  simp [orderingClause, ne_of_stops hstop (.keyword .order) (by decide)]

theorem readsClause_offset (top : Option Nat) (offset n : Nat) :
    ReadsClause 5 (fun _ => window top)
      [.keyword .offset, .integer offset, .keyword .limit, .integer n] (offset, some n) := by
  refine ⟨by simp [Beyond, clauseRank], fun depth ts rest _ hts _ => ?_⟩
  cases hts with
  | cons _ hts =>
      cases hts with
      | cons _ hts =>
          cases hts with
          | cons _ hts =>
              cases hts with
              | cons _ hts =>
                  cases hts
                  simp [window, Parser.count]

theorem readsClause_limit (top : Option Nat) (n : Nat) :
    ReadsClause 5 (fun _ => window top) [.keyword .limit, .integer n] (0, some n) := by
  refine ⟨by simp [Beyond, clauseRank], fun depth ts rest _ hts _ => ?_⟩
  cases hts with
  | cons _ hts =>
      cases hts with
      | cons _ hts =>
          cases hts
          simp [window, Parser.count]

theorem readsClause_noWindow (top : Option Nat) :
    ReadsClause 5 (fun _ => window top) [] (0, top) := by
  refine ⟨by simp, fun depth ts rest _ hts hstop => ?_⟩
  cases hts
  simp only [window]
  split
  · rename_i hpeek
    simp [hpeek, Beyond, clauseRank] at hstop
  · rename_i hpeek
    simp [hpeek, Beyond, clauseRank] at hstop
  · rfl

end Others

def Condition.FilterReadBack (c : Condition) : Prop :=
  ∃ read : Condition, read.ReadBack ∧ c = read.asFilter

theorem reads_filter {filter : Option Condition} (h : ∀ c ∈ filter, c.FilterReadBack) :
    ReadsClause 2 filterClause (filterTokens filter) filter := by
  cases filter with
  | none =>
      rw [filterTokens]
      exact readsClause_noFilter
  | some c =>
      obtain ⟨c', hc, rfl⟩ := h c rfl
      rw [filterTokens, Condition.tokens_asFilter]
      exact hc.reads.filterClause

def groupingTokens (ts : List Term) : List Token :=
  if ts.isEmpty then [] else .keyword .group :: .keyword .by :: (termsTokens ts).tail

theorem reads_grouping {ts : List Term} (h : ∀ t ∈ ts, t.ReadBack) :
    ReadsClause 3 groupingClause (groupingTokens ts) ts := by
  cases ts with
  | nil => exact readsClause_noGrouping
  | cons t others =>
      rw [groupingTokens, termsTokens_eq]
      exact (Reads.separated (Looser 1) (.mark .comma) (Term.tokens 1) (by decide)
        fun t ht => (h t ht).reads_value).groupingClause

def spellKey (key : SortKey) : List Token :=
  key.term.tokens 4 ++ (if key.direction = .descending then [.keyword .desc] else [])

theorem keyTokens_eq (keys : List SortKey) :
    keyTokens keys = spellEach (.mark .comma) spellKey keys := by
  induction keys with
  | nil => rw [keyTokens, spellEach, List.flatMap_nil]
  | cons key rest ih =>
      obtain ⟨t, direction⟩ := key
      rw [keyTokens, ih, spellEach_cons]
      rfl

theorem reads_sortKey {key : SortKey} (h : key.term.ReadBack) :
    Reads EndsItem sortKey (spellKey key) key := by
  obtain ⟨t, direction⟩ := key
  cases direction with
  | descending => exact h.chains_sum.reads_sum.descending
  | ascending =>
      have hread := h.chains_sum.reads_sum.undirected
      rwa [← List.append_nil (t.tokens 4)] at hread

def orderingTokens (keys : List SortKey) : List Token :=
  if keys.isEmpty then [] else .keyword .order :: .keyword .by :: (keyTokens keys).tail

theorem reads_ordering {keys : List SortKey} (h : ∀ key ∈ keys, key.term.ReadBack) :
    ReadsClause 4 orderingClause (orderingTokens keys) keys := by
  cases keys with
  | nil => exact readsClause_noOrdering
  | cons key others =>
      rw [orderingTokens, keyTokens_eq]
      exact (Reads.separated EndsItem (.mark .comma) spellKey (.inl rfl)
        fun key hkey => reads_sortKey (h key hkey)).orderingClause

theorem reads_window {offset : Nat} {count : Option Nat} (h : count = none → offset = 0) :
    ReadsClause 5 (fun _ => window none) (windowTokens offset count) (offset, count) := by
  cases count with
  | none =>
      obtain rfl := h rfl
      exact readsClause_noWindow none
  | some n => exact readsClause_offset none offset n

/-! ## Statements -/

/-- A statement is read from its modifiers, its projection and its clauses in order. -/
theorem reads_query {ms ps ss js fs gs os ws : List Token} {found : Modifiers}
    {projected : Option Projection} {projection : Projection} {source : Source}
    {joins : List Join} {filter : Option Condition} {grouping : List Term}
    {ordering : List SortKey} {offset : Nat} {count : Option Nat}
    (hmodifiers : Reads OpensProjection (fun _ => modifiers) ms found)
    (hprojection : Reads (Beyond 0) (fun inner => projection? inner found.value) ps projected)
    (hstarred : ∀ ts, starred source projected ts = .ok (projection, ts))
    (hsource : ReadsClause 0 sourceClause ss source) (hjoins : ReadsClause 1 joinClauses js joins)
    (hfilter : ReadsClause 2 filterClause fs filter)
    (hgrouping : ReadsClause 3 groupingClause gs grouping)
    (hordering : ReadsClause 4 orderingClause os ordering)
    (hwindow : ReadsClause 5 (fun _ => window found.count) ws (offset, count)) :
    Reads (Beyond 6) query
      (.keyword .select :: (ms ++ (ps ++ (ss ++ (js ++ (fs ++ (gs ++ (os ++ ws))))))))
      ⟨projection, source, joins, filter, grouping, ordering, found.distinct, offset, count⟩ := by
  intro depth ts rest hdepth hts hstop
  simp only [List.length_cons, List.length_append] at hdepth
  cases hts with
  | @cons _ _ m₀ _ start hts =>
      obtain ⟨m₁, hm, hts⟩ := Spells.append_iff.mp hts
      obtain ⟨m₂, hp, hts⟩ := Spells.append_iff.mp hts
      obtain ⟨m₃, hs, hts⟩ := Spells.append_iff.mp hts
      obtain ⟨m₄, hj, hts⟩ := Spells.append_iff.mp hts
      obtain ⟨m₅, hf, hts⟩ := Spells.append_iff.mp hts
      obtain ⟨m₆, hg, hts⟩ := Spells.append_iff.mp hts
      obtain ⟨m₇, ho, hw⟩ := Spells.append_iff.mp hts
      -- From the end to the front, each clause stands before a later one.
      have h₇ := hwindow.beyond hw hstop
      have h₆ := hordering.beyond ho h₇
      have h₅ := hgrouping.beyond hg h₆
      have h₄ := hfilter.beyond hf h₅
      have h₃ := hjoins.beyond hj h₄
      have h₂ := hsource.beyond hs h₃
      have hreadProjection := hprojection depth _ _ (by omega) hp h₂
      have hreadModifiers : modifiers m₀ = .ok (found, m₁) :=
        hmodifiers depth _ _ (by omega) hm (opensProjection_of_projection? hreadProjection)
      have hreadSource := hsource.reads depth _ _ (by omega) hs h₃
      have hreadJoins := hjoins.reads depth _ _ (by omega) hj h₄
      have hreadFilter := hfilter.reads depth _ _ (by omega) hf h₅
      have hreadGrouping := hgrouping.reads depth _ _ (by omega) hg h₆
      have hreadOrdering := hordering.reads depth _ _ (by omega) ho h₇
      have hreadWindow : window found.count m₇ = .ok ((offset, count), rest) :=
        hwindow.reads depth _ _ (by omega) hw hstop
      simp only [query, expect_cons, ok_bind, hreadModifiers, hreadProjection, hreadSource,
        hstarred, hreadJoins, hreadFilter, hreadGrouping, hreadOrdering, hreadWindow]

/-- A whole text is read when a statement is read from its front and nothing follows. -/
theorem Statement.ofTokens_of_spells {xs : List Token} {s : Statement}
    (h : Reads (Beyond 6) query xs s) {placed rest : List Placed} (hspells : Spells xs placed rest)
    (hpeek : peek rest = .finish) : ofTokens placed = .ok s := by
  have hlength := hspells.length_eq
  have hread := h placed.length placed rest (by omega) hspells (by rw [hpeek]; decide)
  simp [ofTokens, hread, hpeek]

theorem Statement.ofTokens_of_reads {xs : List Token} {s : Statement}
    (h : Reads (Beyond 6) query xs s) {placed : List Placed}
    (hplaced : placed.map Placed.token = xs ++ [.finish]) : ofTokens placed = .ok s := by
  obtain ⟨rest, hspells, hrest⟩ := Spells.of_map_eq hplaced
  refine ofTokens_of_spells h hspells ?_
  cases rest with
  | nil => rfl
  | cons placed rest => simpa using (List.cons.inj hrest).1

end DocQuery
