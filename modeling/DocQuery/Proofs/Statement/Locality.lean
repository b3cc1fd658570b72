import DocQuery.Proofs.Statement.Clauses

/-!
# Reading the same tokens elsewhere

What a reader makes of the tokens it consumes does not depend on what surrounds them: the
same tokens are read alike wherever the next token lets the reader stop.  This is proved of
the combinators first, then of operands and conditions; what stands in brackets is given.
-/

namespace DocQuery

open DocQuery.Parser Grammar

variable {α β : Type}

/-! ## Consumed tokens -/

structure Takes (xs : List Token) (ts rest : List Placed) : Prop where
  spells : Spells xs ts rest
  finish_not_mem : Token.finish ∉ xs

namespace Takes

variable {x : Token} {xs ys : List Token} {ts middle rest : List Placed}

theorem nil (ts : List Placed) : Takes [] ts ts :=
  ⟨.nil ts, List.not_mem_nil⟩

theorem cons (hx : x ≠ .finish) (hpeek : peek ts = x) (h : Takes xs ts.tail rest) :
    Takes (x :: xs) ts rest := by
  refine ⟨?_, ?_⟩
  · cases ts with
    | nil => exact absurd hpeek.symm hx
    | cons placed ts =>
        obtain ⟨token, offset⟩ := placed
        obtain rfl : token = x := hpeek
        exact .cons offset h.spells
  · exact List.not_mem_cons_of_ne_of_not_mem hx.symm h.finish_not_mem

theorem single (hx : x ≠ .finish) (hpeek : peek ts = x) : Takes [x] ts ts.tail :=
  cons hx hpeek (nil _)

theorem append (h : Takes xs ts middle) (h' : Takes ys middle rest) : Takes (xs ++ ys) ts rest :=
  ⟨Spells.append_iff.mpr ⟨middle, h.spells, h'.spells⟩, fun hmem =>
    (List.mem_append.mp hmem).elim h.finish_not_mem h'.finish_not_mem⟩

end Takes

/-- What is consumed up to the end of a text is all that stands before it. -/
theorem Takes.eq_of_finish {xs ys : List Token} {ts rest : List Placed} (h : Takes xs ts rest)
    (hts : ts.map Placed.token = ys ++ [.finish]) (hys : Token.finish ∉ ys)
    (hrest : peek rest = .finish) : xs = ys := by
  rw [h.spells.map_token_eq] at hts
  cases rest with
  | nil =>
      refine absurd ?_ h.finish_not_mem
      rw [List.map_nil, List.append_nil] at hts
      simp [hts]
  | cons placed rest =>
      rw [peek_cons] at hrest
      rw [List.map_cons, hrest] at hts
      exact ((List.append_cons_inj_of_notMem hys List.not_mem_nil).mp hts.symm).1.symm

/-! ## Local readers -/

/-- What one reader consumes, another one reads alike wherever the next token lets it stop. -/
def Local (stops : Token → Prop) (reader : Parser α) (again : Grammar → Parser α) : Prop :=
  ∀ ts value rest, reader ts = .ok (value, rest) →
    ∃ xs, Takes xs ts rest ∧ Reads stops again xs value

section Combinators

variable {stops : Token → Prop} {separator : Token} {item : Parser α} {again : Grammar → Parser α}

theorem Local.mono (h : Local stops item again) {stops' : Token → Prop}
    (hstops : ∀ token, stops' token → stops token) : Local stops' item again := by
  intro ts value rest hread
  obtain ⟨xs, htakes, hreads⟩ := h ts value rest hread
  exact ⟨xs, htakes, hreads.mono hstops⟩

theorem local_separatedFrom (h : Local stops item again) (hsep : separator ≠ .finish)
    (budget : Nat) {ts rest : List Placed} {values : List α}
    (hread : separatedFrom separator item budget ts = .ok (values, rest)) :
    ∃ parts : List (List Token × α), values = parts.map Prod.snd ∧
      Takes (spellParts separator parts) ts rest ∧
        ∀ part ∈ parts, Reads stops again part.1 part.2 := by
  induction budget generalizing ts values with
  | zero =>
      cases hread
      exact ⟨[], rfl, .nil _, by simp⟩
  | succ budget ih =>
      rw [separatedFrom] at hread
      split at hread
      · rename_i hpeek
        simp only [bind_eq_ok] at hread
        obtain ⟨⟨next, middle⟩, hnext, ⟨others, last⟩, hothers, hvalues⟩ := hread
        cases hvalues
        obtain ⟨xs, hxs, hreads⟩ := h _ _ _ hnext
        obtain ⟨parts, rfl, htakes, hparts⟩ := ih hothers
        refine ⟨(xs, next) :: parts, rfl, ?_, List.forall_mem_cons.mpr ⟨hreads, hparts⟩⟩
        rw [spellParts_cons]
        exact .cons hsep hpeek (hxs.append htakes)
      · cases hread
        exact ⟨[], rfl, .nil _, by simp⟩

theorem local_separated (h : Local stops item again) (hsep : separator ≠ .finish)
    {ts rest : List Placed} {values : List α}
    (hread : Parser.separated separator item ts = .ok (values, rest)) :
    ∃ (part : List Token × α) (others : List (List Token × α)),
      values = part.2 :: others.map Prod.snd ∧
        Takes (part.1 ++ spellParts separator others) ts rest ∧
          ∀ p ∈ part :: others, Reads stops again p.1 p.2 := by
  simp only [Parser.separated, bind_eq_ok] at hread
  obtain ⟨⟨first, middle⟩, hfirst, ⟨values, last⟩, hothers, hvalues⟩ := hread
  cases hvalues
  obtain ⟨xs, hxs, hreads⟩ := h _ _ _ hfirst
  obtain ⟨others, rfl, htakes, hparts⟩ := local_separatedFrom h hsep _ hothers
  exact ⟨(xs, first), others, rfl, hxs.append htakes, List.forall_mem_cons.mpr ⟨hreads, hparts⟩⟩

theorem Local.separated (h : Local stops item again) (hstop : stops separator)
    (hsep : separator ≠ .finish) :
    Local (fun token => stops token ∧ token ≠ separator) (Parser.separated separator item)
      (fun inner => Parser.separated separator (again inner)) := by
  intro ts values rest hread
  obtain ⟨part, others, rfl, htakes, hparts⟩ := local_separated h hsep hread
  exact ⟨_, htakes, .separated_parts stops separator hstop hparts⟩

theorem Local.closedBy (h : Local stops item again) {close : Mark} (hsep : stops (.mark .comma))
    (hclose : stops (.mark close)) (hcomma : close ≠ .comma)
    (hbegin : ∀ inner ts result, again inner ts = .ok result → peek ts ≠ .mark close) :
    Local (fun _ => True) (Parser.closedBy close item)
      (fun inner => Parser.closedBy close (again inner)) := by
  intro ts values rest hread
  have hfinish : Token.mark close ≠ .finish := by simp
  unfold Parser.closedBy at hread
  split at hread
  · rename_i hpeek
    cases hread
    exact ⟨_, .single hfinish hpeek,
      .closedBy_parts stops hsep hclose hcomma hbegin (List.forall_mem_nil _)⟩
  · simp only [bind_eq_ok] at hread
    obtain ⟨⟨items, middle⟩, hitems, ⟨_, last⟩, hlast, hvalues⟩ := hread
    cases hvalues
    obtain ⟨hpeek, rfl⟩ := expect_eq_ok hlast
    obtain ⟨part, others, rfl, htakes, hparts⟩ := local_separated h (by simp) hitems
    refine ⟨_, htakes.append (.single hfinish hpeek), ?_⟩
    have hread := Reads.closedBy_parts stops hsep hclose hcomma hbegin hparts
    rwa [spellParts_cons] at hread

end Combinators

section Chains

variable {stops : Token → Prop} {item : Parser α} {again : Grammar → Parser α}
  {operator? : Token → Option β} {combine : β → α → α → α}

/-- What a chain consumes, it reads alike, and may go on behind it. -/
theorem local_chainFrom (h : Local stops item again)
    (hop : ∀ token op, operator? token = some op → stops token ∧ token ≠ .finish)
    (budget : Nat) {ts₀ ts rest : List Placed} {xs : List Token} {left value : α}
    (htakes : Takes xs ts₀ ts) (hleft : Chains stops again operator? combine xs left)
    (hread : chainFrom item operator? combine budget left ts = .ok (value, rest)) :
    ∃ ys, Takes ys ts₀ rest ∧ Chains stops again operator? combine ys value := by
  induction budget generalizing ts xs left with
  | zero =>
      cases hread
      exact ⟨xs, htakes, hleft⟩
  | succ budget ih =>
      rw [chainFrom] at hread
      cases hoperator : operator? (peek ts) with
      | none =>
          simp only [hoperator] at hread
          cases hread
          exact ⟨xs, htakes, hleft⟩
      | some op =>
          simp only [hoperator, bind_eq_ok] at hread
          obtain ⟨⟨right, middle⟩, hright, hread⟩ := hread
          obtain ⟨ys, hys, hreads⟩ := h _ _ _ hright
          obtain ⟨hstop, hfinish⟩ := hop _ _ hoperator
          exact ih (htakes.append (.cons hfinish rfl hys)) (hleft.snoc hreads hoperator hstop) hread

theorem Local.chain (h : Local stops item again)
    (hop : ∀ token op, operator? token = some op → stops token ∧ token ≠ .finish)
    {ts rest : List Placed} {value : α}
    (hread : Parser.chain item operator? combine ts = .ok (value, rest)) :
    ∃ xs, Takes xs ts rest ∧ Chains stops again operator? combine xs value := by
  simp only [Parser.chain, bind_eq_ok] at hread
  obtain ⟨⟨first, middle⟩, hfirst, hread⟩ := hread
  obtain ⟨xs, hxs, hreads⟩ := h _ _ _ hfirst
  exact local_chainFrom h hop _ hxs hreads.chains hread

end Chains

/-! ## Paths -/

theorem name_eq_ok {first : String} {ts rest : List Placed} (h : name ts = .ok (first, rest)) :
    peek ts = .identifier first ∧ rest = ts.tail := by
  unfold name at h
  split at h
  · cases h
    exact ⟨by assumption, rfl⟩
  · cases h

theorem takes_closed {token : Token} (htoken : token ≠ .finish) {ts rest : List Placed}
    {segment found : String} (hpeek : peek ts = token)
    (h : (do let ((), rest) ← expect (.mark .rightBracket) ts.tail
             .ok (segment, rest)) = .ok (found, rest)) :
    found = segment ∧ Takes [token, .mark .rightBracket] ts rest := by
  simp only [bind_eq_ok] at h
  obtain ⟨⟨_, last⟩, hexpect, h⟩ := h
  obtain ⟨hclose, rfl⟩ := expect_eq_ok hexpect
  cases h
  exact ⟨rfl, .cons htoken hpeek (.single (by simp) hclose)⟩

/-- A segment in brackets is a token and the bracket behind it. -/
theorem local_bracketSegment {ts rest : List Placed} {segment : String}
    (h : bracketSegment ts = .ok (segment, rest)) :
    ∃ token, Takes [token, .mark .rightBracket] ts rest ∧
      ∀ offset offset' rest', bracketSegment
        (⟨token, offset⟩ :: ⟨.mark .rightBracket, offset'⟩ :: rest') = .ok (segment, rest') := by
  unfold bracketSegment at h
  dsimp only at h
  split at h
  · rename_i hpeek
    obtain ⟨rfl, htakes⟩ := takes_closed (by simp) hpeek h
    exact ⟨_, htakes, by simp [bracketSegment]⟩
  · rename_i hpeek
    obtain ⟨rfl, htakes⟩ := takes_closed (by simp) hpeek h
    exact ⟨_, htakes, by simp [bracketSegment]⟩
  · rename_i hpeek
    obtain ⟨rfl, htakes⟩ := takes_closed (by simp) hpeek h
    exact ⟨_, htakes, by simp [bracketSegment]⟩
  · cases h

theorem local_segmentsFrom (budget : Nat) {ts rest : List Placed} {segments : List String}
    (h : segmentsFrom budget ts = .ok (segments, rest)) :
    ∃ xs, Takes xs ts rest ∧ GoesOn xs segments := by
  induction budget generalizing ts segments with
  | zero =>
      cases h
      exact ⟨[], .nil _, .nil⟩
  | succ budget ih =>
      rw [segmentsFrom] at h
      split at h
      · rename_i hpeek
        simp only [bind_eq_ok] at h
        obtain ⟨⟨segment, middle⟩, hsegment, ⟨others, last⟩, hothers, h⟩ := h
        cases h
        obtain ⟨hname, rfl⟩ := name_eq_ok hsegment
        obtain ⟨xs, htakes, hgoesOn⟩ := ih hothers
        exact ⟨_, .cons (by simp) hpeek (.cons (by simp) hname htakes), hgoesOn.dot segment⟩
      · rename_i hpeek
        simp only [bind_eq_ok] at h
        obtain ⟨⟨segment, middle⟩, hsegment, ⟨others, last⟩, hothers, h⟩ := h
        cases h
        obtain ⟨token, htoken, hread⟩ := local_bracketSegment hsegment
        obtain ⟨xs, htakes, hgoesOn⟩ := ih hothers
        exact ⟨_, .cons (by simp) hpeek (htoken.append htakes), hgoesOn.bracket hread⟩
      · cases h
        exact ⟨[], .nil _, .nil⟩

/-- What follows the first segment of a path. -/
theorem local_pathFrom {first : String} {ts rest : List Placed} {segments : List String}
    (h : pathFrom first ts = .ok (segments, rest)) :
    ∃ xs others, segments = first :: others ∧ Takes xs ts rest ∧ GoesOn xs others := by
  simp only [pathFrom, bind_eq_ok] at h
  obtain ⟨⟨others, last⟩, hothers, h⟩ := h
  cases h
  obtain ⟨xs, htakes, hgoesOn⟩ := local_segmentsFrom _ hothers
  exact ⟨xs, others, rfl, htakes, hgoesOn⟩

/-! ## In brackets -/

/-- What stands in the brackets of a grammar is read alike elsewhere. -/
structure Grammar.Consistent (inner : Grammar) : Prop where
  condition : Local (Looser 1) inner.condition disjunction
  statement : Local (Beyond 6) inner.statement query

theorem key_eq_ok {name : String} {ts rest : List Placed} (h : key ts = .ok (name, rest)) :
    ∃ token, Takes [token] ts rest ∧
      ∀ offset rest', key (⟨token, offset⟩ :: rest') = .ok (name, rest') := by
  unfold key at h
  split at h
  · rename_i hpeek
    cases h
    exact ⟨_, .single (by simp) hpeek, by simp [key]⟩
  · rename_i hpeek
    cases h
    exact ⟨_, .single (by simp) hpeek, by simp [key]⟩
  · rename_i hpeek
    cases h
    exact ⟨_, .single (by simp) hpeek, by simp [key]⟩
  · cases h

/-! ## Operators -/

theorem multiplicative?_stops (token : Token) (op : Arithmetic)
    (h : multiplicative? token = some op) : Looser 6 token ∧ token ≠ .finish := by
  unfold multiplicative? at h
  split at h <;> simp_all [Looser, grip]

theorem additive?_stops (token : Token) (op : Arithmetic) (h : additive? token = some op) :
    Looser 5 token ∧ token ≠ .finish := by
  unfold additive? at h
  split at h <;> simp_all [Looser, grip]

theorem comparison?_stops (token : Token) (op : Comparison) (h : comparison? token = some op) :
    Looser 4 token ∧ token ≠ .finish := by
  unfold comparison? at h
  split at h <;> simp_all [Looser, grip]

/-! ## Operands -/

section Operands

variable {inner : Grammar} (h : inner.Consistent)
include h

theorem local_term : Local (Looser 1) (term inner) value := by
  intro ts t rest hread
  simp only [term, bind_eq_ok] at hread
  obtain ⟨⟨c, last⟩, hcondition, hread⟩ := hread
  cases hread
  obtain ⟨xs, htakes, hreads⟩ := h.condition _ _ _ hcondition
  exact ⟨xs, htakes, hreads.value⟩

theorem local_terms (close : Mark) (hcomma : close ≠ .comma) (hlooser : Looser 1 (.mark close))
    (hclose : opens (.mark close) = false) :
    Local (fun _ => True) (Parser.closedBy close (term inner))
      (fun inner => Parser.closedBy close (term inner.inside)) :=
  (local_term h).closedBy (by decide) hlooser hcomma
    fun inner _ _ hread => value_ne_closing inner hread hclose

theorem local_closedStatement {ts rest : List Placed} {s : Statement}
    (hread : closedStatement inner ts = .ok (s, rest)) :
    ∃ xs, Takes (xs ++ [.mark .rightParen]) ts rest ∧ Reads (Beyond 6) query xs s := by
  simp only [closedStatement, bind_eq_ok] at hread
  obtain ⟨⟨s, middle⟩, hstatement, ⟨_, last⟩, hlast, hread⟩ := hread
  cases hread
  obtain ⟨hpeek, rfl⟩ := expect_eq_ok hlast
  obtain ⟨xs, htakes, hreads⟩ := h.statement _ _ _ hstatement
  exact ⟨xs, htakes.append (.single (by simp) hpeek), hreads⟩

theorem local_arguments {ts rest : List Placed} {terms : List Term}
    (hread : arguments inner ts = .ok (terms, rest)) :
    ∃ xs, Takes (.mark .leftParen :: xs) ts rest ∧
      Reads (fun _ => True) arguments (.mark .leftParen :: xs) terms := by
  simp only [arguments, bind_eq_ok] at hread
  obtain ⟨⟨_, middle⟩, hopen, hread⟩ := hread
  obtain ⟨hpeek, rfl⟩ := expect_eq_ok hopen
  obtain ⟨xs, htakes, hreads⟩ :=
    local_terms h .rightParen (by decide) (by decide) (by decide) _ _ _ hread
  exact ⟨xs, .cons (by simp) hpeek htakes, hreads.arguments⟩

theorem local_member : Local (Looser 1) (member inner) (fun inner => member inner.inside) := by
  intro ts t rest hread
  simp only [member, bind_eq_ok] at hread
  obtain ⟨⟨name, middle⟩, hname, ⟨_, last⟩, hcolon, ⟨value, final⟩, hvalue, hread⟩ := hread
  cases hread
  obtain ⟨token, htoken, hkey⟩ := key_eq_ok hname
  obtain ⟨hpeek, rfl⟩ := expect_eq_ok hcolon
  obtain ⟨xs, htakes, hreads⟩ := local_term h _ _ _ hvalue
  exact ⟨_, htoken.append (.cons (by simp) hpeek htakes), hreads.member hkey⟩

theorem local_members : Local (fun _ => True) (Parser.closedBy .rightBrace (member inner))
    (fun inner => Parser.closedBy .rightBrace (member inner.inside)) :=
  (local_member h).closedBy (by decide) (by decide) (by decide)
    fun inner => member_ne_closing inner.inside

theorem local_call {name : String} {ts rest : List Placed} {t : Term}
    (hread : call inner name ts = .ok (t, rest)) :
    ∃ xs, Takes xs ts rest ∧ Reads (Looser 6) operand (.identifier name :: xs) t := by
  unfold call at hread
  split at hread
  · cases hread
  · rename_i hname
    simp only [bind_eq_ok] at hread
    obtain ⟨⟨terms, last⟩, harguments, hread⟩ := hread
    cases hread
    obtain ⟨xs, htakes, hreads⟩ := local_arguments h harguments
    exact ⟨_, htakes, hreads.call hname⟩

theorem local_compound : Local (Looser 6) (compound inner) operand := by
  intro ts t rest hread
  unfold compound at hread
  split at hread
  · rename_i hpeek
    split at hread
    · simp only [bind_eq_ok] at hread
      obtain ⟨⟨s, last⟩, hstatement, hread⟩ := hread
      cases hread
      obtain ⟨xs, htakes, hreads⟩ := local_closedStatement h hstatement
      obtain ⟨ys, rfl⟩ := hreads.exists_select
      exact ⟨_, .cons (by simp) hpeek htakes, hreads.subquery⟩
    · simp only [bind_eq_ok] at hread
      obtain ⟨⟨t, middle⟩, hterm, ⟨_, last⟩, hclose, hread⟩ := hread
      cases hread
      obtain ⟨hpeekClose, rfl⟩ := expect_eq_ok hclose
      obtain ⟨xs, htakes, hreads⟩ := local_term h _ _ _ hterm
      exact ⟨_, .cons (by simp) hpeek (htakes.append (.single (by simp) hpeekClose)),
        hreads.inParens⟩
  · rename_i hpeek
    simp only [bind_eq_ok] at hread
    obtain ⟨⟨_, middle⟩, hopen, ⟨s, last⟩, hstatement, hread⟩ := hread
    cases hread
    obtain ⟨hpeekOpen, rfl⟩ := expect_eq_ok hopen
    obtain ⟨xs, htakes, hreads⟩ := local_closedStatement h hstatement
    exact ⟨_, .cons (by simp) hpeek (.cons (by simp) hpeekOpen htakes), hreads.existence⟩
  · rename_i hpeek
    simp only [bind_eq_ok] at hread
    obtain ⟨⟨members, last⟩, hmembers, hread⟩ := hread
    cases hread
    obtain ⟨xs, htakes, hreads⟩ := local_members h _ _ _ hmembers
    exact ⟨_, .cons (by simp) hpeek htakes, hreads.object⟩
  · rename_i hpeek
    simp only [bind_eq_ok] at hread
    obtain ⟨⟨elements, last⟩, helements, hread⟩ := hread
    cases hread
    obtain ⟨xs, htakes, hreads⟩ :=
      local_terms h .rightBracket (by decide) (by decide) (by decide) _ _ _ helements
    exact ⟨_, .cons (by simp) hpeek htakes, hreads.array⟩
  · rename_i name hpeek
    split at hread
    · obtain ⟨xs, htakes, hreads⟩ := local_call h hread
      exact ⟨_, .cons (by simp) hpeek htakes, hreads⟩
    · simp only [bind_eq_ok] at hread
      obtain ⟨⟨segments, last⟩, hpath, hread⟩ := hread
      cases hread
      obtain ⟨xs, others, rfl, htakes, hgoesOn⟩ := local_pathFrom hpath
      exact ⟨_, .cons (by simp) hpeek htakes, .path name hgoesOn⟩
  · cases hread

theorem local_operand : Local (Looser 6) (operand inner) operand := by
  intro ts
  induction ts with
  | nil => exact local_compound h []
  | cons first ts ih =>
      intro t rest hread
      rw [operand] at hread
      cases hliteral : literal? first.token with
      | some c =>
          simp only [hliteral] at hread
          cases hread
          have hfinish : first.token ≠ .finish := by
            intro hfinish
            simp [hfinish, literal?] at hliteral
          exact ⟨_, .single hfinish rfl, literal?_reads hliteral⟩
      | none =>
          simp only [hliteral] at hread
          split at hread
          · rename_i hminus
            cases hnegative : negativeLiteral? (peek ts) with
            | some c =>
                simp only [hnegative] at hread
                cases hread
                have hfinish : peek ts ≠ .finish := by
                  intro hfinish
                  simp [hfinish, negativeLiteral?] at hnegative
                exact ⟨_, .cons (by simp) hminus (.single hfinish rfl),
                  negativeLiteral?_reads hnegative⟩
            | none =>
                simp only [hnegative, bind_eq_ok] at hread
                obtain ⟨⟨t, last⟩, hoperand, hread⟩ := hread
                cases hread
                obtain ⟨xs, htakes, hreads⟩ := ih _ _ hoperand
                obtain ⟨x, ys, rfl, -⟩ := hreads.exists_first
                  (P := fun token => opensOperand token = true) (by decide)
                  (fun _ _ _ => opensOperand_of_operand) (by decide)
                rw [htakes.spells.peek_eq] at hnegative
                exact ⟨_, .cons (by simp) hminus htakes, hreads.minus hnegative⟩
          · exact local_compound h _ _ _ hread

theorem local_product : Local (Looser 5) (product inner) product := by
  intro ts t rest hread
  obtain ⟨xs, htakes, hchains⟩ := (local_operand h).chain multiplicative?_stops hread
  exact ⟨xs, htakes, hchains.reads_product⟩

theorem local_sum : Local (Looser 4) (sum inner) sum := by
  intro ts t rest hread
  obtain ⟨xs, htakes, hchains⟩ := (local_product h).chain additive?_stops hread
  exact ⟨xs, htakes, hchains.reads_sum⟩

/-! ## Conditions -/

theorem local_membership {negated : Bool} {needle : Term} {ts rest : List Placed} {c : Condition}
    (hread : membership inner negated needle ts = .ok (c, rest)) :
    ∃ xs candidates, c = .term ⟨none, negated, .call .membership (needle :: candidates)⟩ ∧
      Takes xs ts rest ∧ Reads (fun _ => True) arguments xs candidates := by
  simp only [membership, bind_eq_ok] at hread
  obtain ⟨⟨candidates, last⟩, harguments, hread⟩ := hread
  cases hread
  obtain ⟨xs, htakes, hreads⟩ := local_arguments h harguments
  exact ⟨_, candidates, rfl, htakes, hreads⟩

theorem local_comparison : Local (Looser 3) (comparison inner) comparison := by
  intro ts c rest hread
  simp only [comparison, bind_eq_ok] at hread
  obtain ⟨⟨left, middle⟩, hleft, hread⟩ := hread
  obtain ⟨xs, hxs, hreads⟩ := local_sum h _ _ _ hleft
  split at hread
  · rename_i hin
    obtain ⟨ys, candidates, rfl, hys, hcandidates⟩ := local_membership h hread
    exact ⟨_, hxs.append (.cons (by simp) hin hys), hreads.membership hcandidates⟩
  · rename_i hnot
    split at hread
    · rename_i hin
      obtain ⟨ys, candidates, rfl, hys, hcandidates⟩ := local_membership h hread
      exact ⟨_, hxs.append (.cons (by simp) hnot (.cons (by simp) hin hys)),
        hreads.notMembership hcandidates⟩
    · cases hread
      exact ⟨xs, hxs, hreads.comparison⟩
  · cases hop : comparison? (peek middle) with
    | none =>
        simp only [hop] at hread
        cases hread
        exact ⟨xs, hxs, hreads.comparison⟩
    | some op =>
        simp only [hop, bind_eq_ok] at hread
        obtain ⟨⟨right, last⟩, hright, hread⟩ := hread
        cases hread
        obtain ⟨ys, hys, hreadsRight⟩ := local_sum h _ _ _ hright
        obtain ⟨hstop, hfinish⟩ := comparison?_stops _ _ hop
        exact ⟨_, hxs.append (.cons hfinish rfl hys), .compare hop hstop hreads hreadsRight⟩

theorem local_negation : Local (Looser 3) (negation inner) negation := by
  intro ts
  induction ts with
  | nil =>
      intro c rest hread
      obtain ⟨xs, htakes, hreads⟩ := local_comparison h _ _ _ hread
      exact ⟨xs, htakes, hreads.negation⟩
  | cons first ts ih =>
      intro c rest hread
      rw [negation] at hread
      split at hread
      · rename_i hnot
        simp only [bind_eq_ok] at hread
        obtain ⟨⟨c, last⟩, hcondition, hread⟩ := hread
        cases hread
        obtain ⟨xs, htakes, hreads⟩ := ih _ _ hcondition
        exact ⟨_, .cons (by simp) hnot htakes, hreads.not⟩
      · obtain ⟨xs, htakes, hreads⟩ := local_comparison h _ _ _ hread
        exact ⟨xs, htakes, hreads.negation⟩

theorem local_conjunction : Local (Looser 2) (conjunction inner) conjunction := by
  intro ts c rest hread
  simp only [conjunction, bind_eq_ok] at hread
  obtain ⟨⟨parts, last⟩, hparts, hread⟩ := hread
  cases hread
  obtain ⟨part, others, rfl, htakes, hreads⟩ :=
    local_separated (local_negation h) (by simp) hparts
  exact ⟨_, htakes, .conjunction_parts hreads⟩

theorem local_disjunction : Local (Looser 1) (disjunction inner) disjunction := by
  intro ts c rest hread
  simp only [disjunction, bind_eq_ok] at hread
  obtain ⟨⟨parts, last⟩, hparts, hread⟩ := hread
  cases hread
  obtain ⟨part, others, rfl, htakes, hreads⟩ :=
    local_separated (local_conjunction h) (by simp) hparts
  exact ⟨_, htakes, .disjunction_parts hreads⟩

theorem local_value : Local (Looser 1) (value inner) value := by
  intro ts t rest hread
  simp only [value, bind_eq_ok] at hread
  obtain ⟨⟨c, last⟩, hcondition, hread⟩ := hread
  cases hread
  obtain ⟨xs, htakes, hreads⟩ := local_disjunction h _ _ _ hcondition
  exact ⟨xs, htakes, hreads.value⟩

end Operands

end DocQuery
