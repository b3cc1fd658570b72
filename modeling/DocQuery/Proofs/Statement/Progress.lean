import DocQuery.Proofs.Outcome
import DocQuery.Statement.Grammar

/-!
# Readers make progress

A reader consumes tokens from the front and never the last one, which marks the end; where it
fails, it says so at a token it has come to.  Two readers are compared on the way: what they
make of some tokens is the same when the readers that they call agree on what is left of these
tokens.  A reader compared with itself is known to make progress.
-/

namespace DocQuery

open DocQuery.Parser

variable {α β : Type}

/-! ## Positions -/

/-- Tokens of which the last one, and no other one, marks the end. -/
inductive Ends : List Placed → Prop where
  | last {p : Placed} (h : p.token = .finish) : Ends [p]
  | cons {p : Placed} {ts : List Placed} (hp : p.token ≠ .finish) (h : Ends ts) : Ends (p :: ts)

/-- Some tokens are passed over, at least so many, and never the one that marks the end. -/
structure Passes (least : Nat) (ts rest : List Placed) : Prop where
  suffix : rest <:+ ts
  length_le : rest.length + least ≤ ts.length
  ends : Ends ts → Ends rest

namespace Passes

variable {m n : Nat} {ts middle rest : List Placed}

theorem refl (ts : List Placed) : Passes 0 ts ts :=
  ⟨List.suffix_refl ts, Nat.le_refl _, id⟩

theorem trans (h : Passes m ts middle) (h' : Passes n middle rest) : Passes (m + n) ts rest := by
  refine ⟨h'.suffix.trans h.suffix, ?_, fun hts => h'.ends (h.ends hts)⟩
  have hfirst := h.length_le
  have hsecond := h'.length_le
  omega

theorem mono (h : Passes m ts rest) (hle : n ≤ m) : Passes n ts rest :=
  ⟨h.suffix, Nat.le_trans (Nat.add_le_add_left hle _) h.length_le, h.ends⟩

theorem eq_or (h : Passes 0 ts rest) : rest = ts ∨ Passes 1 ts rest := by
  by_cases hlength : rest.length = ts.length
  · exact .inl (h.suffix.eq_of_length hlength)
  · have hle := h.length_le
    exact .inr ⟨h.suffix, by omega, h.ends⟩

/-- A token that does not mark the end is passed over. -/
theorem uncons {p : Placed} (h : p.token ≠ .finish) : Passes 1 (p :: ts) ts := by
  refine ⟨List.suffix_cons p ts, Nat.le_refl _, fun hends => ?_⟩
  cases hends with
  | last hp => exact absurd hp h
  | cons _ hends => exact hends

theorem skip (h : peek ts ≠ .finish) : Passes 1 ts ts.tail := by
  cases ts with
  | nil => exact absurd rfl h
  | cons p ts => exact uncons h

theorem of_peek {token : Token} (htoken : token ≠ .finish) (h : peek ts = token) :
    Passes 1 ts ts.tail :=
  skip (h ▸ htoken)

end Passes

/-! ## Outcomes -/

/--
Two readings of some tokens come to the same: both pass over the same tokens, or notice the same
error at a token they have come to.
-/
inductive Accord (least : Nat) (ts : List Placed) :
    Except PlacedError (α × List Placed) → Except PlacedError (α × List Placed) → Prop where
  | ok (value : α) {rest : List Placed} (h : Passes least ts rest) :
      Accord least ts (.ok (value, rest)) (.ok (value, rest))
  | error (problem : Misplacement) {rest : List Placed} (h : Passes 0 ts rest) :
      Accord least ts (.error (errorAt problem rest)) (.error (errorAt problem rest))

namespace Accord

variable {m n : Nat} {ts middle rest : List Placed}
  {x x' : Except PlacedError (α × List Placed)}

theorem eq (h : Accord m ts x x') : x = x' := by
  cases h <;> rfl

theorem weaken (h : Accord m ts x x') : Accord 0 ts x x' := by
  cases h with
  | ok value h => exact .ok value (h.mono (Nat.zero_le _))
  | error problem h => exact .error problem h

/-- Readings of what is left of some tokens are readings of these tokens. -/
theorem after (hpasses : Passes m ts middle) (h : Accord 0 middle x x') : Accord m ts x x' := by
  cases h with
  | ok value h => exact .ok value (hpasses.trans h)
  | error problem h => exact .error problem ((hpasses.trans h).mono (Nat.zero_le _))

/-- The same, with no word on how many tokens are passed. -/
theorem behind (h : Accord n middle x x') (hpasses : Passes m ts middle) : Accord 0 ts x x' :=
  (h.weaken.after hpasses).weaken

theorem bind {f f' : α × List Placed → Except PlacedError (β × List Placed)}
    (h : Accord m ts x x')
    (hf : ∀ value rest, Passes m ts rest → Accord 0 rest (f (value, rest)) (f' (value, rest))) :
    Accord m ts (x >>= f) (x' >>= f') := by
  cases h with
  | ok value h => exact (hf value _ h).after h
  | error problem h => exact .error problem h

theorem fail (problem : Misplacement) (ts : List Placed) :
    Accord m ts (Parser.fail (α := α) problem ts) (Parser.fail problem ts) :=
  .error problem (.refl ts)

theorem done (value : α) (ts : List Placed) : Accord 0 ts (.ok (value, ts)) (.ok (value, ts)) :=
  .ok value (.refl ts)

theorem map (f : α → β) (h : Accord m ts x x') :
    Accord m ts (x >>= fun result => .ok (f result.1, result.2))
      (x' >>= fun result => .ok (f result.1, result.2)) :=
  h.bind fun value rest _ => .done (f value) rest

end Accord

def Agree (least : Nat) (ts : List Placed) (reader reader' : Parser α) : Prop :=
  ∀ rest, Passes least ts rest → Accord 1 rest (reader rest) (reader' rest)

namespace Agree

variable {m n : Nat} {ts rest : List Placed} {reader reader' : Parser α}

theorem here (h : Agree 0 ts reader reader') : Accord 1 ts (reader ts) (reader' ts) :=
  h ts (.refl ts)

theorem beyond (h : Agree m ts reader reader') {k : Nat} (hpasses : Passes k ts rest)
    (hle : m ≤ k + n) : Agree n rest reader reader' :=
  fun last hlast => h last ((hpasses.trans hlast).mono hle)

end Agree

/-! ## Tokens -/

section Tokens

variable {ts : List Placed}

theorem accord_expect {token : Token} (h : token ≠ .finish) :
    Accord 1 ts (expect token ts) (expect token ts) := by
  unfold expect
  split
  · rename_i hpeek
    exact .ok () (.of_peek h hpeek)
  · exact .fail _ ts

theorem accord_name : Accord 1 ts (name ts) (name ts) := by
  unfold name
  split
  · rename_i hpeek
    exact .ok _ (.of_peek (by simp) hpeek)
  · exact .fail _ ts

theorem accord_count : Accord 1 ts (count ts) (count ts) := by
  unfold count
  split
  · rename_i hpeek
    exact .ok _ (.of_peek (by simp) hpeek)
  · exact .fail _ ts

end Tokens

/-! ## Loops -/

section Loops

variable {separator : Token} {item item' operand operand' : Parser α} {ts : List Placed} {m n : Nat}

theorem exists_budget_of_cons {p : Placed} {budget : Nat} (h : (p :: ts).length ≤ budget) :
    ∃ fewer, budget = fewer + 1 :=
  Nat.exists_eq_succ_of_ne_zero (by rw [List.length_cons] at h; omega)

/--
A loop under two budgets of as many rounds as there are tokens: a round passes a token, and what
holds of the two loops on fewer tokens is known of what it leaves.
-/
theorem rounds_induction {motive : Nat → Nat → List Placed → Prop}
    (stop : ∀ m n, motive m n [])
    (round : ∀ m n p ts, (∀ rest, Passes 1 (p :: ts) rest → motive m n rest) →
      motive (m + 1) (n + 1) (p :: ts))
    (hm : ts.length ≤ m) (hn : ts.length ≤ n) : motive m n ts := by
  induction m generalizing n ts with
  | zero =>
      obtain rfl := List.length_eq_zero_iff.mp (Nat.le_zero.mp hm)
      exact stop 0 n
  | succ m ih =>
      cases ts with
      | nil => exact stop (m + 1) n
      | cons p ts =>
          obtain ⟨n, rfl⟩ := exists_budget_of_cons hn
          refine round m n p ts fun rest hrest => ?_
          have hle := hrest.length_le
          exact ih (by omega) (by omega)

/-- Every round consumes a separator, so the budget is never used up. -/
theorem accord_separatedFrom (hsep : separator ≠ .finish) (h : Agree 1 ts item item')
    (hm : ts.length ≤ m) (hn : ts.length ≤ n) :
    Accord 0 ts (separatedFrom separator item m ts) (separatedFrom separator item' n ts) := by
  refine rounds_induction (motive := fun m n ts => Agree 1 ts item item' →
    Accord 0 ts (separatedFrom separator item m ts) (separatedFrom separator item' n ts))
    (fun m n _ => ?_) (fun m n p ts hothers h => ?_) hm hn h
  · have hend (budget : Nat) (reader : Parser α) :
        separatedFrom separator reader budget [] = .ok ([], []) := by
      cases budget with
      | zero => rfl
      | succ budget => exact if_neg hsep.symm
    rw [hend, hend]
    exact .done _ _
  · rw [separatedFrom, separatedFrom]
    split
    · rename_i hpeek
      have hskip := Passes.of_peek hsep hpeek
      refine ((h _ hskip).bind fun next rest hrest => ?_).behind hskip
      have hpasses := hskip.trans hrest
      exact (hothers rest (hpasses.mono (by decide)) (h.beyond hpasses (by decide))).map (next :: ·)
    · exact .done _ _

theorem accord_separated (hsep : separator ≠ .finish) (h : Agree 0 ts item item') :
    Accord 1 ts (separated separator item ts) (separated separator item' ts) := by
  refine h.here.bind fun first rest hrest => ?_
  exact (accord_separatedFrom hsep (h.beyond hrest (Nat.zero_le _)) (Nat.le_refl _)
    (Nat.le_refl _)).map (first :: ·)

theorem accord_closedBy {close : Mark} (h : Agree 0 ts item item') :
    Accord 1 ts (closedBy close item ts) (closedBy close item' ts) := by
  unfold closedBy
  split
  · rename_i hpeek
    exact .ok _ (.of_peek (by simp) hpeek)
  · refine (accord_separated (by simp) h).bind fun items rest _ => ?_
    exact ((accord_expect (by simp)).map fun _ => items).weaken

/-- Every round consumes an operator, so the budget is never used up. -/
theorem accord_chainFrom {operator? : Token → Option β} {combine : β → α → α → α}
    (hop : operator? .finish = none) (h : Agree 1 ts operand operand') (left : α)
    (hm : ts.length ≤ m) (hn : ts.length ≤ n) :
    Accord 0 ts (chainFrom operand operator? combine m left ts)
      (chainFrom operand' operator? combine n left ts) := by
  refine rounds_induction (motive := fun m n ts => ∀ left, Agree 1 ts operand operand' →
    Accord 0 ts (chainFrom operand operator? combine m left ts)
      (chainFrom operand' operator? combine n left ts))
    (fun m n left _ => ?_) (fun m n p ts hothers left h => ?_) hm hn left h
  · have hend (budget : Nat) (reader : Parser α) :
        chainFrom reader operator? combine budget left [] = .ok (left, []) := by
      cases budget with
      | zero => rfl
      | succ budget => simp only [chainFrom, peek, hop]
    rw [hend, hend]
    exact .done _ _
  · rw [chainFrom, chainFrom]
    cases hoperator : operator? (peek (p :: ts)) with
    | none => exact .done _ _
    | some op =>
        have hfinish : peek (p :: ts) ≠ .finish := fun hfinish => by
          rw [hfinish, hop] at hoperator
          cases hoperator
        have hskip := Passes.skip hfinish
        refine ((h _ hskip).bind fun right rest hrest => ?_).behind hskip
        have hpasses := hskip.trans hrest
        exact hothers rest (hpasses.mono (by decide)) _ (h.beyond hpasses (by decide))

theorem accord_chain {operator? : Token → Option β} {combine : β → α → α → α}
    (hop : operator? .finish = none) (h : Agree 0 ts operand operand') :
    Accord 1 ts (chain operand operator? combine ts) (chain operand' operator? combine ts) := by
  refine h.here.bind fun first rest hrest => ?_
  exact accord_chainFrom hop (h.beyond hrest (Nat.zero_le _)) _ (Nat.le_refl _) (Nat.le_refl _)

end Loops

/-! ## Paths, labels and modifiers -/

section Words

variable {ts : List Placed} {m n : Nat}

theorem accord_bracketSegment : Accord 1 ts (bracketSegment ts) (bracketSegment ts) := by
  have hclose {token : Token} (htoken : token ≠ .finish) (hpeek : peek ts = token)
      (segment : String) :
      Accord 1 ts (expect (.mark .rightBracket) ts.tail >>= fun last => .ok (segment, last.2))
        (expect (.mark .rightBracket) ts.tail >>= fun last => .ok (segment, last.2)) :=
    .after (.of_peek htoken hpeek) ((accord_expect (by simp)).map fun _ => segment).weaken
  unfold bracketSegment
  dsimp only
  split
  · rename_i hpeek
    exact hclose (by simp) hpeek _
  · rename_i hpeek
    exact hclose (by simp) hpeek _
  · rename_i hpeek
    exact hclose (by simp) hpeek _
  · exact .fail _ ts

/-- Every segment consumes a dot or a bracket, so the budget is never used up. -/
theorem accord_segmentsFrom (hm : ts.length ≤ m) (hn : ts.length ≤ n) :
    Accord 0 ts (segmentsFrom m ts) (segmentsFrom n ts) := by
  refine rounds_induction (motive := fun m n ts =>
    Accord 0 ts (segmentsFrom m ts) (segmentsFrom n ts))
    (fun m n => ?_) (fun m n p ts hothers => ?_) hm hn
  · cases m <;> cases n <;> exact .done _ _
  · rw [segmentsFrom, segmentsFrom]
    split
    · rename_i hpeek
      have hskip := Passes.of_peek (by simp) hpeek
      refine (accord_name.bind fun segment rest hrest => ?_).behind hskip
      exact (hothers rest ((hskip.trans hrest).mono (by decide))).map (segment :: ·)
    · rename_i hpeek
      have hskip := Passes.of_peek (by simp) hpeek
      refine (accord_bracketSegment.bind fun segment rest hrest => ?_).behind hskip
      exact (hothers rest ((hskip.trans hrest).mono (by decide))).map (segment :: ·)
    · exact .done _ _

theorem accord_pathFrom (first : String) : Accord 0 ts (pathFrom first ts) (pathFrom first ts) := by
  exact (accord_segmentsFrom (Nat.le_refl _) (Nat.le_refl _)).map (first :: ·)

theorem accord_path : Accord 1 ts (path ts) (path ts) :=
  accord_name.bind fun first _ _ => accord_pathFrom first

/-- A label consumes a token where there is one. -/
theorem accord_label?_cases (ts : List Placed) :
    label? ts = .ok (none, ts) ∨ Accord 1 ts (label? ts) (label? ts) := by
  unfold label?
  split
  · rename_i hpeek
    refine .inr (.after (.of_peek (by simp) hpeek) ?_)
    split
    · rename_i hword
      exact (Accord.ok _ (.of_peek (by simp) hword)).weaken
    · exact (accord_name.map some).weaken
  · rename_i hpeek
    exact .inr (.ok _ (.of_peek (by simp) hpeek))
  · exact .inl rfl

theorem accord_label? : Accord 0 ts (label? ts) (label? ts) := by
  rcases accord_label?_cases ts with hnone | hlabel
  · rw [hnone]
    exact .done _ ts
  · exact hlabel.weaken

/-- Where a label is required, it consumes a token. -/
theorem accord_label : Accord 1 ts (label ts) (label ts) := by
  unfold label
  rcases accord_label?_cases ts with hnone | hlabel
  · rw [hnone]
    exact .fail _ ts
  · refine hlabel.bind fun found rest _ => ?_
    cases found with
    | none => exact .fail _ rest
    | some label => exact .done label rest

/-- Every modifier consumes a token, so the budget is never used up. -/
theorem accord_modifiersFrom (found : Grammar.Modifiers) (hm : ts.length ≤ m)
    (hn : ts.length ≤ n) :
    Accord 0 ts (Grammar.modifiersFrom m found ts) (Grammar.modifiersFrom n found ts) := by
  refine rounds_induction (motive := fun m n ts => ∀ found,
    Accord 0 ts (Grammar.modifiersFrom m found ts) (Grammar.modifiersFrom n found ts))
    (fun m n found => ?_) (fun m n p ts hothers found => ?_) hm hn found
  · cases m <;> cases n <;> exact .done _ _
  · rw [Grammar.modifiersFrom, Grammar.modifiersFrom]
    split
    · rename_i hpeek
      have hskip := Passes.of_peek (by simp) hpeek
      exact ((hothers _ hskip _).after hskip).weaken
    · rename_i hpeek
      have hskip := Passes.of_peek (by simp) hpeek
      refine (accord_count.bind fun count rest hrest => ?_).behind hskip
      exact hothers rest ((hskip.trans hrest).mono (by decide)) _
    · rename_i hpeek
      exact (Accord.ok _ (.of_peek (by simp) hpeek)).weaken
    · exact .done _ _

end Words

end DocQuery
