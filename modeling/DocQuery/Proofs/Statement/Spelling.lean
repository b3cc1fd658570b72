import DocQuery.Proofs.Outcome
import DocQuery.Statement.Grammar

/-!
# Readers and spellings

A reader gets a value from a spelling when it does so whatever follows, as long as the
next token lets it stop there, and in every depth that the tokens of the spelling can
need.  What a reader can yield at all is stated beside it.  Both are proved of the
combinators first and of the productions of the grammar from these.
-/

namespace DocQuery

open DocQuery.Parser

/-! ## Tokens at the front -/

inductive Spells : List Token → List Placed → List Placed → Prop where
  | nil (rest : List Placed) : Spells [] rest rest
  | cons {x : Token} {xs : List Token} {ts rest : List Placed} (offset : Nat)
      (h : Spells xs ts rest) : Spells (x :: xs) (⟨x, offset⟩ :: ts) rest

namespace Spells

variable {x : Token} {xs ys : List Token} {ts rest : List Placed}

theorem peek_eq (h : Spells (x :: xs) ts rest) : peek ts = x := by
  cases h
  rfl

theorem append_iff :
    Spells (xs ++ ys) ts rest ↔ ∃ middle, Spells xs ts middle ∧ Spells ys middle rest := by
  constructor
  · intro h
    induction xs generalizing ts with
    | nil => exact ⟨ts, .nil ts, h⟩
    | cons x xs ih =>
        cases h with
        | cons offset h =>
            obtain ⟨middle, hxs, hys⟩ := ih h
            exact ⟨middle, .cons offset hxs, hys⟩
  · rintro ⟨middle, hxs, hys⟩
    induction hxs with
    | nil => exact hys
    | cons offset _ ih => exact .cons offset (ih hys)

theorem length_eq (h : Spells xs ts rest) : ts.length = xs.length + rest.length := by
  induction h with
  | nil => simp
  | cons offset _ ih =>
      simp only [List.length_cons, ih]
      omega

theorem map_token_eq (h : Spells xs ts rest) :
    ts.map Placed.token = xs ++ rest.map Placed.token := by
  induction h with
  | nil => rfl
  | cons offset _ ih => simp [ih]

theorem of_map_eq {ts : List Placed} (h : ts.map Placed.token = xs ++ ys) :
    ∃ rest, Spells xs ts rest ∧ rest.map Placed.token = ys := by
  induction xs generalizing ts with
  | nil => exact ⟨ts, .nil ts, h⟩
  | cons x xs ih =>
      cases ts with
      | nil => simp at h
      | cons placed ts =>
          obtain ⟨hx, hts⟩ : placed.token = x ∧ ts.map Placed.token = xs ++ ys := by
            simpa using h
          obtain ⟨rest, hspells, hrest⟩ := ih hts
          obtain ⟨token, offset⟩ := placed
          subst hx
          exact ⟨rest, .cons offset hspells, hrest⟩

theorem of_map_token {ts : List Placed} (h : ts.map Placed.token = xs) : Spells xs ts [] := by
  obtain ⟨rest, hspells, hrest⟩ := of_map_eq (h.trans (List.append_nil xs).symm)
  rwa [List.map_eq_nil_iff.mp hrest] at hspells

/-- The next token has a property when the tokens in front and what is left begin with it. -/
theorem peek_of_head {P : Token → Prop} (h : Spells xs ts rest)
    (hhead : ∀ y ∈ xs.head?, P y) (hrest : P (peek rest)) : P (peek ts) := by
  cases h with
  | nil => exact hrest
  | cons offset h => exact hhead _ rfl

end Spells

/-! ## Reading a spelling -/

variable {α β : Type}

/-- A reader gets a value from a spelling wherever the next token lets it stop. -/
def Reads (stops : Token → Prop) (reader : Grammar → Parser α) (xs : List Token) (value : α) :
    Prop :=
  ∀ (depth : Nat) (ts rest : List Placed), xs.length ≤ depth → Spells xs ts rest →
    stops (peek rest) → reader (Grammar.ofDepth depth) ts = .ok (value, rest)

theorem Reads.mono {stops stops' : Token → Prop} {reader : Grammar → Parser α} {xs : List Token}
    {value : α} (h : Reads stops reader xs value) (hstops : ∀ token, stops' token → stops token) :
    Reads stops' reader xs value :=
  fun depth ts rest hdepth hts hrest => h depth ts rest hdepth hts (hstops _ hrest)

/-- A value and a bracket behind it, which is left for the next reader. -/
theorem Reads.before_bracket {stops : Token → Prop} {reader : Grammar → Parser α}
    {xs : List Token} {value : α} (h : Reads stops reader xs value) {close : Mark}
    (hclose : stops (.mark close)) {depth : Nat} {ts rest : List Placed}
    (hdepth : (xs ++ [Token.mark close]).length ≤ depth)
    (hts : Spells (xs ++ [.mark close]) ts rest) :
    ∃ offset, reader (Grammar.ofDepth depth) ts = .ok (value, ⟨.mark close, offset⟩ :: rest) := by
  obtain ⟨middle, hxs, hlast⟩ := Spells.append_iff.mp hts
  rw [List.length_append] at hdepth
  cases hlast with
  | cons offset hlast =>
      cases hlast
      exact ⟨offset, h depth _ _ (by omega) hxs hclose⟩

/-- A token that lets a reader stop is none of those that do not. -/
theorem ne_of_stops {stops : Token → Prop} {token : Token} (h : stops token) (word : Token)
    (hword : ¬ stops word) : token ≠ word := by
  rintro rfl
  exact hword h

def Yields (reader : Parser α) (P : α → Prop) : Prop :=
  ∀ ts value rest, reader ts = .ok (value, rest) → P value

@[simp] theorem peek_cons (placed : Placed) (ts : List Placed) :
    peek (placed :: ts) = placed.token := rfl

@[simp] theorem expect_cons (token : Token) (offset : Nat) (ts : List Placed) :
    expect token (⟨token, offset⟩ :: ts) = .ok ((), ts) := by
  simp [expect]

theorem expect_eq_ok {token : Token} {ts rest : List Placed}
    (h : expect token ts = .ok ((), rest)) : peek ts = token ∧ rest = ts.tail := by
  unfold expect at h
  split at h
  · cases h
    exact ⟨by assumption, rfl⟩
  · cases h

/-! ## What a spelling begins with -/

theorem exists_spells (xs : List Token) : ∃ ts, Spells xs ts [] := by
  induction xs with
  | nil => exact ⟨[], .nil []⟩
  | cons x xs ih =>
      obtain ⟨ts, hts⟩ := ih
      exact ⟨⟨x, 0⟩ :: ts, .cons 0 hts⟩

/-- A spelling begins with a token with which its reader can begin. -/
theorem Reads.exists_first {stops P : Token → Prop} {reader : Grammar → Parser α}
    {xs : List Token} {value : α} (h : Reads stops reader xs value) (hstop : stops .finish)
    (hP : ∀ inner ts result, reader inner ts = .ok result → P (peek ts)) (hfinish : ¬P .finish) :
    ∃ x ys, xs = x :: ys ∧ P x := by
  obtain ⟨ts, hts⟩ := exists_spells xs
  have hfirst := hP _ _ _ (h xs.length ts [] (Nat.le_refl _) hts hstop)
  cases hts with
  | nil => exact absurd hfirst hfinish
  | @cons x ys _ _ offset hts => exact ⟨x, ys, rfl, hfirst⟩

/-! ## Lists with separators -/

section Separated

variable {stops : Token → Prop} {separator : Token} {item : Grammar → Parser α}
  {spell : α → List Token}

def spellEach (separator : Token) (spell : α → List Token) (values : List α) : List Token :=
  values.flatMap fun value => separator :: spell value

theorem spellEach_cons (value : α) (rest : List α) :
    spellEach separator spell (value :: rest) =
      separator :: (spell value ++ spellEach separator spell rest) := by
  simp [spellEach]

/-- Parts, each with the value that it spells, behind separators. -/
def spellParts (separator : Token) (parts : List (List Token × α)) : List Token :=
  parts.flatMap fun part => separator :: part.1

theorem spellParts_cons (part : List Token × α) (rest : List (List Token × α)) :
    spellParts separator (part :: rest) = separator :: (part.1 ++ spellParts separator rest) := by
  simp [spellParts]

theorem spellParts_map (separator : Token) (spell : α → List Token) (values : List α) :
    spellParts separator (values.map fun value => (spell value, value)) =
      spellEach separator spell values := by
  rw [spellParts, List.flatMap_map]
  rfl

theorem map_snd_parts (spell : α → List Token) (values : List α) :
    (values.map fun value => (spell value, value)).map Prod.snd = values := by
  rw [List.map_map]
  exact List.map_id _

theorem reads_parts {values : List α}
    (h : ∀ value ∈ values, Reads stops item (spell value) value) :
    ∀ part ∈ values.map fun value => (spell value, value), Reads stops item part.1 part.2 :=
  List.forall_mem_map.mpr h

theorem length_le_spellParts (separator : Token) (parts : List (List Token × α)) :
    parts.length ≤ (spellParts separator parts).length := by
  induction parts with
  | nil => simp
  | cons part rest ih =>
      rw [spellParts_cons]
      simp only [List.length_cons, List.length_append]
      omega

theorem stops_of_spellParts (hsep : stops separator) {parts : List (List Token × α)}
    {ts rest : List Placed} (h : Spells (spellParts separator parts) ts rest)
    (hstop : stops (peek rest)) : stops (peek ts) := by
  refine h.peek_of_head (fun y hy => ?_) hstop
  cases parts with
  | nil => simp [spellParts] at hy
  | cons part others =>
      obtain rfl : separator = y := by simpa [spellParts] using hy
      exact hsep

theorem separatedFrom_parts (stops : Token → Prop) (hsep : stops separator)
    {parts : List (List Token × α)} (hparts : ∀ part ∈ parts, Reads stops item part.1 part.2)
    (depth : Nat) {budget : Nat} {ts rest : List Placed}
    (hdepth : (spellParts separator parts).length ≤ depth) (hbudget : parts.length ≤ budget)
    (hts : Spells (spellParts separator parts) ts rest) (hstop : stops (peek rest))
    (hend : peek rest ≠ separator) :
    separatedFrom separator (item (Grammar.ofDepth depth)) budget ts =
      .ok (parts.map Prod.snd, rest) := by
  induction parts generalizing ts budget with
  | nil =>
      cases hts
      cases budget with
      | zero => rfl
      | succ budget => simp [separatedFrom, hend]
  | cons part others ih =>
      rw [spellParts_cons] at hts hdepth
      rw [List.length_cons] at hbudget
      obtain ⟨budget, rfl⟩ : ∃ n, budget = n + 1 := ⟨budget - 1, by omega⟩
      cases hts with
      | cons offset hts =>
          obtain ⟨middle, hvalue, hothers⟩ := Spells.append_iff.mp hts
          simp only [List.length_cons, List.length_append] at hdepth
          have hmiddle := stops_of_spellParts hsep hothers hstop
          have hread := hparts part List.mem_cons_self depth _ _ (by omega) hvalue hmiddle
          have hrest := ih (fun other hother => hparts other (List.mem_cons_of_mem _ hother))
            (by omega) (by omega : others.length ≤ budget) hothers
          simp [separatedFrom, hread, hrest]

/-- Parts of a list, one or more, with separators between them. -/
theorem Reads.separated_parts (stops : Token → Prop) (separator : Token) (hsep : stops separator)
    {part : List Token × α} {others : List (List Token × α)}
    (hparts : ∀ p ∈ part :: others, Reads stops item p.1 p.2) :
    Reads (fun token => stops token ∧ token ≠ separator)
      (fun inner => Parser.separated separator (item inner))
      (part.1 ++ spellParts separator others) (part.2 :: others.map Prod.snd) := by
  intro depth ts rest hdepth hts hstop
  obtain ⟨middle, hvalue, hothers⟩ := Spells.append_iff.mp hts
  rw [List.length_append] at hdepth
  have hmiddle := stops_of_spellParts hsep hothers hstop.1
  have hread := hparts part List.mem_cons_self depth _ _ (by omega) hvalue hmiddle
  have hlength := hothers.length_eq
  have hcount := length_le_spellParts separator others
  have hrest := separatedFrom_parts stops hsep
    (fun other hother => hparts other (List.mem_cons_of_mem _ hother)) depth (by omega)
    (by omega : others.length ≤ middle.length) hothers hstop.1 hstop.2
  simp [Parser.separated, hread, hrest]

/-- A list of one or more items with separators between them. -/
theorem Reads.separated (stops : Token → Prop) (separator : Token) (spell : α → List Token)
    {value : α} {others : List α} (hsep : stops separator)
    (hitems : ∀ v ∈ value :: others, Reads stops item (spell v) v) :
    Reads (fun token => stops token ∧ token ≠ separator)
      (fun inner => Parser.separated separator (item inner))
      (spellEach separator spell (value :: others)).tail (value :: others) := by
  have hread := Reads.separated_parts stops separator hsep (reads_parts hitems)
  rw [map_snd_parts, spellParts_map] at hread
  rwa [spellEach_cons, List.tail_cons]

/-- A single item, behind which no separator stands. -/
theorem Reads.single {xs : List Token} {value : α} (h : Reads stops item xs value)
    (separator : Token) (hsep : stops separator) :
    Reads (fun token => stops token ∧ token ≠ separator)
      (fun inner => Parser.separated separator (item inner)) xs [value] := by
  have hlist := Reads.separated stops separator (fun _ => xs) hsep
    (List.forall_mem_singleton.mpr h)
  simpa [spellEach] using hlist

theorem yields_separatedFrom {item : Parser α} {P : α → Prop} (h : Yields item P)
    (budget : Nat) : Yields (separatedFrom separator item budget) fun values =>
      ∀ value ∈ values, P value := by
  induction budget with
  | zero =>
      intro ts values rest hread
      cases hread
      simp
  | succ budget ih =>
      intro ts values rest hread
      by_cases hpeek : peek ts = separator
      · simp only [separatedFrom, hpeek, if_true, bind_eq_ok] at hread
        obtain ⟨⟨next, middle⟩, hnext, ⟨others, last⟩, hothers, hvalues⟩ := hread
        cases hvalues
        exact List.forall_mem_cons.mpr ⟨h _ _ _ hnext, ih _ _ _ hothers⟩
      · simp only [separatedFrom, hpeek, if_false] at hread
        cases hread
        simp

theorem yields_separated {item : Parser α} {P : α → Prop} (h : Yields item P) :
    Yields (Parser.separated separator item) fun values =>
      values ≠ [] ∧ ∀ value ∈ values, P value := by
  intro ts values rest hread
  simp only [Parser.separated, bind_eq_ok] at hread
  obtain ⟨⟨first, middle⟩, hfirst, ⟨others, last⟩, hothers, hvalues⟩ := hread
  cases hvalues
  exact ⟨by simp, List.forall_mem_cons.mpr
    ⟨h _ _ _ hfirst, yields_separatedFrom h _ _ _ _ hothers⟩⟩

theorem separatedFrom_nil {item : Parser α} {budget : Nat} {ts rest : List Placed}
    (h : separatedFrom separator item budget ts = .ok ([], rest)) :
    rest = ts := by
  cases budget with
  | zero =>
      cases h
      rfl
  | succ budget =>
      rw [separatedFrom] at h
      split at h
      · simp only [bind_eq_ok] at h
        obtain ⟨_, -, _, -, h⟩ := h
        cases h
      · cases h
        rfl

theorem item_of_separated {item : Parser α} {value : α} {ts rest : List Placed}
    (h : Parser.separated separator item ts = .ok ([value], rest)) :
    item ts = .ok (value, rest) := by
  simp only [Parser.separated, bind_eq_ok] at h
  obtain ⟨⟨first, middle⟩, hfirst, ⟨others, last⟩, hothers, h⟩ := h
  cases h
  obtain rfl := separatedFrom_nil hothers
  exact hfirst

theorem separated_ne_nil {item : Parser α} {ts rest : List Placed} :
    Parser.separated separator item ts ≠ .ok ([], rest) := by
  intro h
  simp only [Parser.separated, bind_eq_ok] at h
  obtain ⟨_, -, _, -, h⟩ := h
  cases h

/-- Parts of a list, possibly none, up to its closing bracket, with which no item begins. -/
theorem Reads.closedBy_parts (stops : Token → Prop) {close : Mark}
    {parts : List (List Token × α)} (hsep : stops (.mark .comma)) (hclose : stops (.mark close))
    (hcomma : close ≠ .comma)
    (hbegin : ∀ inner ts result, item inner ts = .ok result → peek ts ≠ .mark close)
    (hparts : ∀ part ∈ parts, Reads stops item part.1 part.2) :
    Reads (fun _ => True) (fun inner => Parser.closedBy close (item inner))
      ((spellParts (.mark .comma) parts).tail ++ [.mark close]) (parts.map Prod.snd) := by
  intro depth ts rest hdepth hts _
  cases parts with
  | nil =>
      cases hts with
      | cons offset hts =>
          cases hts
          simp [Parser.closedBy]
  | cons part others =>
      have hend : (Token.mark close) ≠ .mark .comma := by simpa using hcomma
      have hitemsRead := Reads.separated_parts stops (.mark .comma) hsep hparts
      rw [spellParts_cons, List.tail_cons] at hdepth hts
      obtain ⟨offset, hlist⟩ := hitemsRead.before_bracket ⟨hclose, hend⟩ hdepth hts
      have hfirst : ∃ result, item (Grammar.ofDepth depth) ts = .ok result := by
        simp only [Parser.separated, bind_eq_ok] at hlist
        obtain ⟨result, hfirst, -⟩ := hlist
        exact ⟨result, hfirst⟩
      obtain ⟨result, hfirst⟩ := hfirst
      simp [Parser.closedBy, hbegin _ _ _ hfirst, hlist]

/-- A list, possibly empty, up to its closing bracket, with which no item begins. -/
theorem Reads.closedBy (stops : Token → Prop) (spell : α → List Token) {close : Mark}
    {values : List α} (hsep : stops (.mark .comma))
    (hclose : stops (.mark close)) (hcomma : close ≠ .comma)
    (hbegin : ∀ inner ts result, item inner ts = .ok result → peek ts ≠ .mark close)
    (hitems : ∀ value ∈ values, Reads stops item (spell value) value) :
    Reads (fun _ => True) (fun inner => Parser.closedBy close (item inner))
      ((spellEach (.mark .comma) spell values).tail ++ [.mark close]) values := by
  have hread := Reads.closedBy_parts stops hsep hclose hcomma hbegin (reads_parts hitems)
  rwa [map_snd_parts, spellParts_map] at hread

theorem yields_closedBy {close : Mark} {item : Parser α} {P : α → Prop} (h : Yields item P) :
    Yields (Parser.closedBy close item) fun values => ∀ value ∈ values, P value := by
  intro ts values rest hread
  by_cases hpeek : peek ts = .mark close
  · simp only [Parser.closedBy, hpeek, if_true] at hread
    cases hread
    simp
  · simp only [Parser.closedBy, hpeek, if_false, bind_eq_ok] at hread
    obtain ⟨⟨items, middle⟩, hitems, ⟨_, last⟩, -, hvalues⟩ := hread
    cases hvalues
    exact (yields_separated h _ _ _ hitems).2

end Separated

/-! ## Chains of operators -/

section Chains

variable {stops : Token → Prop} {item : Grammar → Parser α} {operator? : Token → Option β}
  {combine : β → α → α → α}

/--
A chain has read a spelling and may go on with further operators.  Since it groups to
the left, this, and not the value of the whole chain, is what an operand in front keeps.
-/
def Chains (stops : Token → Prop) (item : Grammar → Parser α) (operator? : Token → Option β)
    (combine : β → α → α → α) (xs : List Token) (value : α) : Prop :=
  ∀ (depth : Nat) (ts rest : List Placed), xs.length ≤ depth → Spells xs ts rest →
    stops (peek rest) → ∃ budget, rest.length ≤ budget ∧
      chain (item (Grammar.ofDepth depth)) operator? combine ts =
        chainFrom (item (Grammar.ofDepth depth)) operator? combine budget value rest

theorem Reads.chains {xs : List Token} {value : α} (h : Reads stops item xs value) :
    Chains stops item operator? combine xs value := by
  intro depth ts rest hdepth hts hstop
  exact ⟨rest.length, Nat.le_refl _, by simp [chain, h depth ts rest hdepth hts hstop]⟩

theorem Chains.snoc {xs ys : List Token} {token : Token} {left right : α} {op : β}
    (hleft : Chains stops item operator? combine xs left) (hright : Reads stops item ys right)
    (hop : operator? token = some op) (hstop : stops token) :
    Chains stops item operator? combine (xs ++ token :: ys) (combine op left right) := by
  intro depth ts rest hdepth hts hrest
  obtain ⟨middle, hxs, hys⟩ := Spells.append_iff.mp hts
  simp only [List.length_append, List.length_cons] at hdepth
  cases hys with
  | cons offset hys =>
      obtain ⟨budget, hbudget, hchain⟩ := hleft depth _ _ (by omega) hxs hstop
      obtain ⟨budget, rfl⟩ : ∃ n, budget = n + 1 := ⟨budget - 1, by simp at hbudget; omega⟩
      have hlength := hys.length_eq
      refine ⟨budget, by simp at hbudget; omega, ?_⟩
      rw [hchain, chainFrom, peek_cons, hop]
      simp [hright depth _ _ (by omega) hys hrest]

theorem Chains.reads {xs : List Token} {value : α}
    (h : Chains stops item operator? combine xs value) :
    Reads (fun token => stops token ∧ operator? token = none)
      (fun inner => chain (item inner) operator? combine) xs value := by
  intro depth ts rest hdepth hts hstop
  obtain ⟨budget, -, hchain⟩ := h depth ts rest hdepth hts hstop.1
  refine hchain.trans ?_
  cases budget with
  | zero => rfl
  | succ budget => simp [chainFrom, hstop.2]

theorem yields_chainFrom {item : Parser α} {P : α → Prop} (h : Yields item P)
    (hcombine : ∀ op left right, P left → P right → P (combine op left right)) (budget : Nat)
    {left : α} (hleft : P left) : Yields (chainFrom item operator? combine budget left) P := by
  induction budget generalizing left with
  | zero =>
      intro ts value rest hread
      cases hread
      exact hleft
  | succ budget ih =>
      intro ts value rest hread
      rw [chainFrom] at hread
      cases hop : operator? (peek ts) with
      | none =>
          simp only [hop] at hread
          cases hread
          exact hleft
      | some op =>
          simp only [hop, bind_eq_ok] at hread
          obtain ⟨⟨right, middle⟩, hright, hread⟩ := hread
          exact ih (hcombine op left right hleft (h _ _ _ hright)) _ _ _ hread

theorem yields_chain {item : Parser α} {P : α → Prop} (h : Yields item P)
    (hcombine : ∀ op left right, P left → P right → P (combine op left right)) :
    Yields (chain item operator? combine) P := by
  intro ts value rest hread
  simp only [chain, bind_eq_ok] at hread
  obtain ⟨⟨first, middle⟩, hfirst, hread⟩ := hread
  exact yields_chainFrom h hcombine _ (h _ _ _ hfirst) _ _ _ hread

end Chains

end DocQuery
