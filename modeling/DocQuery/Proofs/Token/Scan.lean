import DocQuery.Proofs.Token.Spacing

/-!
# Where tokens stand

A text is gaps and tokens in turn.  The place of a token is told by the number of characters
from its start to the end of the text, which does not change when something is put in front.
-/

namespace DocQuery

deriving instance DecidableEq for Placed

def Placed.shift (distance : Nat) (p : Placed) : Placed :=
  ⟨p.token, p.offset + distance⟩

namespace Lexer

variable {c : Char} {afterDot : Bool} {cs cs' rest : List Char} {ps : List (Token × Nat)}

/-- A text is gaps and tokens in turn; each token is paired with how much is left at its start. -/
inductive Scan : Bool → List Char → List (Token × Nat) → Prop where
  | finish {afterDot : Bool} {cs : List Char} (h : skipBetween cs = []) :
      Scan afterDot cs [(.finish, 0)]
  | token {afterDot : Bool} {gap front left : List Char} {t : Token} {ps : List (Token × Nat)}
      (hgap : Gap gap) (hbegins : beginsToken front)
      (htoken : ∀ offset, Lexer.token afterDot offset front = .ok (t, left))
      (h : Scan (isDot t) left ps) : Scan afterDot (gap ++ front) ((t, front.length) :: ps)

/-- A blank behind the first character of a token begins no comment. -/
theorem UpToBlank.beginsToken (h : UpToBlank cs cs') (hc : Lexer.beginsToken (c :: cs)) :
    Lexer.beginsToken (c :: cs') := by
  rw [beginsToken_cons_iff] at hc ⊢
  obtain ⟨hline, hblock, hblank⟩ := hc
  exact ⟨fun hdash => h.ne_cons rfl (hline hdash), fun hslash => h.ne_cons rfl (hblock hslash),
    hblank⟩

theorem length_lt_of_token {offset : Nat} {t : Token} {left : List Char}
    (h : token afterDot offset (c :: rest) = .ok (t, left)) :
    left.length < (c :: rest).length := by
  obtain ⟨front, rfl, -⟩ := token_upToBlank h
  simp only [List.length_cons, List.length_append]
  omega

def place (total : Nat) (p : Token × Nat) : Placed :=
  ⟨p.1, total - p.2⟩

/-- What is put in behind a token leaves its place as it is. -/
theorem place_behind (total distance : Nat) (p : Token × Nat) :
    place (total + distance) (Prod.map id (· + distance) p) = place total p := by
  simp only [place, Prod.map_fst, Prod.map_snd, id_eq, Nat.add_sub_add_right]

/-- What is put in before a token moves it. -/
theorem place_before {total : Nat} {p : Token × Nat} (h : p.2 ≤ total) (distance : Nat) :
    place (total + distance) p = (place total p).shift distance := by
  rw [place, Nat.sub_add_comm h]
  rfl

theorem Scan.tokensFrom (h : Scan afterDot cs ps) (total : Nat) {budget : Nat}
    (hbudget : cs.length ≤ budget) :
    Lexer.tokensFrom total budget afterDot cs = .ok (ps.map (place total)) := by
  induction h generalizing budget with
  | finish h =>
      rw [Lexer.tokensFrom, h]
      rfl
  | @token afterDot gap front left t ps hgap hbegins htoken h ih =>
      have hskip : skipBetween (gap ++ front) = front := by
        rw [hgap.skipBetween_append, skipBetween_of_beginsToken hbegins]
      obtain ⟨c, rest, rfl⟩ := exists_cons_of_beginsToken hbegins
      have hleft := length_lt_of_token (htoken 0)
      rw [List.length_append] at hbudget
      obtain ⟨budget, rfl⟩ : ∃ fewer, budget = fewer + 1 :=
        Nat.exists_eq_succ_of_ne_zero (by rw [List.length_cons] at hbudget; omega)
      have hothers := @ih budget (by omega)
      rw [Lexer.tokensFrom, hskip]
      simp only [htoken, hothers]
      rfl

theorem exists_scan {total budget : Nat} {placed : List Placed}
    (h : tokensFrom total budget afterDot cs = .ok placed) (hbudget : cs.length ≤ budget) :
    ∃ ps, Scan afterDot cs ps ∧ placed = ps.map (place total) := by
  induction budget generalizing afterDot cs placed with
  | zero =>
      obtain rfl := List.length_eq_zero_iff.mp (Nat.le_zero.mp hbudget)
      cases h
      exact ⟨_, .finish skipBetween_nil, rfl⟩
  | succ budget ih =>
      obtain ⟨gap, hcs, hgap⟩ := exists_gap cs
      rw [tokensFrom] at h
      split at h
      · rename_i hskip
        cases h
        exact ⟨_, .finish hskip, rfl⟩
      · rename_i c rest hskip
        rw [hskip] at hcs hgap
        obtain ⟨hgaps, hbegins⟩ := hgap (List.cons_ne_nil c rest)
        dsimp only at h
        split at h
        · cases h
        · rename_i t left htoken
          split at h
          · cases h
          · rename_i others hothers
            cases h
            obtain ⟨front, rfl, hread⟩ := token_upToBlank htoken
            have hleft := length_lt_of_token htoken
            rw [hcs, List.length_append] at hbudget
            obtain ⟨ps, hscan, rfl⟩ := ih hothers (by omega)
            subst hcs
            exact ⟨_, .token hgaps hbegins (fun offset => hread offset _ (.refl _)) hscan, rfl⟩

theorem Scan.le (h : Scan afterDot cs ps) {p : Token × Nat} (hp : p ∈ ps) : p.2 ≤ cs.length := by
  induction h with
  | finish h =>
      obtain rfl := List.mem_singleton.mp hp
      exact Nat.zero_le _
  | token hgap hbegins htoken h ih =>
      rw [List.length_append]
      rcases List.mem_cons.mp hp with rfl | hothers
      · exact Nat.le_add_left _ _
      · obtain ⟨c, rest, rfl⟩ := exists_cons_of_beginsToken hbegins
        have hleft := length_lt_of_token (htoken 0)
        have hle := ih hothers
        omega

theorem Cuts.exists_scan {ts : List Token} (h : Cuts afterDot cs ts) :
    ∃ ps, Scan afterDot cs ps ∧ ps.map Prod.fst = ts := by
  induction h with
  | finish h => exact ⟨_, .finish h, rfl⟩
  | @token afterDot cs front left t ts hfront hne htoken h ih =>
      obtain ⟨ps, hscan, rfl⟩ := ih
      obtain ⟨gap, hcs, hgap⟩ := exists_gap cs
      rw [hfront] at hcs hgap
      obtain ⟨hgaps, hbegins⟩ := hgap hne
      subst hcs
      exact ⟨_, .token hgaps hbegins htoken hscan, rfl⟩

/-- Blanks in front of any token leave all tokens as they are. -/
theorem Scan.insert (h : Scan afterDot cs ps) {earlier later : List (Token × Nat)}
    {p : Token × Nat} (hps : ps = earlier ++ p :: later) :
    ∃ before behind, cs = before ++ behind ∧ behind.length = p.2 ∧
      ∀ blanks, (∀ b ∈ blanks, Text.isBlank b) →
        Scan afterDot (before ++ (blanks ++ behind))
          (earlier.map (Prod.map id (· + blanks.length)) ++ p :: later) := by
  induction h generalizing earlier with
  | @finish afterDot cs h =>
      obtain ⟨rfl, rfl, rfl⟩ : earlier = [] ∧ p = (.finish, 0) ∧ later = [] := by
        cases earlier <;> simp_all
      refine ⟨cs, [], (List.append_nil cs).symm, rfl, fun blanks hblanks => ?_⟩
      -- The end may lie in a comment without an end, and blanks do not close it.
      rw [List.append_nil]
      exact .finish (skipBetween_append_blanks h hblanks)
  | @token afterDot gap front left t ps hgap hbegins htoken h ih =>
      cases earlier with
      | nil =>
          -- The blanks make the gap in front of the token longer.
          cases hps
          refine ⟨gap, front, rfl, rfl, fun blanks hblanks => ?_⟩
          rw [← List.append_assoc]
          exact .token (hgap.append (.of_blanks hblanks)) hbegins htoken h
      | cons q earlier =>
          -- Behind this token the text is the same up to the blanks.
          obtain ⟨rfl, hothers⟩ := List.cons.inj hps
          obtain ⟨before, behind, rfl, hbehind, hscan⟩ := ih hothers
          obtain ⟨c, rest, rfl⟩ := exists_cons_of_beginsToken hbegins
          obtain ⟨lexeme, rfl, hread⟩ := token_upToBlank (htoken 0)
          refine ⟨gap ++ c :: (lexeme ++ before), behind, ?_, hbehind, fun blanks hblanks => ?_⟩
          · simp
          · have hleft := (UpToBlank.of_blanks hblanks behind).append before
            have htext : gap ++ c :: (lexeme ++ before) ++ (blanks ++ behind) =
                gap ++ c :: (lexeme ++ (before ++ (blanks ++ behind))) := by simp
            have hplace : (c :: (lexeme ++ (before ++ (blanks ++ behind)))).length =
                (c :: (lexeme ++ (before ++ behind))).length + blanks.length := by
              simp only [List.length_cons, List.length_append]
              omega
            rw [htext, List.map_cons, Prod.map_apply, ← hplace]
            exact .token hgap ((hleft.append lexeme).beginsToken hbegins)
              (fun offset => hread offset _ hleft) (hscan blanks hblanks)

end Lexer

open Lexer

theorem tokenize_eq_ok_iff {query : List Char} {placed : List Placed} :
    tokenize query = .ok placed ↔
      ∃ ps, Scan false query ps ∧ placed = ps.map (place query.length) := by
  constructor
  · exact fun h => exists_scan h (Nat.le_refl _)
  · rintro ⟨ps, hscan, rfl⟩
    exact hscan.tokensFrom query.length (Nat.le_refl _)

/-- The tokens of a text are those that it is cut into. -/
theorem tokenize_of_cuts {query : List Char} {ts : List Token} (h : Cuts false query ts) :
    ∃ placed, tokenize query = .ok placed ∧ placed.map Placed.token = ts := by
  obtain ⟨ps, hscan, rfl⟩ := h.exists_scan
  exact ⟨_, tokenize_eq_ok_iff.mpr ⟨ps, hscan, rfl⟩, List.map_map⟩

/-- Blanks in front of a token only move that token and the later ones. -/
theorem tokenize_insert {query blanks : List Char} {earlier later : List Placed} {p : Placed}
    (h : tokenize query = .ok (earlier ++ p :: later)) (hblanks : ∀ b ∈ blanks, Text.isBlank b) :
    tokenize (query.take p.offset ++ (blanks ++ query.drop p.offset)) =
      .ok (earlier ++ (p :: later).map (Placed.shift blanks.length)) := by
  obtain ⟨ps, hscan, hplaced⟩ := tokenize_eq_ok_iff.mp h
  obtain ⟨first, last, rfl, rfl, hlast⟩ := List.append_eq_map_iff.mp hplaced
  obtain ⟨q, last, rfl, rfl, rfl⟩ := List.map_eq_cons_iff.mp hlast
  obtain ⟨before, behind, rfl, hbehind, hinsert⟩ := hscan.insert rfl
  have hoffset : (place (before ++ behind).length q).offset = before.length := by
    simp [place, hbehind]
  have hlength : (before ++ (blanks ++ behind)).length =
      (before ++ behind).length + blanks.length := by
    simp only [List.length_append]
    omega
  rw [hoffset, List.take_left, List.drop_left]
  refine tokenize_eq_ok_iff.mpr ⟨_, hinsert blanks hblanks, ?_⟩
  rw [hlength, List.map_append, List.map_map, ← hlast, List.map_map]
  congr 1
  · exact List.map_congr_left fun p _ => (place_behind _ _ p).symm
  · exact List.map_congr_left fun p hp =>
      (place_before (hscan.le (List.mem_append_right _ hp)) _).symm

end DocQuery
