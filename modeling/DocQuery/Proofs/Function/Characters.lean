import DocQuery.Function.Apply

/-!
# Characters of texts

The functions of texts agree on what a character is.  What one of them takes off a text is
what another leaves, and the two ends of a text are alike but for the direction.
-/

namespace DocQuery

namespace TextFunction

/-! ## Characters of one text -/

theorem countOf_ofInt {n : Int} (hn : FitsSigned n) : countOf (.ofInt n) = n.toNat := by
  rw [countOf, Value.toInt?_ofInt hn, Option.getD_some]

theorem withoutLeading_cons (c : Char) (rest : List Char) :
    withoutLeading (c :: rest) = if c = ' ' then withoutLeading rest else c :: rest := by
  unfold withoutLeading
  rw [List.dropWhile_cons]
  simp only [beq_iff_eq]

/-- A character is dropped at the end when it is a blank and so is all that follows it. -/
theorem withoutTrailing_cons (c : Char) (rest : List Char) :
    withoutTrailing (c :: rest) =
      if c = ' ' ∧ withoutTrailing rest = [] then [] else c :: withoutTrailing rest := by
  unfold withoutTrailing
  rw [List.reverse_cons, List.dropWhile_append]
  by_cases hrest : rest.reverse.dropWhile (· == ' ') = []
  · by_cases hc : c = ' '
    · simp [hrest, hc]
    · simp [hrest, hc]
  · simp [hrest]

theorem withoutOuter_eq_drop (cs : List Char) :
    withoutOuter cs = (withoutTrailing cs).drop (cs.findIdx (· != ' ')) := by
  have htake : withoutTrailing cs =
      cs.take (cs.length - cs.reverse.findIdx (· != ' ')) := by
    rw [withoutTrailing, List.dropWhile_eq_drop_findIdx_not, List.reverse_drop,
      List.reverse_reverse, List.length_reverse]
    rfl
  rw [htake, withoutOuter]

/-- Dropping blanks up to the first other character leaves what dropping them one by one does. -/
theorem withoutOuter_eq (cs : List Char) :
    withoutOuter cs = withoutTrailing (withoutLeading cs) := by
  rw [withoutOuter_eq_drop]
  induction cs with
  | nil => rfl
  | cons c rest ih =>
      rw [withoutTrailing_cons, withoutLeading_cons, List.findIdx_cons]
      by_cases hc : c = ' '
      · subst hc
        rw [if_pos rfl, ← ih]
        by_cases hrest : withoutTrailing rest = []
        · rw [if_pos ⟨rfl, hrest⟩, hrest, List.drop_nil, List.drop_nil]
        · rw [if_neg fun h => hrest h.2]
          rfl
      · have hother : (c != ' ') = true := bne_iff_ne.mpr hc
        rw [if_neg fun h => hc h.1, if_neg hc, withoutTrailing_cons, if_neg fun h => hc h.1, hother]
        rfl

/-- The blanks at the two ends of a text can be dropped in either order. -/
theorem withoutLeading_withoutTrailing (cs : List Char) :
    withoutLeading (withoutTrailing cs) = withoutTrailing (withoutLeading cs) := by
  induction cs with
  | nil => rfl
  | cons c rest ih =>
      rw [withoutTrailing_cons, withoutLeading_cons c rest]
      by_cases hc : c = ' '
      · rw [if_pos hc, ← ih]
        by_cases hrest : withoutTrailing rest = []
        · rw [if_pos ⟨hc, hrest⟩, hrest]
        · rw [if_neg (fun h => hrest h.2), withoutLeading_cons, if_pos hc]
      · rw [if_neg (fun h => hc h.1), if_neg hc, withoutLeading_cons, if_neg hc,
          withoutTrailing_cons, if_neg (fun h => hc h.1)]

/-- A product that is no word is larger than what a repetition may produce. -/
theorem repetition_eq (text : List Char) (times : Nat) :
    repetition text (some times) =
      if longestRepetition < times * text.length then .null
      else .ofChars (Text.repeated times text) := by
  have hproduct : text.length * times = times * text.length := Nat.mul_comm _ _
  have hlongest : longestRepetition = 10000 := rfl
  simp only [repetition, wordProduct?, Option.getD_some, Int.toNat_natCast, hproduct]
  by_cases hlong : longestRepetition < times * text.length
  · rw [if_pos hlong]
    by_cases hword : times * text.length ≤ 18446744073709551615
    · simp only [if_pos hword, if_neg (Nat.not_le.mpr hlong)]
    · simp only [if_neg hword]
  · have hshort : times * text.length ≤ longestRepetition := Nat.not_lt.mp hlong
    have hword : times * text.length ≤ 18446744073709551615 := by omega
    simp only [if_neg hlong, if_pos hshort, if_pos hword]

theorem ofChars_repeated (times : Nat) (s : String) :
    .ofChars (Text.repeated times s.toList) =
      Value.text (String.join (List.replicate times s)) := by
  rw [Value.ofChars, Value.text.injEq, ← String.toList_inj, String.toList_ofList,
    String.toList_join, List.flatMap_def, List.map_replicate, Text.repeated]
  split
  · next hempty => rw [List.isEmpty_iff.mp hempty, List.flatten_replicate_nil]
  · rfl

/-! ## Calls -/

section

variable {text : Value} {s : String} {n : Int}

theorem chars_ofChars (cs : List Char) : (Value.ofChars cs).chars = cs :=
  String.toList_ofList

theorem ofChars_toList (s : String) : Value.ofChars s.toList = .text s :=
  congrArg Value.text String.ofList_toList

theorem apply_left (hn : FitsSigned n) :
    left.apply [text, .ofInt n] = .ofChars (text.chars.take n.toNat) := by
  rw [← countOf_ofInt hn]
  rfl

theorem apply_right (hn : FitsSigned n) :
    right.apply [text, .ofInt n] = .ofChars (text.chars.drop (text.chars.length - n.toNat)) := by
  rw [← countOf_ofInt hn]
  rfl

theorem apply_reverse : reverse.apply [text] = .ofChars text.chars.reverse :=
  rfl

theorem apply_length : length.apply [text] = .ofNat text.chars.length :=
  rfl

/-- A length that is a signed word is enough for all the characters that remain. -/
theorem apply_substring (hlength : FitsSigned text.chars.length) (hn : FitsSigned n) :
    substring.apply [text, .ofInt n, length.apply [text]] =
      .ofChars (text.chars.drop n.toNat) := by
  have happly : substring.apply [text, .ofInt n, length.apply [text]] =
      .ofChars (between text.chars (Value.ofInt n).toInt? (Value.ofNat text.chars.length).toInt?) :=
    rfl
  have hall : (text.chars.drop n.toNat).length ≤ text.chars.length := by
    rw [List.length_drop]
    exact Nat.sub_le _ _
  rw [happly, Value.toInt?_ofInt hn, Value.toInt?_ofNat, if_pos hlength, between,
    Int.toNat_natCast, List.take_of_length_le hall]

/-- The characters of a front and of a rest are put one behind the other. -/
theorem apply_concat (front rest : List Char) :
    concat.apply [.ofChars front, .ofChars rest] = .ofChars (front ++ rest) := by
  have happly : concat.apply [.ofChars front, .ofChars rest] =
      .ofChars ((String.ofList front).toList ++ ((String.ofList rest).toList ++ [])) := rfl
  rw [happly, String.toList_ofList, String.toList_ofList, List.append_nil]

theorem apply_replicate (hn : FitsSigned n) :
    replicate.apply [.text s, .ofInt n] =
      if longestRepetition < n.toNat * s.length then .null
      else .text (String.join (List.replicate n.toNat s)) := by
  have happly : replicate.apply [.text s, .ofInt n] =
      repetition s.toList (Value.ofInt n).toInt? := rfl
  have hcount : repetition s.toList (some n) = repetition s.toList (some n.toNat) := rfl
  rw [happly, Value.toInt?_ofInt hn, hcount, repetition_eq, ofChars_repeated,
    String.length_toList]

theorem apply_length_join (count : Nat) (s : String) :
    length.apply [.text (String.join (List.replicate count s))] = .ofNat (count * s.length) := by
  have hlength : (String.join (List.replicate count s)).length = count * s.length := by
    rw [String.length_join, List.map_replicate, List.sum_replicate_nat]
  rw [apply_length, Value.chars, String.length_toList, hlength]

end

/--
A text is put together again from its front and the rest behind it.  The end of a text is the
front of the reversed one, reversed, and a text reversed twice is the same again.  Blanks are
taken off both ends at once or off one after the other.  Front and end have as many characters
as are asked for, as far as there are so many.  A text repeated is null exactly when it would
have more than 10000 characters, and has that many characters otherwise.  A negative count is
none.
-/
theorem characters_agree (s : String) (n : Int) (hn : FitsSigned n) :
    let count : Nat := (max n 0).toNat
    let repeated : Value := replicate.apply [.text s, .ofInt n]
    (FitsSigned s.length →
      concat.apply [left.apply [.text s, .ofInt n],
        substring.apply [.text s, .ofInt n, length.apply [.text s]]] = .text s) ∧
    reverse.apply [right.apply [.text s, .ofInt n]] =
      left.apply [reverse.apply [.text s], .ofInt n] ∧
    reverse.apply [reverse.apply [.text s]] = .text s ∧
    trim.apply [.text s] = trimLeft.apply [trimRight.apply [.text s]] ∧
    trim.apply [.text s] = trimRight.apply [trimLeft.apply [.text s]] ∧
    length.apply [.text s] = .ofNat s.length ∧
    length.apply [left.apply [.text s, .ofInt n]] = .ofNat (min count s.length) ∧
    length.apply [right.apply [.text s, .ofInt n]] = .ofNat (min count s.length) ∧
    (repeated = .null ↔ 10000 < count * s.length) ∧
    (repeated ≠ .null →
      repeated = .text (String.join (List.replicate count s)) ∧
        length.apply [repeated] = .ofNat (count * s.length)) := by
  intro count repeated
  have hchars : (Value.text s).chars = s.toList := rfl
  have hcount : n.toNat = count := by omega
  have hrepeated : repeated = if longestRepetition < count * s.length then .null
      else .text (String.join (List.replicate count s)) := hcount ▸ apply_replicate hn
  refine ⟨fun hs => ?_, ?_, ?_, ?_, ?_, ?_, ?_, ?_, ?_⟩
  · rw [← String.length_toList, ← hchars] at hs
    rw [apply_left hn, apply_substring hs hn, apply_concat, List.take_append_drop, hchars,
      ofChars_toList]
  · rw [apply_right hn, apply_reverse, apply_reverse, apply_left hn, chars_ofChars, chars_ofChars,
      List.take_reverse]
  · rw [apply_reverse, apply_reverse, chars_ofChars, List.reverse_reverse, hchars, ofChars_toList]
  · refine congrArg Value.ofChars ((withoutOuter_eq s.toList).trans ?_)
    rw [← withoutLeading_withoutTrailing]
    exact congrArg withoutLeading (chars_ofChars _).symm
  · refine congrArg Value.ofChars ((withoutOuter_eq s.toList).trans ?_)
    exact congrArg withoutTrailing (chars_ofChars _).symm
  · rw [apply_length, hchars, String.length_toList]
  · rw [apply_left hn, apply_length, chars_ofChars, List.length_take, hchars,
      String.length_toList, hcount]
  · rw [apply_right hn, apply_length, chars_ofChars, List.length_drop, Nat.sub_sub_eq_min,
      Nat.min_comm, hchars, String.length_toList, hcount]
  · by_cases hlong : longestRepetition < count * s.length
    · rw [if_pos hlong] at hrepeated
      exact ⟨iff_of_true hrepeated hlong, fun h => absurd hrepeated h⟩
    · rw [if_neg hlong] at hrepeated
      rw [hrepeated]
      exact ⟨iff_of_false nofun hlong, fun _ => ⟨rfl, apply_length_join count s⟩⟩

/-- For each of the functions an accented letter is one character, and a blank another. -/
theorem characters_agree_accented :
    FitsSigned 2 ∧ FitsSigned " éaé ".length ∧
      concat.apply [left.apply [.text " éaé ", .ofInt 2],
        substring.apply [.text " éaé ", .ofInt 2, length.apply [.text " éaé "]]] =
          .text " éaé " ∧
      reverse.apply [right.apply [.text " éaé ", .ofInt 2]] =
        left.apply [reverse.apply [.text " éaé "], .ofInt 2] ∧
      trim.apply [.text " éaé "] = trimRight.apply [trimLeft.apply [.text " éaé "]] ∧
      replicate.apply [.text " éaé ", .ofInt 2] ≠ .null ∧
      length.apply [replicate.apply [.text " éaé ", .ofInt 2]] = .ofNat 10 := by
  have hcount : FitsSigned 2 := by decide
  have hlength : FitsSigned " éaé ".length := by decide
  obtain ⟨hwhole, hreverse, -, -, htrim, -, -, -, hnull, hrepeated⟩ :=
    characters_agree " éaé " 2 hcount
  have hsome : replicate.apply [.text " éaé ", .ofInt 2] ≠ .null := mt hnull.mp (by decide)
  exact ⟨hcount, hlength, hwhole hlength, hreverse, htrim, hsome, (hrepeated hsome).2⟩

end TextFunction

end DocQuery
