import DocQuery.Proofs.Query.Distinct

/-!
# The first of each value

`DISTINCT` compares a value only with those that it kept.  Since equality is an equivalence,
what it keeps is what differs from everything before it, kept or not: the first of each class of
equal values.  Failures all stay, and are compared with nothing.
-/

namespace DocQuery

namespace Listing

variable {ε α : Type} {equal : α → α → Bool}

/-- The entries that are failures, or items that are equal to no item before them. -/
def firsts (equal : α → α → Bool) (entries : List (Except ε α)) : List (Except ε α) :=
  (entries.zipIdx.filter fun (entry, place) => !repeats equal (entries.take place) entry).map
    Prod.fst

theorem firsts_append_singleton (equal : α → α → Bool) (entries : List (Except ε α))
    (entry : Except ε α) :
    firsts equal (entries ++ [entry]) =
      firsts equal entries ++ if repeats equal entries entry then [] else [entry] := by
  have hbefore : (entries.zipIdx.filter fun (other, place) =>
        !repeats equal ((entries ++ [entry]).take place) other) =
      entries.zipIdx.filter fun (other, place) => !repeats equal (entries.take place) other := by
    refine List.filter_congr fun ⟨other, place⟩ hplace => ?_
    have hlt : place < entries.length := by simpa using List.snd_lt_of_mem_zipIdx hplace
    dsimp only
    rw [List.take_append_of_le_length (Nat.le_of_lt hlt)]
  rw [firsts, List.zipIdx_append, List.filter_append, hbefore, List.map_append, firsts]
  congr 1
  cases h : repeats equal entries entry <;> simp [h]

theorem withoutRepeats_append_singleton (equal : α → α → Bool) (entries : List (Except ε α))
    (entry : Except ε α) :
    withoutRepeats equal (entries ++ [entry]) =
      withoutRepeats equal entries ++
        if repeats equal (withoutRepeats equal entries) entry then [] else [entry] := by
  have hstep : withoutRepeats equal (entries ++ [entry]) =
      if repeats equal (withoutRepeats equal entries) entry then withoutRepeats equal entries
      else withoutRepeats equal entries ++ [entry] := by
    rw [withoutRepeats, List.foldl_append]
    rfl
  rw [hstep]
  split
  · rw [List.append_nil]
  · rfl

/-- What is left without repeats is left as it is. -/
theorem withoutRepeats_withoutRepeats (equal : α → α → Bool) (entries : List (Except ε α)) :
    withoutRepeats equal (withoutRepeats equal entries) = withoutRepeats equal entries := by
  induction entries using List.reverseRecOn with
  | nil => rfl
  | append_singleton entries entry ih =>
      rw [withoutRepeats_append_singleton]
      split
      · rw [List.append_nil, ih]
      · rename_i hnew
        rw [withoutRepeats_append_singleton, ih, if_neg hnew]

/-- What is left without repeats is left in its place. -/
theorem withoutRepeats_sublist (equal : α → α → Bool) (entries : List (Except ε α)) :
    (withoutRepeats equal entries).Sublist entries := by
  induction entries using List.reverseRecOn with
  | nil => exact .slnil
  | append_singleton entries entry ih =>
      rw [withoutRepeats_append_singleton]
      refine ih.append ?_
      split
      · exact List.nil_sublist _
      · exact .refl _

/-! ## Items among entries -/

theorem mem_filterMap_toOption {entries : List (Except ε α)} {item : α} :
    item ∈ entries.filterMap Except.toOption ↔ .ok item ∈ entries := by
  rw [List.mem_filterMap]
  constructor
  · rintro ⟨entry, hentry, hitem⟩
    cases entry <;> cases hitem
    exact hentry
  · exact fun h => ⟨.ok item, h, rfl⟩

theorem repeats_ok_iff {kept : List (Except ε α)} {item : α} :
    repeats equal kept (.ok item) = true ↔
      ∃ earlier, .ok earlier ∈ kept ∧ equal earlier item = true := by
  rw [repeats_ok, List.any_eq_true]
  simp only [mem_filterMap_toOption]

/-- The items that a distinct stage lets through are those that do not repeat among the items. -/
theorem filterMap_toOption_run_distinct (equal : α → α → Bool) (seen : List α)
    (entries : List (Except ε α)) :
    ((Stage.distinct equal).run seen entries).filterMap Except.toOption =
      unrepeated equal seen (entries.filterMap Except.toOption) := by
  induction entries generalizing seen with
  | nil => rfl
  | cons entry rest ih =>
      cases entry with
      | error failure => exact ih seen
      | ok item =>
          have hitems : (Except.ok (ε := ε) item :: rest).filterMap Except.toOption =
              item :: rest.filterMap Except.toOption := rfl
          rw [Stage.run_distinct_ok, hitems, unrepeated]
          split
          · exact ih seen
          · exact congrArg (item :: ·) (ih (seen ++ [item]))

theorem filterMap_toOption_withoutRepeats (equal : α → α → Bool) (entries : List (Except ε α)) :
    (withoutRepeats equal entries).filterMap Except.toOption =
      unrepeated equal [] (entries.filterMap Except.toOption) := by
  rw [← Stage.run_distinct]
  exact filterMap_toOption_run_distinct equal [] entries

/-! ## Equality that is reflexive and transitive -/

section Equality

variable (hrefl : ∀ a, equal a a = true)
  (htrans : ∀ a b c, equal a b = true → equal b c = true → equal a c = true)

include hrefl

/-- Each item is equal to one that is left without repeats. -/
theorem exists_mem_withoutRepeats {entries : List (Except ε α)} {item : α}
    (h : .ok item ∈ entries) :
    ∃ kept, .ok kept ∈ withoutRepeats equal entries ∧ equal kept item = true := by
  obtain ⟨kept, hkept, hequal⟩ := exists_equal_of_mem hrefl [] (mem_filterMap_toOption.mpr h)
  rw [List.nil_append, ← filterMap_toOption_withoutRepeats] at hkept
  exact ⟨kept, mem_filterMap_toOption.mp hkept, hequal⟩

include htrans

/-- An item repeats some entries exactly when it repeats what is left of them. -/
theorem repeats_withoutRepeats (entries : List (Except ε α)) (entry : Except ε α) :
    repeats equal (withoutRepeats equal entries) entry = repeats equal entries entry := by
  cases entry with
  | error failure => rfl
  | ok item =>
      rw [Bool.eq_iff_iff, repeats_ok_iff, repeats_ok_iff]
      constructor
      · rintro ⟨kept, hkept, hequal⟩
        exact ⟨kept, (withoutRepeats_sublist equal entries).subset hkept, hequal⟩
      · rintro ⟨earlier, hearlier, hequal⟩
        obtain ⟨kept, hkept, hsame⟩ := exists_mem_withoutRepeats hrefl hearlier
        exact ⟨kept, hkept, htrans kept earlier item hsame hequal⟩

theorem withoutRepeats_eq_firsts (entries : List (Except ε α)) :
    withoutRepeats equal entries = firsts equal entries := by
  induction entries using List.reverseRecOn with
  | nil => rfl
  | append_singleton entries entry ih =>
      rw [withoutRepeats_append_singleton, firsts_append_singleton,
        repeats_withoutRepeats hrefl htrans, ih]

end Equality

end Listing

/--
The distinct stage gives out, in order, every failure and those values that are equal to no
value before them, whether that was given out or not.  So no two values that it gives out are
equal, each value is equal to one that is given out, and a second such stage changes nothing.
-/
theorem Plan.items_through_distinctStage {ε : Type} (upstream : Cursor ε Value) :
    let unique := upstream.through distinctStage
    unique.items = Listing.firsts Value.equal upstream.items ∧
      (unique.items.filterMap Except.toOption).Pairwise
        (fun a b => a.equal b = false ∧ b.equal a = false) ∧
      (∀ value, .ok value ∈ upstream.items → ∃ kept, .ok kept ∈ unique.items ∧ kept.equal value) ∧
      (unique.through distinctStage).items = unique.items := by
  intro unique
  have hitems (source : Cursor ε Value) : (source.through distinctStage).items =
      Listing.withoutRepeats Value.equal source.items :=
    (Cursor.items_through source distinctStage).trans (Stage.run_distinct _ _)
  rw [hitems unique, hitems upstream]
  refine ⟨?_, ?_, fun value => Listing.exists_mem_withoutRepeats Value.equal_refl, ?_⟩
  · exact Listing.withoutRepeats_eq_firsts Value.equal_refl (fun _ _ _ => Value.equal_trans) _
  · rw [Listing.filterMap_toOption_withoutRepeats]
    exact (Listing.pairwise_unrepeated Value.equal [] _).imp fun {a b} h => ⟨h, b.equal_comm a ▸ h⟩
  · exact Listing.withoutRepeats_withoutRepeats _ _

/-- An integer and the double of its value are equal, arrays that hold them are not. -/
example :
    let one : Value := .number (.integer ⟨1, by decide, by decide⟩)
    let alike : Value := .number (.float ⟨1.0, by decide⟩)
    Listing.firsts Value.equal
        [.ok one, .error "disk on fire", .ok (.array [one]), .ok alike, .ok (.array [alike]),
          .ok one, .error "disk on fire"] =
      [.ok one, .error "disk on fire", .ok (.array [one]), .ok (.array [alike]),
        .error "disk on fire"] :=
  rfl

end DocQuery
