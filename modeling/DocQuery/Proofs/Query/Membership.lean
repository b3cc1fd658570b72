import DocQuery.Proofs.Query.Filtering
import DocQuery.Proofs.Value.Arranged
import DocQuery.Proofs.Value.Equality

/-!
# Membership

`IN`, the three functions that look for values in an array and a disjunction of comparisons
all ask whether a list holds a value equal to a given one.  They put the two values of a
comparison on different sides, which makes no difference since equality is symmetric.  A
match with a part of an object is at least as easy as one with the whole.
-/

namespace DocQuery

/-! ## Members of equal objects -/

namespace Members

/-- Objects with the same members hold equal values under each name. -/
theorem exists_get?_of_same {held wanted : Members} (hwanted : wanted.Ascending)
    (h : List.Forall₂ (fun m n => m.1 = n.1 ∧ m.2.same n.2 = true) held wanted) :
    ∀ member ∈ wanted, ∃ value, get? held member.1 = some value ∧ value.equal member.2 := by
  induction h with
  | nil => exact List.forall_mem_nil _
  | @cons m n held wanted hmn hrest ih =>
      obtain ⟨hless, hwanted⟩ := List.pairwise_cons.mp hwanted
      obtain ⟨hname, hsame⟩ := hmn
      refine List.forall_mem_cons.mpr ⟨⟨m.2, ?_, Value.equal_of_same hsame⟩, ?_⟩
      · rw [get?, List.lookup_cons, hname, beq_self_eq_true]
      · intro member hmember
        obtain ⟨value, hvalue, hequal⟩ := ih hwanted member hmember
        have hne : (member.1 == m.1) = false := by
          rw [hname]
          exact beq_false_of_ne fun heq => String.lt_irrefl _ (heq ▸ hless member hmember)
        refine ⟨value, ?_, hequal⟩
        rw [get?, List.lookup_cons, hne]
        exact hvalue

end Members

namespace ArrayFunction

@[simp] theorem accepts_false (element needle : Value) :
    accepts false element needle = element.equal needle := by
  cases element <;> cases needle <;> rfl

/-- A part of an object is found wherever the whole is. -/
theorem accepts_of_equal {element needle : Value} (hneedle : needle.Arranged)
    (h : element.equal needle) (partialMatch : Bool) : accepts partialMatch element needle := by
  cases partialMatch with
  | false => rwa [accepts_false]
  | true =>
      cases hneedle with
      | object hnames _ =>
          cases element with
          | object held =>
              rw [Value.equal_object, Value.sameMembers_iff] at h
              rw [accepts, hasMembers, List.all_eq_true]
              intro member hmember
              obtain ⟨value, hvalue, hequal⟩ := Members.exists_get?_of_same hnames h member hmember
              rw [hvalue]
              exact hequal
          | _ => exact h
      | _ => cases element <;> exact h

end ArrayFunction

/-! ## The ways to ask -/

namespace Value

theorem memberOf_eq_true_iff {x : Value} {held : List Value} :
    x.memberOf held = true ↔ ∃ value ∈ held, value.equal x = true := by
  rw [memberOf, List.any_eq_true]

theorem memberOf_eq_any (x : Value) (held : List Value) :
    x.memberOf held = held.any fun value => x.equal value :=
  List.any_congr rfl fun value => equal_comm value x

end Value

namespace Function

variable (x : Value) (held needles : List Value)

theorem apply_membership : membership.apply (x :: held) = .bool (x.memberOf held) := by
  rw [Value.memberOf_eq_any]
  rfl

theorem padded_membership : membership.padded held = held := by
  simp [padded, arity?]

theorem apply_contains : (array .contains).apply [.array held, x] = .bool (x.memberOf held) := by
  have happly : (array .contains).apply [.array held, x] =
      .bool (held.any fun value => ArrayFunction.accepts false value x) := rfl
  simp only [happly, ArrayFunction.accepts_false]
  rfl

/-- What is held as a whole is found when a part is enough. -/
theorem apply_contains_part (hx : x.Arranged) (h : x.memberOf held) :
    (array .contains).apply [.array held, x, .bool true] = .bool true := by
  obtain ⟨value, hvalue, hequal⟩ := Value.memberOf_eq_true_iff.mp h
  have hany : (held.any fun value => ArrayFunction.accepts true value x) = true :=
    List.any_eq_true.mpr ⟨value, hvalue, ArrayFunction.accepts_of_equal hx hequal true⟩
  exact congrArg Value.bool hany

theorem apply_containsAny :
    (array .containsAny).apply (.array held :: needles) =
      .bool (needles.any fun needle => needle.memberOf held) :=
  rfl

theorem apply_containsAll :
    (array .containsAll).apply (.array held :: needles) =
      .bool (needles.all fun needle => needle.memberOf held) :=
  rfl

end Function

/-! ## Terms of a query -/

section Terms

variable (parameters : Parameters) (row : Row) (t : Term) (ts : List Term)

theorem resolveAll_eq_map :
    resolveAll parameters ts row = ts.map fun term => term.resolve parameters row := by
  induction ts with
  | nil => rfl
  | cons term rest ih => rw [resolveAll, ih, List.map_cons]

/-- One of several comparisons with a term holds when its value is among those of the others. -/
theorem Condition.holds_joined_compare :
    (Grammar.joined any (ts.map fun u => compare .equal t u)).holds parameters row =
      (t.resolve parameters row).memberOf (resolveAll parameters ts row) := by
  rw [holds_joined_any, List.any_map, resolveAll_eq_map, Value.memberOf_eq_any, List.any_map]
  refine List.any_congr rfl fun u => ?_
  rw [Function.comp_apply, holds]
  rfl

/-- A call that searches an array of terms for the value of another term. -/
theorem resolve_search (f : ArrayFunction) :
    (Form.call (.array f) [.plain (.array ts), t]).resolve parameters row =
      (Function.array f).apply ((Function.array f).padded
        [.array (resolveAll parameters ts row), t.resolve parameters row]) := by
  rw [Form.resolve, resolveAll, resolveAll, resolveAll, Term.plain, Term.resolve, Form.resolve,
    Value.negatedIf_false]
  all_goals rintro _ ⟨⟩

/-- The ways in which a query asks whether the value of a term is among those of others. -/
def Form.membershipTests : List Form :=
  let asked := [.plain (.array ts), t]
  [.call .membership (t :: ts), .call (.array .contains) asked, .call (.array .containsAny) asked,
    .call (.array .containsAll) asked,
    .condition (Grammar.joined .any (ts.map fun u => .compare .equal t u))]

end Terms

/--
Membership, the search of an array for one value by any of its three functions and, in a
query, a disjunction of comparisons give the same truth value.  A search for several values
is a disjunction or a conjunction of searches, and what is found as a whole is found when a
part is enough; the names of an object ascend for that, as in every value that is read.
-/
theorem membership_agrees (x : Value) (held : List Value) :
    ∃ found : Bool,
      Function.membership.apply (x :: held) = .bool found ∧
      (Function.array .contains).apply [.array held, x] = .bool found ∧
      (Function.array .containsAny).apply [.array held, x] = .bool found ∧
      (Function.array .containsAll).apply [.array held, x] = .bool found ∧
      (∀ parameters row t ts, t.resolve parameters row = x → resolveAll parameters ts row = held →
        ∀ form ∈ Form.membershipTests t ts, form.resolve parameters row = .bool found) ∧
      (∀ needles,
        let holds (needle : Value) : Bool :=
          ((Function.array .contains).apply [.array held, needle]).isTrue
        (Function.array .containsAny).apply (.array held :: needles) = .bool (needles.any holds) ∧
        (Function.array .containsAll).apply (.array held :: needles) = .bool (needles.all holds)) ∧
      (x.Arranged → found = true →
        (Function.array .contains).apply [.array held, x, .bool true] = .bool true) := by
  have hany : (Function.array .containsAny).apply [.array held, x] = .bool (x.memberOf held) := by
    rw [Function.apply_containsAny, List.any_cons, List.any_nil, Bool.or_false]
  have hall : (Function.array .containsAll).apply [.array held, x] = .bool (x.memberOf held) := by
    rw [Function.apply_containsAll, List.all_cons, List.all_nil, Bool.and_true]
  refine ⟨x.memberOf held, Function.apply_membership x held, Function.apply_contains x held, hany,
    hall, ?_, fun needles => ?_, fun hx hfound => Function.apply_contains_part x held hx hfound⟩
  · rintro parameters row t ts rfl rfl form hform
    simp only [Form.membershipTests, List.mem_cons, List.not_mem_nil, or_false] at hform
    rcases hform with rfl | rfl | rfl | rfl | rfl
    · rw [Form.resolve, resolveAll]
      · rw [Function.padded_membership, Function.apply_membership]
      all_goals rintro _ ⟨⟩
    · exact (resolve_search parameters row t ts .contains).trans (Function.apply_contains _ _)
    · exact (resolve_search parameters row t ts .containsAny).trans hany
    · exact (resolve_search parameters row t ts .containsAll).trans hall
    · rw [Form.resolve, Condition.holds_joined_compare]
  · simp only [Function.apply_contains, Value.isTrue_bool]
    exact ⟨Function.apply_containsAny held needles, Function.apply_containsAll held needles⟩

/-- An object is found behind a number, as a whole and so as a part, whatever way is asked. -/
theorem membership_agrees_object :
    let draws : Draws := fun _ _ => 0.5
    let x : Value := .object [("a", .ofInt 1), ("b", .null)]
    let parameters : Parameters := [("@x", x), ("@n", .ofFloat 1.0)]
    let row : Row := .ofDocument draws "c" .null
    let named (name : String) : Term := .plain (.constant (.parameter name))
    x.Arranged ∧ (named "@x").resolve parameters row = x ∧
      resolveAll parameters [named "@n", named "@x"] row = [.ofFloat 1.0, x] ∧
      (∀ form ∈ Form.membershipTests (named "@x") [named "@n", named "@x"],
        form.resolve parameters row = .bool true) ∧
      (Function.array .contains).apply [.array [.ofFloat 1.0, x], x, .bool true] = .bool true := by
  intro draws x parameters row named
  have hx : x.Arranged := by
    refine .object (List.pairwise_pair.mpr (by decide)) (List.forall_mem_cons.mpr ⟨.ofInt 1, ?_⟩)
    exact List.forall_mem_singleton.mpr .null
  have hterm : (named "@x").resolve parameters row = x := rfl
  have hterms : resolveAll parameters [named "@n", named "@x"] row = [.ofFloat 1.0, x] := rfl
  obtain ⟨found, hfound, -, -, -, hforms, -, hpart⟩ := membership_agrees x [.ofFloat 1.0, x]
  have htrue : Function.membership.apply (x :: [.ofFloat 1.0, x]) = .bool true := by
    rw [Function.apply_membership, Value.memberOf_eq_any]
    simp [Value.equal_refl]
  obtain rfl : found = true := Value.bool.inj (hfound.symm.trans htrue)
  exact ⟨hx, hterm, hterms, hforms parameters row _ _ hterm hterms, hpart hx rfl⟩

end DocQuery
