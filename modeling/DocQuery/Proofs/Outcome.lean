/-!
# Outcomes that may be failures

Attempts that are made one after the other succeed together or not at all.
-/

namespace DocQuery

variable {ε α β : Type}

/-- Two attempts, the second made of the result of the first, succeed when both do. -/
theorem bind_eq_ok {x : Except ε α} {f : α → Except ε β} {b : β} :
    (x >>= f) = .ok b ↔ ∃ a, x = .ok a ∧ f a = .ok b := by
  cases x with
  | error failure => simp [bind, Except.bind]
  | ok a => simp [bind, Except.bind]

@[simp] theorem ok_bind (a : α) (f : α → Except ε β) :
    ((Except.ok a : Except ε α) >>= f) = f a := rfl

end DocQuery
