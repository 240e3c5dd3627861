import Mathlib.Logic.Basic

/-!
# Except lemmas for the standard library

When a computation that can fail gives a value.
-/

namespace Except

variable {ε ε' α β : Type}

/-- A composed computation succeeds if both parts do. -/
theorem bind_eq_ok_iff {x : Except ε α} {f : α → Except ε β} {b : β} :
    x >>= f = .ok b ↔ ∃ a, x = .ok a ∧ f a = .ok b := by
  cases x with
  | ok a => simp [Bind.bind, Except.bind]
  | error e => simp [Bind.bind, Except.bind]

/-- Renaming errors leaves the results. -/
theorem mapError_eq_ok_iff {x : Except ε α} {f : ε → ε'} {a : α} :
    x.mapError f = .ok a ↔ x = .ok a := by
  cases x with
  | ok b =>
    show Except.ok b = Except.ok a ↔ _
    rw [Except.ok.injEq, Except.ok.injEq]
  | error e =>
    show Except.error (f e) = Except.ok a ↔ _
    simp only [reduceCtorEq]

end Except
