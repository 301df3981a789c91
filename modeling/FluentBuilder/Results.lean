/-!
# Results — computations that stop at their first error

A computation that may fail is taken apart into its steps: it succeeds exactly where each of them
does, whatever its errors are.
-/

namespace FluentBuilder

variable {ε α β : Type}

/-- A step that has succeeded hands its result on. -/
theorem ok_bind (a : α) (f : α → Except ε β) : Except.ok a >>= f = f a := rfl

/-- A step of a computation that succeeds has succeeded itself. -/
theorem ok_of_bind {x : Except ε α} {f : α → Except ε β} {b : β} (h : x >>= f = .ok b) :
    ∃ a, x = .ok a ∧ f a = .ok b := by
  cases x with
  | error e => cases h
  | ok a => exact ⟨a, rfl, h⟩

/-- A result is what is left of it when errors are forgotten. -/
theorem toOption_eq_some {x : Except ε α} {a : α} : x.toOption = some a ↔ x = .ok a := by
  cases x with
  | error e => exact ⟨nofun, nofun⟩
  | ok b => simp [Except.toOption]

end FluentBuilder
