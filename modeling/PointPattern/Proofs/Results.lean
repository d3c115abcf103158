/-
# Results of operations

An operation that is made of several comes to a result only if each of them does. These lemmas
take such a result apart, step by step.
-/

import PointPattern.Error

namespace PointPattern

variable {α β : Type} {x : Except Error α} {b : β}

theorem error_of_map {f : α → β} {e : Error} (mapped : x.map f = .error e) : x = .error e := by
  cases x with
  | error e' => rw [Except.error.inj mapped]
  | ok a => cases mapped

theorem ok_of_map {f : α → β} (mapped : x.map f = .ok b) : ∃ a, x = .ok a ∧ f a = b := by
  cases x with
  | error e => cases mapped
  | ok a => exact ⟨a, rfl, Except.ok.inj mapped⟩

/-- An operation that comes to a result has come to one on the way. -/
theorem exists_of_bind_eq_ok {f : α → Except Error β} (bound : (x >>= f) = .ok b) :
    ∃ a, x = .ok a ∧ f a = .ok b := by
  cases x with
  | error e => cases bound
  | ok a => exact ⟨a, rfl, bound⟩

end PointPattern
