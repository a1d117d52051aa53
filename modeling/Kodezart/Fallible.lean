import Mathlib

/-! Computations that refuse: what a returned value says about the steps before it. -/
namespace Kodezart
universe u v
variable {α β : Type u} {ε ε' : Type v}

theorem bindOk {x : Except ε α} {f : α → Except ε β} {b : β} :
    (x >>= f) = .ok b ↔ ∃ a, x = .ok a ∧ f a = .ok b := by
  cases x with
  | error e => simp [bind, Except.bind]
  | ok a => simp [bind, Except.bind]

theorem mapErrorOk {rename : ε → ε'} {x : Except ε α} {a : α} :
    x.mapError rename = .ok a ↔ x = .ok a := by
  cases x with
  | error e => simp [Except.mapError]
  | ok _ => simp [Except.mapError]

end Kodezart
