import Mathlib.Logic.Basic

/-! Facts derived by rules: the derivable ones are the least set the rules keep to, however and in
whatever order a procedure comes to them. -/
namespace Kodezart.Saturation
variable {F : Type*}

structure Rule (F : Type*) where
  premises : F → Prop
  conclusions : F → Prop

inductive Derives (rules : Rule F → Prop) : F → Prop where
  | fire {rule f} (known : rules rule) (met : ∀ p, rule.premises p → Derives rules p) (concluded : rule.conclusions f) :
      Derives rules f

/-- Facts that no rule leads out of. -/
def Closed (rules : Rule F → Prop) (facts : F → Prop) : Prop :=
  ∀ rule, rules rule → (∀ p, rule.premises p → facts p) → ∀ f, rule.conclusions f → facts f

variable {rules : Rule F → Prop} {facts : F → Prop}

theorem derivesWithin (closed : Closed rules facts) {f : F} (derives : Derives rules f) : facts f := by
  induction derives with
  | fire known met concluded ih => exact closed _ known ih _ concluded

/-- Sound and closed, facts are exactly what the rules derive. -/
theorem derivesExactly (sound : ∀ f, facts f → Derives rules f) (closed : Closed rules facts) (f : F) :
    facts f ↔ Derives rules f :=
  ⟨sound f, derivesWithin closed⟩

end Kodezart.Saturation
