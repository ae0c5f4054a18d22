import Mathlib.Tactic

namespace PaymentLedger

/-- A machine: which states an event can lead to. -/
structure Machine (σ ε : Type) where
  Step : σ → ε → σ → Prop

namespace Machine

variable {σ ε : Type} {m : Machine σ ε} {s s' : σ} {es : List ε}

/-- A run over these events. -/
inductive Runs (m : Machine σ ε) (s : σ) : List ε → σ → Prop
  | nil : Runs m s [] s
  | snoc {es : List ε} {e : ε} {s' s'' : σ} (h : Runs m s es s') (hs : m.Step s' e s'') : Runs m s (es ++ [e]) s''

/-- An invariant of the events so far and the state. -/
theorem Runs.invariant (P : List ε → σ → Prop) (h : m.Runs s es s') (h₀ : P [] s)
    (hstep : ∀ es e s' s'', P es s' → m.Step s' e s'' → P (es ++ [e]) s'') : P es s' := by
  induction h with
  | nil => exact h₀
  | snoc _ hs ih => exact hstep _ _ _ _ ih hs

end Machine
end PaymentLedger
