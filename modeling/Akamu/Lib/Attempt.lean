import Mathlib.Control.Monad.Basic

/-!
# Computations that may panic

A computation panics, fails with an error or returns a value.
-/

abbrev Attempt (ε : Type) := ExceptT ε Option

namespace Attempt

variable {ε α β : Type} {P : α → Prop} {Q : β → Prop} {x : Attempt ε α}

/-- A step that panics if it has no value. -/
def orPanic (value : Option α) : Attempt ε α := ExceptT.lift value

/-- The computation does not panic, and what it returns satisfies `P`. -/
def Returns (x : Attempt ε α) (P : α → Prop) : Prop :=
  ∃ result, x.run = some result ∧ ∀ a, result = .ok a → P a

@[simp] theorem orPanic_some (a : α) : (orPanic (some a) : Attempt ε α) = pure a := rfl

theorem returns_pure {a : α} (h : P a) : Returns (pure a : Attempt ε α) P :=
  ⟨.ok a, rfl, fun _ hb ↦ Except.ok.inj hb ▸ h⟩

theorem returns_throw (e : ε) : Returns (throw e : Attempt ε α) P :=
  ⟨.error e, rfl, fun _ h ↦ by cases h⟩

theorem Returns.imp {Q : α → Prop} (hx : x.Returns P) (h : ∀ a, P a → Q a) : x.Returns Q := by
  obtain ⟨result, hrun, hP⟩ := hx
  exact ⟨result, hrun, fun a ha ↦ h a (hP a ha)⟩

theorem Returns.bind {f : α → Attempt ε β} (hx : x.Returns P) (hf : ∀ a, P a → (f a).Returns Q) :
    Returns (x >>= f) Q := by
  obtain ⟨result, hrun, hP⟩ := hx
  unfold Returns
  rw [ExceptT.run_bind, hrun]
  cases result with
  | error e => exact ⟨.error e, rfl, fun _ h ↦ by cases h⟩
  | ok a => exact hf a (hP a rfl)

end Attempt
