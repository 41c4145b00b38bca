import Mathlib.Logic.Basic

/-!
# Computations with a trace

A computation sees what has happened before it, adds events of its own, and
ends with a result or an error; what it did stays done when it fails.  Whatever
the environment decides may depend on everything that has happened so far, so
an environment is any strategy.
-/

def Traced (ε err α : Type) : Type := List ε → List ε × Except err α

namespace Traced

variable {ε err err' α β : Type}

protected def pure (a : α) : Traced ε err α := fun _ ↦ ([], .ok a)

protected def bind (x : Traced ε err α) (f : α → Traced ε err β) : Traced ε err β := fun past ↦
  match (x past).2 with
  | .error e => ((x past).1, .error e)
  | .ok a => ((x past).1 ++ (f a (past ++ (x past).1)).1, (f a (past ++ (x past).1)).2)

instance : Monad (Traced ε err) where
  pure := Traced.pure
  bind := Traced.bind

def fail (e : err) : Traced ε err α := fun _ ↦ ([], .error e)

def emit (e : ε) : Traced ε err Unit := fun _ ↦ ([e], .ok ())

def decision (f : List ε → α) : Traced ε err α := fun past ↦ ([], .ok (f past))

def ofExcept (r : Except err α) : Traced ε err α := fun _ ↦ ([], r)

def mapError (f : err → err') (x : Traced ε err α) : Traced ε err' α := fun past ↦
  ((x past).1, (x past).2.mapError f)

/-! ## Results -/

def Returns (x : Traced ε err α) (a : α) : Prop := ∃ past, (x past).2 = .ok a

theorem returns_pure {a b : α} (h : Returns (pure a : Traced ε err α) b) : a = b := by
  obtain ⟨_, h⟩ := h
  cases h
  rfl

theorem not_returns_fail {e : err} {a : α} : ¬ Returns (fail e : Traced ε err α) a := by
  rintro ⟨_, h⟩
  cases h

variable {f : α → Traced ε err β}

theorem returns_bind {x : Traced ε err α} {b : β} (h : Returns (x >>= f) b) :
    ∃ a, Returns x a ∧ Returns (f a) b := by
  obtain ⟨past, h⟩ := h
  change (Traced.bind x f past).2 = .ok b at h
  unfold Traced.bind at h
  cases hx : (x past).2 with
  | error =>
    rw [hx] at h
    cases h
  | ok a =>
    rw [hx] at h
    exact ⟨a, ⟨past, hx⟩, ⟨_, h⟩⟩

theorem returns_mapError {f : err → err'} {x : Traced ε err α} {a : α}
    (h : Returns (mapError f x) a) : Returns x a := by
  obtain ⟨past, h⟩ := h
  refine ⟨past, ?_⟩
  change (x past).2.mapError f = .ok a at h
  cases hx : (x past).2 with
  | error =>
    rw [hx] at h
    cases h
  | ok =>
    rw [hx] at h
    cases h
    rfl

/-! ## Events -/

/-- Whatever the past, only such events are added. -/
def Only (P : ε → Prop) (x : Traced ε err α) : Prop := ∀ past, ∀ e ∈ (x past).1, P e

namespace Only

variable {P : ε → Prop} {x : Traced ε err α}

theorem pure (a : α) : Only P (pure a : Traced ε err α) := fun _ _ he ↦ nomatch he

theorem fail (e : err) : Only P (fail e : Traced ε err α) := fun _ _ he ↦ nomatch he

theorem decision (f : List ε → α) : Only P (decision f : Traced ε err α) :=
  fun _ _ he ↦ nomatch he

theorem ofExcept (r : Except err α) : Only P (ofExcept r : Traced ε err α) :=
  fun _ _ he ↦ nomatch he

theorem emit {e : ε} (h : P e) : Only P (emit e : Traced ε err Unit) := by
  intro _ e' he'
  rw [List.mem_singleton.mp he']
  exact h

theorem mapError {f : err → err'} (h : Only P x) : Only P (mapError f x) := h

theorem bind (hx : Only P x) (hf : ∀ a, Returns x a → Only P (f a)) : Only P (x >>= f) := by
  intro past e he
  change e ∈ (Traced.bind x f past).1 at he
  unfold Traced.bind at he
  cases hresult : (x past).2 with
  | error =>
    rw [hresult] at he
    exact hx past e he
  | ok a =>
    rw [hresult] at he
    rcases List.mem_append.mp he with hold | hnew
    · exact hx past e hold
    · exact hf a ⟨past, hresult⟩ _ e hnew

end Only

end Traced
