import Mathlib.Logic.Basic
import Mathlib.Data.List.Basic

/-!
# Runs of a state machine

A machine is a total step function that also answers the event it was given.
A run is the list of events in the order in which they happen; nothing bounds
its length and nothing restricts the interleaving.  The rules below turn facts
about one step into facts about whole runs, also for runs all of whose steps
meet a side condition on the state before the step.
-/

namespace Machine

variable {σ ε ω : Type*}

def run (step : σ → ε → σ × ω) (s : σ) : List ε → σ
  | [] => s
  | e :: es => run step (step s e).1 es

def Meets (step : σ → ε → σ × ω) (ok : σ → ε → Prop) (s : σ) : List ε → Prop
  | [] => True
  | e :: es => ok s e ∧ Meets step ok (step s e).1 es

instance Meets.decidable {step : σ → ε → σ × ω} {ok : σ → ε → Prop} [∀ s e, Decidable (ok s e)] :
    ∀ (s : σ) (es : List ε), Decidable (Meets step ok s es)
  | _, [] => .isTrue trivial
  | s, _ :: es => @instDecidableAnd _ _ _ (Meets.decidable (step s _).1 es)

section Run

variable {step : σ → ε → σ × ω} {ok : σ → ε → Prop}

@[simp] theorem run_nil (s : σ) : run step s [] = s := rfl

@[simp] theorem run_cons (s : σ) (e : ε) (es : List ε) :
    run step s (e :: es) = run step (step s e).1 es := rfl

theorem run_append (s : σ) (es fs : List ε) :
    run step s (es ++ fs) = run step (run step s es) fs := by
  induction es generalizing s with
  | nil => rfl
  | cons e es ih => exact ih (step s e).1

theorem run_concat (s : σ) (es : List ε) (e : ε) :
    run step s (es ++ [e]) = (step (run step s es) e).1 := by
  rw [run_append, run_cons, run_nil]

@[simp] theorem meets_nil (s : σ) : Meets step ok s [] := trivial

variable {es : List ε}

@[simp] theorem meets_cons {s : σ} {e : ε} :
    Meets step ok s (e :: es) ↔ ok s e ∧ Meets step ok (step s e).1 es := Iff.rfl

theorem meets_append {s : σ} {fs : List ε} :
    Meets step ok s (es ++ fs) ↔ Meets step ok s es ∧ Meets step ok (run step s es) fs := by
  induction es generalizing s with
  | nil => simp
  | cons e es ih => simp [ih, and_assoc]

theorem meets_true (s : σ) (es : List ε) : Meets step (fun _ _ ↦ True) s es := by
  induction es generalizing s with
  | nil => trivial
  | cons e es ih => exact ⟨trivial, ih _⟩

/-- The invariant rule: what holds at the start and is kept by every admitted
step holds at the end of every run whose steps are admitted. -/
theorem Meets.invariant {s : σ} (h : Meets step ok s es) (inv : σ → Prop) (hs : inv s)
    (hstep : ∀ s e, inv s → ok s e → inv (step s e).1) : inv (run step s es) := by
  induction es generalizing s with
  | nil => exact hs
  | cons e es ih => exact ih h.2 (hstep s e hs h.1)

end Run

end Machine
