import Akamu.Lib.Machine

/-!
# Tasks over a shared state

A pool of tasks works on a shared state.  An arrival may change the shared
state and start tasks; a task takes its next step, after which it may go on as
other tasks; a task may be dropped.  Which of these happens next is left open,
so a run is any interleaving.
-/

namespace Tasks

open List

structure Pool (σ τ : Type*) where
  shared : σ
  tasks : List τ

structure Result (σ τ ω : Type*) where
  shared : σ
  next : List τ
  output : Option ω

inductive Move (α ι : Type*) where
  | arrive (a : α)
  | advance (i : ℕ) (input : ι)
  | abandon (i : ℕ)

structure System (σ τ α ι ω : Type*) where
  arrive : σ → α → Result σ τ ω
  act : σ → τ → ι → Result σ τ ω

variable {σ τ α ι ω : Type*}

theorem mem_eraseIdx_of_ne {l : List τ} {i : ℕ} {t : τ} (h : t ∈ l) (hne : l[i]? ≠ some t) :
    t ∈ l.eraseIdx i := by
  obtain ⟨j, hj⟩ := getElem?_of_mem h
  refine mem_eraseIdx_iff_getElem?.mpr ⟨j, ?_, hj⟩
  rintro rfl
  exact hne hj

namespace Result

/-- Nothing happens. -/
def idle (shared : σ) : Result σ τ ω := ⟨shared, [], none⟩

/-- Only a decision how to go on. -/
def goOn (shared : σ) (task : τ) : Result σ τ ω := ⟨shared, [task], none⟩

/-- Only an answer. -/
def answer (shared : σ) (output : ω) : Result σ τ ω := ⟨shared, [], some output⟩

end Result

namespace System

variable (sys : System σ τ α ι ω)

def result (s : Pool σ τ) : Move α ι → Result σ τ ω
  | .arrive a => sys.arrive s.shared a
  | .advance i input => (s.tasks[i]?).elim (.idle s.shared) fun t ↦ sys.act s.shared t input
  | .abandon _ => .idle s.shared

def rest (s : Pool σ τ) : Move α ι → List τ
  | .arrive _ => s.tasks
  | .advance i _ | .abandon i => s.tasks.eraseIdx i

def step (s : Pool σ τ) (e : Move α ι) : Pool σ τ × Option ω :=
  (⟨(sys.result s e).shared, rest s e ++ (sys.result s e).next⟩, (sys.result s e).output)

variable {sys} {s : Pool σ τ} {e : Move α ι}

@[simp] theorem step_shared : (sys.step s e).1.shared = (sys.result s e).shared := rfl

@[simp] theorem step_output : (sys.step s e).2 = (sys.result s e).output := rfl

theorem mem_rest {t : τ} (h : t ∈ rest s e) : t ∈ s.tasks := by
  cases e with
  | arrive => exact h
  | advance | abandon => exact mem_of_mem_eraseIdx h

theorem mem_step_tasks {t : τ} (h : t ∈ (sys.step s e).1.tasks) :
    t ∈ s.tasks ∨ t ∈ (sys.result s e).next := by
  rcases mem_append.mp h with hrest | hnext
  · exact .inl (mem_rest hrest)
  · exact .inr hnext

@[elab_as_elim]
theorem result_rule {motive : Result σ τ ω → Prop} (hidle : motive (.idle s.shared))
    (harrive : ∀ a, e = .arrive a → motive (sys.arrive s.shared a))
    (hact : ∀ i input t, e = .advance i input → s.tasks[i]? = some t →
      motive (sys.act s.shared t input)) : motive (sys.result s e) := by
  cases e with
  | arrive a => exact harrive a rfl
  | advance i input =>
    cases htask : s.tasks[i]? with
    | none => simpa [result, htask] using hidle
    | some t => simpa [result, htask] using hact i input t rfl htask
  | abandon => exact hidle

/-! ### A task that is left alone -/

theorem step_last (sys : System σ τ α ι ω) (sh : σ) (ts : List τ) (t : τ) (input : ι) :
    (sys.step ⟨sh, ts ++ [t]⟩ (.advance ts.length input)).1 =
      ⟨(sys.act sh t input).shared, ts ++ (sys.act sh t input).next⟩ := by
  have hget : (ts ++ [t])[ts.length]? = some t := getElem?_concat_length
  have herase : (ts ++ [t]).eraseIdx ts.length = ts := by
    rw [eraseIdx_append_of_length_le (Nat.le_refl _), Nat.sub_self, eraseIdx_cons_zero,
      append_nil]
  simp only [step, result, rest, hget, Option.elim_some, herase]

theorem step_absent (sys : System σ τ α ι ω) (sh : σ) (ts : List τ) (input : ι) :
    (sys.step ⟨sh, ts⟩ (.advance ts.length input)).1 = ⟨sh, ts⟩ := by
  have hget : ts[ts.length]? = none := getElem?_eq_none (Nat.le_refl _)
  have herase : ts.eraseIdx ts.length = ts := eraseIdx_of_length_le (Nat.le_refl _)
  simp only [step, result, rest, hget, Option.elim_none, herase, Result.idle, append_nil]

end System

/-! ## Assertions -/

structure Asserted (inv : σ → Prop) (at' : σ → τ → Prop) (s : Pool σ τ) : Prop where
  shared : inv s.shared
  tasks : ∀ t ∈ s.tasks, at' s.shared t

/-- A result that keeps the property of the shared state and what every other
task asserts, and after which the tasks it starts may assert theirs. -/
structure Keeps (inv : σ → Prop) (at' : σ → τ → Prop) (sh : σ) (f : Result σ τ ω) : Prop where
  shared : inv f.shared
  others : ∀ t, at' sh t → at' f.shared t
  next : ∀ t ∈ f.next, at' f.shared t

section Rules

variable {sys : System σ τ α ι ω} {inv : σ → Prop} {at' : σ → τ → Prop} {s : Pool σ τ}
  {e : Move α ι}

theorem Keeps.idle {sh : σ} (h : inv sh) : Keeps inv at' sh (.idle sh : Result σ τ ω) where
  shared := h
  others _ ht := ht
  next _ ht := absurd ht not_mem_nil

theorem Asserted.of_keeps (h : Asserted inv at' s)
    (hkeeps : Keeps inv at' s.shared (sys.result s e)) : Asserted inv at' (sys.step s e).1 where
  shared := hkeeps.shared
  tasks t ht := by
    rcases System.mem_step_tasks ht with hold | hnext
    · exact hkeeps.others t (h.tasks t hold)
    · exact hkeeps.next t hnext

theorem Asserted.step (h : Asserted inv at' s)
    (harrive : ∀ a, e = .arrive a → Keeps inv at' s.shared (sys.arrive s.shared a))
    (hact : ∀ i input t, e = .advance i input → s.tasks[i]? = some t → at' s.shared t →
      Keeps inv at' s.shared (sys.act s.shared t input)) : Asserted inv at' (sys.step s e).1 := by
  refine h.of_keeps (System.result_rule (.idle h.shared) harrive fun i input t he htask ↦ ?_)
  exact hact i input t he htask (h.tasks t (mem_of_getElem? htask))

end Rules

end Tasks
