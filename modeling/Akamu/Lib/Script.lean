import Mathlib.Data.List.Basic

/-!
# Scripts of statements, transactions and savepoints

A script is a sequence of statements against a store, in which later statements
may depend on the answers to earlier ones.  A statement that fails changes
nothing and ends the script; what the statements before it have done stays, unless
it is rolled back.  Statements may also fail for reasons that are not theirs: a
script is run against a list that says for each statement in turn whether it
does.

A connection runs scripts inside transactions with savepoints.
-/

universe u

/-- `stmt f k`: execute `f` and go on with `k` of its answer. -/
inductive Script (ε σ : Type u) : Type u → Type (u + 1) where
  | pure {α : Type u} (a : α) : Script ε σ α
  | stmt {α β : Type u} (f : σ → Except ε (β × σ)) (k : β → Script ε σ α) : Script ε σ α

namespace Script

variable {ε σ α β : Type u}

def bind : Script ε σ α → (α → Script ε σ β) → Script ε σ β
  | .pure a, f => f a
  | .stmt g k, f => .stmt g fun b ↦ (k b).bind f

instance : Monad (Script ε σ) where
  pure := .pure
  bind := .bind

/-- The answer and what is left in the store, also when the script fails. -/
def run : Script ε σ α → List (Option ε) → σ → Except ε α × σ
  | .pure a, _, s => (.ok a, s)
  | .stmt _ _, some e :: _, s => (.error e, s)
  | .stmt f k, faults, s =>
    match f s with
    | .error e => (.error e, s)
    | .ok (b, s') => (k b).run faults.tail s'

/-- What the script does when nothing interferes. -/
def outcome : Script ε σ α → σ → Except ε (α × σ)
  | .pure a, s => .ok (a, s)
  | .stmt f k, s =>
    match f s with
    | .error e => .error e
    | .ok (b, s') => (k b).outcome s'

/-! ## Single statements -/

def ask (f : σ → α × σ) : Script ε σ α := .stmt (fun s ↦ .ok (f s)) .pure

/-- A statement that succeeds or fails. -/
def exec (f : σ → Except ε σ) : Script ε σ PUnit :=
  .stmt (fun s ↦ (f s).map fun s' ↦ (PUnit.unit, s')) .pure

def select (f : σ → Except ε α) : Script ε σ α := .stmt (fun s ↦ (f s).map fun a ↦ (a, s)) .pure

def relabel {ε' : Type u} (f : ε → ε') : Script ε σ α → Script ε' σ α
  | .pure a => .pure a
  | .stmt g k => .stmt (fun s ↦ (g s).mapError f) fun b ↦ (k b).relabel f

/-! ## What scripts compute -/

@[simp] theorem outcome_pure (a : α) (s : σ) :
    (Pure.pure a : Script ε σ α).outcome s = .ok (a, s) := rfl

@[simp] theorem outcome_bind (p : Script ε σ α) (f : α → Script ε σ β) (s : σ) :
    (p >>= f).outcome s = (p.outcome s).bind fun r ↦ (f r.1).outcome r.2 := by
  change (p.bind f).outcome s = _
  induction p generalizing s with
  | pure => rfl
  | stmt g k ih =>
    simp only [Script.bind, outcome]
    cases g s with
    | error => rfl
    | ok r => exact ih r.1 r.2

theorem outcome_pure_bind (a : α) (k : α → Script ε σ β) (s : σ) :
    (Pure.pure a >>= k).outcome s = (k a).outcome s := rfl

@[simp] theorem outcome_ask (f : σ → α × σ) (s : σ) :
    (ask f : Script ε σ α).outcome s = .ok (f s) := rfl

theorem outcome_ask_bind (f : σ → α × σ) (k : α → Script ε σ β) (s : σ) :
    (ask f >>= k).outcome s = (k (f s).1).outcome (f s).2 := rfl

@[simp] theorem outcome_exec (f : σ → Except ε σ) (s : σ) :
    (exec f).outcome s = (f s).map fun s' ↦ (PUnit.unit, s') := by
  simp only [exec, outcome]
  cases f s <;> rfl

theorem outcome_bind_of {p : Script ε σ PUnit} {f : σ → Except ε σ}
    (h : ∀ s, p.outcome s = (f s).map fun s' ↦ (PUnit.unit, s')) (k : PUnit → Script ε σ β) (s : σ) :
    (p >>= k).outcome s = f s >>= fun s' ↦ (k ⟨⟩).outcome s' := by
  rw [outcome_bind, h]
  cases f s <;> rfl

theorem outcome_exec_bind (f : σ → Except ε σ) (k : PUnit → Script ε σ β) (s : σ) :
    (exec f >>= k).outcome s = f s >>= fun s' ↦ (k ⟨⟩).outcome s' :=
  outcome_bind_of (outcome_exec f) k s

@[simp] theorem outcome_select (f : σ → Except ε α) (s : σ) :
    (select f).outcome s = (f s).map fun a ↦ (a, s) := by
  simp only [select, outcome]
  cases f s <;> rfl

theorem outcome_forM {ι : Type} {body : ι → Script ε σ PUnit} {f : σ → ι → Except ε σ}
    (h : ∀ i s, (body i).outcome s = (f s i).map fun s' ↦ (PUnit.unit, s')) (is : List ι) (s : σ) :
    (is.forM body).outcome s = (is.foldlM f s).map fun s' ↦ (PUnit.unit, s') := by
  induction is generalizing s with
  | nil => rfl
  | cons i is ih =>
    change (body i >>= fun _ ↦ is.forM body).outcome s = _
    rw [outcome_bind, h, List.foldlM_cons]
    cases f s i with
    | error => rfl
    | ok s' => exact ih s'

section Relabel

variable {ε' : Type u} (g : ε → ε')

@[simp] theorem relabel_pure (a : α) :
    (Pure.pure a : Script ε σ α).relabel g = Pure.pure a := rfl

@[simp] theorem relabel_bind (p : Script ε σ α) (f : α → Script ε σ β) :
    (p >>= f).relabel g = p.relabel g >>= fun a ↦ (f a).relabel g := by
  change (p.bind f).relabel g = (p.relabel g).bind _
  induction p with
  | pure => rfl
  | stmt h k ih =>
    simp only [Script.bind, relabel]
    congr
    funext b
    exact ih b

@[simp] theorem relabel_ask (f : σ → α × σ) : (ask f : Script ε σ α).relabel g = ask f := rfl

@[simp] theorem relabel_select (f : σ → Except ε α) :
    (select f).relabel g = select fun s ↦ (f s).mapError g := by
  simp only [select, relabel]
  congr
  funext s
  cases f s <;> rfl

theorem outcome_relabel (p : Script ε σ α) (s : σ) :
    (p.relabel g).outcome s = (p.outcome s).mapError g := by
  induction p generalizing s with
  | pure => rfl
  | stmt f k ih =>
    simp only [relabel, outcome]
    cases f s with
    | error => rfl
    | ok r => exact ih r.1 r.2

end Relabel

theorem outcome_of_run {p : Script ε σ α} {faults : List (Option ε)} {s s' : σ} {a : α}
    (h : p.run faults s = (.ok a, s')) : p.outcome s = .ok (a, s') := by
  induction p generalizing faults s with
  | pure =>
    cases h
    rfl
  | stmt f k ih =>
    match faults with
    | some e :: _ => cases h
    | [] =>
      simp only [run, outcome] at h ⊢
      cases hf : f s with
      | error =>
        rw [hf] at h
        cases h
      | ok r =>
        rw [hf] at h
        exact ih r.1 h
    | none :: rest =>
      simp only [run, outcome] at h ⊢
      cases hf : f s with
      | error =>
        rw [hf] at h
        cases h
      | ok r =>
        rw [hf] at h
        exact ih r.1 h

theorem run_nil (p : Script ε σ α) (s : σ) :
    (∃ a s', p.outcome s = .ok (a, s') ∧ p.run [] s = (.ok a, s')) ∨
      ∃ e s', p.outcome s = .error e ∧ p.run [] s = (.error e, s') := by
  induction p generalizing s with
  | pure a => exact .inl ⟨a, s, rfl, rfl⟩
  | stmt f k ih =>
    simp only [run, outcome]
    cases f s with
    | error e => exact .inr ⟨e, s, rfl, rfl⟩
    | ok r => exact ih r.1 r.2

end Script

/-! ## Connections -/

/-- A transaction in progress.  Each savepoint keeps the contents at the time it
was set; the innermost one comes first. -/
structure Transaction (σ : Type u) where
  work : σ
  savepoints : List (String × σ)

structure Connection (σ : Type u) where
  committed : σ
  transaction : Option (Transaction σ)

namespace Connection

variable {ε σ α : Type u}

/-- `BEGIN`; an error inside a transaction. -/
def start (c : Connection σ) : Connection σ :=
  match c.transaction with
  | none => { c with transaction := some ⟨c.committed, []⟩ }
  | some _ => c

def commit (c : Connection σ) : Connection σ :=
  match c.transaction with
  | none => c
  | some t => ⟨t.work, none⟩

def rollback (c : Connection σ) : Connection σ := { c with transaction := none }

def savepoint (name : String) (c : Connection σ) : Connection σ :=
  { c with transaction := c.transaction.map fun t ↦
      { t with savepoints := (name, t.work) :: t.savepoints } }

def release (name : String) (c : Connection σ) : Connection σ :=
  { c with transaction := c.transaction.map fun t ↦
      { t with savepoints := (t.savepoints.dropWhile fun p ↦ p.1 != name).tail } }

def rollbackTo (name : String) (c : Connection σ) : Connection σ :=
  { c with transaction := c.transaction.map fun t ↦
      match t.savepoints.dropWhile fun p ↦ p.1 != name with
      | [] => t
      | p :: rest => ⟨p.2, p :: rest⟩ }

def run (c : Connection σ) (p : Script ε σ α) (faults : List (Option ε)) :
    Connection σ × Except ε α :=
  match c.transaction with
  | none =>
    let r := p.run faults c.committed
    ({ c with committed := r.2 }, r.1)
  | some t =>
    let r := p.run faults t.work
    ({ c with transaction := some { t with work := r.2 } }, r.1)

/-- A script under a savepoint of its own, undone if it fails. -/
def isolated (c : Connection σ) (name : String) (p : Script ε σ α) (faults : List (Option ε)) :
    Connection σ × Except ε α :=
  let r := (c.savepoint name).run p faults
  match r.2 with
  | .ok a => (r.1.release name, .ok a)
  | .error e => ((r.1.rollbackTo name).release name, .error e)

/-- A script in a transaction of its own, undone if it fails. -/
def transact (c : Connection σ) (p : Script ε σ α) : Connection σ × Except ε α :=
  let r := c.start.run p []
  match r.2 with
  | .ok a => (r.1.commit, .ok a)
  | .error e => (r.1.rollback, .error e)

variable {t : Transaction σ}

theorem isolated_eq (c : Connection σ) (hc : c.transaction = some t) (name : String)
    (p : Script ε σ α) (faults : List (Option ε)) :
    (∃ a s, p.outcome t.work = .ok (a, s) ∧
      c.isolated name p faults = ({ c with transaction := some { t with work := s } }, .ok a)) ∨
    ∃ e, c.isolated name p faults = (c, .error e) := by
  obtain ⟨committed, transaction⟩ := c
  cases hc
  simp only [isolated, savepoint, run, Option.map_some]
  cases hrun : p.run faults t.work with
  | mk answer s =>
    cases answer with
    | ok a =>
      refine .inl ⟨a, s, Script.outcome_of_run hrun, ?_⟩
      simp [release]
    | error =>
      simp [release, rollbackTo]

theorem isolated_nil (c : Connection σ) (hc : c.transaction = some t) (name : String)
    (p : Script ε σ α) :
    c.isolated name p [] = match p.outcome t.work with
      | .ok r => ({ c with transaction := some { t with work := r.2 } }, .ok r.1)
      | .error e => (c, .error e) := by
  obtain ⟨committed, transaction⟩ := c
  cases hc
  rcases p.run_nil t.work with ⟨a, s, hout, hrun⟩ | ⟨e, s, hout, hrun⟩
  · simp [isolated, savepoint, run, hrun, hout, release]
  · simp [isolated, savepoint, run, hrun, hout, release, rollbackTo]

theorem transact_eq (s : σ) (p : Script ε σ α) :
    (⟨s, none⟩ : Connection σ).transact p = match p.outcome s with
      | .ok r => (⟨r.2, none⟩, .ok r.1)
      | .error e => (⟨s, none⟩, .error e) := by
  rcases p.run_nil s with ⟨a, s', hout, hrun⟩ | ⟨e, s', hout, hrun⟩
  · simp [transact, start, run, hrun, hout, commit]
  · simp [transact, start, run, hrun, hout, rollback]

end Connection

/-! ## Serial execution -/

/-- The scripts that were answered with a result, executed one after another;
the others leave no trace. -/
inductive Serial {ε σ α : Type u} : σ → List (Script ε σ α) → List (Except ε α) → σ → Prop where
  | nil (s : σ) : Serial s [] [] s
  | ok {p : Script ε σ α} {ps : List (Script ε σ α)} {a : α} {as : List (Except ε α)} {s s₁ s' : σ}
      (h : p.outcome s = .ok (a, s₁)) (hrest : Serial s₁ ps as s') :
      Serial s (p :: ps) (.ok a :: as) s'
  | error {p : Script ε σ α} {ps : List (Script ε σ α)} (e : ε) {as : List (Except ε α)}
      {s s' : σ} (hrest : Serial s ps as s') : Serial s (p :: ps) (.error e :: as) s'

namespace Serial

variable {ε σ α : Type u} {ps qs : List (Script ε σ α)} {as bs : List (Except ε α)} {s s' s'' : σ}

theorem append (h : Serial s ps as s') (h' : Serial s' qs bs s'') :
    Serial s (ps ++ qs) (as ++ bs) s'' := by
  induction h with
  | nil => exact h'
  | ok hp _ ih => exact .ok hp (ih h')
  | error e _ ih => exact .error e (ih h')

theorem refused (s : σ) (hlength : as.length = ps.length) (h : ∀ a ∈ as, ∃ e, a = .error e) :
    Serial s ps as s := by
  induction ps generalizing as with
  | nil =>
    rw [List.length_eq_zero_iff.mp hlength]
    exact .nil s
  | cons p ps ih =>
    match as with
    | [] => cases hlength
    | a :: as =>
      obtain ⟨e, rfl⟩ := h a List.mem_cons_self
      exact .error e (ih (Nat.succ.inj hlength) fun a ha ↦ h a (List.mem_cons_of_mem _ ha))

end Serial
