import Mathlib.Data.List.Basic

/-!
# Inverting computations that may fail
-/

namespace Except

open List

universe u v

variable {ε : Type u} {α β : Type v}

variable {l : List α} {f : α → Except ε β} {x : Except ε α} {b : β} {l' : List β} {a : α}

theorem bind_eq_ok (h : x >>= f = .ok b) : ∃ a, x = .ok a ∧ f a = .ok b := by
  cases x with
  | error => cases h
  | ok a => exact ⟨a, rfl, h⟩

theorem map_eq_ok {f : α → β} (h : x.map f = .ok b) : ∃ a, x = .ok a ∧ f a = b := by
  cases x with
  | error => cases h
  | ok a =>
    cases h
    exact ⟨a, rfl, rfl⟩

theorem map_eq_bind (f : α → β) (x : Except ε α) : x.map f = x >>= fun a ↦ .ok (f a) := by
  cases x <;> rfl

theorem forM_eq_ok_iff {α : Type} {ε : Type u} {f : α → Except ε PUnit} {l : List α} :
    l.forM f = .ok ⟨⟩ ↔ ∀ a ∈ l, f a = .ok ⟨⟩ := by
  induction l with
  | nil => simp [List.forM, pure, Except.pure]
  | cons a l ih =>
    rw [forall_mem_cons, ← ih]
    change (f a >>= fun _ ↦ l.forM f) = .ok ⟨⟩ ↔ _
    cases hfa : f a with
    | error | ok => simp [bind, Except.bind]

theorem exists_of_mem_mapM (h : l.mapM f = .ok l') (hb : b ∈ l') : ∃ a ∈ l, f a = .ok b := by
  induction l generalizing l' with
  | nil =>
    cases h
    cases hb
  | cons a l ih =>
    rw [mapM_cons] at h
    obtain ⟨b₁, hb₁, h⟩ := bind_eq_ok h
    obtain ⟨l₁, hl₁, h⟩ := bind_eq_ok h
    cases h
    rcases mem_cons.mp hb with rfl | htail
    · exact ⟨a, mem_cons_self, hb₁⟩
    · obtain ⟨a', ha', hfa'⟩ := ih hl₁ htail
      exact ⟨a', mem_cons_of_mem a ha', hfa'⟩

theorem exists_result_of_mem (h : l.mapM f = .ok l') (ha : a ∈ l) : ∃ b ∈ l', f a = .ok b := by
  induction l generalizing l' with
  | nil => cases ha
  | cons a₀ l ih =>
    rw [mapM_cons] at h
    obtain ⟨b₁, hb₁, h⟩ := bind_eq_ok h
    obtain ⟨l₁, hl₁, h⟩ := bind_eq_ok h
    cases h
    rcases mem_cons.mp ha with rfl | htail
    · exact ⟨b₁, mem_cons_self, hb₁⟩
    · obtain ⟨b, hb, hfb⟩ := ih hl₁ htail
      exact ⟨b, mem_cons_of_mem b₁ hb, hfb⟩

theorem map_of_mapM {γ : Type*} {g : β → γ} {k : α → γ} (hf : ∀ a b, f a = .ok b → g b = k a)
    (h : l.mapM f = .ok l') : l'.map g = l.map k := by
  induction l generalizing l' with
  | nil =>
    cases h
    rfl
  | cons a l ih =>
    rw [mapM_cons] at h
    obtain ⟨b, hb, h⟩ := bind_eq_ok h
    obtain ⟨l₁, hl₁, h⟩ := bind_eq_ok h
    cases h
    rw [map_cons, map_cons, hf a b hb, ih hl₁]

theorem exists_mapM (h : ∀ a ∈ l, ∃ b, f a = .ok b) : ∃ l', l.mapM f = .ok l' := by
  induction l with
  | nil => exact ⟨[], rfl⟩
  | cons a l ih =>
    obtain ⟨b, hb⟩ := h a mem_cons_self
    obtain ⟨l', hl'⟩ := ih fun a' ha' ↦ h a' (mem_cons_of_mem a ha')
    exact ⟨b :: l', by rw [mapM_cons, hb, hl']; rfl⟩

theorem mapError_injective {ε' : Type u} {f : ε → ε'} (hf : f.Injective) :
    (Except.mapError f : Except ε α → Except ε' α).Injective := by
  intro x y h
  cases x <;> cases y <;> simp_all [Except.mapError, hf.eq_iff]

theorem mapError_eq_ok_iff {ε' : Type u} {f : ε → ε'} : x.mapError f = .ok a ↔ x = .ok a := by
  cases x <;> simp [Except.mapError]

theorem toOption_eq_some_iff : x.toOption = some a ↔ x = .ok a := by
  cases x <;> simp [Except.toOption]

theorem mem_filterMap_of_mapM {f : α → Except ε (Option β)} {l' : List (Option β)}
    (h : l.mapM f = .ok l') : b ∈ l'.filterMap id ↔ ∃ a ∈ l, f a = .ok (some b) := by
  rw [mem_filterMap]
  constructor
  · rintro ⟨_, hmem, rfl⟩
    exact exists_of_mem_mapM h hmem
  · rintro ⟨a, ha, hfa⟩
    obtain ⟨b', hb', hfa'⟩ := exists_result_of_mem h ha
    rw [hfa] at hfa'
    cases hfa'
    exact ⟨some b, hb', rfl⟩

end Except

namespace StateT

universe u v

variable {ε : Type v} {σ α β : Type u} {f : α → StateT σ (Except ε) β}

theorem bind_eq_ok {x : StateT σ (Except ε) α} {s : σ} {r : β × σ} (h : (x >>= f) s = .ok r) :
    ∃ a s', x s = .ok (a, s') ∧ f a s' = .ok r := by
  obtain ⟨⟨a, s'⟩, hx, hf⟩ := Except.bind_eq_ok (x := x s) h
  exact ⟨a, s', hx, hf⟩

theorem lift_bind_eq_ok {x : Except ε α} {s : σ} {r : β × σ}
    (h : ((x : StateT σ (Except ε) α) >>= f) s = .ok r) : ∃ a, x = .ok a ∧ f a s = .ok r := by
  obtain ⟨a, s', hx, hf⟩ := bind_eq_ok h
  cases x with
  | error => cases hx
  | ok =>
    cases hx
    exact ⟨a, rfl, hf⟩

end StateT
