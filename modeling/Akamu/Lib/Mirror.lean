import Mathlib.Logic.Basic

/-!
# A store and a copy that lags behind

Writes go to the store first; the copy is brought up to date later, one key at a
time.  In between the key is outstanding.  What is kept is that every entry of
the copy describes the row of the store, except at outstanding keys.
-/

variable {κ ρ ε : Type*}

/-- `agrees e r`: the entry `e` describes the row `r`. -/
def Mirrors (agrees : ε → ρ → Prop) (store : κ → Option ρ) (copy : κ → Option ε)
    (outstanding : κ → Prop) : Prop :=
  ∀ k e, copy k = some e → ∃ r, store k = some r ∧ (outstanding k ∨ agrees e r)

namespace Mirrors

variable {agrees : ε → ρ → Prop} {store store' : κ → Option ρ} {copy copy' : κ → Option ε}
  {outstanding outstanding' : κ → Prop}

theorem settled (h : Mirrors agrees store copy outstanding) {k : κ} {e : ε}
    (hk : ¬ outstanding k) (he : copy k = some e) : ∃ r, store k = some r ∧ agrees e r := by
  obtain ⟨r, hr, hout | hagrees⟩ := h k e he
  · exact absurd hout hk
  · exact ⟨r, hr, hagrees⟩

theorem agrees_of_settled (h : Mirrors agrees store copy outstanding) {k : κ} {e : ε} {r : ρ}
    (hk : ¬ outstanding k) (he : copy k = some e) (hr : store k = some r) : agrees e r := by
  obtain ⟨r', hr', hagrees⟩ := h.settled hk he
  rw [hr] at hr'
  cases hr'
  exact hagrees

/-- A write to the store: the rows it changes become outstanding, unless the copy
does not have them. -/
theorem write (h : Mirrors agrees store copy outstanding)
    (hstore : ∀ k r, store k = some r →
      ∃ r', store' k = some r' ∧ (r' = r ∨ ∀ e, copy k = some e → outstanding' k))
    (hout : ∀ k, outstanding k → outstanding' k) : Mirrors agrees store' copy outstanding' := by
  intro k e he
  obtain ⟨r, hr, hcase⟩ := h k e he
  obtain ⟨r', hr', rfl | hout'⟩ := hstore k r hr
  · exact ⟨r', hr', hcase.imp_left (hout k)⟩
  · exact ⟨r', hr', .inl (hout' e he)⟩

theorem update (h : Mirrors agrees store copy outstanding)
    (hcopy : ∀ k e, copy' k = some e → (copy k = some e ∧ (outstanding k → outstanding' k)) ∨
      ∃ r, store k = some r ∧ agrees e r) : Mirrors agrees store copy' outstanding' := by
  intro k e he
  rcases hcopy k e he with ⟨hold, hout⟩ | ⟨r, hr, hagrees⟩
  · obtain ⟨r, hr, hcase⟩ := h k e hold
    exact ⟨r, hr, hcase.imp_left hout⟩
  · exact ⟨r, hr, .inr hagrees⟩

theorem mono (h : Mirrors agrees store copy outstanding)
    (hout : ∀ k, outstanding k → outstanding' k) : Mirrors agrees store copy outstanding' :=
  h.update fun k _ he ↦ .inl ⟨he, hout k⟩

end Mirrors
