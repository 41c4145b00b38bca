import Mathlib.Data.Int.ConditionallyCompleteOrder
import Mathlib.Order.Basic
import Mathlib.Data.Option.Basic

/-!
# Memories that outlast what they guard against

A guard lets an item pass only while the item is fresh, and remembers what it
has let pass: each memory carries the time at which it was made or renewed, and
is dropped once it is no longer kept.  An item passes once only if it has gone
stale for good by the time its memory may be dropped.
-/

namespace ReplayWindow

variable {τ α : Type*} [Preorder τ] {fresh : τ → α → Prop} {kept : τ → τ → Prop}
  {memory : Option τ} {stamp now now' : τ} {x : α}

/-- A memory made at `stamp` is not dropped while `x` can still become fresh. -/
def Outlasts (fresh : τ → α → Prop) (kept : τ → τ → Prop) (stamp : τ) (x : α) : Prop :=
  ∀ now, stamp ≤ now → ¬ kept now stamp → ∀ later, now ≤ later → ¬ fresh later x

def Covered (fresh : τ → α → Prop) (kept : τ → τ → Prop) (memory : Option τ) (now : τ)
    (x : α) : Prop :=
  (∃ stamp ≤ now, memory = some stamp ∧ Outlasts fresh kept stamp x) ∨
    ∀ later, now ≤ later → ¬ fresh later x

theorem Outlasts.renew (h : Outlasts fresh kept stamp x)
    (hkept : ∀ now old new, old ≤ new → kept now old → kept now new) (hle : stamp ≤ now) :
    Outlasts fresh kept now x := by
  intro t ht hdropped
  exact h t (hle.trans ht) fun hk ↦ hdropped (hkept t stamp now hle hk)

namespace Covered

theorem later (h : Covered fresh kept memory now x) (hle : now ≤ now') :
    Covered fresh kept memory now' x := by
  rcases h with ⟨stamp, hstamp, hmemory, hlasts⟩ | hstale
  · exact .inl ⟨stamp, hstamp.trans hle, hmemory, hlasts⟩
  · exact .inr fun t ht ↦ hstale t (hle.trans ht)

theorem prune (h : Covered fresh kept memory now x) {p : τ → Bool}
    (hp : ∀ stamp, kept now stamp → p stamp) : Covered fresh kept (memory.filter p) now x := by
  rcases h with ⟨stamp, hstamp, rfl, hlasts⟩ | hstale
  · by_cases hkept : kept now stamp
    · exact .inl ⟨stamp, hstamp, Option.filter_some_pos (hp stamp hkept), hlasts⟩
    · exact .inr (hlasts now hstamp hkept)
  · exact .inr hstale

theorem renew (h : Covered fresh kept memory now x)
    (hkept : ∀ now old new, old ≤ new → kept now old → kept now new) :
    Covered fresh kept (some now) now x := by
  rcases h with ⟨stamp, hstamp, -, hlasts⟩ | hstale
  · exact .inl ⟨now, le_rfl, rfl, hlasts.renew hkept hstamp⟩
  · exact .inr hstale

theorem not_fresh (h : Covered fresh kept none now x) : ¬ fresh now x := by
  rcases h with ⟨_, -, hmemory, -⟩ | hstale
  · cases hmemory
  · exact hstale now le_rfl

end Covered

end ReplayWindow
