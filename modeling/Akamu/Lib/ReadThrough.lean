import Akamu.Lib.Tasks

/-!
# Read-through caches

A store, a cache of what was read from it, and readers that have read and not
yet put what they read into the cache.  Writers change the store and then evict.
Nothing orders the readers and the writers, so a reader may bring a value into
the cache that is older than an eviction.
-/

namespace ReadThrough

open Machine Tasks

/-- Under a key several readers may hold values at once. -/
structure State (σ κ ν : Type*) where
  store : σ
  cached : κ → ν → Prop
  filling : κ → ν → Prop

variable {σ κ ν : Type*}

/-- One step, whoever takes it: what a reader has got it has read, and what is
new in the cache a reader has put there.  Writes and evictions are free. -/
structure Step (reads : σ → κ → ν → Prop) (st st' : State σ κ ν) : Prop where
  filling : ∀ k v, st'.filling k v → st.filling k v ∨ reads st.store k v
  cached : ∀ k v, st'.cached k v → st.cached k v ∨ st.filling k v

/-- The store has a property, and every value that a reader can still be given
for the key shows it. -/
structure Reflects (holds : σ → Prop) (good : ν → Prop) (k : κ) (st : State σ κ ν) : Prop where
  store : holds st.store
  filling : ∀ v, st.filling k v → good v
  cached : ∀ v, st.cached k v → good v

section Rules

variable {reads : σ → κ → ν → Prop} {holds : σ → Prop} {good : ν → Prop} {k : κ}
  {st st' : State σ κ ν}

theorem Reflects.step (h : Reflects holds good k st) (hstep : Step reads st st')
    (hreads : ∀ s v, holds s → reads s k v → good v) (hkept : holds st'.store) :
    Reflects holds good k st' where
  store := hkept
  filling v hv := by
    rcases hstep.filling k v hv with hold | hread
    · exact h.filling v hold
    · exact hreads st.store v h.store hread
  cached v hv := by
    rcases hstep.cached k v hv with hold | hfill
    · exact h.cached v hold
    · exact h.filling v hfill

theorem Reflects.of_evict (hstep : Step reads st st')
    (hreads : ∀ s v, holds s → reads s k v → good v) (hstore : holds st.store)
    (hkept : holds st'.store) (hidle : ∀ v, ¬ st.filling k v) (hevicted : ∀ v, ¬ st'.cached k v) :
    Reflects holds good k st' where
  store := hkept
  filling v hv := by
    rcases hstep.filling k v hv with hold | hread
    · exact absurd hold (hidle v)
    · exact hreads st.store v hstore hread
  cached v hv := absurd hv (hevicted v)

theorem Reflects.run {τ ε ω : Type*} {step : τ → ε → τ × ω} {ok : τ → ε → Prop}
    {view : τ → State σ κ ν} {inv : τ → Prop} {s : τ} {es : List ε}
    (hsim : ∀ s e, Step reads (view s) (view (step s e).1))
    (hreads : ∀ s v, holds s → reads s k v → good v)
    (hinvStep : ∀ s e, inv s → ok s e → inv (step s e).1)
    (hkept : ∀ s e, inv s → ok s e → holds (view s).store → holds (view (step s e).1).store)
    (hmeets : Meets step ok s es) (hinv : inv s) (h : Reflects holds good k (view s)) :
    Reflects holds good k (view (Machine.run step s es)) := by
  refine (hmeets.invariant (fun s ↦ inv s ∧ Reflects holds good k (view s)) ⟨hinv, h⟩ ?_).2
  rintro s e ⟨hinv, h⟩ hok
  exact ⟨hinvStep s e hinv hok, h.step (hsim s e) hreads (hkept s e hinv hok h.store)⟩

end Rules

/-! ## Readers as tasks -/

section Pool

variable {ς τ α ι ω : Type*} (store : ς → σ) (cached : ς → κ → ν → Prop)
  (carries : τ → κ → ν → Prop)

def view (s : Pool ς τ) : State σ κ ν where
  store := store s.shared
  cached := cached s.shared
  filling k v := ∃ t ∈ s.tasks, carries t k v

variable {store cached carries} {sys : System ς τ α ι ω} {reads : σ → κ → ν → Prop}

/-- A system takes steps of a read-through cache if arrivals carry and cache
nothing, and a task carries on what it carried or reads, and caches what it
carried. -/
theorem view_step
    (harrive : ∀ sh a t k v, t ∈ (sys.arrive sh a).next → ¬ carries t k v)
    (harriveCached : ∀ sh a k v, cached (sys.arrive sh a).shared k v → cached sh k v)
    (hact : ∀ sh t input t' k v, t' ∈ (sys.act sh t input).next → carries t' k v →
      carries t k v ∨ reads (store sh) k v)
    (hactCached : ∀ sh t input k v, cached (sys.act sh t input).shared k v →
      cached sh k v ∨ carries t k v)
    (s : Pool ς τ) (e : Move α ι) :
    Step reads (view store cached carries s) (view store cached carries (sys.step s e).1) := by
  constructor
  · rintro k v ⟨t', ht', hcarries⟩
    rcases System.mem_step_tasks ht' with hold | hnext
    · exact .inl ⟨t', hold, hcarries⟩
    · revert hnext
      refine System.result_rule (absurd · List.not_mem_nil) (fun a _ hnext ↦ ?_)
        fun i input t _ htask hnext ↦ ?_
      · exact absurd hcarries (harrive _ a t' k v hnext)
      · exact (hact _ t input t' k v hnext hcarries).imp_left fun hcarried ↦
          ⟨t, List.mem_of_getElem? htask, hcarried⟩
  · intro k v hcached
    have hshared : cached (sys.result s e).shared k v := hcached
    revert hshared
    refine System.result_rule .inl (fun a _ hshared ↦ .inl (harriveCached _ a k v hshared))
      fun i input t _ htask hshared ↦ ?_
    exact (hactCached _ t input k v hshared).imp_right fun hcarried ↦
      ⟨t, List.mem_of_getElem? htask, hcarried⟩

end Pool

end ReadThrough
