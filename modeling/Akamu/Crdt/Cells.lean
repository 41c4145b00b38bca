import Mathlib.Data.Int.ConditionallyCompleteOrder
import Mathlib.Order.ConditionallyCompleteLattice.Basic
import Mathlib.Data.Prod.Lex
import Mathlib.Data.String.Basic
import Akamu.Lib.Stamped
import Akamu.Crdt.OrMap
import Akamu.Crdt.Lww

/-!
# Map entries and registers as stamped cells

What readers and merges see of an entry.  In an observed-remove map an absent
key is below every live entry, a live entry is stamped with its `added_at`, and
a tombstone is above all of them; the value buried under a tombstone is not part
of the content.  A register is stamped with its timestamp and node id.

With that, all three merges are one: take over the fresher content under a new
generation number, or keep what is there.
-/

namespace Akamu.Crdt

open KeyedTable Option

abbrev Stamp := WithBot (WithTop (ℤ ×ₗ String))

def Stamp.at (timestamp : ℤ) (node : String) : Stamp :=
  ((toLex (timestamp, node) : ℤ ×ₗ String) : WithTop (ℤ ×ₗ String))

theorem Stamp.at_lt_at {t t' : ℤ} {n n' : String} :
    Stamp.at t n < Stamp.at t' n' ↔ t < t' ∨ t = t' ∧ n < n' := by
  rw [Stamp.at, Stamp.at, WithBot.coe_lt_coe, WithTop.coe_lt_coe, Prod.Lex.lt_iff]
  rfl

theorem Stamp.at_le_at {t t' : ℤ} {n : String} (h : t ≤ t') : Stamp.at t n ≤ Stamp.at t' n := by
  refine not_lt.mp fun hlt ↦ ?_
  rcases Stamp.at_lt_at.mp hlt with hlt | ⟨_, hlt⟩
  · exact absurd hlt (not_lt.mpr h)
  · exact lt_irrefl _ hlt

theorem Stamp.at_inj {t t' : ℤ} {n n' : String} :
    Stamp.at t n = Stamp.at t' n' ↔ t = t' ∧ n = n' := by
  rw [Stamp.at, Stamp.at, WithBot.coe_inj, WithTop.coe_inj, toLex_inj, Prod.mk.injEq]

def Stamp.node? (s : Stamp) : Option String :=
  WithBot.recBotCoe none (fun t ↦ WithTop.recTopCoe none (fun p ↦ some (ofLex p).2) t) s

@[simp] theorem Stamp.node?_at (t : ℤ) (n : String) : (Stamp.at t n).node? = some n := rfl

theorem Stamp.bot_lt_at (t : ℤ) (n : String) : ⊥ < Stamp.at t n := WithBot.bot_lt_coe _

theorem Stamp.at_lt_top (t : ℤ) (n : String) : Stamp.at t n < ⊤ :=
  WithBot.coe_lt_coe.mpr (WithTop.coe_lt_top _)

theorem Stamp.bot_lt_top : (⊥ : Stamp) < ⊤ := WithBot.bot_lt_coe _

abbrev Content (V : Type) := Stamped Stamp (Option V)

/-- A register that `merge` takes for one that was never written. -/
def Content.Unset {V : Type} (s : Content V) : Prop := s.value = none ∧ ∃ n, s.stamp = .at 0 n

structure Slot (V : Type) where
  content : Content V
  gen : ℕ

/-- What a merge can make of our slot: the counter runs from `gen` to `gen'`. -/
inductive Slot.Merged {V : Type} (gen gen' : ℕ) (mine theirs : Slot V) : Slot V → Prop
  | kept (h : theirs.content.stamp ≤ mine.content.stamp ∨ theirs.content.Unset) :
      Merged gen gen' mine theirs mine
  | taken (g : ℕ) (hlt : mine.content.stamp < theirs.content.stamp) (hset : ¬ theirs.content.Unset)
      (hgen : gen < g) (hgen' : g ≤ gen') : Merged gen gen' mine theirs ⟨theirs.content, g⟩

theorem Slot.Merged.mono {V : Type} {gen₁ gen₁' gen₂ gen₂' : ℕ} {mine theirs new : Slot V}
    (h : Slot.Merged gen₁ gen₁' mine theirs new) (hle : gen₂ ≤ gen₁) (hle' : gen₁' ≤ gen₂') :
    Slot.Merged gen₂ gen₂' mine theirs new := by
  cases h with
  | kept h => exact .kept h
  | taken g hlt hset => exact .taken g hlt hset (by omega) (by omega)

theorem Slot.Merged.content_unique {V : Type} {gen₁ gen₁' gen₂ gen₂' : ℕ}
    {mine mine' theirs new new' : Slot V} (h : Slot.Merged gen₁ gen₁' mine theirs new)
    (h' : Slot.Merged gen₂ gen₂' mine' theirs new') (heq : mine.content = mine'.content) :
    new.content = new'.content := by
  cases h with
  | kept hkept =>
    cases h' with
    | kept => exact heq
    | taken _ hlt hset => exact absurd (heq ▸ hlt) (not_lt.mpr (hkept.resolve_right hset))
  | taken _ hlt hset =>
    cases h' with
    | kept hkept => exact absurd (heq ▸ hlt) (not_lt.mpr (hkept.resolve_right hset))
    | taken => rfl

theorem Slot.Merged.content_eq {V : Type} {gen gen' : ℕ} {mine theirs new : Slot V}
    (h : Slot.Merged gen gen' mine theirs new) (hset : ¬ theirs.content.Unset) :
    new.content = mine.content.join theirs.content := by
  cases h with
  | kept h => rw [Stamped.join_of_le (h.resolve_right hset)]
  | taken _ hlt => rw [Stamped.join_of_lt hlt]

/-- A write under the stamp of `c'` tells an older content from `c'`. -/
theorem Content.exists_separating {V : Type} [Nontrivial V] {c c' : Content V} {t : ℤ} {n : String}
    (hne : c ≠ c') (hle : c.stamp ≤ c'.stamp) (hc' : c'.stamp = .at t n) :
    ∃ v : V, (c.join ⟨.at t n, some v⟩).value ≠ (c'.join ⟨.at t n, some v⟩).value := by
  obtain ⟨v, hv⟩ : ∃ v : V, some v ≠ c'.value := by
    obtain ⟨v, w, hvw⟩ := exists_pair_ne V
    by_cases h : some v = c'.value
    · exact ⟨w, fun hw ↦ hvw (some.inj (h.trans hw.symm))⟩
    · exact ⟨v, h⟩
  refine ⟨v, ?_⟩
  have hkept : c'.join ⟨.at t n, some v⟩ = c' := Stamped.join_of_le hc'.ge
  rw [hkept]
  rcases hle.lt_or_eq with hlt | heq
  · have htaken : c.join ⟨.at t n, some v⟩ = ⟨.at t n, some v⟩ := Stamped.join_of_lt (hc' ▸ hlt)
    rw [htaken]
    exact hv
  · have hkept' : c.join ⟨.at t n, some v⟩ = c := Stamped.join_of_le (heq.trans hc').ge
    rw [hkept']
    intro hvalue
    refine hne ?_
    obtain ⟨stamp, value⟩ := c
    obtain rfl : stamp = c'.stamp := heq
    obtain rfl : value = c'.value := hvalue
    rfl

/-! ## Observed-remove maps -/

def OrMapEntry.content {V : Type} (e : OrMapEntry V) : Content V :=
  if e.tombstone then ⟨⊤, none⟩ else ⟨.at e.addedAt "", some e.value⟩

def OrMapEntry.slot {V : Type} (e : OrMapEntry V) : Slot V := ⟨e.content, e.localGen⟩

theorem OrMapEntry.content_of_tombstone {V : Type} {e : OrMapEntry V} (h : e.tombstone = true) :
    e.content = ⟨⊤, none⟩ := by
  rw [OrMapEntry.content, if_pos h]

theorem OrMapEntry.content_of_live {V : Type} {e : OrMapEntry V} (h : e.tombstone = false) :
    e.content = ⟨.at e.addedAt "", some e.value⟩ := by
  rw [OrMapEntry.content, if_neg (by simp [h])]

theorem OrMapEntry.content_eq_iff {V : Type} {e e' : OrMapEntry V} :
    e.content = e'.content ↔ e.tombstone = e'.tombstone ∧
      (e'.tombstone = false → e.addedAt = e'.addedAt ∧ e.value = e'.value) := by
  cases h : e.tombstone with
  | true =>
    rw [e.content_of_tombstone h]
    cases h' : e'.tombstone with
    | true => simp [e'.content_of_tombstone h']
    | false => simp [e'.content_of_live h']
  | false =>
    rw [e.content_of_live h]
    cases h' : e'.tombstone with
    | true => simp [e'.content_of_tombstone h']
    | false => simp [e'.content_of_live h', Stamp.at_inj]

theorem OrMapEntry.not_unset {V : Type} (e : OrMapEntry V) : ¬ e.content.Unset := by
  rintro ⟨hvalue, n, hstamp⟩
  cases h : e.tombstone with
  | true =>
    rw [e.content_of_tombstone h] at hstamp
    exact absurd hstamp.symm (Stamp.at_lt_top 0 n).ne
  | false =>
    rw [e.content_of_live h] at hvalue
    cases hvalue

theorem OrMapEntry.bot_lt_stamp {V : Type} (e : OrMapEntry V) : ⊥ < e.content.stamp := by
  cases h : e.tombstone with
  | true =>
    rw [e.content_of_tombstone h]
    exact Stamp.bot_lt_top
  | false =>
    rw [e.content_of_live h]
    exact Stamp.bot_lt_at _ _

/-- What a merge makes of our entry and theirs; the counter runs from `gen` to
`gen'`. -/
inductive OrMapEntry.Joined {V : Type} (gen gen' : ℕ) :
    Option (OrMapEntry V) → Option (OrMapEntry V) → Option (OrMapEntry V) → Prop
  | kept {mine theirs : Option (OrMapEntry V)} (h : ∀ o ∈ theirs, ∃ s ∈ mine,
      s.tombstone = true ∨ o.tombstone = false ∧ o.addedAt ≤ s.addedAt) :
      Joined gen gen' mine theirs mine
  | taken {mine : Option (OrMapEntry V)} {o : OrMapEntry V} (g : ℕ) (h : ∀ s ∈ mine,
      s.tombstone = false ∧ o.tombstone = false ∧ s.addedAt < o.addedAt)
      (hgen : gen < g) (hgen' : g ≤ gen') :
      Joined gen gen' mine (some o) (some { o with localGen := g })
  | buried {s o : OrMapEntry V} (g : ℕ) (hs : s.tombstone = false) (ho : o.tombstone = true)
      (hgen : gen < g) (hgen' : g ≤ gen') :
      Joined gen gen' (some s) (some o)
        (some { s with tombstone := true, tombstoneAt := o.tombstoneAt, localGen := g })

namespace OrMapEntry.Joined

variable {V : Type} {gen gen' gen₂ gen₂' : ℕ} {mine theirs new : Option (OrMapEntry V)}

theorem mono (h : Joined gen gen' mine theirs new) (hle : gen₂ ≤ gen) (hle' : gen' ≤ gen₂') :
    Joined gen₂ gen₂' mine theirs new := by
  cases h with
  | kept h => exact .kept h
  | taken g h => exact .taken g h (by omega) (by omega)
  | buried g hs ho => exact .buried g hs ho (by omega) (by omega)

theorem merged (h : Joined gen gen' mine theirs new) :
    Slot.Merged gen gen' ((mine.map OrMapEntry.slot).getD ⟨⟨⊥, none⟩, 0⟩)
      ((theirs.map OrMapEntry.slot).getD ⟨⟨⊥, none⟩, 0⟩)
      ((new.map OrMapEntry.slot).getD ⟨⟨⊥, none⟩, 0⟩) := by
  cases h with
  | kept h =>
    refine .kept (.inl ?_)
    cases theirs with
    | none => exact bot_le
    | some o =>
      obtain ⟨s, rfl, hkept⟩ := h o rfl
      change o.content.stamp ≤ s.content.stamp
      cases hs : s.tombstone with
      | true =>
        rw [s.content_of_tombstone hs]
        exact le_top
      | false =>
        obtain ⟨ho, hle⟩ := hkept.resolve_left (by simp [hs])
        rw [o.content_of_live ho, s.content_of_live hs]
        exact Stamp.at_le_at hle
  | @taken mine o g h hgen hgen' =>
    refine .taken g ?_ o.not_unset hgen hgen'
    cases mine with
    | none => exact o.bot_lt_stamp
    | some s =>
      obtain ⟨hs, ho, hlt⟩ := h s rfl
      change s.content.stamp < o.content.stamp
      rw [s.content_of_live hs, o.content_of_live ho]
      exact Stamp.at_lt_at.mpr (.inl hlt)
  | @buried s o g hs ho hgen hgen' =>
    have hnew (t : Option Int) :
        OrMapEntry.slot { s with tombstone := true, tombstoneAt := t, localGen := g } =
          ⟨o.content, g⟩ := by
      rw [o.content_of_tombstone ho]
      rfl
    change Slot.Merged gen gen' s.slot o.slot (OrMapEntry.slot _)
    rw [hnew]
    refine .taken g ?_ o.not_unset hgen hgen'
    change s.content.stamp < o.content.stamp
    rw [s.content_of_live hs, o.content_of_tombstone ho]
    exact Stamp.at_lt_top _ _

end OrMapEntry.Joined

namespace OrMap

variable {K V : Type} [DecidableEq K]

def slot (m : OrMap K V) (key : K) : Slot V :=
  ((m.lookup key).map OrMapEntry.slot).getD ⟨⟨⊥, none⟩, 0⟩

variable {m : OrMap K V} {key : K}

theorem slot_of_lookup {e : OrMapEntry V} (h : m.lookup key = some e) : m.slot key = e.slot := by
  simp [slot, h]

theorem content_of_lookup {e : OrMapEntry V} (h : m.lookup key = some e) :
    (m.slot key).content = e.content :=
  congrArg Slot.content (slot_of_lookup h)

theorem slot_of_none (h : m.lookup key = none) : m.slot key = ⟨⟨⊥, none⟩, 0⟩ := by
  simp [slot, h]

theorem get_eq_value (m : OrMap K V) (key : K) : m.get key = (m.slot key).content.value := by
  cases h : m.lookup key with
  | none => simp [get, h, slot_of_none h]
  | some e =>
    rw [slot_of_lookup h, get, h]
    cases ht : e.tombstone <;> simp [OrMapEntry.slot, OrMapEntry.content, ht]

theorem exists_of_stamp_eq {t : ℤ} (h : (m.slot key).content.stamp = .at t "") :
    ∃ e, m.lookup key = some e ∧ e.tombstone = false ∧ e.addedAt = t ∧
      (m.slot key).content = ⟨.at t "", some e.value⟩ := by
  cases hlookup : m.lookup key with
  | none =>
    rw [slot_of_none hlookup] at h
    exact absurd h (Stamp.bot_lt_at t "").ne
  | some e =>
    rw [content_of_lookup hlookup] at h ⊢
    cases htomb : e.tombstone with
    | true =>
      rw [e.content_of_tombstone htomb] at h
      exact absurd h.symm (Stamp.at_lt_top t "").ne
    | false =>
      rw [e.content_of_live htomb] at h ⊢
      obtain ⟨rfl, -⟩ := Stamp.at_inj.mp h
      exact ⟨e, rfl, htomb, rfl, rfl⟩

theorem content_of_stamp_top (h : (m.slot key).content.stamp = ⊤) :
    (m.slot key).content = ⟨⊤, none⟩ := by
  cases hlookup : m.lookup key with
  | none =>
    rw [slot_of_none hlookup] at h
    exact absurd h Stamp.bot_lt_top.ne
  | some e =>
    rw [content_of_lookup hlookup] at h ⊢
    cases htomb : e.tombstone with
    | true => rw [e.content_of_tombstone htomb]
    | false =>
      rw [e.content_of_live htomb] at h
      exact absurd h (Stamp.at_lt_top e.addedAt "").ne

theorem stamp_le_of_live {t : ℤ} (h : ∀ e ∈ m.lookup key, e.tombstone = false ∧ e.addedAt ≤ t) :
    (m.slot key).content.stamp ≤ .at t "" := by
  cases hlookup : m.lookup key with
  | none =>
    rw [slot_of_none hlookup]
    exact bot_le
  | some e =>
    obtain ⟨hlive, htime⟩ := h e hlookup
    rw [content_of_lookup hlookup, e.content_of_live hlive]
    exact Stamp.at_le_at htime

theorem not_unset (m : OrMap K V) (key : K) : ¬ (m.slot key).content.Unset := by
  cases hlookup : m.lookup key with
  | none =>
    rw [slot_of_none hlookup]
    rintro ⟨-, n, hstamp⟩
    exact absurd hstamp (Stamp.bot_lt_at 0 n).ne
  | some e =>
    rw [slot_of_lookup hlookup]
    exact e.not_unset

theorem slot_put (m : OrMap K V) (k : K) (e : OrMapEntry V) (key : K) :
    (OrMap.mk (m.entries.put (k, e))).slot key = if k = key then e.slot else m.slot key := by
  rw [slot, lookup_put]
  split
  · rfl
  · rfl

theorem content_slot (m : OrMap K V) (key : K) :
    (m.slot key).content = ((m.lookup key).map OrMapEntry.content).getD ⟨⊥, none⟩ := by
  rw [slot]
  cases m.lookup key <;> rfl

theorem content_load {ρ : Type} {rows : List ρ} {name : ρ → K} {entry : ρ → OrMapEntry V}
    (hnodup : (rows.map name).Nodup) (key : K) :
    ((load rows fun r ↦ (name r, entry r)).slot key).content =
      ((rows.find? fun r ↦ decide (name r = key)).map fun r ↦ (entry r).content).getD
        ⟨⊥, none⟩ := by
  rw [content_slot, lookup, entries_load, map_snd_find?_foldl_put hnodup, map_map]
  rfl

theorem content_cases (m : OrMap K V) (key : K) :
    (m.slot key).content = ⟨⊥, none⟩ ∨ (∃ t v, (m.slot key).content = ⟨.at t "", some v⟩) ∨
      (m.slot key).content = ⟨⊤, none⟩ := by
  rw [content_slot]
  cases m.lookup key with
  | none => exact .inl rfl
  | some e =>
    rw [map_some, getD_some]
    cases h : e.tombstone with
    | true => exact .inr (.inr (e.content_of_tombstone h))
    | false => exact .inr (.inl ⟨e.addedAt, e.value, e.content_of_live h⟩)

/-- A live entry of a peer tells two contents apart. -/
theorem exists_separating [Nontrivial V] {m m' : OrMap K V}
    (hne : (m.slot key).content ≠ (m'.slot key).content) :
    ∃ t v, ((m.slot key).content.join ⟨.at t "", some v⟩).value ≠
      ((m'.slot key).content.join ⟨.at t "", some v⟩).value := by
  wlog hle : (m.slot key).content.stamp ≤ (m'.slot key).content.stamp generalizing m m'
  · obtain ⟨t, v, h⟩ := this hne.symm (le_of_not_ge hle)
    exact ⟨t, v, h.symm⟩
  obtain ⟨v, -⟩ := exists_pair_ne V
  rcases m'.content_cases key with h' | ⟨t, w, h'⟩ | h'
  · rcases m.content_cases key with h | ⟨t, w, h⟩ | h
    · exact absurd (h.trans h'.symm) hne
    · rw [h, h'] at hle
      exact absurd hle (not_le.mpr (Stamp.bot_lt_at t ""))
    · rw [h, h'] at hle
      exact absurd hle (not_le.mpr Stamp.bot_lt_top)
  · exact ⟨t, Content.exists_separating hne hle (by rw [h'])⟩
  -- a tombstone stays over the peer's entry
  · rcases m.content_cases key with h | ⟨t, w, h⟩ | h
    · refine ⟨0, v, ?_⟩
      rw [h, h', Stamped.join_of_lt (Stamp.bot_lt_at 0 ""), Stamped.join_of_le le_top]
      exact some_ne_none v
    · refine ⟨t, v, ?_⟩
      rw [h, h', Stamped.join_of_le (le_refl (Stamp.at t "")), Stamped.join_of_le le_top]
      exact some_ne_none w
    · exact absurd (h.trans h'.symm) hne

theorem gen_load_le {ρ : Type} {rows : List ρ} {entry : ρ → K × OrMapEntry V} {n : ℕ}
    (h : ∀ r ∈ rows, (entry r).2.localGen ≤ n) (key : K) : ((load rows entry).slot key).gen ≤ n := by
  cases hlookup : (load rows entry).lookup key with
  | none =>
    rw [slot_of_none hlookup]
    exact Nat.zero_le n
  | some =>
    obtain ⟨r, hr, hentry⟩ := mem_of_lookup_load hlookup
    have hle := h r hr
    rw [hentry] at hle
    rw [slot_of_lookup hlookup]
    exact hle

theorem lookup_mergeEntry (acc : OrMap K V × ℕ) (other : K × OrMapEntry V) :
    OrMapEntry.Joined acc.2 (mergeEntry acc other).2 (acc.1.lookup other.1) (some other.2)
      ((mergeEntry acc other).1.lookup other.1) := by
  unfold mergeEntry
  split
  · rename_i hnone
    rw [lookup_put, if_pos rfl, hnone]
    exact .taken _ (by simp) (Nat.lt_succ_self _) le_rfl
  · rename_i self hself
    split
    · rename_i htomb
      obtain ⟨hother, hlive⟩ : other.2.tombstone = true ∧ self.tombstone = false := by
        simpa using htomb
      rw [lookup_put, if_pos rfl, hself]
      exact .buried _ hlive hother (Nat.lt_succ_self _) le_rfl
    · split
      · rename_i hnewer
        obtain ⟨⟨hother, hlive⟩, hlt⟩ : (other.2.tombstone = false ∧ self.tombstone = false) ∧
            self.addedAt < other.2.addedAt := by simpa using hnewer
        rw [lookup_put, if_pos rfl, hself]
        refine .taken _ (fun s hs ↦ ?_) (Nat.lt_succ_self _) le_rfl
        cases hs
        exact ⟨hlive, hother, hlt⟩
      · rename_i htomb hnewer
        rw [hself]
        refine .kept fun o ho ↦ ⟨self, rfl, ?_⟩
        cases ho
        cases hs : self.tombstone with
        | true => exact .inl rfl
        | false =>
          have hother : other.2.tombstone = false := by simpa [hs] using htomb
          exact .inr ⟨hother, by simpa [hs, hother] using hnewer⟩

theorem lookup_mergeEntry_of_ne (acc : OrMap K V × ℕ) (other : K × OrMapEntry V) (key : K)
    (h : other.1 ≠ key) : (mergeEntry acc other).1.lookup key = acc.1.lookup key := by
  unfold mergeEntry
  split
  · rw [lookup_put, if_neg h]
  · split
    · rw [lookup_put, if_neg h]
    · split
      · rw [lookup_put, if_neg h]
      · rfl

theorem gen_le_mergeEntry (acc : OrMap K V × ℕ) (other : K × OrMapEntry V) :
    acc.2 ≤ (mergeEntry acc other).2 := by
  unfold mergeEntry
  repeat' split
  all_goals simp

theorem gen_le_merge (m : OrMap K V) (gen : ℕ) (other : OrMap K V) : gen ≤ (m.merge gen other).2 :=
  clock_le_foldl gen_le_mergeEntry _ (m, gen)

theorem lookup_merge (m : OrMap K V) (gen : ℕ) (other : OrMap K V) (key : K) :
    OrMapEntry.Joined gen (m.merge gen other).2 (m.lookup key) (other.lookup key)
      ((m.merge gen other).1.lookup key) := by
  rw [lookup.eq_1 other]
  cases hother : other.entries.find? key with
  | none =>
    have hsame : (m.merge gen other).1.lookup key = m.lookup key :=
      foldl_frame (fun acc : OrMap K V × ℕ ↦ acc.1.lookup key) (fun e he acc ↦
        lookup_mergeEntry_of_ne acc e key (KeyedTable.find?_eq_none_iff.mp hother e he)) (m, gen)
    rw [hsame]
    exact .kept (by simp)
  | some e =>
    obtain rfl : e.1 = key := key_of_find? hother
    obtain ⟨acc, hmine, hgen, hnew, hgen'⟩ := foldl_rows_at
      (fun acc : OrMap K V × ℕ ↦ acc.1.lookup e.1) gen_le_mergeEntry
      (fun e' _ hne acc ↦ lookup_mergeEntry_of_ne acc e' e.1 hne) (m, gen) hother
    have hstep := lookup_mergeEntry acc e
    rw [hmine, ← hnew] at hstep
    exact hstep.mono hgen hgen'

end OrMap

/-! ## Registers -/

namespace LwwRegister

variable {T : Type}

def content (r : LwwRegister T) : Content T := ⟨.at r.timestamp r.nodeId, r.value⟩

def slot (r : LwwRegister T) : Slot T := ⟨r.content, r.localGen⟩

theorem slot_injective {r s : LwwRegister T} (h : r.slot = s.slot) : r = s := by
  obtain ⟨v, t, n, g⟩ := r
  obtain ⟨hcontent, rfl⟩ := Slot.mk.inj h
  obtain ⟨hstamp, rfl⟩ := Stamped.mk.inj hcontent
  obtain ⟨rfl, rfl⟩ := Stamp.at_inj.mp hstamp
  rfl

theorem wins_iff {r : LwwRegister T} {timestamp : Int} {nodeId : String} :
    r.wins timestamp nodeId = true ↔ r.content.stamp < .at timestamp nodeId := by
  rw [content, Stamp.at_lt_at, wins, Bool.or_eq_true, decide_eq_true_iff, Bool.and_eq_true,
    beq_iff_eq, decide_eq_true_iff]
  exact or_congr_right (and_congr_left' eq_comm)

/-- What a write of `value`, with `none` for a deletion, leaves behind. -/
theorem slot_write (r : LwwRegister T) (gen : ℕ) (value : Option T) (timestamp : Int)
    (nodeId : String) :
    (if r.wins timestamp nodeId then
        ((⟨value, timestamp, nodeId, gen + 1⟩ : LwwRegister T), gen + 1) else (r, gen)).1.slot =
      if r.content.stamp < .at timestamp nodeId then ⟨⟨.at timestamp nodeId, value⟩, gen + 1⟩
      else r.slot := by
  by_cases h : r.wins timestamp nodeId = true
  · rw [if_pos h, if_pos (wins_iff.mp h)]
    rfl
  · rw [if_neg h, if_neg (mt wins_iff.mpr h)]

theorem slot_set (r : LwwRegister T) (gen : ℕ) (value : T) (timestamp : Int) (nodeId : String) :
    (r.set gen value timestamp nodeId).1.slot =
      if r.content.stamp < .at timestamp nodeId then ⟨⟨.at timestamp nodeId, some value⟩, gen + 1⟩
      else r.slot :=
  slot_write ..

theorem slot_remove (r : LwwRegister T) (gen : ℕ) (timestamp : Int) (nodeId : String) :
    (r.remove gen timestamp nodeId).1.slot =
      if r.content.stamp < .at timestamp nodeId then ⟨⟨.at timestamp nodeId, none⟩, gen + 1⟩
      else r.slot :=
  slot_write ..

theorem slot_merge (r : LwwRegister T) (gen : ℕ) (other : LwwRegister T) :
    Slot.Merged gen (r.merge gen other).2 r.slot other.slot (r.merge gen other).1.slot := by
  have hwrite (hset : ¬ other.content.Unset) :
      let w := if r.wins other.timestamp other.nodeId then
        ((⟨other.value, other.timestamp, other.nodeId, gen + 1⟩ : LwwRegister T), gen + 1)
        else (r, gen)
      Slot.Merged gen w.2 r.slot other.slot w.1.slot := by
    dsimp only
    split_ifs with h
    · exact .taken _ (wins_iff.mp h) hset (Nat.lt_succ_self _) le_rfl
    · exact .kept (.inl (not_lt.mp (mt wins_iff.mpr h)))
  unfold merge
  split
  · rename_i v hv
    rw [hv] at hwrite
    exact hwrite fun h ↦ some_ne_none v (hv.symm.trans h.1)
  · rename_i hv
    rw [hv] at hwrite
    split_ifs with hzero
    · exact .kept (.inr ⟨hv, other.nodeId, by simp [slot, content, hzero]⟩)
    · exact hwrite fun ⟨_, n, hstamp⟩ ↦ hzero (Stamp.at_inj.mp hstamp).1

theorem gen_le_merge (r : LwwRegister T) (gen : ℕ) (other : LwwRegister T) :
    gen ≤ (r.merge gen other).2 := by
  unfold merge set remove
  repeat' split
  all_goals simp

end LwwRegister

namespace LwwMap

variable {K V : Type} [DecidableEq K]

def register (m : LwwMap K V) (key : K) : LwwRegister V := (m.lookup key).getD default

def slot (m : LwwMap K V) (key : K) : Slot V := (m.register key).slot

theorem get_eq_value (m : LwwMap K V) (key : K) : m.get key = (m.slot key).content.value := by
  rw [get, slot, register]
  cases m.lookup key with
  | none | some => rfl

theorem register_put (m : LwwMap K V) (k : K) (r : LwwRegister V) (key : K) :
    (LwwMap.mk (m.entries.put (k, r))).register key = if k = key then r else m.register key := by
  rw [register, lookup_put]
  split
  · rfl
  · rfl

theorem slot_put (m : LwwMap K V) (k : K) (r : LwwRegister V) (key : K) :
    (LwwMap.mk (m.entries.put (k, r))).slot key = if k = key then r.slot else m.slot key := by
  rw [slot, register_put]
  split
  · rfl
  · rfl

theorem content_slot (m : LwwMap K V) (key : K) : (m.slot key).content =
    ((m.lookup key).map LwwRegister.content).getD (default : LwwRegister V).content := by
  rw [slot, register]
  cases m.lookup key <;> rfl

theorem content_load {ρ : Type} {rows : List ρ} {name : ρ → K} {register : ρ → LwwRegister V}
    (hnodup : (rows.map name).Nodup) (key : K) :
    ((load rows fun r ↦ (name r, register r)).slot key).content =
      ((rows.find? fun r ↦ decide (name r = key)).map fun r ↦ (register r).content).getD
        (default : LwwRegister V).content := by
  rw [content_slot, lookup, entries_load, map_snd_find?_foldl_put hnodup, map_map]
  rfl

/-- A register of a peer tells two contents apart. -/
theorem exists_separating [Nontrivial V] {m m' : LwwMap K V} {key : K}
    (hne : (m.slot key).content ≠ (m'.slot key).content) :
    ∃ t n v, ((m.slot key).content.join ⟨.at t n, some v⟩).value ≠
      ((m'.slot key).content.join ⟨.at t n, some v⟩).value := by
  rcases le_total (m.slot key).content.stamp (m'.slot key).content.stamp with hle | hle
  · obtain ⟨v, hv⟩ := Content.exists_separating hne hle rfl
    exact ⟨_, _, v, hv⟩
  · obtain ⟨v, hv⟩ := Content.exists_separating hne.symm hle rfl
    exact ⟨_, _, v, hv.symm⟩

theorem gen_load_le {ρ : Type} {rows : List ρ} {entry : ρ → K × LwwRegister V} {n : ℕ}
    (h : ∀ r ∈ rows, (entry r).2.localGen ≤ n) (key : K) : ((load rows entry).slot key).gen ≤ n := by
  rw [slot, register]
  cases hlookup : (load rows entry).lookup key with
  | none => exact Nat.zero_le n
  | some =>
    obtain ⟨r, hr, hentry⟩ := mem_of_lookup_load hlookup
    have hle := h r hr
    rw [hentry] at hle
    exact hle

theorem gen_le_mergeEntry (acc : LwwMap K V × ℕ) (other : K × LwwRegister V) :
    acc.2 ≤ (mergeEntry acc other).2 :=
  LwwRegister.gen_le_merge _ acc.2 other.2

theorem gen_le_merge (m : LwwMap K V) (gen : ℕ) (other : LwwMap K V) :
    gen ≤ (m.merge gen other).2 :=
  clock_le_foldl gen_le_mergeEntry _ (m, gen)

theorem slot_merge (m : LwwMap K V) (gen : ℕ) (other : LwwMap K V) (key : K) :
    Slot.Merged gen (m.merge gen other).2 (m.slot key) (other.slot key)
      ((m.merge gen other).1.slot key) := by
  have hframe : ∀ e : K × LwwRegister V, e.1 ≠ key → ∀ acc : LwwMap K V × ℕ,
      (mergeEntry acc e).1.slot key = acc.1.slot key := by
    intro e hk acc
    rw [mergeEntry, slot_put, if_neg hk]
  cases hother : other.entries.find? key with
  | none =>
    have hsame : (m.merge gen other).1.slot key = m.slot key :=
      foldl_frame (fun acc : LwwMap K V × ℕ ↦ acc.1.slot key)
        (fun e he ↦ hframe e (KeyedTable.find?_eq_none_iff.mp hother e he)) (m, gen)
    have hdefault : other.register key = default := by simp [register, lookup, hother]
    rw [hsame, slot.eq_1 other, hdefault]
    exact .kept (.inr ⟨rfl, "", rfl⟩)
  | some e =>
    obtain rfl : e.1 = key := key_of_find? hother
    obtain ⟨acc, hmine, hgen, hnew, hgen'⟩ := foldl_rows_at
      (fun acc : LwwMap K V × ℕ ↦ acc.1.slot e.1) gen_le_mergeEntry (fun e' _ ↦ hframe e') (m, gen)
      hother
    have htheirs : other.slot e.1 = e.2.slot := by simp [slot, register, lookup, hother]
    have hstep := LwwRegister.slot_merge (acc.1.register e.1) acc.2 e.2
    rw [mergeEntry, slot_put, if_pos rfl] at hnew
    rw [merge, hnew, htheirs, ← hmine]
    exact hstep.mono hgen hgen'

end LwwMap

end Akamu.Crdt
