import Akamu.Lib.KeyedTable

/-!
# Observed-remove map

`or_map.rs`: a hash map whose entries are soft-deleted by a tombstone.  Every
write takes a number from the process-wide generation counter, which is passed
explicitly.
-/

namespace Akamu.Crdt

open KeyedTable Option

structure OrMapEntry (V : Type) where
  value : V
  addedAt : Int
  tombstone : Bool
  tombstoneAt : Option Int
  localGen : ℕ
  deriving DecidableEq, Repr

structure OrMap (K V : Type) where
  entries : KeyedTable (K × OrMapEntry V) Prod.fst
  deriving DecidableEq

namespace OrMap

variable {K V : Type}

def empty : OrMap K V := ⟨.empty⟩

instance : Inhabited (OrMap K V) := ⟨empty⟩

variable [DecidableEq K]

/-- The raw entry under a key, tombstoned or not. -/
def lookup (m : OrMap K V) (key : K) : Option (OrMapEntry V) :=
  (m.entries.find? key).map Prod.snd

def get (m : OrMap K V) (key : K) : Option V :=
  ((m.lookup key).filter fun e ↦ !e.tombstone).map OrMapEntry.value

def upsert (m : OrMap K V) (gen : ℕ) (key : K) (value : V) (timestamp : Int) :
    OrMap K V × ℕ :=
  (⟨m.entries.put (key,
    { value := value, addedAt := timestamp, tombstone := false, tombstoneAt := none,
      localGen := gen + 1 })⟩, gen + 1)

def insert (m : OrMap K V) (gen : ℕ) (key : K) (value : V) (timestamp : Int) :
    OrMap K V × ℕ :=
  match m.lookup key with
  | some _ => (m, gen)
  | none => m.upsert gen key value timestamp

/-- Tombstone an entry in place.  The value that was there stays there; an
absent key gets the default value. -/
def remove [Inhabited V] (m : OrMap K V) (gen : ℕ) (key : K) (timestamp : Int) :
    OrMap K V × ℕ :=
  let e := (m.lookup key).getD
    { value := default, addedAt := timestamp, tombstone := false, tombstoneAt := none,
      localGen := 0 }
  if !e.tombstone || e.tombstoneAt.isNone then
    (⟨m.entries.put (key,
      { e with tombstone := true, tombstoneAt := some timestamp, localGen := gen + 1 })⟩, gen + 1)
  else (⟨m.entries.put (key, e)⟩, gen)

def loadEntry (m : OrMap K V) (key : K) (entry : OrMapEntry V) : OrMap K V :=
  ⟨m.entries.put (key, entry)⟩

/-- The loop of `load_from_db` over one table. -/
def load {ρ : Type} (rows : List ρ) (entry : ρ → K × OrMapEntry V) : OrMap K V :=
  rows.foldl (fun m r ↦ m.loadEntry (entry r).1 (entry r).2) empty

omit [DecidableEq K] in
def purgeOldTombstones (m : OrMap K V) (cutoff : Int) : OrMap K V :=
  ⟨m.entries.retain fun e ↦
    !e.2.tombstone || e.2.tombstoneAt.any fun t ↦ decide (cutoff ≤ t)⟩

omit [DecidableEq K] in
/-- Drop live entries that fail the test; tombstones stay. -/
def retain (m : OrMap K V) (f : K → V → Bool) : OrMap K V :=
  ⟨m.entries.retain fun e ↦ e.2.tombstone || f e.1 e.2.value⟩

omit [DecidableEq K] in
/-- The entries written after `gen`. -/
def deltaSince (m : OrMap K V) (gen : ℕ) : OrMap K V :=
  ⟨m.entries.retain fun e ↦ decide (gen < e.2.localGen)⟩

omit [DecidableEq K] in
/-- The entries written in `(since, upTo]`. -/
def deltaRange (m : OrMap K V) (since upTo : ℕ) : OrMap K V :=
  ⟨m.entries.retain fun e ↦ decide (since < e.2.localGen) && decide (e.2.localGen ≤ upTo)⟩

/-- One iteration of `merge`: the other replica's entry meets ours. -/
def mergeEntry (acc : OrMap K V × ℕ) (other : K × OrMapEntry V) : OrMap K V × ℕ :=
  match acc.1.lookup other.1 with
  | none =>
    (⟨acc.1.entries.put (other.1, { other.2 with localGen := acc.2 + 1 })⟩, acc.2 + 1)
  | some self =>
    if other.2.tombstone && !self.tombstone then
      -- a tombstone wins, but the value below it is still our own
      (⟨acc.1.entries.put (other.1,
        { self with tombstone := true, tombstoneAt := other.2.tombstoneAt,
                    localGen := acc.2 + 1 })⟩, acc.2 + 1)
    else if !other.2.tombstone && !self.tombstone && decide (self.addedAt < other.2.addedAt) then
      (⟨acc.1.entries.put (other.1, { other.2 with localGen := acc.2 + 1 })⟩, acc.2 + 1)
    else acc

def merge (m : OrMap K V) (gen : ℕ) (other : OrMap K V) : OrMap K V × ℕ :=
  other.entries.rows.foldl mergeEntry (m, gen)

/-! ## What a lookup sees -/

variable {key : K} {m : OrMap K V} {e : OrMapEntry V}

theorem lookup_eq_some_iff : m.lookup key = some e ↔ (key, e) ∈ m.entries.rows :=
  map_snd_find?_eq_some_iff

theorem lookup_put (m : OrMap K V) (k : K) (e : OrMapEntry V) (key : K) :
    (OrMap.mk (m.entries.put (k, e))).lookup key =
      if k = key then some e else m.lookup key :=
  map_snd_find?_put m.entries k e key

theorem lookup_upsert (m : OrMap K V) (gen : ℕ) (k : K) (value : V) (timestamp : Int) (key : K) :
    (m.upsert gen k value timestamp).1.lookup key =
      if k = key then some ⟨value, timestamp, false, none, gen + 1⟩ else m.lookup key :=
  lookup_put m k _ key

theorem lookup_remove_of_ne [Inhabited V] (m : OrMap K V) (gen : ℕ) {k : K} (timestamp : Int)
    (h : k ≠ key) : (m.remove gen k timestamp).1.lookup key = m.lookup key := by
  dsimp only [remove]
  split <;> simp [lookup_put, h]

variable {ρ : Type} {rows : List ρ} {entry : ρ → K × OrMapEntry V}

theorem entries_load (rows : List ρ) (entry : ρ → K × OrMapEntry V) :
    (load rows entry).entries = rows.foldl (fun t r ↦ t.put (entry r)) .empty :=
  (List.foldl_hom OrMap.entries fun _ _ ↦ rfl).symm

theorem mem_of_lookup_load (h : (load rows entry).lookup key = some e) :
    ∃ r ∈ rows, entry r = (key, e) := by
  rw [lookup, entries_load] at h
  exact exists_of_map_snd_foldl_put h

theorem lookup_load_of_mem (hnodup : (rows.map fun r ↦ (entry r).1).Nodup) {r : ρ} (hr : r ∈ rows) :
    (load rows entry).lookup (entry r).1 = some (entry r).2 := by
  rw [lookup, entries_load, find?_foldl_put_of_mem hnodup hr, map_some]

theorem lookup_of_purge {cutoff : Int} (h : (m.purgeOldTombstones cutoff).lookup key = some e) :
    m.lookup key = some e := by
  rw [lookup_eq_some_iff] at h ⊢
  exact (KeyedTable.mem_retain.mp h).1

theorem lookup_mk_retain (m : OrMap K V) (p : K × OrMapEntry V → Bool) (key : K) :
    (OrMap.mk (m.entries.retain p)).lookup key = (m.lookup key).filter fun e ↦ p (key, e) :=
  map_snd_find?_retain m.entries p key

theorem get_eq_some {v : V} (h : m.get key = some v) :
    ∃ e, m.lookup key = some e ∧ e.tombstone = false ∧ e.value = v := by
  simp only [get, map_eq_some_iff, filter_eq_some_iff] at h
  obtain ⟨e, ⟨hlookup, hlive⟩, hval⟩ := h
  exact ⟨e, hlookup, by simpa using hlive, hval⟩

/-- What a lookup finds after the live entry under a key, if there is one, is
edited: what was there, or the edited entry. -/
theorem lookup_edit {k : K} {f : V → V} (gen : ℕ) (timestamp : Int)
    (hlive : ∀ e ∈ m.lookup k, e.tombstone = false)
    (h : ((m.get k).elim m fun v ↦ (m.upsert gen k (f v) timestamp).1).lookup key = some e) :
    (k ≠ key ∧ m.lookup key = some e) ∨
      k = key ∧ e.tombstone = false ∧ ∃ e₀, m.lookup key = some e₀ ∧ e.value = f e₀.value := by
  cases hget : m.get k with
  | none =>
    rw [hget] at h
    refine .inl ⟨?_, h⟩
    rintro rfl
    have hlookup : m.lookup k = some e := h
    simp [get, hlookup, hlive e hlookup] at hget
  | some =>
    obtain ⟨e₀, he₀, -, rfl⟩ := get_eq_some hget
    rw [hget, elim_some, lookup_upsert] at h
    split at h
    · rename_i hkey
      cases h
      exact .inr ⟨hkey, rfl, e₀, hkey ▸ he₀, rfl⟩
    · exact .inl ⟨‹_›, h⟩

end OrMap

end Akamu.Crdt
