import Akamu.Lib.KeyedTable

/-!
# Last-write-wins register and map

`lww_register.rs` and `lww_map.rs`.  A write wins when its timestamp is larger,
or when the timestamps are equal and its node id is lexicographically larger;
in particular a second write by one node in one second is dropped.
-/

namespace Akamu.Crdt

open KeyedTable

structure LwwRegister (T : Type) where
  value : Option T
  timestamp : Int
  nodeId : String
  localGen : ℕ
  deriving DecidableEq, Repr

namespace LwwRegister

variable {T : Type}

instance : Inhabited (LwwRegister T) := ⟨⟨none, 0, "", 0⟩⟩

def wins (r : LwwRegister T) (timestamp : Int) (nodeId : String) : Bool :=
  decide (r.timestamp < timestamp) || (timestamp == r.timestamp && decide (r.nodeId < nodeId))

def set (r : LwwRegister T) (gen : ℕ) (value : T) (timestamp : Int) (nodeId : String) :
    LwwRegister T × ℕ :=
  if r.wins timestamp nodeId then (⟨some value, timestamp, nodeId, gen + 1⟩, gen + 1)
  else (r, gen)

def remove (r : LwwRegister T) (gen : ℕ) (timestamp : Int) (nodeId : String) :
    LwwRegister T × ℕ :=
  if r.wins timestamp nodeId then (⟨none, timestamp, nodeId, gen + 1⟩, gen + 1)
  else (r, gen)

/-- Deleted, as opposed to never written. -/
def isTombstone (r : LwwRegister T) : Bool := r.value.isNone && decide (0 < r.timestamp)

def merge (r : LwwRegister T) (gen : ℕ) (other : LwwRegister T) : LwwRegister T × ℕ :=
  match other.value with
  | some v => r.set gen v other.timestamp other.nodeId
  | none =>
    if other.timestamp = 0 then (r, gen)
    else r.remove gen other.timestamp other.nodeId

def deltaSince (r : LwwRegister T) (gen : ℕ) : Option (LwwRegister T) :=
  if gen < r.localGen then some r else none

def deltaRange (r : LwwRegister T) (since upTo : ℕ) : Option (LwwRegister T) :=
  if since < r.localGen ∧ r.localGen ≤ upTo then some r else none

end LwwRegister

structure LwwMap (K V : Type) where
  entries : KeyedTable (K × LwwRegister V) Prod.fst
  deriving DecidableEq

namespace LwwMap

variable {K V : Type}

def empty : LwwMap K V := ⟨.empty⟩

instance : Inhabited (LwwMap K V) := ⟨empty⟩

variable [DecidableEq K]

def lookup (m : LwwMap K V) (key : K) : Option (LwwRegister V) :=
  (m.entries.find? key).map Prod.snd

def get (m : LwwMap K V) (key : K) : Option V := (m.lookup key).bind LwwRegister.value

def set (m : LwwMap K V) (gen : ℕ) (key : K) (value : V) (timestamp : Int) (nodeId : String) :
    LwwMap K V × ℕ :=
  let r := ((m.lookup key).getD default).set gen value timestamp nodeId
  (⟨m.entries.put (key, r.1)⟩, r.2)

def remove (m : LwwMap K V) (gen : ℕ) (key : K) (timestamp : Int) (nodeId : String) :
    LwwMap K V × ℕ :=
  let r := ((m.lookup key).getD default).remove gen timestamp nodeId
  (⟨m.entries.put (key, r.1)⟩, r.2)

def loadEntry (m : LwwMap K V) (key : K) (register : LwwRegister V) : LwwMap K V :=
  ⟨m.entries.put (key, register)⟩

/-- The loop of `load_from_db` over one table. -/
def load {ρ : Type} (rows : List ρ) (entry : ρ → K × LwwRegister V) : LwwMap K V :=
  rows.foldl (fun m r ↦ m.loadEntry (entry r).1 (entry r).2) empty

omit [DecidableEq K] in
def purgeOldTombstones (m : LwwMap K V) (cutoff : Int) : LwwMap K V :=
  ⟨m.entries.retain fun e ↦ !e.2.isTombstone || decide (cutoff ≤ e.2.timestamp)⟩

omit [DecidableEq K] in
/-- Drop registers whose value fails the test; tombstones stay, registers that
were never written go. -/
def retain (m : LwwMap K V) (f : V → Bool) : LwwMap K V :=
  ⟨m.entries.retain fun e ↦ e.2.isTombstone || (e.2.value.map f).getD false⟩

omit [DecidableEq K] in
def deltaSince (m : LwwMap K V) (gen : ℕ) : LwwMap K V :=
  ⟨m.entries.retain fun e ↦ (e.2.deltaSince gen).isSome⟩

omit [DecidableEq K] in
def deltaRange (m : LwwMap K V) (since upTo : ℕ) : LwwMap K V :=
  ⟨m.entries.retain fun e ↦ (e.2.deltaRange since upTo).isSome⟩

def mergeEntry (acc : LwwMap K V × ℕ) (other : K × LwwRegister V) : LwwMap K V × ℕ :=
  let r := ((acc.1.lookup other.1).getD default).merge acc.2 other.2
  (⟨acc.1.entries.put (other.1, r.1)⟩, r.2)

def merge (m : LwwMap K V) (gen : ℕ) (other : LwwMap K V) : LwwMap K V × ℕ :=
  other.entries.rows.foldl mergeEntry (m, gen)

variable {r : LwwRegister V} {key : K}

theorem lookup_eq_some_iff {m : LwwMap K V} : m.lookup key = some r ↔ (key, r) ∈ m.entries.rows :=
  map_snd_find?_eq_some_iff

theorem lookup_put (m : LwwMap K V) (k : K) (r : LwwRegister V) (key : K) :
    (LwwMap.mk (m.entries.put (k, r))).lookup key =
      if k = key then some r else m.lookup key :=
  map_snd_find?_put m.entries k r key

theorem entries_load {ρ : Type} (rows : List ρ) (entry : ρ → K × LwwRegister V) :
    (load rows entry).entries = rows.foldl (fun t r ↦ t.put (entry r)) .empty :=
  (List.foldl_hom LwwMap.entries fun _ _ ↦ rfl).symm

theorem mem_of_lookup_load {ρ : Type} {rows : List ρ} {entry : ρ → K × LwwRegister V}
    {e : LwwRegister V} (h : (load rows entry).lookup key = some e) :
    ∃ r ∈ rows, entry r = (key, e) := by
  rw [lookup, entries_load] at h
  exact exists_of_map_snd_foldl_put h

theorem lookup_of_purge {m : LwwMap K V} {cutoff : Int}
    (h : (m.purgeOldTombstones cutoff).lookup key = some r) : m.lookup key = some r := by
  rw [lookup_eq_some_iff] at h ⊢
  exact (KeyedTable.mem_retain.mp h).1

theorem lookup_mk_retain (m : LwwMap K V) (p : K × LwwRegister V → Bool) (key : K) :
    (LwwMap.mk (m.entries.retain p)).lookup key = (m.lookup key).filter fun e ↦ p (key, e) :=
  map_snd_find?_retain m.entries p key

theorem lookup_set (m : LwwMap K V) (gen : ℕ) (k : K) (value : V) (timestamp : Int)
    (nodeId : String) (key : K) :
    (m.set gen k value timestamp nodeId).1.lookup key =
      if k = key then some (((m.lookup k).getD default).set gen value timestamp nodeId).1
      else m.lookup key :=
  lookup_put m k _ key

end LwwMap

end Akamu.Crdt
