import Akamu.Crdt.ClusterCrdt

/-!
# Local operations on the replicated state

The write interface of the component types and of `AkaCrdt` itself.  A node
signs its register writes with its own id.  For each operation: what it leaves
in the slots.
-/

namespace Akamu.Crdt

inductive OrMapOp (V : Type) where
  | insert (key : String) (value : V) (timestamp : Int)
  | upsert (key : String) (value : V) (timestamp : Int)
  | remove (key : String) (timestamp : Int)
  | retain (f : String → V → Bool)

inductive LwwMapOp (K V : Type) where
  | set (key : K) (value : V) (timestamp : Int)
  | remove (key : K) (timestamp : Int)
  | retain (f : V → Bool)

def OrMapOp.apply {V : Type} [Inhabited V] (m : OrMap String V) (gen : ℕ) :
    OrMapOp V → OrMap String V × ℕ
  | .insert key value timestamp => m.insert gen key value timestamp
  | .upsert key value timestamp => m.upsert gen key value timestamp
  | .remove key timestamp => m.remove gen key timestamp
  | .retain f => (m.retain f, gen)

def LwwMapOp.apply {K V : Type} [DecidableEq K] (m : LwwMap K V) (gen : ℕ) (nodeId : String) :
    LwwMapOp K V → LwwMap K V × ℕ
  | .set key value timestamp => m.set gen key value timestamp nodeId
  | .remove key timestamp => m.remove gen key timestamp nodeId
  | .retain f => (m.retain f, gen)

inductive LocalOp where
  | or (f : OrField) (op : OrMapOp f.Value)
  | lww (f : LwwField) (op : LwwMapOp f.Key f.Value)
  | claimOrder (orderId : String) (now ttl : Int)
  | claimMtcWriter (now ttl : Int)
  | purge (cutoff : Int)

structure ClusterReplica where
  crdt : ClusterCrdt
  gen : ℕ

namespace ClusterReplica

def apply (r : ClusterReplica) (nodeId : String) : LocalOp → ClusterReplica
  | .or f op =>
    let s := op.apply (r.crdt.orMap f) r.gen
    ⟨r.crdt.setOrMap f s.1, s.2⟩
  | .lww f op =>
    let s := op.apply (r.crdt.lwwMap f) r.gen nodeId
    ⟨r.crdt.setLwwMap f s.1, s.2⟩
  | .claimOrder orderId now ttl =>
    let s := (r.crdt.claimOrder r.gen orderId nodeId now ttl).1
    ⟨s.1, s.2⟩
  | .claimMtcWriter now ttl =>
    let s := (r.crdt.claimMtcWriter r.gen nodeId now ttl).1
    ⟨s.1, s.2⟩
  | .purge cutoff => ⟨r.crdt.purgeOldTombstones cutoff, r.gen⟩

def merge (r : ClusterReplica) (other : ClusterCrdt) : ClusterReplica :=
  let s := r.crdt.merge r.gen other
  ⟨s.1, s.2⟩

end ClusterReplica

/-! ## Observed-remove maps -/

namespace OrMap

variable {K V : Type} [DecidableEq K] (m : OrMap K V) (gen : ℕ) (k : K) (value : V)
  (timestamp : Int) (key : K)

theorem slot_upsert :
    (m.upsert gen k value timestamp).1.slot key =
      if k = key then ⟨⟨.at timestamp "", some value⟩, gen + 1⟩ else m.slot key :=
  slot_put m k _ key

theorem slot_insert :
    (m.insert gen k value timestamp).1.slot key =
      if k = key ∧ m.lookup k = none then ⟨⟨.at timestamp "", some value⟩, gen + 1⟩
      else m.slot key := by
  unfold insert
  cases hlookup : m.lookup k with
  | some => simp
  | none => simp [slot_upsert]

theorem slot_remove [Inhabited V] :
    (m.remove gen k timestamp).1.slot key =
      if k = key then
        if (m.lookup k).any (fun e ↦ e.tombstone && e.tombstoneAt.isSome) then m.slot key
        else ⟨⟨⊤, none⟩, gen + 1⟩
      else m.slot key := by
  unfold remove
  by_cases hk : k = key
  · subst hk
    cases hlookup : m.lookup k with
    | none => simp [slot_put, OrMapEntry.slot, OrMapEntry.content]
    | some e =>
      by_cases hold : (e.tombstone && e.tombstoneAt.isSome) = true
      · have hnot : (!e.tombstone || e.tombstoneAt.isNone) = false := by
          cases ht : e.tombstone <;> cases hat : e.tombstoneAt <;> simp_all
        simp [slot_put, hnot, hold, slot_of_lookup hlookup]
      · have hnew : (!e.tombstone || e.tombstoneAt.isNone) = true := by
          cases ht : e.tombstone <;> cases hat : e.tombstoneAt <;> simp_all
        simp [slot_put, hnew, hold, OrMapEntry.slot, OrMapEntry.content]
  · simp only [if_neg hk]
    split <;> rw [slot_put, if_neg hk]

omit [DecidableEq K] in
theorem retain_eq_self {m : OrMap K V} {f : K → V → Bool}
    (h : ∀ e ∈ m.entries.rows, e.2.tombstone = false → f e.1 e.2.value = true) :
    m.retain f = m := by
  refine congrArg OrMap.mk (KeyedTable.retain_eq_self fun e he ↦ ?_)
  cases htomb : e.2.tombstone with
  | true => rfl
  | false => simpa using h e he htomb

omit [DecidableEq K] in
theorem purge_eq_self {m : OrMap K V} {cutoff : Int}
    (h : ∀ e ∈ m.entries.rows, e.2.tombstone = true → ∃ t ∈ e.2.tombstoneAt, cutoff ≤ t) :
    m.purgeOldTombstones cutoff = m := by
  refine congrArg OrMap.mk (KeyedTable.retain_eq_self fun e he ↦ ?_)
  cases htomb : e.2.tombstone with
  | false => rfl
  | true =>
    obtain ⟨t, ht, hle⟩ := h e he htomb
    rw [Option.mem_def] at ht
    simp [ht, hle]

end OrMap

/-! ## Last-write-wins maps -/

namespace LwwMap

variable {K V : Type} [DecidableEq K] (m : LwwMap K V) (gen : ℕ) (k : K) (timestamp : Int)
  (nodeId : String) (key : K)

theorem slot_set (value : V) :
    (m.set gen k value timestamp nodeId).1.slot key =
      if k = key ∧ (m.slot k).content.stamp < .at timestamp nodeId then
        ⟨⟨.at timestamp nodeId, some value⟩, gen + 1⟩
      else m.slot key := by
  rw [set, slot_put]
  by_cases hk : k = key
  · subst hk
    rw [if_pos rfl, LwwRegister.slot_set]
    simp only [true_and]
    rfl
  · simp [hk]

theorem slot_remove :
    (m.remove gen k timestamp nodeId).1.slot key =
      if k = key ∧ (m.slot k).content.stamp < .at timestamp nodeId then
        ⟨⟨.at timestamp nodeId, none⟩, gen + 1⟩
      else m.slot key := by
  rw [remove, slot_put]
  by_cases hk : k = key
  · subst hk
    rw [if_pos rfl, LwwRegister.slot_remove]
    simp only [true_and]
    rfl
  · simp [hk]

omit [DecidableEq K] in
theorem purge_eq_self {m : LwwMap K V} {cutoff : Int}
    (h : ∀ e ∈ m.entries.rows, e.2.isTombstone = true → cutoff ≤ e.2.timestamp) :
    m.purgeOldTombstones cutoff = m := by
  refine congrArg LwwMap.mk (KeyedTable.retain_eq_self fun e he ↦ ?_)
  cases htomb : e.2.isTombstone with
  | false => rfl
  | true => simpa using h e he htomb

theorem content_retain {m : LwwMap K V} {f : V → Bool}
    (h : ∀ e ∈ m.entries.rows, ∀ v ∈ e.2.value, f v = true)
    (hfloor : .at 0 "" ≤ (m.slot key).content.stamp)
    (hunset : (m.slot key).content.Unset → (m.slot key).content.stamp = .at 0 "") :
    ((m.retain f).slot key).content = (m.slot key).content := by
  have hretain : (m.retain f).lookup key =
      (m.lookup key).filter fun r ↦ r.isTombstone || (r.value.map f).getD false :=
    lookup_mk_retain m _ key
  cases hlookup : m.lookup key with
  | none => simp [slot, register, hretain, hlookup]
  | some r =>
    have hslot : m.slot key = r.slot := by simp [slot, register, hlookup]
    cases hkeep : r.isTombstone || (r.value.map f).getD false with
    | true => simp [slot, register, hretain, hlookup, hkeep, Option.filter]
    | false =>
      obtain ⟨hnotomb, htest⟩ := Bool.or_eq_false_iff.mp hkeep
      have hnone : r.value = none := by
        cases hvalue : r.value with
        | none => rfl
        | some v => simp [hvalue, h _ (lookup_eq_some_iff.mp hlookup) v hvalue] at htest
      rw [hslot] at hfloor hunset ⊢
      have htime : r.timestamp = 0 := by
        have hneg : ¬ 0 < r.timestamp := by
          simpa [LwwRegister.isTombstone, hnone] using hnotomb
        refine le_antisymm (not_lt.mp hneg) (not_lt.mp fun hlt ↦ ?_)
        exact absurd (Stamp.at_lt_at.mpr (.inl hlt)) (not_lt.mpr hfloor)
      have hstamp : r.slot.content.stamp = .at 0 "" :=
        hunset ⟨hnone, r.nodeId, by rw [← htime]; rfl⟩
      have hgone : (m.retain f).register key = default := by
        simp [register, hretain, hlookup, hkeep, Option.filter]
      rw [slot, hgone]
      change (⟨.at 0 "", none⟩ : Content V) = ⟨r.slot.content.stamp, r.value⟩
      rw [hstamp, hnone]

end LwwMap

/-! ## Entries of the whole state -/

/-- All that is stored: the entry under a key, if there is one, or the register. -/
def Cell.Entry : Cell → Type
  | .or f _ => Option (OrMapEntry f.Value)
  | .lww f _ => LwwRegister f.Value
  | .writer => LwwRegister MtcWriter

def Cell.slotOf : (x : Cell) → x.Entry → Slot x.Value
  | .or _ _, e => (e.map OrMapEntry.slot).getD ⟨⟨⊥, none⟩, 0⟩
  | .lww _ _, r => LwwRegister.slot r
  | .writer, r => LwwRegister.slot r

namespace ClusterCrdt

def entry (c : ClusterCrdt) : (x : Cell) → x.Entry
  | .or f key => (c.orMap f).lookup key
  | .lww f key => (c.lwwMap f).register key
  | .writer => c.mtcWriter

theorem slotOf_entry (c : ClusterCrdt) (x : Cell) : x.slotOf (c.entry x) = c.slot x := by
  cases x <;> rfl

variable {x : Cell}

theorem slot_of_entry {c d : ClusterCrdt} (h : d.entry x = c.entry x) : d.slot x = c.slot x := by
  rw [← d.slotOf_entry, h, c.slotOf_entry]

theorem entry_setOrMap_of_ne (c : ClusterCrdt) (f : OrField) (m : OrMap String f.Value)
    (h : ∀ key, x ≠ .or f key) : (c.setOrMap f m).entry x = c.entry x := by
  cases x with
  | or f' key =>
    have hf : f ≠ f' := fun heq ↦ h key (by rw [heq])
    exact congrArg (OrMap.lookup · key) (orMap_setOrMap_of_ne c m hf)
  | lww f' key => exact congrArg (LwwMap.register · key) (lwwMap_setOrMap c f m f')
  | writer => exact mtcWriter_setOrMap c f m

theorem entry_setLwwMap_of_ne (c : ClusterCrdt) (f : LwwField) (m : LwwMap f.Key f.Value)
    (h : ∀ key, x ≠ .lww f key) : (c.setLwwMap f m).entry x = c.entry x := by
  cases x with
  | or f' key => exact congrArg (OrMap.lookup · key) (orMap_setLwwMap c f m f')
  | lww f' key =>
    have hf : f ≠ f' := by
      rintro rfl
      exact h key rfl
    exact congrArg (LwwMap.register · key) (lwwMap_setLwwMap_of_ne c m hf)
  | writer => exact mtcWriter_setLwwMap c f m

theorem orMap_purge (c : ClusterCrdt) (cutoff : Int) (f : OrField) :
    (c.purgeOldTombstones cutoff).orMap f = (c.orMap f).purgeOldTombstones cutoff := by
  cases f <;> rfl

theorem lwwMap_purge (c : ClusterCrdt) (cutoff : Int) (f : LwwField) :
    (c.purgeOldTombstones cutoff).lwwMap f = (c.lwwMap f).purgeOldTombstones cutoff := by
  cases f <;> rfl

theorem slot_setOrMap_of_ne (c : ClusterCrdt) (f : OrField) (m : OrMap String f.Value)
    (h : ∀ key, x ≠ .or f key) : (c.setOrMap f m).slot x = c.slot x :=
  slot_of_entry (c.entry_setOrMap_of_ne f m h)

theorem slot_setLwwMap_of_ne (c : ClusterCrdt) (f : LwwField) (m : LwwMap f.Key f.Value)
    (h : ∀ key, x ≠ .lww f key) : (c.setLwwMap f m).slot x = c.slot x :=
  slot_of_entry (c.entry_setLwwMap_of_ne f m h)

theorem entry_setWriter_of_ne (c : ClusterCrdt) (r : LwwRegister MtcWriter) (h : x ≠ .writer) :
    ({ c with mtcWriter := r } : ClusterCrdt).entry x = c.entry x := by
  cases x with
  | or f => cases f <;> rfl
  | lww f => cases f <;> rfl
  | writer => exact absurd rfl h

theorem slot_setWriter_of_ne (c : ClusterCrdt) (r : LwwRegister MtcWriter) (h : x ≠ .writer) :
    ({ c with mtcWriter := r } : ClusterCrdt).slot x = c.slot x :=
  slot_of_entry (c.entry_setWriter_of_ne r h)

end ClusterCrdt

/-- What an operation comes to: a claim is refused, or is a write of a register. -/
theorem ClusterReplica.apply_eq_cases (r : ClusterReplica) (nodeId : String) (op : LocalOp) :
    r.apply nodeId op = r ∨ (∃ f op', op = .or f op') ∨
      (∃ f op', (op = .lww f op' ∨ ∃ key value timestamp, op' = .set key value timestamp) ∧
        r.apply nodeId op = r.apply nodeId (.lww f op')) ∨
      (∃ now, let w := r.crdt.mtcWriter.set r.gen ⟨nodeId, now⟩ now nodeId
        r.apply nodeId op = ⟨{ r.crdt with mtcWriter := w.1 }, w.2⟩) ∨
      ∃ cutoff, op = .purge cutoff := by
  cases op with
  | or f op => exact .inr (.inl ⟨f, op, rfl⟩)
  | lww f op => exact .inr (.inr (.inl ⟨f, op, .inl rfl, rfl⟩))
  | claimOrder orderId now =>
    have hset : r.apply nodeId (.lww .orderOwners (.set orderId ⟨nodeId, now⟩ now)) = _ := rfl
    simp only [apply, ClusterCrdt.claimOrder]
    repeat' split
    · exact .inl rfl
    all_goals exact .inr (.inr (.inl ⟨_, _, .inr ⟨_, _, _, rfl⟩, hset.symm⟩))
  | claimMtcWriter now =>
    simp only [apply, ClusterCrdt.claimMtcWriter]
    repeat' split
    · exact .inl rfl
    all_goals exact .inr (.inr (.inr (.inl ⟨now, rfl⟩)))
  | purge cutoff => exact .inr (.inr (.inr (.inr ⟨cutoff, rfl⟩)))

end Akamu.Crdt
