import Akamu.Crdt.LocalOps

/-!
# Generation numbers and deltas

A generation number says when this process last changed an entry.  A write or a
merge leaves a slot alone or gives it a number beyond the counter; so a slot
whose number is not beyond `g` has not changed since the counter was `g`, and
`delta_since(g)` leaves out exactly those.  A slot that is left out loses
nothing on a receiver that has seen it before: its content is subsumed there.
-/

namespace Akamu.Crdt

open List

/-! ## Slots -/

/-- Untouched, or changed while the counter ran from `gen` to `gen'`. -/
def Slot.Moved {V : Type} (gen gen' : ℕ) (old new : Slot V) : Prop :=
  new = old ∨ gen < new.gen ∧ new.gen ≤ gen'

/-- Merging `theirs` into `mine` would change nothing. -/
def Content.Subsumed {V : Type} (theirs mine : Content V) : Prop :=
  theirs.stamp ≤ mine.stamp ∨ theirs.Unset

namespace Content.Subsumed

variable {V : Type} {theirs mine mine' : Content V}

theorem refl (s : Content V) : Subsumed s s := .inl le_rfl

theorem mono (h : Subsumed theirs mine) (hle : mine.stamp ≤ mine'.stamp) : Subsumed theirs mine' :=
  h.imp_left (le_trans · hle)

end Content.Subsumed

namespace Slot.Merged

variable {V : Type} {gen gen' : ℕ} {mine theirs new : Slot V}

variable (h : Slot.Merged gen gen' mine theirs new)

include h

theorem moved : Slot.Moved gen gen' mine new := by
  cases h with
  | kept => exact .inl rfl
  | taken g _ _ hgen hgen' => exact .inr ⟨hgen, hgen'⟩

theorem stamp_le : mine.content.stamp ≤ new.content.stamp := by
  cases h with
  | kept => exact le_rfl
  | taken g hlt => exact hlt.le

theorem subsumed : theirs.content.Subsumed new.content := by
  cases h with
  | kept h => exact h
  | taken => exact .refl _

theorem eq_of_subsumed (hsub : theirs.content.Subsumed mine.content) : new = mine := by
  cases h with
  | kept => rfl
  | taken g hlt hset =>
    rcases hsub with hle | hunset
    · exact absurd hlt (not_lt.mpr hle)
    · exact absurd hunset hset

end Slot.Merged

/-! ## Entries -/

/-- The entry is as it was, or has been numbered while the counter ran from `gen`
to `gen'`. -/
def Cell.Moved (x : Cell) (gen gen' : ℕ) (old new : x.Entry) : Prop :=
  new = old ∨ gen < (x.slotOf new).gen ∧ (x.slotOf new).gen ≤ gen'

variable {c d : ClusterCrdt} {gen gen' : ℕ} {x : Cell}

theorem Cell.Moved.slot (h : x.Moved gen gen' (c.entry x) (d.entry x)) :
    Slot.Moved gen gen' (c.slot x) (d.slot x) := by
  rw [Cell.Moved, d.slotOf_entry] at h
  exact h.imp_left ClusterCrdt.slot_of_entry

theorem Cell.Moved.trans {g₀ g₁ g₂ : ℕ} {e₀ e₁ e₂ : x.Entry} (h : x.Moved g₀ g₁ e₀ e₁)
    (h' : x.Moved g₁ g₂ e₁ e₂) (h₀₁ : g₀ ≤ g₁) (h₁₂ : g₁ ≤ g₂) : x.Moved g₀ g₂ e₀ e₂ := by
  rcases h' with rfl | ⟨hlt, hle⟩
  · exact h.imp_right fun ⟨hlt, hle⟩ ↦ ⟨hlt, hle.trans h₁₂⟩
  · exact .inr ⟨h₀₁.trans_lt hlt, hle⟩

theorem OrMapEntry.Joined.moved {f : OrField} {mine theirs new : Option (OrMapEntry f.Value)}
    (h : OrMapEntry.Joined gen gen' mine theirs new) (key : String) :
    (Cell.or f key).Moved gen gen' mine new := by
  cases h with
  | kept => exact .inl rfl
  | taken _ _ hgen hgen' | buried _ _ _ hgen hgen' => exact .inr ⟨hgen, hgen'⟩

def Cell.StampLe (x : Cell) (old new : x.Entry) : Prop :=
  (x.slotOf old).content.stamp ≤ (x.slotOf new).content.stamp

def Cell.Dropped (x : Cell) (old new : x.Entry) : Prop :=
  x.slotOf new = x.slotOf old ∨ x.slotOf new = ClusterCrdt.empty.slot x

theorem Cell.Dropped.slot (h : x.Dropped (c.entry x) (d.entry x)) :
    Slot.Moved gen gen (c.slot x) (d.slot x) ∨ d.slot x = ClusterCrdt.empty.slot x := by
  rw [Cell.Dropped, d.slotOf_entry, c.slotOf_entry] at h
  exact h.imp_left .inl

/-! ## The slots of a delta -/

namespace OrMap

variable {K V : Type} [DecidableEq K]

theorem lookup_retain_gen (m : OrMap K V) (q : ℕ → Bool) (key : K) :
    (OrMap.mk (m.entries.retain fun e ↦ q e.2.localGen)).lookup key =
      if q (m.slot key).gen then m.lookup key else none := by
  rw [lookup_mk_retain, slot]
  cases m.lookup key with
  | none => simp
  | some e => by_cases h : q e.localGen = true <;> simp [h, OrMapEntry.slot, Option.filter]

theorem slot_mk_retain (m : OrMap K V) (p : K × OrMapEntry V → Bool) (key : K) :
    (OrMap.mk (m.entries.retain p)).slot key = m.slot key ∨
      (OrMap.mk (m.entries.retain p)).slot key = ⟨⟨⊥, none⟩, 0⟩ := by
  rw [slot, lookup_mk_retain, slot]
  cases m.lookup key with
  | none => simp
  | some e => by_cases h : p (key, e) = true <;> simp [h, Option.filter]

end OrMap

namespace LwwMap

variable {K V : Type} [DecidableEq K]

theorem register_retain_gen (m : LwwMap K V) (q : ℕ → Bool) (key : K) :
    (LwwMap.mk (m.entries.retain fun e ↦ q e.2.localGen)).register key =
      if q (m.slot key).gen then m.register key else default := by
  rw [register, lookup_mk_retain, slot, register]
  cases m.lookup key with
  | none => simp
  | some r => by_cases h : q r.localGen = true <;> simp [h, LwwRegister.slot, Option.filter]

theorem slot_mk_retain (m : LwwMap K V) (p : K × LwwRegister V → Bool) (key : K) :
    (LwwMap.mk (m.entries.retain p)).slot key = m.slot key ∨
      (LwwMap.mk (m.entries.retain p)).slot key = (default : LwwRegister V).slot := by
  rw [slot, register, lookup_mk_retain, slot, register]
  cases m.lookup key with
  | none => simp
  | some r => by_cases h : p (key, r) = true <;> simp [h, Option.filter]

end LwwMap

namespace ClusterCrdt

theorem entry_of_retain_gen (q : ℕ → Bool)
    (hor : ∀ f, d.orMap f = ⟨(c.orMap f).entries.retain fun e ↦ q e.2.localGen⟩)
    (hlww : ∀ f, d.lwwMap f = ⟨(c.lwwMap f).entries.retain fun e ↦ q e.2.localGen⟩)
    (hwriter : d.mtcWriter = if q c.mtcWriter.localGen then c.mtcWriter else default) (x : Cell) :
    d.entry x = if q (c.slot x).gen then c.entry x else empty.entry x := by
  cases x with
  | or f key =>
    have hempty : empty.entry (.or f key) = none := by cases f <;> rfl
    have hentry : d.entry (.or f key) = _ := congrArg (OrMap.lookup · key) (hor f)
    rw [hentry, hempty]
    exact (c.orMap f).lookup_retain_gen q key
  | lww f key =>
    have hempty : empty.entry (.lww f key) = (default : LwwRegister f.Value) := by cases f <;> rfl
    have hentry : d.entry (.lww f key) = _ := congrArg (LwwMap.register · key) (hlww f)
    rw [hentry, hempty]
    exact (c.lwwMap f).register_retain_gen q key
  | writer => exact hwriter

theorem entry_deltaSince (c : ClusterCrdt) (gen : ℕ) (x : Cell) :
    (c.deltaSince gen).entry x = if gen < (c.slot x).gen then c.entry x else empty.entry x := by
  have h := entry_of_retain_gen (c := c) (d := c.deltaSince gen) (fun n ↦ decide (gen < n))
    (fun f ↦ by cases f <;> rfl)
    (fun f ↦ by
      have hlww : (c.deltaSince gen).lwwMap f = (c.lwwMap f).deltaSince gen := by cases f <;> rfl
      rw [hlww, LwwMap.deltaSince]
      congr 2
      funext e
      by_cases hgen : gen < e.2.localGen <;> simp [LwwRegister.deltaSince, hgen])
    (by
      change (c.mtcWriter.deltaSince gen).getD default = _
      by_cases hgen : gen < c.mtcWriter.localGen <;> simp [LwwRegister.deltaSince, hgen]) x
  simpa only [decide_eq_true_eq] using h

theorem entry_deltaRange (c : ClusterCrdt) (since upTo : ℕ) (x : Cell) :
    (c.deltaRange since upTo).entry x =
      if since < (c.slot x).gen ∧ (c.slot x).gen ≤ upTo then c.entry x else empty.entry x := by
  have h := entry_of_retain_gen (c := c) (d := c.deltaRange since upTo)
    (fun n ↦ decide (since < n) && decide (n ≤ upTo))
    (fun f ↦ by cases f <;> rfl)
    (fun f ↦ by
      have hlww : (c.deltaRange since upTo).lwwMap f = (c.lwwMap f).deltaRange since upTo := by
        cases f <;> rfl
      rw [hlww, LwwMap.deltaRange]
      congr 2
      funext e
      rw [LwwRegister.deltaRange, ← Bool.decide_and]
      split <;> simp [*])
    (by
      change (c.mtcWriter.deltaRange since upTo).getD default = _
      rw [LwwRegister.deltaRange, ← Bool.decide_and]
      split <;> simp [*]) x
  simpa only [Bool.and_eq_true, decide_eq_true_eq] using h

theorem slot_deltaSince (c : ClusterCrdt) (gen : ℕ) (x : Cell) :
    (c.deltaSince gen).slot x = if gen < (c.slot x).gen then c.slot x else empty.slot x := by
  simp only [← slotOf_entry (c.deltaSince gen), entry_deltaSince, apply_ite x.slotOf, slotOf_entry]

theorem slot_deltaRange (c : ClusterCrdt) (since upTo : ℕ) (x : Cell) :
    (c.deltaRange since upTo).slot x =
      if since < (c.slot x).gen ∧ (c.slot x).gen ≤ upTo then c.slot x else empty.slot x := by
  simp only [← slotOf_entry (c.deltaRange since upTo), entry_deltaRange, apply_ite x.slotOf,
    slotOf_entry]

theorem empty_subsumed (x : Cell) (s : Content x.Value) : (empty.slot x).content.Subsumed s := by
  rw [slot_empty]
  cases x with
  | or => exact .inl bot_le
  | lww | writer => exact .inr ⟨rfl, "", rfl⟩

theorem moved_merge (c : ClusterCrdt) (gen : ℕ) (other : ClusterCrdt) (x : Cell) :
    x.Moved gen (c.merge gen other).2 (c.entry x) ((c.merge gen other).1.entry x) := by
  obtain ⟨-, hor, hlww, hwriter⟩ := c.merge_entries gen other
  cases x with
  | or f key => exact (hor f key).moved key
  | lww f key => exact (hlww f key).moved.imp_left LwwRegister.slot_injective
  | writer => exact hwriter.moved.imp_left LwwRegister.slot_injective

end ClusterCrdt

/-! ## What one operation does to a slot -/

/-- Drops nothing. -/
def OrMapOp.Keeps {V : Type} : OrMapOp V → Prop
  | .retain _ => False
  | _ => True

def LwwMapOp.Keeps {K V : Type} : LwwMapOp K V → Prop
  | .retain _ => False
  | _ => True

def LocalOp.Keeps : LocalOp → Prop
  | .or _ op => op.Keeps
  | .lww _ op => op.Keeps
  | .purge _ => False
  | _ => True

/-- Neither drops an entry nor overwrites it with an older one. -/
def OrMapOp.Grows {V : Type} : OrMapOp V → Prop
  | .insert _ _ _ => True
  | .remove _ _ => True
  | _ => False

def LocalOp.Grows : LocalOp → Prop
  | .or _ op => op.Grows
  | .lww _ op => op.Keeps
  | .purge _ => False
  | _ => True

theorem OrMap.moved_put {f : OrField} {m : OrMap String f.Value} {k : String}
    {e : OrMapEntry f.Value} (h : some e = m.lookup k ∨ gen < e.localGen ∧ e.localGen ≤ gen')
    (key : String) :
    (Cell.or f key).Moved gen gen' (m.lookup key)
      ((OrMap.mk (m.entries.put (k, e))).lookup key) := by
  rw [OrMap.lookup_put]
  by_cases hk : k = key
  · subst hk
    rw [if_pos rfl]
    exact h
  · rw [if_neg hk]
    exact .inl rfl

theorem OrMapOp.moved {f : OrField} (op : OrMapOp f.Value) (h : op.Keeps)
    (m : OrMap String f.Value) (gen : ℕ) :
    gen ≤ (op.apply m gen).2 ∧ ∀ key, (Cell.or f key).Moved gen (op.apply m gen).2
      (m.lookup key) ((op.apply m gen).1.lookup key) := by
  have hnew : gen < gen + 1 ∧ gen + 1 ≤ gen + 1 := ⟨Nat.lt_succ_self gen, le_rfl⟩
  cases op with
  | retain => exact h.elim
  | upsert => exact ⟨Nat.le_succ gen, OrMap.moved_put (.inr hnew)⟩
  | insert k =>
    simp only [OrMapOp.apply, OrMap.insert]
    cases m.lookup k with
    | some => exact ⟨le_rfl, fun key ↦ .inl rfl⟩
    | none => exact ⟨Nat.le_succ gen, OrMap.moved_put (.inr hnew)⟩
  | remove k =>
    simp only [OrMapOp.apply, OrMap.remove]
    split
    · exact ⟨Nat.le_succ gen, OrMap.moved_put (.inr hnew)⟩
    · rename_i hold
      refine ⟨le_rfl, OrMap.moved_put (.inl ?_)⟩
      cases hlookup : m.lookup k with
      | none => simp [hlookup] at hold
      | some => rfl

theorem OrMapOp.stamp_le {V : Type} [Inhabited V] (op : OrMapOp V) (h : op.Grows)
    (m : OrMap String V) (gen : ℕ) (key : String) :
    (m.slot key).content.stamp ≤ ((op.apply m gen).1.slot key).content.stamp := by
  cases op with
  | retain | upsert => exact h.elim
  | insert =>
    rw [OrMapOp.apply, OrMap.slot_insert]
    split
    · rename_i hk
      rw [← hk.1, OrMap.slot_of_none hk.2]
      exact bot_le
    · exact le_rfl
  | remove =>
    rw [OrMapOp.apply, OrMap.slot_remove]
    split
    · split
      · exact le_rfl
      · exact le_top
    · exact le_rfl

theorem LwwRegister.moved_write {T : Type} (r : LwwRegister T) (gen : ℕ) (value : Option T)
    (timestamp : Int) (nodeId : String) {s : LwwRegister T × ℕ}
    (hs : s = if r.wins timestamp nodeId then (⟨value, timestamp, nodeId, gen + 1⟩, gen + 1)
      else (r, gen)) : gen ≤ s.2 ∧ (s.1 = r ∨ gen < s.1.localGen ∧ s.1.localGen ≤ s.2) := by
  subst hs
  split
  · exact ⟨Nat.le_succ gen, .inr ⟨Nat.lt_succ_self gen, le_rfl⟩⟩
  · exact ⟨le_rfl, .inl rfl⟩

theorem LwwMapOp.moved {f : LwwField} (op : LwwMapOp f.Key f.Value) (h : op.Keeps)
    (m : LwwMap f.Key f.Value) (gen : ℕ) (nodeId : String) :
    gen ≤ (op.apply m gen nodeId).2 ∧ ∀ key, (Cell.lww f key).Moved gen (op.apply m gen nodeId).2
      (m.register key) ((op.apply m gen nodeId).1.register key) := by
  -- a register that is put back under its key, or a written one
  have hput : ∀ (k : f.Key) (s : LwwRegister f.Value × ℕ),
      gen ≤ s.2 ∧ (s.1 = m.register k ∨ gen < s.1.localGen ∧ s.1.localGen ≤ s.2) →
      gen ≤ s.2 ∧ ∀ key, (Cell.lww f key).Moved gen s.2 (m.register key)
        ((LwwMap.mk (m.entries.put (k, s.1))).register key) := by
    rintro k s ⟨hle, hs⟩
    refine ⟨hle, fun key ↦ ?_⟩
    rw [LwwMap.register_put]
    split
    · rename_i hk
      exact hk ▸ hs
    · exact .inl rfl
  cases op with
  | retain => exact h.elim
  | set k value timestamp =>
    exact hput k _ ((m.register k).moved_write gen (some value) timestamp nodeId rfl)
  | remove k timestamp =>
    exact hput k _ ((m.register k).moved_write gen none timestamp nodeId rfl)

theorem LwwMapOp.stamp_le {K V : Type} [DecidableEq K] (op : LwwMapOp K V) (h : op.Keeps)
    (m : LwwMap K V) (gen : ℕ) (nodeId : String) (key : K) :
    (m.slot key).content.stamp ≤ ((op.apply m gen nodeId).1.slot key).content.stamp := by
  cases op with
  | retain => exact h.elim
  | set =>
    rw [LwwMapOp.apply, LwwMap.slot_set]
    split
    · rename_i hk
      rw [← hk.1]
      exact hk.2.le
    · exact le_rfl
  | remove =>
    rw [LwwMapOp.apply, LwwMap.slot_remove]
    split
    · rename_i hk
      rw [← hk.1]
      exact hk.2.le
    · exact le_rfl

/-! ## What one operation does to the replica -/

namespace ClusterReplica

variable (r : ClusterReplica) (nodeId : String)

theorem entry_setOrMap_cases {P : (x : Cell) → x.Entry → x.Entry → Prop} (f : OrField)
    (m : OrMap String f.Value) (hrefl : ∀ x s, P x s s)
    (hm : ∀ key, P (.or f key) ((r.crdt.orMap f).lookup key) (m.lookup key)) (x : Cell) :
    P x (r.crdt.entry x) ((r.crdt.setOrMap f m).entry x) := by
  by_cases hx : ∃ key, x = .or f key
  · obtain ⟨key, rfl⟩ := hx
    have hentry : (r.crdt.setOrMap f m).entry (.or f key) = m.lookup key :=
      congrArg (OrMap.lookup · key) (ClusterCrdt.orMap_setOrMap r.crdt f m)
    rw [hentry]
    exact hm key
  · rw [ClusterCrdt.entry_setOrMap_of_ne r.crdt f m fun key hkey ↦ hx ⟨key, hkey⟩]
    exact hrefl x _

theorem entry_setLwwMap_cases {P : (x : Cell) → x.Entry → x.Entry → Prop} (f : LwwField)
    (m : LwwMap f.Key f.Value) (hrefl : ∀ x s, P x s s)
    (hm : ∀ key, P (.lww f key) ((r.crdt.lwwMap f).register key) (m.register key)) (x : Cell) :
    P x (r.crdt.entry x) ((r.crdt.setLwwMap f m).entry x) := by
  by_cases hx : ∃ key, x = .lww f key
  · obtain ⟨key, rfl⟩ := hx
    have hentry : (r.crdt.setLwwMap f m).entry (.lww f key) = m.register key :=
      congrArg (LwwMap.register · key) (ClusterCrdt.lwwMap_setLwwMap r.crdt f m)
    rw [hentry]
    exact hm key
  · rw [ClusterCrdt.entry_setLwwMap_of_ne r.crdt f m fun key hkey ↦ hx ⟨key, hkey⟩]
    exact hrefl x _

theorem entry_setWriter_cases {P : (x : Cell) → x.Entry → x.Entry → Prop}
    (w : LwwRegister MtcWriter) (hrefl : ∀ x s, P x s s) (hw : P .writer r.crdt.mtcWriter w)
    (x : Cell) : P x (r.crdt.entry x) (({ r.crdt with mtcWriter := w } : ClusterCrdt).entry x) := by
  by_cases hx : x = .writer
  · subst hx
    exact hw
  · rw [ClusterCrdt.entry_setWriter_of_ne r.crdt w hx]
    exact hrefl x _

theorem keeps_of_lww {op : LocalOp} {f : LwwField} {op' : LwwMapOp f.Key f.Value}
    (hop : op = .lww f op' ∨ ∃ key value timestamp, op' = .set key value timestamp)
    (h : op.Keeps ∨ op.Grows) : op'.Keeps := by
  rcases hop with rfl | ⟨_, _, _, rfl⟩
  · exact h.elim id id
  · trivial

theorem moved_apply (op : LocalOp) (h : op.Keeps) :
    r.gen ≤ (r.apply nodeId op).gen ∧ ∀ x : Cell, x.Moved r.gen (r.apply nodeId op).gen
      (r.crdt.entry x) ((r.apply nodeId op).crdt.entry x) := by
  obtain heq | ⟨f, op, rfl⟩ | ⟨f, op', hop, heq⟩ | ⟨now, heq⟩ | ⟨cutoff, rfl⟩ :=
    r.apply_eq_cases nodeId op
  · rw [heq]
    exact ⟨le_rfl, fun _ ↦ .inl rfl⟩
  · obtain ⟨hgen, hmoved⟩ := op.moved h (r.crdt.orMap f) r.gen
    exact ⟨hgen, r.entry_setOrMap_cases (P := (Cell.Moved · r.gen _)) f _
      (fun _ _ ↦ .inl rfl) hmoved⟩
  · obtain ⟨hgen, hmoved⟩ := op'.moved (keeps_of_lww hop (.inl h)) (r.crdt.lwwMap f) r.gen nodeId
    rw [heq]
    exact ⟨hgen, r.entry_setLwwMap_cases (P := (Cell.Moved · r.gen _)) f _
      (fun _ _ ↦ .inl rfl) hmoved⟩
  · obtain ⟨hgen, hmoved⟩ :=
      r.crdt.mtcWriter.moved_write r.gen (some ⟨nodeId, now⟩) now nodeId rfl
    rw [heq]
    exact ⟨hgen, r.entry_setWriter_cases (P := (Cell.Moved · r.gen _)) _
      (fun _ _ ↦ .inl rfl) hmoved⟩
  · exact h.elim

theorem apply_cases (op : LocalOp) :
    r.gen ≤ (r.apply nodeId op).gen ∧ ∀ x,
      Slot.Moved r.gen (r.apply nodeId op).gen (r.crdt.slot x) ((r.apply nodeId op).crdt.slot x) ∨
        (r.apply nodeId op).crdt.slot x = ClusterCrdt.empty.slot x := by
  by_cases hkeeps : op.Keeps
  · obtain ⟨hgen, hmoved⟩ := r.moved_apply nodeId op hkeeps
    exact ⟨hgen, fun x ↦ .inl (hmoved x).slot⟩
  cases op with
  | claimOrder | claimMtcWriter => exact absurd trivial hkeeps
  | or f op =>
    cases op with
    | insert | upsert | remove => exact absurd trivial hkeeps
    | retain =>
      refine ⟨le_rfl, fun x ↦ Cell.Dropped.slot (r.entry_setOrMap_cases (P := Cell.Dropped) f _
        (fun _ _ ↦ .inl rfl) (fun key ↦ ?_) x)⟩
      have hempty := ClusterCrdt.slot_empty (.or f key)
      exact ((r.crdt.orMap f).slot_mk_retain _ key).imp_right fun h ↦ h.trans hempty.symm
  | lww f op =>
    cases op with
    | set | remove => exact absurd trivial hkeeps
    | retain =>
      refine ⟨le_rfl, fun x ↦ Cell.Dropped.slot (r.entry_setLwwMap_cases (P := Cell.Dropped) f _
        (fun _ _ ↦ .inl rfl) (fun key ↦ ?_) x)⟩
      have hempty := ClusterCrdt.slot_empty (.lww f key)
      exact ((r.crdt.lwwMap f).slot_mk_retain _ key).imp_right fun h ↦ h.trans hempty.symm
  | purge cutoff =>
    refine ⟨le_rfl, fun x ↦ ?_⟩
    rw [ClusterCrdt.slot_empty]
    cases x with
    | writer => exact .inl (.inl rfl)
    | or f key =>
      have hslot : (r.crdt.purgeOldTombstones cutoff).slot (.or f key) = _ :=
        congrArg (OrMap.slot · key) (ClusterCrdt.orMap_purge r.crdt cutoff f)
      simp only [apply, hslot]
      exact ((r.crdt.orMap f).slot_mk_retain _ key).imp_left .inl
    | lww f key =>
      have hslot : (r.crdt.purgeOldTombstones cutoff).slot (.lww f key) = _ :=
        congrArg (LwwMap.slot · key) (ClusterCrdt.lwwMap_purge r.crdt cutoff f)
      simp only [apply, hslot]
      exact ((r.crdt.lwwMap f).slot_mk_retain _ key).imp_left .inl

theorem stamp_le_apply (op : LocalOp) (h : op.Grows) (x : Cell) :
    (r.crdt.slot x).content.stamp ≤ ((r.apply nodeId op).crdt.slot x).content.stamp := by
  rw [← ClusterCrdt.slotOf_entry, ← ClusterCrdt.slotOf_entry]
  obtain heq | ⟨f, op, rfl⟩ | ⟨f, op', hop, heq⟩ | ⟨now, heq⟩ | ⟨cutoff, rfl⟩ :=
    r.apply_eq_cases nodeId op
  · rw [heq]
  · exact r.entry_setOrMap_cases (P := Cell.StampLe) f _ (fun _ _ ↦ le_rfl) (op.stamp_le h _ _) x
  · rw [heq]
    exact r.entry_setLwwMap_cases (P := Cell.StampLe) f _ (fun _ _ ↦ le_rfl)
      (op'.stamp_le (keeps_of_lww hop (.inr h)) _ _ nodeId) x
  · rw [heq]
    refine r.entry_setWriter_cases (P := Cell.StampLe) _ (fun _ _ ↦ le_rfl) ?_ x
    change r.crdt.mtcWriter.slot.content.stamp ≤
      (r.crdt.mtcWriter.set r.gen ⟨nodeId, now⟩ now nodeId).1.slot.content.stamp
    rw [LwwRegister.slot_set]
    split
    · exact le_of_lt ‹_›
    · exact le_rfl
  · exact h.elim

end ClusterReplica

/-! ## Numbers and the counter -/

/-- No entry's number is beyond the counter. -/
def ClusterReplica.Numbered (r : ClusterReplica) : Prop := ∀ x, (r.crdt.slot x).gen ≤ r.gen

namespace ClusterReplica.Numbered

variable {r : ClusterReplica}

theorem apply (h : r.Numbered) (nodeId : String) (op : LocalOp) : (r.apply nodeId op).Numbered := by
  obtain ⟨hgen, hcases⟩ := r.apply_cases nodeId op
  intro x
  rcases hcases x with (hsame | hmoved) | hempty
  · rw [hsame]
    exact (h x).trans hgen
  · exact hmoved.2
  · rw [hempty, ClusterCrdt.slot_empty]
    exact Nat.zero_le _

theorem merge (h : r.Numbered) (other : ClusterCrdt) : (r.merge other).Numbered := by
  have hgen := (r.crdt.merge_spec r.gen other).1
  intro x
  rcases (r.crdt.slot_merge r.gen other x).moved with hsame | hmoved
  · have hx : (r.merge other).crdt.slot x = r.crdt.slot x := hsame
    rw [hx]
    exact (h x).trans hgen
  · exact hmoved.2

end ClusterReplica.Numbered

/-! ## Whole runs -/

theorem Slot.Moved.eq_of_gen_le {V : Type} {old new : Slot V} (h : Slot.Moved gen gen' old new)
    (hle : new.gen ≤ gen) : new = old :=
  h.resolve_right fun hlt ↦ absurd hlt.1 (not_lt.mpr hle)

theorem Cell.Moved.eq_of_gen_le {old new : x.Entry} (h : x.Moved gen gen' old new)
    (hle : (x.slotOf new).gen ≤ gen) : new = old :=
  h.resolve_right fun hlt ↦ absurd hlt.1 (not_lt.mpr hle)

inductive Change where
  | write (op : LocalOp)
  | merge (other : ClusterCrdt)

def Change.Keeps : Change → Prop
  | .write op => op.Keeps
  | .merge _ => True

def Change.Grows : Change → Prop
  | .write op => op.Grows
  | .merge _ => True

namespace ClusterReplica

def change (nodeId : String) (r : ClusterReplica) : Change → ClusterReplica
  | .write op => r.apply nodeId op
  | .merge other => r.merge other

def changes (nodeId : String) (r : ClusterReplica) (cs : List Change) : ClusterReplica :=
  cs.foldl (change nodeId) r

theorem moved_change (nodeId : String) (r : ClusterReplica) (c : Change) (h : c.Keeps) :
    r.gen ≤ (r.change nodeId c).gen ∧ ∀ x : Cell, x.Moved r.gen (r.change nodeId c).gen
      (r.crdt.entry x) ((r.change nodeId c).crdt.entry x) := by
  cases c with
  | write op => exact r.moved_apply nodeId op h
  | merge other => exact ⟨(r.crdt.merge_spec r.gen other).1, r.crdt.moved_merge r.gen other⟩

theorem stamp_le_change (nodeId : String) (r : ClusterReplica) (c : Change) (h : c.Grows)
    (x : Cell) :
    (r.crdt.slot x).content.stamp ≤ ((r.change nodeId c).crdt.slot x).content.stamp := by
  cases c with
  | write op => exact r.stamp_le_apply nodeId op h x
  | merge other => exact (r.crdt.slot_merge r.gen other x).stamp_le

theorem moved_changes (nodeId : String) (r : ClusterReplica) (cs : List Change)
    (h : ∀ c ∈ cs, c.Keeps) :
    r.gen ≤ (r.changes nodeId cs).gen ∧ ∀ x : Cell, x.Moved r.gen (r.changes nodeId cs).gen
      (r.crdt.entry x) ((r.changes nodeId cs).crdt.entry x) := by
  induction cs generalizing r with
  | nil => exact ⟨le_rfl, fun _ ↦ .inl rfl⟩
  | cons c cs ih =>
    obtain ⟨hgen, hmoved⟩ := r.moved_change nodeId c (h c mem_cons_self)
    obtain ⟨hgen', hmoved'⟩ := ih (r.change nodeId c) fun c' hc' ↦
      h c' (mem_cons_of_mem c hc')
    exact ⟨hgen.trans hgen', fun x ↦ (hmoved x).trans (hmoved' x) hgen hgen'⟩

theorem stamp_le_changes (nodeId : String) (r : ClusterReplica) (cs : List Change)
    (h : ∀ c ∈ cs, c.Grows) (x : Cell) :
    (r.crdt.slot x).content.stamp ≤ ((r.changes nodeId cs).crdt.slot x).content.stamp := by
  induction cs generalizing r with
  | nil => exact le_rfl
  | cons c cs ih =>
    exact (r.stamp_le_change nodeId c (h c mem_cons_self) x).trans
      (ih (r.change nodeId c) fun c' hc' ↦ h c' (mem_cons_of_mem c hc'))

theorem view_merge_deltaSince {r s : ClusterReplica}
    (h : ∀ x, (r.crdt.slot x).gen ≤ gen →
      (r.crdt.slot x).content.Subsumed (s.crdt.slot x).content) :
    (s.merge (r.crdt.deltaSince gen)).crdt.view = (s.merge r.crdt).crdt.view := by
  funext x
  have hdelta := s.crdt.slot_merge s.gen (r.crdt.deltaSince gen) x
  have hfull := s.crdt.slot_merge s.gen r.crdt x
  rw [ClusterCrdt.slot_deltaSince] at hdelta
  rw [ClusterCrdt.view_eq_value, ClusterCrdt.view_eq_value]
  refine congrArg Stamped.value ?_
  by_cases hgen : gen < (r.crdt.slot x).gen
  · rw [if_pos hgen] at hdelta
    exact hdelta.content_unique hfull rfl
  · rw [if_neg hgen] at hdelta
    have hsame := hdelta.eq_of_subsumed (ClusterCrdt.empty_subsumed x _)
    have hsame' := hfull.eq_of_subsumed (h x (not_lt.mp hgen))
    exact congrArg Slot.content (hsame.trans hsame'.symm)

/-- A replica `s` took over a snapshot of `r` at counter `r.gen`.  However both
went on, the delta since then brings it as far as the whole state would. -/
theorem delta_sufficient {nodeR nodeS : String} (r s : ClusterReplica) {rs ss : List Change}
    (hr : ∀ c ∈ rs, c.Keeps) (hs : ∀ c ∈ ss, c.Grows) :
    (((s.merge r.crdt).changes nodeS ss).merge
        ((r.changes nodeR rs).crdt.deltaSince r.gen)).crdt.view =
      (((s.merge r.crdt).changes nodeS ss).merge (r.changes nodeR rs).crdt).crdt.view := by
  refine view_merge_deltaSince fun x hgen ↦ ?_
  rw [← ClusterCrdt.slotOf_entry] at hgen
  have hsame := ClusterCrdt.slot_of_entry (((r.moved_changes nodeR rs hr).2 x).eq_of_gen_le hgen)
  rw [hsame]
  have hseen := (s.crdt.slot_merge s.gen r.crdt x).subsumed
  exact hseen.mono ((s.merge r.crdt).stamp_le_changes nodeS ss hs x)

def nodeAt (url : String) : AkaNodeEntry := ⟨"node-a", url, [], [], [], ["default"], 1⟩

def sender : ClusterReplica :=
  (⟨.empty, 0⟩ : ClusterReplica).apply "node-a"
    (.or .clusterNodes (.upsert "node-a" (nodeAt "https://old") 1))

def movedSender : ClusterReplica :=
  sender.changes "node-a" [.write (.or .clusterNodes (.upsert "node-a" (nodeAt "https://new") 5))]

def receiver : ClusterReplica :=
  ((⟨.empty, 0⟩ : ClusterReplica).merge sender.crdt).changes "node-b"
    [.write (.or .orders (.remove "order" 3))]

theorem moved_node_in_delta :
    (receiver.merge (movedSender.crdt.deltaSince sender.gen)).crdt.view =
      (receiver.merge movedSender.crdt).crdt.view := by
  refine delta_sufficient sender ⟨.empty, 0⟩ ?_ ?_
  · exact List.forall_mem_singleton.mpr trivial
  · exact List.forall_mem_singleton.mpr trivial

end ClusterReplica

end Akamu.Crdt
