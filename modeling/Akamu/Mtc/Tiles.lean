import Akamu.Lib.MerkleTree
import Akamu.Status

/-!
# Hash tiles

The tiles of `tlog.rs`.  A tile of level `0` holds leaf hashes; an entry of a
tile of level `L + 1` is the tree hash of what the tile of level `L` below it
holds.  One request reads the log many times, and each read locks the log on
its own, so leaves may be appended between any two reads.
-/

namespace Akamu.Mtc

open Except List MerkleTree

abbrev Hash := List UInt8

/-- `TILE_WIDTH` -/
def tileWidth : ℕ := 256

/-- `MAX_TILE_LEVEL` -/
def maxTileLevel : ℕ := 6

/-! ## The log and its readers -/

/-- The leaf hashes of a log at each of its moments.  Leaves are only appended;
any number of them may arrive from one moment to the next. -/
structure LogHistory where
  leaves : ℕ → List Hash
  grows : ∀ t, leaves t <+: leaves (t + 1)

variable {t' t₂ : ℕ}

theorem LogHistory.grows_of_le (log : LogHistory) {t₁ : ℕ} (h : t₁ ≤ t₂) :
    log.leaves t₁ <+: log.leaves t₂ := by
  induction h with
  | refl => exact prefix_rfl
  | step _ ih => exact ih.trans (log.grows _)

/-- A computation that reads the log: it starts at some moment and ends at a
later one. -/
abbrev Reader (α : Type) := StateT ℕ (Except AcmeError) α

def checkedU64 (n : ℕ) : Option ℕ := if n < 2 ^ 64 then some n else none

def orNotFound {α : Type} : Option α → Except AcmeError α
  | some a => .ok a
  | none => .error .notFound

/-- The leaf hashes from `start` on, at most `count` of them: none when the log
ends before `start`, fewer when it ends before the range does. -/
def hashRange (leaves : List Hash) (start count : ℕ) : List Hash :=
  if leaves.length ≤ start then [] else (leaves.drop start).take count

def readHashRange (log : LogHistory) (start count : ℕ) : Reader (List Hash) :=
  fun t ↦ .ok (hashRange (log.leaves t) start count, t + 1)

/-! ## Tiles -/

structure HashLibrary where
  hashData : List UInt8 → Except String Hash
  hashInterior : Hash → Hash → Except String Hash

def HashLibrary.hasher (lib : HashLibrary) : MerkleTree.Hasher AcmeError Hash where
  empty := (lib.hashData []).mapError fun e ↦ .mtc ("hash empty MTH: " ++ e)
  node left right := (lib.hashInterior left right).mapError fun e ↦ .mtc ("hash_interior: " ++ e)

def mth (lib : HashLibrary) (hashes : List Hash) : Except AcmeError Hash :=
  MerkleTree.root lib.hasher hashes

/-- The entries `i`, `i + 1`, … of a tile above level `0`; `sub` computes the
tiles of the level below.  The loop ends early at an empty tile below. -/
def interiorEntries (lib : HashLibrary) (sub : ℕ → Reader (List Hash)) (tileN : ℕ) :
    ℕ → ℕ → Reader (List Hash)
  | _, 0 => pure []
  | i, remaining + 1 => do
      let base ← orNotFound (checkedU64 (tileN * tileWidth))
      let subTileN ← orNotFound (checkedU64 (base + i))
      let below ← sub subTileN
      if below.isEmpty then pure []
      else do
        let entry ← mth lib below
        let rest ← interiorEntries lib sub tileN (i + 1) remaining
        pure (entry :: rest)

def tileEntries (lib : HashLibrary) (log : LogHistory) : ℕ → ℕ → ℕ → Reader (List Hash)
  | 0, tileN, maxWidth => do
      let start ← orNotFound (checkedU64 (tileN * tileWidth))
      readHashRange log start maxWidth
  | level + 1, tileN, maxWidth =>
    interiorEntries lib (fun n ↦ tileEntries lib log level n tileWidth) tileN 0 maxWidth

/-- What `parse_tile_path` can return. -/
structure TilePath where
  level : ℕ
  tileN : ℕ
  /-- `none` stands for a full tile. -/
  partialWidth : Option ℕ
  level_le : level ≤ maxTileLevel
  tileN_lt : tileN < 2 ^ 64
  width_pos : ∀ w ∈ partialWidth, 0 < w
  width_lt : ∀ w ∈ partialWidth, w < tileWidth

def TilePath.width (tile : TilePath) : ℕ := tile.partialWidth.getD tileWidth

def TilePath.FullyHolds (tile : TilePath) (entries : List Hash) : Prop :=
  match tile.partialWidth with
  | none => tileWidth ≤ entries.length
  | some w => entries.length = w

def getTileBytes (lib : HashLibrary) (log : LogHistory) (tile : TilePath) : Reader (List UInt8) := do
  let entries ← tileEntries lib log tile.level tile.tileN tile.width
  match tile.partialWidth with
  | none => if entries.length < tileWidth then throw .notFound else pure entries.flatten
  | some w => if entries.length ≠ w then throw .notFound else pure entries.flatten

/-! ## The steps of a tile computation -/

theorem orNotFound_checkedU64_eq_ok {n m : ℕ} :
    orNotFound (checkedU64 n) = .ok m ↔ n < 2 ^ 64 ∧ m = n := by
  unfold checkedU64
  by_cases hlt : n < 2 ^ 64
  · rw [if_pos hlt]
    exact ⟨fun heq ↦ ⟨hlt, (ok.inj heq).symm⟩, fun heq ↦ by rw [heq.2]; rfl⟩
  · rw [if_neg hlt]
    exact ⟨fun heq ↦ (nomatch heq), fun heq ↦ absurd heq.1 hlt⟩

variable {tileN remaining t i : ℕ}

section Entries

variable {lib : HashLibrary} {log : LogHistory} {entries leaves : List Hash} {tile : TilePath}
  {sub : ℕ → Reader (List Hash)}

theorem tileEntries_zero_eq_ok {width : ℕ} :
    tileEntries lib log 0 tileN width t = .ok (entries, t') ↔
      tileN * tileWidth < 2 ^ 64 ∧ t' = t + 1 ∧
        entries = hashRange (log.leaves t) (tileN * tileWidth) width := by
  constructor
  · intro h
    obtain ⟨start, hstart, h⟩ := StateT.lift_bind_eq_ok h
    obtain ⟨hlt, rfl⟩ := orNotFound_checkedU64_eq_ok.mp hstart
    cases h
    exact ⟨hlt, rfl, rfl⟩
  · rintro ⟨hlt, rfl, rfl⟩
    change (orNotFound (checkedU64 (tileN * tileWidth)) >>= _) >>= _ = _
    rw [orNotFound_checkedU64_eq_ok.mpr ⟨hlt, rfl⟩]
    rfl

theorem interiorEntries_succ_eq_ok :
    interiorEntries lib sub tileN i (remaining + 1) t = .ok (entries, t') ↔
      tileN * tileWidth + i < 2 ^ 64 ∧ ∃ below t₁,
        sub (tileN * tileWidth + i) t = .ok (below, t₁) ∧
          (below = [] ∧ entries = [] ∧ t' = t₁ ∨
            below ≠ [] ∧ ∃ entry rest, mth lib below = .ok entry ∧
              interiorEntries lib sub tileN (i + 1) remaining t₁ = .ok (rest, t') ∧
              entries = entry :: rest) := by
  constructor
  · intro h
    obtain ⟨base, hbase, h⟩ := StateT.lift_bind_eq_ok h
    obtain ⟨-, rfl⟩ := orNotFound_checkedU64_eq_ok.mp hbase
    obtain ⟨subTileN, hsubTileN, h⟩ := StateT.lift_bind_eq_ok h
    obtain ⟨hlt, rfl⟩ := orNotFound_checkedU64_eq_ok.mp hsubTileN
    obtain ⟨below, t₁, hbelow, h⟩ := StateT.bind_eq_ok h
    refine ⟨hlt, below, t₁, hbelow, ?_⟩
    split at h
    · rename_i hempty
      cases h
      exact .inl ⟨isEmpty_iff.mp hempty, rfl, rfl⟩
    · rename_i hempty
      obtain ⟨entry, hentry, h⟩ := StateT.lift_bind_eq_ok h
      obtain ⟨rest, t₂, hrest, h⟩ := StateT.bind_eq_ok h
      cases h
      exact .inr ⟨fun h ↦ hempty (isEmpty_iff.mpr h), entry, rest, hentry, hrest, rfl⟩
  · rintro ⟨hlt, below, t₁, hbelow, h⟩
    have hbase : tileN * tileWidth < 2 ^ 64 := by omega
    change ((orNotFound (checkedU64 (tileN * tileWidth)) >>= _) >>= _) = _
    rw [orNotFound_checkedU64_eq_ok.mpr ⟨hbase, rfl⟩]
    change ((orNotFound (checkedU64 (tileN * tileWidth + i)) >>= _) >>= _) = _
    rw [orNotFound_checkedU64_eq_ok.mpr ⟨hlt, rfl⟩]
    change (sub (tileN * tileWidth + i) t >>= _) = _
    rw [hbelow]
    rcases h with ⟨rfl, rfl, rfl⟩ | ⟨hne, entry, rest, hentry, hrest, rfl⟩
    · rfl
    · change (if below.isEmpty then _ else _ : Reader (List Hash)) t₁ = _
      rw [if_neg (by simpa using hne)]
      rw [hentry]
      change (interiorEntries lib sub tileN (i + 1) remaining t₁ >>= _) = _
      rw [hrest]
      rfl

/-! ## Reads at later moments -/

theorem interiorEntries_clock (hsub : ∀ n t below t', sub n t = .ok (below, t') → t ≤ t')
    (h : interiorEntries lib sub tileN i remaining t = .ok (entries, t')) : t ≤ t' := by
  induction remaining generalizing i t entries with
  | zero =>
    cases h
    exact le_rfl
  | succ remaining ih =>
    obtain ⟨-, below, t₁, hbelow, hrest⟩ := interiorEntries_succ_eq_ok.mp h
    have ht₁ : t ≤ t₁ := hsub _ _ _ _ hbelow
    rcases hrest with ⟨-, -, rfl⟩ | ⟨-, _, _, -, hrest, -⟩
    · exact ht₁
    · exact ht₁.trans (ih hrest)

variable {level start count t₀ : ℕ} {bytes : List UInt8}

theorem tileEntries_clock {width : ℕ}
    (h : tileEntries lib log level tileN width t = .ok (entries, t')) : t ≤ t' := by
  induction level generalizing tileN width t t' entries with
  | zero =>
    obtain ⟨-, rfl, -⟩ := tileEntries_zero_eq_ok.mp h
    exact Nat.le_succ t
  | succ level ih => exact interiorEntries_clock (fun _ _ _ _ h ↦ ih h) h

theorem hashRange_eq (leaves : List Hash) (start count : ℕ) :
    hashRange leaves start count = (leaves.drop start).take count := by
  unfold hashRange
  split
  · rename_i hle
    rw [drop_eq_nil_of_le hle, take_nil]
  · rfl

theorem hashRange_of_grown {leaves later : List Hash} (hgrown : leaves <+: later)
    (h : start + count ≤ leaves.length) :
    hashRange later start count = hashRange leaves start count := by
  obtain ⟨appended, rfl⟩ := hgrown
  rw [hashRange_eq, hashRange_eq, drop_append_of_le_length (by omega),
    take_append_of_le_length]
  rw [length_drop]
  omega

/-- The leaves below the first `width` entries of a tile are all in the log. -/
def Covered (leaves : List Hash) (level tileN width : ℕ) : Prop :=
  (tileN * tileWidth + width) * tileWidth ^ level ≤ leaves.length

instance (leaves : List Hash) (level tileN width : ℕ) :
    Decidable (Covered leaves level tileN width) := inferInstanceAs (Decidable (_ ≤ _))

theorem Covered.below {width : ℕ} (h : Covered leaves (level + 1) tileN width) (hi : i < width) :
    Covered leaves level (tileN * tileWidth + i) tileWidth := by
  have hend : tileN * tileWidth + (i + 1) ≤ tileN * tileWidth + width := by omega
  calc ((tileN * tileWidth + i) * tileWidth + tileWidth) * tileWidth ^ level
      = (tileN * tileWidth + (i + 1)) * tileWidth ^ (level + 1) := by ring
    _ ≤ (tileN * tileWidth + width) * tileWidth ^ (level + 1) := Nat.mul_le_mul_right _ hend
    _ ≤ leaves.length := h

theorem interiorEntries_later {bound : ℕ}
    (hclock : ∀ n t below t', sub n t = .ok (below, t') → t ≤ t')
    (hsub : ∀ i < bound, ∀ t ≥ t₀, ∀ t₂ ≥ t₀, ∀ below t',
      sub (tileN * tileWidth + i) t = .ok (below, t') →
      ∃ t₂', sub (tileN * tileWidth + i) t₂ = .ok (below, t₂')) (hi : i + remaining ≤ bound)
    (ht : t₀ ≤ t) (ht₂ : t₀ ≤ t₂)
    (h : interiorEntries lib sub tileN i remaining t = .ok (entries, t')) :
    ∃ t₂', interiorEntries lib sub tileN i remaining t₂ = .ok (entries, t₂') := by
  induction remaining generalizing i t t₂ entries with
  | zero =>
    cases h
    exact ⟨t₂, rfl⟩
  | succ remaining ih =>
    obtain ⟨hlt, below, t₁, hbelow, hrest⟩ := interiorEntries_succ_eq_ok.mp h
    obtain ⟨u₁, hbelow₂⟩ := hsub i (by omega) t ht t₂ ht₂ below t₁ hbelow
    rcases hrest with ⟨rfl, rfl, rfl⟩ | ⟨hne, entry, rest, hentry, hrest, rfl⟩
    · exact ⟨u₁, interiorEntries_succ_eq_ok.mpr
        ⟨hlt, [], u₁, hbelow₂, .inl ⟨rfl, rfl, rfl⟩⟩⟩
    · obtain ⟨u₂, hrest₂⟩ := ih (by omega) (ht.trans (hclock _ _ _ _ hbelow))
        (ht₂.trans (hclock _ _ _ _ hbelow₂)) hrest
      exact ⟨u₂, interiorEntries_succ_eq_ok.mpr
        ⟨hlt, below, u₁, hbelow₂, .inr ⟨hne, entry, rest, hentry, hrest₂, rfl⟩⟩⟩

theorem tileEntries_later {width : ℕ} (hcovered : Covered (log.leaves t₀) level tileN width)
    (ht : t₀ ≤ t) (ht₂ : t₀ ≤ t₂)
    (h : tileEntries lib log level tileN width t = .ok (entries, t')) :
    ∃ t₂', tileEntries lib log level tileN width t₂ = .ok (entries, t₂') := by
  induction level generalizing tileN width t t₂ t' entries with
  | zero =>
    obtain ⟨hlt, rfl, rfl⟩ := tileEntries_zero_eq_ok.mp h
    have hrange : tileN * tileWidth + width ≤ (log.leaves t₀).length := by
      simpa [Covered] using hcovered
    refine ⟨t₂ + 1, tileEntries_zero_eq_ok.mpr ⟨hlt, rfl, ?_⟩⟩
    rw [hashRange_of_grown (log.grows_of_le ht) hrange,
      hashRange_of_grown (log.grows_of_le ht₂) hrange]
  | succ level ih =>
    refine interiorEntries_later (fun _ _ _ _ h ↦ tileEntries_clock h) ?_
      (Nat.le_of_eq (Nat.zero_add width)) ht ht₂ h
    intro i hi u hu u₂ hu₂ below u' hbelow
    exact ih (hcovered.below hi) hu hu₂ hbelow

/-! ## Entries as hashes of runs of leaves -/

/-- The `k`-th run of `256 ^ level` leaves. -/
def leafRun (leaves : List Hash) (level k : ℕ) : List Hash :=
  (leaves.drop (k * tileWidth ^ level)).take (tileWidth ^ level)

theorem flatten_leafRun (leaves : List Hash) (level k count : ℕ) :
    ((List.range' k count).map (leafRun leaves level)).flatten =
      (leaves.drop (k * tileWidth ^ level)).take (count * tileWidth ^ level) := by
  induction count generalizing k with
  | zero => simp
  | succ count ih =>
    rw [range'_succ, map_cons, flatten_cons, ih, leafRun, Nat.succ_mul count,
      Nat.add_comm (count * _), take_add, drop_drop, Nat.succ_mul k]

theorem leafRun_succ (leaves : List Hash) (level k : ℕ) :
    leafRun leaves (level + 1) k =
      ((List.range' (k * tileWidth) tileWidth).map (leafRun leaves level)).flatten := by
  rw [flatten_leafRun, leafRun, pow_succ, Nat.mul_comm (tileWidth ^ level), Nat.mul_assoc]

theorem length_leafRun {k : ℕ} (h : (k + 1) * tileWidth ^ level ≤ leaves.length) :
    (leafRun leaves level k).length = tileWidth ^ level := by
  rw [Nat.succ_mul] at h
  rw [leafRun, length_take, length_drop]
  omega

/-- The entries are the tree hashes of the complete runs `first`, `first + 1`,
…, each of `256 ^ level` leaves. -/
def HashesOfRuns (lib : HashLibrary) (leaves : List Hash) (level first : ℕ)
    (entries : List Hash) : Prop :=
  List.Forall₂ (fun k entry ↦ (leafRun leaves level k).length = tileWidth ^ level ∧
      mth lib (leafRun leaves level k) = .ok entry)
    (List.range' first entries.length) entries

theorem HashesOfRuns.mth_eq {k : ℕ} {hash : Hash}
    (h : HashesOfRuns lib leaves level (k * tileWidth) entries) (hfull : entries.length = tileWidth)
    (hhash : mth lib entries = .ok hash) : mth lib (leafRun leaves (level + 1) k) = .ok hash := by
  have hroots : MerkleTree.Roots lib.hasher (8 * level)
      ((List.range' (k * tileWidth) tileWidth).map (leafRun leaves level)) entries := by
    rw [HashesOfRuns, hfull] at h
    rw [MerkleTree.Roots, List.forall₂_map_left_iff]
    exact h.imp fun _ _ hrun ↦ ⟨hrun.1.trans (pow_mul 2 8 level).symm, hrun.2⟩
  have hne : entries ≠ [] := ne_nil_of_length_pos (hfull ▸ Nat.succ_pos 255)
  rw [leafRun_succ]
  exact MerkleTree.root_eq_ok_iff.mpr
    ((hroots.blocks hne).treeHash (MerkleTree.root_eq_ok_iff.mp hhash))

theorem hashesOfRuns_zero (h : start + count ≤ leaves.length) :
    HashesOfRuns lib leaves 0 start ((leaves.drop start).take count) := by
  induction count generalizing start with
  | zero =>
    exact .nil
  | succ count ih =>
    have hstart : start < leaves.length := by omega
    have hrun : leafRun leaves 0 start = [leaves[start]] := by
      rw [leafRun, pow_zero, Nat.mul_one, drop_eq_getElem_cons hstart]
      rfl
    rw [drop_eq_getElem_cons hstart, take_succ_cons, HashesOfRuns, length_cons,
      range'_succ]
    refine .cons ⟨by rw [hrun]; rfl, ?_⟩ (ih (by omega))
    rw [hrun]
    exact root_singleton _

theorem interiorEntries_hashesOfRuns {width : ℕ} (hcovered : Covered leaves (level + 1) tileN width)
    (hclock : ∀ n t below t', sub n t = .ok (below, t') → t ≤ t')
    (hsub : ∀ i < width, ∀ t ≥ t₀, ∀ below t',
      sub (tileN * tileWidth + i) t = .ok (below, t') →
      below.length = tileWidth ∧
        HashesOfRuns lib leaves level ((tileN * tileWidth + i) * tileWidth) below)
    (hi : i + remaining ≤ width) (ht : t₀ ≤ t)
    (h : interiorEntries lib sub tileN i remaining t = .ok (entries, t')) :
    entries.length = remaining ∧
      HashesOfRuns lib leaves (level + 1) (tileN * tileWidth + i) entries := by
  induction remaining generalizing i t entries with
  | zero =>
    cases h
    exact ⟨rfl, .nil⟩
  | succ remaining ih =>
    obtain ⟨-, below, t₁, hbelow, hrest⟩ := interiorEntries_succ_eq_ok.mp h
    obtain ⟨hfull, hruns⟩ := hsub i (by omega) t ht below t₁ hbelow
    rcases hrest with ⟨rfl, -, -⟩ | ⟨-, entry, rest, hentry, hrest, rfl⟩
    · -- the tile below is full, so the loop does not stop here
      cases hfull
    · obtain ⟨hlength, htail⟩ := ih (by omega) (ht.trans (hclock _ _ _ _ hbelow)) hrest
      have hcomplete : (tileN * tileWidth + i + 1) * tileWidth ^ (level + 1) ≤ leaves.length :=
        (Nat.mul_le_mul_right _ (by omega)).trans hcovered
      refine ⟨congrArg (· + 1) hlength, ?_⟩
      rw [← Nat.add_assoc] at htail
      exact .cons ⟨length_leafRun hcomplete, hruns.mth_eq hfull hentry⟩ htail

theorem tileEntries_hashesOfRuns {width : ℕ} (hcovered : Covered (log.leaves t₀) level tileN width)
    (ht : t₀ ≤ t) (h : tileEntries lib log level tileN width t = .ok (entries, t')) :
    entries.length = width ∧
      HashesOfRuns lib (log.leaves t₀) level (tileN * tileWidth) entries := by
  induction level generalizing tileN width t t' entries with
  | zero =>
    obtain ⟨-, -, rfl⟩ := tileEntries_zero_eq_ok.mp h
    have hrange : tileN * tileWidth + width ≤ (log.leaves t₀).length := by
      simpa [Covered] using hcovered
    rw [hashRange_of_grown (log.grows_of_le ht) hrange, hashRange_eq]
    refine ⟨?_, hashesOfRuns_zero hrange⟩
    rw [length_take, length_drop]
    omega
  | succ level ih =>
    have hentries := interiorEntries_hashesOfRuns hcovered
      (fun _ _ _ _ h ↦ tileEntries_clock h)
      (fun i hi u hu below u' hbelow ↦ ih (hcovered.below hi) hu hbelow)
      (Nat.le_of_eq (Nat.zero_add width)) ht h
    simpa only [Nat.add_zero] using hentries

/-! ## Served tiles -/

theorem getTileBytes_eq_ok :
    getTileBytes lib log tile t = .ok (bytes, t') ↔ ∃ entries,
      tileEntries lib log tile.level tile.tileN tile.width t = .ok (entries, t') ∧
        tile.FullyHolds entries ∧ bytes = entries.flatten := by
  unfold TilePath.FullyHolds
  constructor
  · intro h
    obtain ⟨entries, t₁, hentries, h⟩ := StateT.bind_eq_ok h
    refine ⟨entries, ?_⟩
    cases hwidth : tile.partialWidth with
    | none =>
      simp only [hwidth] at h
      split at h
      · cases h
      · rename_i hfull
        cases h
        exact ⟨hentries, Nat.not_lt.mp hfull, rfl⟩
    | some =>
      simp only [hwidth] at h
      split at h
      · cases h
      · rename_i hfull
        cases h
        exact ⟨hentries, not_not.mp hfull, rfl⟩
  · rintro ⟨entries, hentries, hfull, rfl⟩
    change (tileEntries lib log tile.level tile.tileN tile.width t >>= _) = _
    rw [hentries]
    cases hwidth : tile.partialWidth with
    | none =>
      simp only [hwidth] at hfull
      change (if entries.length < tileWidth then _ else _ : Reader (List UInt8)) t' = _
      rw [if_neg (Nat.not_lt.mpr hfull)]
      rfl
    | some w =>
      simp only [hwidth] at hfull
      change (if entries.length ≠ w then _ else _ : Reader (List UInt8)) t' = _
      rw [if_neg (not_not.mpr hfull)]
      rfl

def TilePath.Complete (tile : TilePath) (leaves : List Hash) : Prop :=
  Covered leaves tile.level tile.tileN tile.width

instance (tile : TilePath) (leaves : List Hash) : Decidable (tile.Complete leaves) :=
  inferInstanceAs (Decidable (Covered _ _ _ _))

theorem le_length_of_hashRange (hpos : 0 < count)
    (h : count ≤ (hashRange leaves start count).length) : start + count ≤ leaves.length := by
  unfold hashRange at h
  split at h
  · simp only [length_nil] at h
    omega
  · rw [length_take, length_drop] at h
    omega

theorem TilePath.zero_lt_width (tile : TilePath) : 0 < tile.width := by
  unfold TilePath.width
  cases hwidth : tile.partialWidth with
  | none => exact Nat.succ_pos 255
  | some w => exact tile.width_pos w hwidth

theorem TilePath.FullyHolds.width_le (h : tile.FullyHolds entries) :
    tile.width ≤ entries.length := by
  unfold TilePath.FullyHolds at h
  unfold TilePath.width
  cases hwidth : tile.partialWidth with
  | none =>
    simp only [hwidth] at h
    exact h
  | some =>
    simp only [hwidth] at h
    exact h.ge

theorem complete_of_served_leaves (hlevel : tile.level = 0)
    (hserved : getTileBytes lib log tile t = .ok (bytes, t')) : tile.Complete (log.leaves t) := by
  obtain ⟨entries, hentries, hfull, -⟩ := getTileBytes_eq_ok.mp hserved
  rw [hlevel] at hentries
  obtain ⟨-, -, rfl⟩ := tileEntries_zero_eq_ok.mp hentries
  rw [TilePath.Complete, Covered, hlevel, pow_zero, Nat.mul_one]
  exact le_length_of_hashRange tile.zero_lt_width hfull.width_le

end Entries

/-- A tile served while its leaves are all in the log is served with the same
bytes ever after, and its entries are hashes of complete runs of leaves. -/
theorem getTileBytes_stable (lib : HashLibrary) (log : LogHistory) (tile : TilePath)
    {t₁ t₁' t₂ : ℕ} {bytes : List UInt8} (ht : t₁ ≤ t₂)
    (hcomplete : tile.level ≠ 0 → tile.Complete (log.leaves t₁))
    (hserved : getTileBytes lib log tile t₁ = .ok (bytes, t₁')) :
    (∃ t₂', getTileBytes lib log tile t₂ = .ok (bytes, t₂')) ∧
      ∃ entries, bytes = entries.flatten ∧ entries.length = tile.width ∧
        HashesOfRuns lib (log.leaves t₁) tile.level (tile.tileN * tileWidth) entries := by
  have hcovered : tile.Complete (log.leaves t₁) := by
    by_cases hlevel : tile.level = 0
    · exact complete_of_served_leaves hlevel hserved
    · exact hcomplete hlevel
  obtain ⟨entries, hentries, hfull, rfl⟩ := getTileBytes_eq_ok.mp hserved
  obtain ⟨t₂', hlater⟩ := tileEntries_later hcovered le_rfl ht hentries
  obtain ⟨hlength, hruns⟩ := tileEntries_hashesOfRuns hcovered le_rfl hentries
  exact ⟨⟨t₂', getTileBytes_eq_ok.mpr ⟨entries, hlater, hfull, rfl⟩⟩, entries, rfl, hlength, hruns⟩

/-! ## The root from the tiles -/

/-- A log to which nothing is appended. -/
def LogHistory.atRest (leaves : List Hash) : LogHistory where
  leaves _ := leaves
  grows _ := prefix_rfl

/-- A hash library that does not fail. -/
def HashLibrary.ofFunctions (empty : Hash) (node : Hash → Hash → Hash) : HashLibrary where
  hashData _ := .ok empty
  hashInterior left right := .ok (node left right)

section AtRest

variable {lib : HashLibrary} {leaves entries : List Hash} {f : List Hash → Hash}
  (hf : ∀ l, mth lib l = .ok (f l))

include hf

theorem mth_blocks (l : List Hash) (level : ℕ) :
    f ((MerkleTree.blocks (tileWidth ^ level) l).map f) = f l := by
  have hroot := root_blocks hf (8 * level) l
  rw [pow_mul] at hroot
  exact ok.inj ((hf _).symm.trans (hroot.trans (hf l)))

theorem exists_interiorEntries {sub : ℕ → Reader (List Hash)} {bound : ℕ}
    (hsub : ∀ n t, n < bound → ∃ below t', sub n t = .ok (below, t')) (hbound : bound ≤ 2 ^ 64)
    (hi : tileN * tileWidth + i + remaining ≤ bound) :
    ∃ entries t', interiorEntries lib sub tileN i remaining t = .ok (entries, t') := by
  induction remaining generalizing i t with
  | zero => exact ⟨[], t, rfl⟩
  | succ remaining ih =>
    obtain ⟨below, t₁, hbelow⟩ := hsub (tileN * tileWidth + i) t (by omega)
    obtain ⟨rest, t₂, hrest⟩ := @ih t₁ (i + 1) (by omega)
    by_cases hnil : below = []
    · exact ⟨[], t₁, interiorEntries_succ_eq_ok.mpr
        ⟨by omega, below, t₁, hbelow, .inl ⟨hnil, rfl, rfl⟩⟩⟩
    · exact ⟨f below :: rest, t₂, interiorEntries_succ_eq_ok.mpr
        ⟨by omega, below, t₁, hbelow, .inr ⟨hnil, f below, rest, hf below, hrest, rfl⟩⟩⟩

theorem exists_tileEntries (log : LogHistory) {level width : ℕ}
    (h : (tileN + 1) * tileWidth ^ (level + 1) ≤ 2 ^ 64) (hwidth : width ≤ tileWidth) :
    ∃ entries t', tileEntries lib log level tileN width t = .ok (entries, t') := by
  induction level generalizing tileN width t with
  | zero =>
    have hlt : tileN * tileWidth < 2 ^ 64 := by
      rw [zero_add, pow_one, tileWidth] at h
      rw [tileWidth]
      omega
    exact ⟨_, _, tileEntries_zero_eq_ok.mpr ⟨hlt, rfl, rfl⟩⟩
  | succ level ih =>
    have hpos : 0 < tileWidth ^ (level + 1) := Nat.pow_pos (Nat.succ_pos 255)
    rw [pow_succ', ← Nat.mul_assoc] at h
    refine exists_interiorEntries hf (fun n t (hn : n < (tileN + 1) * tileWidth) ↦ ?_)
      ((Nat.le_mul_of_pos_right _ hpos).trans h) (by rw [Nat.succ_mul]; omega)
    exact ih ((Nat.mul_le_mul_right _ hn).trans h) le_rfl

theorem interiorEntries_atRest {sub : ℕ → Reader (List Hash)} {level : ℕ}
    (hsub : ∀ n t below t', sub n t = .ok (below, t') →
      below = (MerkleTree.blocks (tileWidth ^ level) (leafRun leaves (level + 1) n)).map f)
    (h : interiorEntries lib sub tileN i remaining t = .ok (entries, t')) :
    entries = (MerkleTree.blocks (tileWidth ^ (level + 1))
      ((leaves.drop ((tileN * tileWidth + i) * tileWidth ^ (level + 1))).take
        (remaining * tileWidth ^ (level + 1)))).map f := by
  induction remaining generalizing i t entries with
  | zero =>
    cases h
    simp
  | succ remaining ih =>
    obtain ⟨-, below, t₁, hbelow, hrest⟩ := interiorEntries_succ_eq_ok.mp h
    have hrun := hsub _ _ _ _ hbelow
    have hpos (n : ℕ) : 0 < tileWidth ^ n := Nat.pow_pos (Nat.succ_pos 255)
    have hle := Nat.le_mul_of_pos_left (tileWidth ^ (level + 1)) (Nat.succ_pos remaining)
    by_cases hend : leaves.drop ((tileN * tileWidth + i) * tileWidth ^ (level + 1)) = []
    · -- the log ends before this run
      have hnil : below = [] := by simpa [leafRun, hend] using hrun
      rcases hrest with ⟨-, rfl, -⟩ | ⟨hne, -⟩
      · simp [hend]
      · exact absurd hnil hne
    · have htake {n : ℕ} (hn : 0 < n) :
          (leaves.drop ((tileN * tileWidth + i) * tileWidth ^ (level + 1))).take n ≠ [] := by
        simp [hend, hn.ne']
      have hsome : below ≠ [] := by
        rw [hrun, leafRun, blocks_of_ne_nil (hpos level) (htake (hpos _))]
        exact cons_ne_nil _ _
      rcases hrest with ⟨hnil, -⟩ | ⟨-, entry, rest, hentry, hrest, rfl⟩
      · exact absurd hnil hsome
      · obtain rfl : f below = entry := ok.inj ((hf below).symm.trans hentry)
        rw [blocks_of_ne_nil (hpos _) (htake ((hpos _).trans_le hle)), map_cons,
          take_take, min_eq_left hle, drop_take, Nat.succ_mul, Nat.add_sub_cancel,
          drop_drop, ← Nat.succ_mul, ih hrest, hrun, mth_blocks hf]
        rfl

theorem tileEntries_atRest {level width : ℕ}
    (h : tileEntries lib (.atRest leaves) level tileN width t = .ok (entries, t')) :
    entries = (MerkleTree.blocks (tileWidth ^ level)
      ((leaves.drop (tileN * tileWidth * tileWidth ^ level)).take
        (width * tileWidth ^ level))).map f := by
  induction level generalizing tileN width t t' entries with
  | zero =>
    obtain ⟨-, -, rfl⟩ := tileEntries_zero_eq_ok.mp h
    have hone : ∀ l : List Hash, (MerkleTree.blocks 1 l).map f = l := by
      intro l
      induction l with
      | nil => simp
      | cons a l ih =>
        have ha : f [a] = a :=
          ok.inj ((hf [a]).symm.trans (root_singleton a))
        rw [blocks_of_ne_nil Nat.one_pos (cons_ne_nil a l)]
        simp [ha, ih]
    rw [hashRange_eq, pow_zero, Nat.mul_one, Nat.mul_one, hone]
    rfl
  | succ level ih =>
    have hsub : ∀ n u below u', tileEntries lib (.atRest leaves) level n tileWidth u =
        .ok (below, u') → below =
          (MerkleTree.blocks (tileWidth ^ level) (leafRun leaves (level + 1) n)).map f := by
      intro n u below u' hbelow
      rw [ih hbelow, leafRun, pow_succ', Nat.mul_assoc]
    simpa using interiorEntries_atRest hf hsub h

end AtRest

/-- The hashes of blocks of leaves combine to the hash of all leaves, which is
the one RFC 9162 defines.  The entries of a tile combine to the hash of the block
below it, so those of a first tile above the whole log to the root. -/
theorem tile_roots_recombine (empty : Hash) (node : Hash → Hash → Hash) (leaves : List Hash)
    (level : ℕ) :
    let lib := HashLibrary.ofFunctions empty node
    (do
      let hashes ← (MerkleTree.blocks (tileWidth ^ level) leaves).mapM (mth lib)
      mth lib hashes) = mth lib leaves ∧
      (∃ root, mth lib leaves = .ok root) ∧
      (∀ root, mth lib leaves = .ok root ↔ MerkleTree.TreeHash lib.hasher leaves root) ∧
      ∀ tileN t, (tileN + 1) * tileWidth ^ (level + 1) ≤ 2 ^ 64 → ∃ entries t',
        tileEntries lib (.atRest leaves) level tileN tileWidth t = .ok (entries, t') ∧
          mth lib entries = mth lib (leafRun leaves (level + 1) tileN) ∧
          (tileN = 0 → leaves.length ≤ tileWidth ^ (level + 1) →
            mth lib entries = mth lib leaves) := by
  intro lib
  choose f hf using root_total (H := lib.hasher) ⟨empty, rfl⟩
    (fun left right ↦ ⟨node left right, rfl⟩)
  have hmth : mth lib = fun l ↦ pure (f l) := funext hf
  refine ⟨?_, ⟨f leaves, hf leaves⟩, fun _ ↦ root_eq_ok_iff, ?_⟩
  · rw [hmth, mapM_pure, pure_bind]
    exact congrArg pure (mth_blocks hf leaves level)
  · intro tileN t hrange
    obtain ⟨entries, t', h⟩ := exists_tileEntries hf (.atRest leaves) hrange le_rfl
    have hblock : mth lib entries = mth lib (leafRun leaves (level + 1) tileN) := by
      rw [tileEntries_atRest hf h, leafRun, pow_succ', ← Nat.mul_assoc, hmth]
      exact congrArg pure (mth_blocks hf _ level)
    refine ⟨entries, t', h, hblock, ?_⟩
    rintro rfl hlength
    rw [hblock, leafRun, Nat.zero_mul, drop_zero, take_of_length_le hlength]

namespace TileExample

/-- Hashes that can be told apart: an interior node keeps the first octets of
its children, behind the octet that separates it from the leaves. -/
def lib : HashLibrary where
  hashData _ := .ok []
  hashInterior left right := .ok (1 :: left.take 2 ++ right.take 2)

/-- A log of `n` leaves to which one more leaf is appended. -/
def grown (n : ℕ) : LogHistory where
  leaves
    | 0 => List.replicate n [7]
    | _ + 1 => List.replicate n [7] ++ [[8]]
  grows
    | 0 => prefix_append _ _
    | _ + 1 => prefix_rfl

/-- The request `1/000.p/1`. -/
def firstEntry : TilePath where
  level := 1
  tileN := 0
  partialWidth := some 1
  level_le := by decide
  tileN_lt := by decide
  width_pos := by simp
  width_lt := by simp [tileWidth]

/-- Above level `0` a tile over a tile that is still filling up is served, and
its bytes change with the next leaf. -/
theorem partial_subtree_changes :
    (getTileBytes lib (grown 1) firstEntry 0).map Prod.fst = .ok [7] ∧
      (getTileBytes lib (grown 1) firstEntry 1).map Prod.fst = .ok [1, 7, 8] ∧
      (leafRun ((grown 1).leaves 0) 1 0).length = 1 := by
  decide +kernel

/-- With 256 leaves below it the same entry stays. -/
theorem full_subtree_stays :
    (∃ t₂', getTileBytes lib (grown 256) firstEntry 1 = .ok ([1, 1, 1, 1, 1], t₂')) ∧
      ∃ entries, [1, 1, 1, 1, 1] = entries.flatten ∧ entries.length = firstEntry.width ∧
        HashesOfRuns lib ((grown 256).leaves 0) 1 (0 * tileWidth) entries := by
  have hserved : getTileBytes lib (grown 256) firstEntry 0 = .ok ([1, 1, 1, 1, 1], 1) := by
    decide +kernel
  exact getTileBytes_stable lib (grown 256) firstEntry (Nat.zero_le 1)
    (fun _ ↦ by decide +kernel) hserved

end TileExample

end Akamu.Mtc
