import Akamu.Mtc.Steps

/-!
# The sequence of landmarks

Concurrent allocations read the size of the log before the transaction that
stores the landmark.  Sequence numbers are safe all the same.  Tree sizes grow
with them as long as allocations that look at the latest landmark together have
read the same size.
-/

namespace Akamu.Mtc

open List Tasks

/-! ## Sequence numbers -/

variable {treeSize : ℕ} {created : Int}

namespace Landmarks

variable {caId : String} {row : LandmarkRow} {s : Server}

theorem mem_ofCa : row ∈ ofCa s caId ↔ row ∈ s.landmarks ∧ row.caId = caId := by
  simp [ofCa]

theorem foldr_max_eq_zero_or_mem (l : List ℕ) : l.foldr max 0 = 0 ∨ l.foldr max 0 ∈ l := by
  induction l with
  | nil => exact .inl rfl
  | cons m l ih =>
    rw [foldr_cons]
    rcases le_total (l.foldr max 0) m with hle | hle
    · rw [max_eq_left hle]
      exact .inr mem_cons_self
    · rw [max_eq_right hle]
      exact ih.imp_right (mem_cons_of_mem m)

theorem lt_nextSequenceNo (h : row ∈ s.landmarks) : row.sequenceNo < nextSequenceNo s row.caId := by
  have hmem : row.sequenceNo + 1 ∈ (ofCa s row.caId).map fun row ↦ row.sequenceNo + 1 :=
    mem_map.mpr ⟨row, mem_ofCa.mpr ⟨h, rfl⟩, rfl⟩
  exact le_max_of_le' 0 hmem le_rfl

theorem nextSequenceNo_cases (s : Server) (caId : String) :
    nextSequenceNo s caId = 0 ∨
      ∃ row ∈ s.landmarks, row.caId = caId ∧ nextSequenceNo s caId = row.sequenceNo + 1 := by
  rcases foldr_max_eq_zero_or_mem ((ofCa s caId).map fun row ↦ row.sequenceNo + 1) with hzero | hmem
  · exact .inl hzero
  · obtain ⟨row, hrow, heq⟩ := mem_map.mp hmem
    exact .inr ⟨row, (mem_ofCa.mp hrow).1, (mem_ofCa.mp hrow).2, heq.symm⟩

/-- Where the row with the highest number stays, the next number does not go
down. -/
theorem nextSequenceNo_le {s' : Server}
    (h : ∀ row ∈ s.landmarks, row.caId = caId → (∀ r ∈ s.landmarks, r.caId = caId →
    r.sequenceNo ≤ row.sequenceNo) →
    ∃ row' ∈ s'.landmarks, row'.caId = caId ∧ row'.sequenceNo = row.sequenceNo) :
    nextSequenceNo s caId ≤ nextSequenceNo s' caId := by
  rcases nextSequenceNo_cases s caId with hzero | ⟨row, hrow, hca, heq⟩
  · rw [hzero]
    exact Nat.zero_le _
  · have hmax : ∀ r ∈ s.landmarks, r.caId = caId → r.sequenceNo ≤ row.sequenceNo := by
      intro r hr hrca
      have hlt := lt_nextSequenceNo hr
      rw [hrca, heq] at hlt
      exact Nat.le_of_lt_succ hlt
    obtain ⟨row', hrow', hca', hseq⟩ := h row hrow hca hmax
    have hlt := lt_nextSequenceNo hrow'
    rw [hca', hseq] at hlt
    rw [heq]
    exact hlt

theorem max_mem_take_insertionSort {l : List ℕ} {k x : ℕ} (hk : k ≠ 0) (hx : x ∈ l)
    (hmax : ∀ y ∈ l, y ≤ x) : x ∈ (l.insertionSort (· ≥ ·)).take k := by
  have hmem : x ∈ l.insertionSort (· ≥ ·) := (mem_insertionSort _).mpr hx
  have hsorted := pairwise_insertionSort (· ≥ ·) l
  have hle : ∀ y ∈ l.insertionSort (· ≥ ·), y ≤ x := fun y hy ↦
    hmax y ((mem_insertionSort _).mp hy)
  generalize l.insertionSort (· ≥ ·) = sorted at hmem hsorted hle ⊢
  obtain ⟨k, rfl⟩ := Nat.exists_eq_succ_of_ne_zero hk
  cases sorted with
  | nil => cases hmem
  | cons y =>
    have hxy : x ≤ y := by
      rcases mem_cons.mp hmem with rfl | htail
      · exact le_rfl
      · exact (pairwise_cons.mp hsorted).1 x htail
    rw [take_succ_cons, le_antisymm hxy (hle y mem_cons_self)]
    exact mem_cons_self

theorem mem_pruneOldest_of_max {keepCount : ℕ} (hrow : row ∈ s.landmarks)
    (hmax : ∀ r ∈ s.landmarks, r.caId = row.caId → r.sequenceNo ≤ row.sequenceNo) :
    row ∈ (pruneOldest s caId keepCount).landmarks := by
  unfold pruneOldest
  split
  · exact hrow
  · rename_i hkeep
    refine mem_filter.mpr ⟨hrow, ?_⟩
    by_cases hca : row.caId = caId
    · have hkept := max_mem_take_insertionSort hkeep
        (mem_map_of_mem (f := LandmarkRow.sequenceNo) (mem_ofCa.mpr ⟨hrow, hca⟩)) (by
          intro n hn
          obtain ⟨r, hr, rfl⟩ := mem_map.mp hn
          exact hmax r (mem_ofCa.mp hr).1 ((mem_ofCa.mp hr).2.trans hca.symm))
      simp [hkept]
    · simp [hca]

theorem pruneOldest_sublist (s : Server) (caId : String) (keepCount : ℕ) :
    (pruneOldest s caId keepCount).landmarks.Sublist s.landmarks := by
  unfold pruneOldest
  split
  · exact .refl _
  · exact filter_sublist

theorem landmarks_insert {s' : Server} (h : insert s caId treeSize created = some s') :
    (∀ row ∈ s.landmarks, row.caId = caId → row.treeSize ≠ treeSize) ∧
      s'.landmarks = s.landmarks ++ [newRow s caId treeSize created] ∧
      s'.allocated = s.allocated ++ [newRow s caId treeSize created] := by
  unfold insert at h
  split at h
  · cases h
  · rename_i hnone
    cases h
    refine ⟨fun row hrow hca heq ↦ hnone ?_, rfl, rfl⟩
    exact any_eq_true.mpr ⟨row, mem_ofCa.mpr ⟨hrow, hca⟩, by simpa using heq⟩

end Landmarks

/-! ## What a step does to the landmarks -/

/-- An allocation that has looked at the latest landmark and has not stored its
own: the CA and the tree size it has read. -/
def Task.window : Task → Option (String × ℕ)
  | .landmark caId _ (.behind treeSize) => some (caId, treeSize)
  | .landmark caId _ (.represented treeSize _ _) => some (caId, treeSize)
  | _ => none

def Task.look : Task → Option (String × ℕ)
  | .landmark caId _ (.sized treeSize) => some (caId, treeSize)
  | _ => none

/-- Neither the table nor the record of allocations changes. -/
structure SameLandmarks (s s' : Server) : Prop where
  landmarks : s'.landmarks = s.landmarks
  allocated : s'.allocated = s.allocated

inductive LandmarkEffect (s : Server) (t : Task) (r : Result Server Task Output) : Prop where
  | quiet (hsame : SameLandmarks s r.shared) (hnext : ∀ t' ∈ r.next, t'.window = none)
  | look {caId : String} {treeSize : ℕ} (htask : t.look = some (caId, treeSize))
      (hlatest : ∀ latest ∈ Landmarks.getLatest s caId, latest.treeSize < treeSize)
      (hsame : SameLandmarks s r.shared)
      (hnext : ∀ t' ∈ r.next, t'.window = some (caId, treeSize))
  | goOn {window : String × ℕ} (htask : t.window = some window)
      (hsame : SameLandmarks s r.shared) (hnext : ∀ t' ∈ r.next, t'.window = some window)
  | insert {caId : String} {treeSize : ℕ} {created : Int}
      (htask : t.window = some (caId, treeSize))
      (hinsert : Landmarks.insert s caId treeSize created = some r.shared)
      (hnext : ∀ t' ∈ r.next, t'.window = none)
  | certify {id : ℕ} {cert : LandmarkCert} (hshared : r.shared = Landmarks.setCertDer s id cert)
      (hnext : ∀ t' ∈ r.next, t'.window = none)
  | prune {caId : String} {keepCount : ℕ}
      (hshared : r.shared = Landmarks.pruneOldest s caId keepCount)
      (hnext : ∀ t' ∈ r.next, t'.window = none)

theorem SameLandmarks.refl {s : Server} : SameLandmarks s s := ⟨rfl, rfl⟩

variable {s' : Server} {t : Task}

theorem LandmarkEffect.idle {s : Server} :
    LandmarkEffect s t (.idle s : Result Server Task Output) :=
  .quiet .refl fun _ h ↦ absurd h not_mem_nil

theorem LandmarkEffect.quiet_goOn {s : Server} {t' : Task} (hsame : SameLandmarks s s')
    (hwindow : t'.window = none) : LandmarkEffect s t (.goOn s' t' : Result Server Task Output) :=
  .quiet hsame fun _ h ↦ by rw [mem_singleton.mp h]; exact hwindow

/-- The other tasks neither touch landmarks nor start allocations. -/
structure Quiet (s : Server) (r : Result Server Task Output) : Prop where
  same : SameLandmarks s r.shared
  next : ∀ t' ∈ r.next, t'.window = none

variable {r : Result Server Task Output}

theorem quiet_enters {s : Server} (h : Enters s r) : Quiet s r := by
  have hgoOn : ∀ t : Task, t.window = none → Quiet s (.goOn s t) := fun t ht ↦
    ⟨.refl, fun _ h ↦ by rw [mem_singleton.mp h]; exact ht⟩
  cases h with
  | issue | checkpoint | landmark | inclusionProof => exact hgoOn _ rfl
  | idle | refuse => exact ⟨.refl, fun _ h ↦ absurd h not_mem_nil⟩
  | prune =>
    refine ⟨?_, fun _ h ↦ absurd h not_mem_nil⟩
    dsimp only [Result.idle, Checkpoints.pruneOldest]
    split <;> exact ⟨rfl, rfl⟩

theorem sameLandmarks_upsert (s : Server) (row : CheckpointRow) :
    SameLandmarks s (Checkpoints.upsert s row) := by
  unfold Checkpoints.upsert
  split <;> exact ⟨rfl, rfl⟩

theorem landmarkEffect_moves {env : MtcEnv} {s : Server} {input : Input}
    (h : Moves env s input t r) : LandmarkEffect s t r := by
  cases h with
  | idle => exact .idle
  | append => exact .quiet_goOn ⟨rfl, rfl⟩ rfl
  | persist hinsert =>
    obtain ⟨certs, -, rfl⟩ := Option.map_eq_some_iff.mp hinsert
    refine .quiet ⟨rfl, rfl⟩ fun t' ht' ↦ ?_
    obtain ⟨c, -, rfl⟩ := mem_map.mp ht'
    rfl
  | store | refuse | serve => exact .quiet ⟨rfl, rfl⟩ fun _ h ↦ absurd h not_mem_nil
  | record => exact .quiet_goOn (sameLandmarks_upsert _ _) rfl
  | storeNext | buildLandmark =>
    exact .quiet ⟨rfl, rfl⟩ fun _ h ↦ by rw [mem_singleton.mp h]; rfl
  | look hlatest => exact .look rfl hlatest .refl fun _ h ↦ by rw [mem_singleton.mp h]; rfl
  | represent => exact .goOn rfl .refl fun _ h ↦ by rw [mem_singleton.mp h]; rfl
  | insert hinsert => exact .insert rfl hinsert fun _ h ↦ by rw [mem_singleton.mp h]; rfl
  | certify => exact .certify rfl fun _ h ↦ by rw [mem_singleton.mp h]; rfl
  | prune => exact .prune rfl fun _ h ↦ absurd h not_mem_nil
  | _ => exact .quiet_goOn .refl rfl

/-! ## No number is used twice -/

/-- Every number that was ever given to a landmark is below the next one, and
numbers were given in increasing order. -/
structure NumbersKept (s : Server) : Prop where
  below : ∀ row ∈ s.allocated, row.sequenceNo < Landmarks.nextSequenceNo s row.caId
  increasing : s.allocated.Pairwise fun a b ↦ a.caId = b.caId → a.sequenceNo < b.sequenceNo

theorem nextSequenceNo_congr {s : Server} (h : s'.landmarks = s.landmarks) (caId : String) :
    Landmarks.nextSequenceNo s' caId = Landmarks.nextSequenceNo s caId := by
  unfold Landmarks.nextSequenceNo Landmarks.ofCa
  rw [h]

theorem NumbersKept.of_le {s : Server} (h : NumbersKept s) (hsame : s'.allocated = s.allocated)
    (hle : ∀ caId, Landmarks.nextSequenceNo s caId ≤ Landmarks.nextSequenceNo s' caId) :
    NumbersKept s' where
  below row hrow := (h.below row (hsame ▸ hrow)).trans_le (hle row.caId)
  increasing := hsame ▸ h.increasing

variable {caId : String}

theorem NumbersKept.insert {s : Server} (h : NumbersKept s)
    (hinsert : Landmarks.insert s caId treeSize created = some s') : NumbersKept s' := by
  obtain ⟨-, hlandmarks, hallocated⟩ := Landmarks.landmarks_insert hinsert
  have hle : ∀ caId', Landmarks.nextSequenceNo s caId' ≤ Landmarks.nextSequenceNo s' caId' := by
    intro caId'
    refine Landmarks.nextSequenceNo_le fun row hrow hca _ ↦ ⟨row, ?_, hca, rfl⟩
    rw [hlandmarks]
    exact mem_append_left _ hrow
  constructor
  · intro row hrow
    rw [hallocated, mem_append, mem_singleton] at hrow
    rcases hrow with hold | rfl
    · exact (h.below row hold).trans_le (hle row.caId)
    · apply Landmarks.lt_nextSequenceNo
      rw [hlandmarks]
      exact mem_append_right _ mem_cons_self
  · rw [hallocated]
    refine pairwise_append.mpr ⟨h.increasing, pairwise_singleton _ _, ?_⟩
    intro row hrow new hnew hca
    rw [mem_singleton.mp hnew] at hca ⊢
    have hbelow := h.below row hrow
    rwa [show row.caId = caId from hca] at hbelow

theorem NumbersKept.certify {s : Server} (h : NumbersKept s) (id : ℕ) (cert : LandmarkCert) :
    NumbersKept (Landmarks.setCertDer s id cert) := by
  refine h.of_le rfl fun caId ↦ Landmarks.nextSequenceNo_le fun row hrow hca _ ↦ ?_
  refine ⟨_, mem_map_of_mem hrow, ?_⟩
  split
  · exact ⟨hca, rfl⟩
  · exact ⟨hca, rfl⟩

theorem NumbersKept.prune {s : Server} (h : NumbersKept s) (caId : String) (keepCount : ℕ) :
    NumbersKept (Landmarks.pruneOldest s caId keepCount) := by
  have hsame : (Landmarks.pruneOldest s caId keepCount).allocated = s.allocated := by
    unfold Landmarks.pruneOldest
    split <;> rfl
  refine h.of_le hsame fun caId' ↦ Landmarks.nextSequenceNo_le fun row hrow hca hmax ↦ ?_
  refine ⟨row, Landmarks.mem_pruneOldest_of_max hrow ?_, hca, rfl⟩
  rw [hca]
  exact hmax

theorem NumbersKept.of_effect {s : Server} (h : NumbersKept s) (heffect : LandmarkEffect s t r) :
    NumbersKept r.shared := by
  have hquiet : SameLandmarks s r.shared → NumbersKept r.shared := fun hsame ↦
    h.of_le hsame.allocated fun caId ↦ (nextSequenceNo_congr hsame.landmarks caId).ge
  cases heffect with
  | quiet hsame => exact hquiet hsame
  | look _ _ hsame => exact hquiet hsame
  | goOn _ hsame => exact hquiet hsame
  | insert _ hinsert => exact h.insert hinsert
  | certify hshared =>
    rw [hshared]
    exact h.certify _ _
  | prune hshared =>
    rw [hshared]
    exact h.prune _ _

theorem landmarkEffect_result (env : MtcEnv) (s : Pool Server Task) (e : Move Arrival Input) :
    Quiet s.shared ((system env).result s e) ∨ ∃ i input t, e = .advance i input ∧
      s.tasks[i]? = some t ∧ LandmarkEffect s.shared t ((system env).result s e) := by
  refine System.result_rule (.inl (quiet_enters .idle)) (fun a _ ↦ .inl ?_)
    fun i input t he htask ↦ .inr ⟨i, input, t, he, htask, ?_⟩
  · exact quiet_enters (enters_arrive env s.shared a)
  · exact landmarkEffect_moves (moves_act env s.shared t input)

theorem numbersKept_step (env : MtcEnv) (s : Pool Server Task) (e : Move Arrival Input)
    (h : NumbersKept s.shared) : NumbersKept ((system env).step s e).1.shared := by
  rcases landmarkEffect_result env s e with hquiet | ⟨i, input, t, -, -, heffect⟩
  · exact h.of_le hquiet.same.allocated fun caId ↦
      (nextSequenceNo_congr hquiet.same.landmarks caId).ge
  · exact h.of_effect heffect

/-! ## Sizes grow with numbers -/

def Ordered (s : Server) : Prop :=
  s.landmarks.Pairwise fun a b ↦
    a.caId = b.caId → a.sequenceNo < b.sequenceNo ∧ a.treeSize < b.treeSize

/-- The condition on a step: when an allocation looks at the latest landmark,
the allocations of the same CA that have looked and have not stored theirs have
read the same tree size. -/
def SameSizeAtLook (s : Pool Server Task) : Move Arrival Input → Prop
  | .advance i _ => ∀ look ∈ (s.tasks[i]?).bind Task.look, ∀ t ∈ s.tasks, ∀ window ∈ t.window,
      window.1 = look.1 → window.2 = look.2
  | _ => True

instance (s : Pool Server Task) : ∀ e, Decidable (SameSizeAtLook s e)
  | .advance i _ => inferInstanceAs (Decidable (∀ look ∈ (s.tasks[i]?).bind Task.look, _))
  | .arrive _ => .isTrue trivial
  | .abandon _ => .isTrue trivial

/-- No stored landmark is above an allocation under way, and those of one CA
agree. -/
structure AllocationsAgree (s : Pool Server Task) : Prop where
  ordered : Ordered s.shared
  covers : ∀ t ∈ s.tasks, ∀ caId treeSize, t.window = some (caId, treeSize) →
    ∀ row ∈ s.shared.landmarks, row.caId = caId → row.treeSize ≤ treeSize
  agree : ∀ t ∈ s.tasks, ∀ t' ∈ s.tasks, ∀ caId treeSize treeSize',
    t.window = some (caId, treeSize) → t'.window = some (caId, treeSize') → treeSize' = treeSize

theorem Ordered.trichotomy {s : Server} (h : Ordered s) {a b : LandmarkRow} (ha : a ∈ s.landmarks)
    (hb : b ∈ s.landmarks) (hca : a.caId = b.caId) :
    a = b ∨ (a.sequenceNo < b.sequenceNo ∧ a.treeSize < b.treeSize) ∨
      (b.sequenceNo < a.sequenceNo ∧ b.treeSize < a.treeSize) := by
  obtain ⟨i, hi, rfl⟩ := mem_iff_getElem.mp ha
  obtain ⟨j, hj, rfl⟩ := mem_iff_getElem.mp hb
  rcases lt_trichotomy i j with hlt | rfl | hgt
  · exact .inr (.inl (pairwise_iff_getElem.mp h i j hi hj hlt hca))
  · exact .inl rfl
  · exact .inr (.inr (pairwise_iff_getElem.mp h j i hj hi hgt hca.symm))

theorem Ordered.sequence_law {s : Server} (h : Ordered s) {a b : LandmarkRow}
    (ha : a ∈ s.landmarks) (hb : b ∈ s.landmarks) (hca : a.caId = b.caId)
    (hlt : a.sequenceNo < b.sequenceNo) : a.treeSize < b.treeSize := by
  rcases h.trichotomy ha hb hca with rfl | hsize | hgt
  · exact absurd hlt (lt_irrefl _)
  · exact hsize.2
  · exact absurd hlt (not_lt.mpr hgt.1.le)

theorem Ordered.lt_of_latest {s : Server} (h : Ordered s)
    (hlatest : ∀ latest ∈ Landmarks.getLatest s caId, latest.treeSize < treeSize)
    {row : LandmarkRow} (hrow : row ∈ s.landmarks) (hca : row.caId = caId) :
    row.treeSize < treeSize := by
  have hof : row ∈ Landmarks.ofCa s caId := Landmarks.mem_ofCa.mpr ⟨hrow, hca⟩
  cases hget : Landmarks.getLatest s caId with
  | none =>
    rw [Landmarks.getLatest, argmax_eq_none] at hget
    rw [hget] at hof
    cases hof
  | some latest =>
    have hmem := Landmarks.mem_ofCa.mp (argmax_mem hget)
    have hle : row.sequenceNo ≤ latest.sequenceNo := le_of_mem_argmax hof hget
    have hlt := hlatest latest hget
    rcases h.trichotomy hrow hmem.1 (hca.trans hmem.2.symm) with rfl | hsize | hgt
    · exact hlt
    · exact hsize.2.trans hlt
    · exact absurd hgt.1 (not_lt.mpr hle)

structure Shrinks (s s' : Server) : Prop where
  ordered : Ordered s → Ordered s'
  origin : ∀ row' ∈ s'.landmarks, ∃ row ∈ s.landmarks, row'.caId = row.caId ∧
    row'.treeSize = row.treeSize

theorem SameLandmarks.shrinks {s : Server} (h : SameLandmarks s s') : Shrinks s s' where
  ordered hordered := by
    unfold Ordered
    rw [h.landmarks]
    exact hordered
  origin row' hrow' := ⟨row', h.landmarks ▸ hrow', rfl, rfl⟩

theorem shrinks_setCertDer (s : Server) (id : ℕ) (cert : LandmarkCert) :
    Shrinks s (Landmarks.setCertDer s id cert) := by
  have hfields : ∀ row : LandmarkRow,
      (if row.id = id then { row with certDer := some cert } else row).caId = row.caId ∧
      (if row.id = id then { row with certDer := some cert } else row).sequenceNo =
        row.sequenceNo ∧
      (if row.id = id then { row with certDer := some cert } else row).treeSize = row.treeSize := by
    intro row
    split <;> exact ⟨rfl, rfl, rfl⟩
  constructor
  · intro hordered
    refine pairwise_map.mpr (hordered.imp fun {a b} hlt hca ↦ ?_)
    rw [(hfields a).1, (hfields b).1] at hca
    rw [(hfields a).2.1, (hfields b).2.1, (hfields a).2.2, (hfields b).2.2]
    exact hlt hca
  · intro row' hrow'
    obtain ⟨row, hrow, rfl⟩ := mem_map.mp hrow'
    exact ⟨row, hrow, (hfields row).1, (hfields row).2.2⟩

theorem shrinks_pruneOldest (s : Server) (caId : String) (keepCount : ℕ) :
    Shrinks s (Landmarks.pruneOldest s caId keepCount) where
  ordered hordered := hordered.sublist (Landmarks.pruneOldest_sublist s caId keepCount)
  origin row' hrow' :=
    ⟨row', (Landmarks.pruneOldest_sublist s caId keepCount).subset hrow', rfl, rfl⟩

section Step

variable {env : MtcEnv} {s : Pool Server Task} {e : Move Arrival Input}

theorem AllocationsAgree.of_shrinks (h : AllocationsAgree s)
    (hshrinks : Shrinks s.shared ((system env).result s e).shared)
    (hnext : ∀ t' ∈ ((system env).result s e).next, ∀ window, t'.window = some window →
      ∃ t ∈ s.tasks, t.window = some window) : AllocationsAgree ((system env).step s e).1 := by
  have horigin : ∀ t' ∈ ((system env).step s e).1.tasks, ∀ window, t'.window = some window →
      ∃ t ∈ s.tasks, t.window = some window := by
    intro t' ht' window hwindow
    rcases System.mem_step_tasks ht' with hold | hnew
    · exact ⟨t', hold, hwindow⟩
    · exact hnext t' hnew window hwindow
  constructor
  · exact hshrinks.ordered h.ordered
  · intro t' ht' caId treeSize hwindow row' hrow' hca
    obtain ⟨t, ht, hwindow⟩ := horigin t' ht' _ hwindow
    obtain ⟨row, hrow, hrowCa, hrowSize⟩ := hshrinks.origin row' hrow'
    rw [hrowSize]
    exact h.covers t ht caId treeSize hwindow row hrow (hrowCa.symm.trans hca)
  · intro t₁ ht₁ t₂ ht₂ caId treeSize treeSize' hwindow₁ hwindow₂
    obtain ⟨u₁, hu₁, hwindow₁⟩ := horigin t₁ ht₁ _ hwindow₁
    obtain ⟨u₂, hu₂, hwindow₂⟩ := horigin t₂ ht₂ _ hwindow₂
    exact h.agree u₁ hu₁ u₂ hu₂ caId treeSize treeSize' hwindow₁ hwindow₂

theorem AllocationsAgree.look (h : AllocationsAgree s)
    (hsizes : ∀ t ∈ s.tasks, ∀ treeSize', t.window = some (caId, treeSize') → treeSize' = treeSize)
    (hlatest : ∀ latest ∈ Landmarks.getLatest s.shared caId, latest.treeSize < treeSize)
    (hsame : SameLandmarks s.shared ((system env).result s e).shared)
    (hnext : ∀ t' ∈ ((system env).result s e).next, t'.window = some (caId, treeSize)) :
    AllocationsAgree ((system env).step s e).1 := by
  have hsizes' : ∀ t ∈ ((system env).step s e).1.tasks, ∀ treeSize',
      t.window = some (caId, treeSize') → treeSize' = treeSize := by
    intro t ht treeSize' hwindow
    rcases System.mem_step_tasks ht with hold | hnew
    · exact hsizes t hold treeSize' hwindow
    · rw [hnext t hnew] at hwindow
      cases hwindow
      rfl
  constructor
  · exact hsame.shrinks.ordered h.ordered
  · intro t ht caId' treeSize' hwindow row hrow hca
    rw [System.step_shared, hsame.landmarks] at hrow
    rcases System.mem_step_tasks ht with hold | hnew
    · exact h.covers t hold caId' treeSize' hwindow row hrow hca
    · rw [hnext t hnew] at hwindow
      cases hwindow
      exact (h.ordered.lt_of_latest hlatest hrow hca).le
  · intro t₁ ht₁ t₂ ht₂ caId' n₁ n₂ hwindow₁ hwindow₂
    by_cases hca : caId' = caId
    · subst hca
      rw [hsizes' t₁ ht₁ n₁ hwindow₁, hsizes' t₂ ht₂ n₂ hwindow₂]
    · have hold : ∀ t ∈ ((system env).step s e).1.tasks, ∀ n, t.window = some (caId', n) →
          t ∈ s.tasks := by
        intro t ht n hwindow
        rcases System.mem_step_tasks ht with hold | hnew
        · exact hold
        · rw [hnext t hnew] at hwindow
          cases hwindow
          exact absurd rfl hca
      exact h.agree t₁ (hold t₁ ht₁ n₁ hwindow₁) t₂ (hold t₂ ht₂ n₂ hwindow₂) caId' n₁ n₂ hwindow₁
        hwindow₂

/-- The call that stores its landmark stores it above all others of its CA, and
the others under way have read the same size. -/
theorem AllocationsAgree.insert (h : AllocationsAgree s) {t : Task} (ht : t ∈ s.tasks)
    (hwindow : t.window = some (caId, treeSize))
    (hinsert : Landmarks.insert s.shared caId treeSize created =
      some ((system env).result s e).shared)
    (hnext : ∀ t' ∈ ((system env).result s e).next, t'.window = none) :
    AllocationsAgree ((system env).step s e).1 := by
  obtain ⟨hnone, hlandmarks, -⟩ := Landmarks.landmarks_insert hinsert
  have hold : ∀ t ∈ ((system env).step s e).1.tasks, ∀ window, t.window = some window →
      t ∈ s.tasks := by
    intro t' ht' window hsome
    rcases System.mem_step_tasks ht' with hold | hnew
    · exact hold
    · rw [hnext t' hnew] at hsome
      cases hsome
  constructor
  · unfold Ordered
    rw [System.step_shared, hlandmarks]
    refine pairwise_append.mpr ⟨h.ordered, pairwise_singleton _ _, ?_⟩
    intro row hrow new hnew hca
    rw [mem_singleton.mp hnew] at hca ⊢
    constructor
    · have hlt := Landmarks.lt_nextSequenceNo hrow
      rwa [hca] at hlt
    · exact lt_of_le_of_ne (h.covers t ht caId treeSize hwindow row hrow hca) (hnone row hrow hca)
  · intro t' ht' caId' treeSize' hwindow' row hrow hca
    have hmem := hold t' ht' _ hwindow'
    rw [System.step_shared, hlandmarks, mem_append, mem_singleton] at hrow
    rcases hrow with hrow | rfl
    · exact h.covers t' hmem caId' treeSize' hwindow' row hrow hca
    · subst hca
      exact (h.agree t ht t' hmem caId treeSize treeSize' hwindow hwindow').ge
  · intro t₁ ht₁ t₂ ht₂ caId' n₁ n₂ hwindow₁ hwindow₂
    exact h.agree t₁ (hold t₁ ht₁ _ hwindow₁) t₂ (hold t₂ ht₂ _ hwindow₂) caId' n₁ n₂ hwindow₁
      hwindow₂

theorem AllocationsAgree.step (h : AllocationsAgree s) (hok : SameSizeAtLook s e) :
    AllocationsAgree ((system env).step s e).1 := by
  rcases landmarkEffect_result env s e with hquiet | ⟨i, input, t, rfl, htask, heffect⟩
  · exact h.of_shrinks hquiet.same.shrinks fun t' ht' window hwindow ↦ by
      rw [hquiet.next t' ht'] at hwindow
      cases hwindow
  · have ht : t ∈ s.tasks := mem_of_getElem? htask
    cases heffect with
    | quiet hsame hnext =>
      refine h.of_shrinks hsame.shrinks fun t' ht' window hwindow ↦ ?_
      rw [hnext t' ht'] at hwindow
      cases hwindow
    | look htask' hlatest hsame hnext =>
      refine h.look (fun t' ht' treeSize' hwindow ↦ ?_) hlatest hsame hnext
      exact hok _ (Option.bind_eq_some_iff.mpr ⟨t, htask, htask'⟩) t' ht' _ hwindow rfl
    | goOn htask' hsame hnext =>
      refine h.of_shrinks hsame.shrinks fun t' ht' window hwindow ↦ ⟨t, ht, ?_⟩
      rw [hnext t' ht'] at hwindow
      exact htask'.trans hwindow
    | insert htask' hinsert hnext => exact h.insert ht htask' hinsert hnext
    | certify hshared hnext =>
      refine h.of_shrinks (hshared ▸ shrinks_setCertDer _ _ _) fun t' ht' window hwindow ↦ ?_
      rw [hnext t' ht'] at hwindow
      cases hwindow
    | prune hshared hnext =>
      refine h.of_shrinks (hshared ▸ shrinks_pruneOldest _ _ _) fun t' ht' window hwindow ↦ ?_
      rw [hnext t' ht'] at hwindow
      cases hwindow

end Step

/-- In every run sequence numbers are given once, in increasing order.  In a run
in which allocations that look at the latest landmark together have read the
same size, the stored tree sizes grow strictly with the numbers. -/
theorem landmark_sequence_law (env : MtcEnv) (logs : String → List Hash)
    (es : List (Move Arrival Input))
    (hok : Machine.Meets (system env).step SameSizeAtLook (fresh logs) es) :
    let s := (Machine.run (system env).step (fresh logs) es).shared
    (s.allocated.Pairwise fun a b ↦ a.caId = b.caId → a.sequenceNo < b.sequenceNo) ∧
      ∀ a ∈ s.landmarks, ∀ b ∈ s.landmarks, a.caId = b.caId → a.sequenceNo < b.sequenceNo →
        a.treeSize < b.treeSize := by
  have hkept : NumbersKept (Machine.run (system env).step (fresh logs) es).shared :=
    (Machine.meets_true (fresh logs) es).invariant (fun s ↦ NumbersKept s.shared)
      ⟨by simp [fresh], by simp [fresh]⟩ fun s e h _ ↦ numbersKept_step env s e h
  have hagree : AllocationsAgree (Machine.run (system env).step (fresh logs) es) :=
    hok.invariant AllocationsAgree ⟨by simp [fresh, Ordered], by simp [fresh], by simp [fresh]⟩
      fun s e h hok ↦ h.step hok
  exact ⟨hkept.increasing, fun a ha b hb hca hlt ↦ hagree.ordered.sequence_law ha hb hca hlt⟩

namespace TwoLogs

/-- An allocation that has read size 2 stores its landmark after another one
has stored size 3. -/
def overtaken : List (Move Arrival Input) :=
  issue 0 "a" "c1" 1 ++
  [.arrive (.landmark "a" 0), .advance 0 {}, .advance 0 {}] ++
  issue 1 "a" "c2" 2 ++
  [.arrive (.landmark "a" 0), .advance 1 {}, .advance 1 {}, .advance 1 {}, .advance 1 {},
    .advance 0 {}, .advance 1 {}]

def inOrder : List (Move Arrival Input) :=
  issue 0 "a" "c1" 1 ++
  [.arrive (.landmark "a" 1), .advance 0 {}, .advance 0 {}, .advance 0 {}, .advance 0 {}] ++
  issue 1 "a" "c2" 2 ++
  [.arrive (.landmark "a" 1), .advance 1 {}, .advance 1 {}, .advance 1 {}, .advance 1 {}]

theorem smaller_size_has_larger_number :
    (Machine.run (system env).step start overtaken).shared.landmarks.map
      (fun row ↦ (row.caId, row.sequenceNo, row.treeSize)) = [("a", 0, 3), ("a", 1, 2)] := by
  decide +kernel

theorem sizes_grow_in_order :
    let s := (Machine.run (system env).step start inOrder).shared
    s.landmarks.map (fun row ↦ (row.caId, row.sequenceNo, row.treeSize)) =
      [("a", 0, 2), ("a", 1, 3)] ∧
    (s.allocated.Pairwise fun a b ↦ a.caId = b.caId → a.sequenceNo < b.sequenceNo) ∧
      ∀ a ∈ s.landmarks, ∀ b ∈ s.landmarks, a.caId = b.caId → a.sequenceNo < b.sequenceNo →
        a.treeSize < b.treeSize :=
  ⟨by decide +kernel, landmark_sequence_law env _ inOrder (by decide +kernel)⟩

end TwoLogs

end Akamu.Mtc
