import Akamu.Mtc.Standalone

/-!
# Inclusion proofs in the client

`mtc_verify.rs`: the client checks the inclusion proof of a certificate against
a root, and leaves proofs with siblings to the library.
-/

namespace Akamu.Mtc

open MerkleTree

/-- The hash of a tree of `size` leaves from the leaf at `index` and the siblings
on the way from the root down to it. -/
def foldPath (node : Hash → Hash → Hash) (leaf : Hash) : ℕ → ℕ → List Hash → Option Hash
  | index, size, [] => if index = 0 ∧ size = 1 then some leaf else none
  | index, size, sibling :: below =>
    let k := MerkleTree.splitPoint size
    if size < 2 then none
    else if index < k then (foldPath node leaf index k below).map (node · sibling)
    else (foldPath node leaf (index - k) (size - k) below).map (node sibling ·)

theorem index_lt_of_foldPath {node : Hash → Hash → Hash} {leaf root : Hash} {index size : ℕ}
    {siblings : List Hash} (h : foldPath node leaf index size siblings = some root) :
    index < size := by
  induction siblings generalizing index size root with
  | nil =>
    simp only [foldPath, Option.ite_none_right_eq_some] at h
    omega
  | cons sibling below ih =>
    simp only [foldPath] at h
    split_ifs at h with hsize hleft
    · exact hleft.trans (splitPoint_lt (by omega))
    · obtain ⟨hash, hbelow, -⟩ := Option.map_eq_some_iff.mp h
      have hlt := ih hbelow
      omega

/-- The verifiers of `synta-mtc`: entry index, range or size, leaf, siblings, root. -/
structure ProofVerifiers where
  outputSize : HashAlgorithm → ℕ
  verifyInclusionProof :
    HashAlgorithm → ℕ → ℕ → Hash → List Hash → Hash → Except String Unit
  verifySubtreeInclusionProof :
    HashAlgorithm → ℕ → ℕ → ℕ → Hash → List Hash → Hash → Except String Unit

def verifyStandaloneInclusion (v : ProofVerifiers) (leafHash : Hash) (entryIndex : ℕ)
    (proof : MtcProof) (root : Hash) (algorithm : HashAlgorithm) : Except String Unit :=
  if proof.stop < proof.start then
    .error ("invalid proof: end (" ++ toString proof.stop ++ ") < start (" ++
      toString proof.start ++ ")")
  else if proof.inclusionProof = [] then
    if proof.stop - proof.start ≤ 1 then
      -- the index of the entry is not looked at
      if leafHash = root then .ok ()
      else .error "single-leaf tree: leaf hash does not match root"
    else .error ("empty inclusion proof but subtree has " ++
      toString (proof.stop - proof.start) ++ " leaves")
  else if proof.inclusionProof.length % v.outputSize algorithm ≠ 0 then
    .error ("inclusion proof length " ++ toString proof.inclusionProof.length ++
      " is not a multiple of hash size " ++ toString (v.outputSize algorithm))
  else
    let siblings := MerkleTree.blocks (v.outputSize algorithm) proof.inclusionProof
    if 0 < proof.start then
      (v.verifySubtreeInclusionProof algorithm entryIndex proof.start proof.stop leafHash siblings
        root).mapError ("subtree inclusion proof: " ++ ·)
    else
      (v.verifyInclusionProof algorithm entryIndex proof.stop leafHash siblings root).mapError
        ("inclusion proof: " ++ ·)

/-- The verifiers accept a proof with siblings, which come from the leaf up,
exactly when it folds to the root. -/
structure ProofVerifiers.Exact (v : ProofVerifiers)
    (node : HashAlgorithm → Hash → Hash → Hash) : Prop where
  inclusion : ∀ algorithm index size leaf siblings root, siblings ≠ [] →
    (v.verifyInclusionProof algorithm index size leaf siblings root = .ok () ↔
      foldPath (node algorithm) leaf index size siblings.reverse = some root)
  subtree : ∀ algorithm index start stop leaf siblings root, siblings ≠ [] →
    (v.verifySubtreeInclusionProof algorithm index start stop leaf siblings root = .ok () ↔
      start ≤ index ∧
        foldPath (node algorithm) leaf (index - start) (stop - start) siblings.reverse = some root)

theorem blocks_ne_nil {size : ℕ} {bytes : List UInt8} (hne : bytes ≠ [])
    (hmod : bytes.length % size = 0) : MerkleTree.blocks size bytes ≠ [] := by
  have hsize : 0 < size := by
    refine Nat.pos_of_ne_zero fun hzero ↦ hne ?_
    rwa [hzero, Nat.mod_zero, List.length_eq_zero_iff] at hmod
  rw [blocks_of_ne_nil hsize hne]
  exact List.cons_ne_nil _ _

section Position

variable {v : ProofVerifiers} {node : HashAlgorithm → Hash → Hash → Hash} {leafHash root : Hash}
  {entryIndex : ℕ} {proof : MtcProof} {algorithm : HashAlgorithm}

/-- A proof without siblings whose leaf is the root, for an empty range, or for a
range of one leaf at another index. -/
def Misplaced (leafHash root : Hash) (entryIndex : ℕ) (proof : MtcProof) : Prop :=
  proof.inclusionProof = [] ∧ leafHash = root ∧
    (proof.stop = proof.start ∨ proof.stop = proof.start + 1 ∧ entryIndex ≠ proof.start)

theorem Misplaced.verified (h : Misplaced leafHash root entryIndex proof) :
    verifyStandaloneInclusion v leafHash entryIndex proof root algorithm = .ok () := by
  obtain ⟨hnil, hroot, hrange⟩ := h
  have hsize : ¬ proof.stop < proof.start ∧ proof.stop - proof.start ≤ 1 := by omega
  rw [verifyStandaloneInclusion, if_neg hsize.1, if_pos hnil, if_pos hsize.2, if_pos hroot]

theorem foldPath_of_verified (hexact : v.Exact node)
    (hplaced : ¬ Misplaced leafHash root entryIndex proof)
    (h : verifyStandaloneInclusion v leafHash entryIndex proof root algorithm = .ok ()) :
    proof.start ≤ entryIndex ∧
      foldPath (node algorithm) leafHash (entryIndex - proof.start) (proof.stop - proof.start)
        (MerkleTree.blocks (v.outputSize algorithm) proof.inclusionProof).reverse = some root := by
  unfold verifyStandaloneInclusion at h
  split_ifs at h with horder hnil hone hroot hmod hstart
  · have hrange : proof.stop = proof.start + 1 ∧ entryIndex = proof.start := by
      have hnot : ¬ (proof.stop = proof.start ∨
          proof.stop = proof.start + 1 ∧ entryIndex ≠ proof.start) :=
        fun hrange ↦ hplaced ⟨hnil, hroot, hrange⟩
      omega
    obtain ⟨hstop, rfl⟩ := hrange
    refine ⟨le_rfl, ?_⟩
    rw [hstop, hnil, blocks_nil, Nat.sub_self, Nat.add_sub_cancel_left, hroot]
    rfl
  · have hne := blocks_ne_nil hnil (not_not.mp hmod)
    exact (hexact.subtree _ _ _ _ _ _ _ hne).mp (Except.mapError_eq_ok_iff.mp h)
  · have hzero : proof.start = 0 := by omega
    have hne := blocks_ne_nil hnil (not_not.mp hmod)
    rw [hzero]
    exact ⟨Nat.zero_le _, (hexact.inclusion _ _ _ _ _ _ hne).mp (Except.mapError_eq_ok_iff.mp h)⟩

/-- A proof is accepted only at the position of its leaf, exactly unless it is
misplaced. -/
theorem verified_position (hexact : v.Exact node) :
    (verifyStandaloneInclusion v leafHash entryIndex proof root algorithm = .ok () →
      proof.start ≤ entryIndex ∧ entryIndex < proof.stop ∧
        foldPath (node algorithm) leafHash (entryIndex - proof.start) (proof.stop - proof.start)
          (MerkleTree.blocks (v.outputSize algorithm) proof.inclusionProof).reverse = some root) ↔
      ¬ Misplaced leafHash root entryIndex proof := by
  constructor
  · intro hsound hmisplaced
    obtain ⟨hle, hlt, -⟩ := hsound hmisplaced.verified
    obtain ⟨-, -, hrange⟩ := hmisplaced
    omega
  · intro hplaced h
    obtain ⟨hle, hfolds⟩ := foldPath_of_verified hexact hplaced h
    have hlt := index_lt_of_foldPath hfolds
    exact ⟨hle, by omega, hfolds⟩

end Position

namespace InclusionExample

/-- The hash of a node is that of its left child. -/
def node (_ : HashAlgorithm) (left _ : Hash) : Hash := left

def verifiers : ProofVerifiers where
  outputSize _ := 1
  verifyInclusionProof algorithm index size leaf siblings root :=
    if foldPath (node algorithm) leaf index size siblings.reverse = some root then .ok ()
    else .error "mismatch"
  verifySubtreeInclusionProof algorithm index start stop leaf siblings root :=
    if start ≤ index ∧ foldPath (node algorithm) leaf (index - start) (stop - start)
      siblings.reverse = some root then .ok ()
    else .error "mismatch"

theorem verifiers_exact : verifiers.Exact node :=
  ⟨fun _ _ _ _ _ _ _ ↦ by simp [verifiers], fun _ _ _ _ _ _ _ _ ↦ by simp [verifiers]⟩

/-- The leaf `5` alone, without siblings. -/
def single : MtcProof := ⟨5, 6, [], []⟩

/-- A proof without siblings is accepted for any entry. -/
theorem single_leaf_any_index :
    verifyStandaloneInclusion verifiers [7] 100 single [7] .sha256 = .ok () ∧
      ¬ 100 < single.stop := by
  decide

theorem single_leaf_position : single.start ≤ 5 ∧ 5 < single.stop := by
  have hok : verifyStandaloneInclusion verifiers [7] 5 single [7] .sha256 = .ok () := by decide
  have hplaced : ¬ Misplaced [7] [7] 5 single := fun h ↦ absurd h.2.2 (by decide)
  obtain ⟨hle, hlt, -⟩ := (verified_position verifiers_exact).mpr hplaced hok
  exact ⟨hle, hlt⟩

end InclusionExample

end Akamu.Mtc
