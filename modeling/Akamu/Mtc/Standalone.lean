import Akamu.Mtc.Cosign
import Mathlib.Data.List.Sort
import Mathlib.Data.List.Destutter
import Mathlib.Data.List.Lex
import Mathlib.Data.Prod.Lex

/-!
# Standalone certificates

`mtc/standalone.rs`: a certificate whose signature is an inclusion proof and the
cosignatures over the subtree that the proof is for.
-/

namespace Akamu.Mtc

open List

structure MtcSignature where
  cosignerId : List UInt8
  signatureValue : List UInt8
  deriving DecidableEq, Repr

structure MtcProof where
  start : ℕ
  stop : ℕ
  inclusionProof : List UInt8
  signatures : List MtcSignature
  deriving DecidableEq, Repr

structure StandaloneCert where
  tbs : List UInt8
  logId : LogId
  logEntryIndex : ℕ
  logNumber : ℕ
  proof : MtcProof
  deriving DecidableEq, Repr

/-- An entry of `cosignature_ders`.  A cosigner that is not verified may have
returned anything. -/
structure Cosignature where
  url : String
  body : Option SubtreeSignature
  /-- It was checked against the key of a configured cosigner. -/
  verified : Bool
  deriving DecidableEq, Repr

structure MtcLibrary where
  scheme : SignatureScheme
  encodeOid : RelativeOid → List UInt8
  checkpointDer : Checkpoint → List UInt8
  /-- The encoded `TBSCertificate` of an encoded certificate. -/
  tbsOf : List UInt8 → Except String (List UInt8)
  /-- `MtcX509CertificateBuilder::build` -/
  buildX509 : StandaloneCert → Except String Unit
  standaloneDer : StandaloneCert → List UInt8
  /-- The leaf hash of a certificate in the log of a public key. -/
  leafHash : HashAlgorithm → List UInt8 → List UInt8 → Except String Hash
  /-- `DiskBackedLog::compute_root` -/
  computeRoot : HashAlgorithm → List Hash → Except String Hash
  /-- `DiskBackedLog::generate_proof` -/
  generateProof : HashAlgorithm → List Hash → ℕ → Except String (List Hash)
  generateSubtreeHash : HashAlgorithm → List Hash → Except String Hash
  generateInclusionProof : HashAlgorithm → ℕ → List Hash → Except String (List Hash)

variable (lib : MtcLibrary)

def mtcSignature (s : SubtreeSignature) : MtcSignature := ⟨lib.encodeOid s.cosigner, s.signature⟩

/-- `extract_mtc_signature` -/
def extractMtcSignature (s : SubtreeSignature) : Option (MtcSignature × ℕ × ℕ) :=
  match asU64 s.subtree.start, asU64 s.subtree.stop with
  | some start, some stop => some (mtcSignature lib s, start, stop)
  | _, _ => none

def signatureOver (start stop : ℕ) (c : Cosignature) : Option MtcSignature :=
  match c.body.bind (extractMtcSignature lib) with
  | some (signature, cosigStart, cosigStop) =>
    if cosigStart = start ∧ cosigStop = stop then some signature else none
  | none => none

def lexLe : List UInt8 → List UInt8 → Bool
  | [], _ => true
  | _ :: _, [] => false
  | a :: as, b :: bs => a < b || a == b && lexLe as bs

def idLe (a b : MtcSignature) : Bool :=
  a.cosignerId.length < b.cosignerId.length ||
    a.cosignerId.length == b.cosignerId.length && lexLe a.cosignerId b.cosignerId

def sortUnique (signatures : List MtcSignature) : List MtcSignature :=
  (signatures.insertionSort fun a b ↦ idLe a b = true).destutter
    fun a b ↦ a.cosignerId ≠ b.cosignerId

structure StandaloneParams where
  certDer : List UInt8
  leafIndex : ℕ
  proof : List Hash
  treeSize : ℕ
  logId : LogId
  cosignatures : List Cosignature
  logNumber : ℕ
  subtreeStart : ℕ

def StandaloneParams.signatures (p : StandaloneParams) : List MtcSignature :=
  sortUnique (p.cosignatures.filterMap (signatureOver lib p.subtreeStart p.treeSize))

def buildStandalone (p : StandaloneParams) : Except AcmeError StandaloneCert := do
  let tbs ← (lib.tbsOf p.certDer).mapError
    fun e ↦ AcmeError.mtc ("parse cert DER for TBS extraction: " ++ e)
  let cert : StandaloneCert := {
    tbs := tbs, logId := p.logId, logEntryIndex := p.leafIndex, logNumber := p.logNumber,
    proof := {
      start := p.subtreeStart, stop := p.treeSize, inclusionProof := p.proof.flatten,
      signatures := p.signatures lib } }
  (lib.buildX509 cert).mapError fun e ↦ AcmeError.mtc ("build MtcX509 standalone cert: " ++ e)
  return cert

variable {lib}

/-! ## What ends up in a certificate -/

variable {s signature : MtcSignature} {p : StandaloneParams}

theorem buildStandalone_eq_ok {cert : StandaloneCert} (h : buildStandalone lib p = .ok cert) :
    cert.logEntryIndex = p.leafIndex ∧ cert.proof = {
      start := p.subtreeStart, stop := p.treeSize, inclusionProof := p.proof.flatten,
      signatures := p.signatures lib } := by
  obtain ⟨tbs, -, h⟩ := Except.bind_eq_ok h
  obtain ⟨⟨⟩, -, h⟩ := Except.bind_eq_ok h
  cases h
  exact ⟨rfl, rfl⟩

theorem mem_of_mem_sortUnique {signatures : List MtcSignature} (h : s ∈ sortUnique signatures) :
    s ∈ signatures :=
  (mem_insertionSort _).mp ((destutter_sublist _ _).subset h)

theorem exists_mem_destutter' {a : MtcSignature} {l : List MtcSignature} (h : s ∈ a :: l) :
    ∃ s' ∈ l.destutter' (fun a b ↦ a.cosignerId ≠ b.cosignerId) a,
      s'.cosignerId = s.cosignerId := by
  induction l generalizing a s with
  | nil =>
    rw [mem_singleton.mp h]
    exact ⟨a, mem_destutter' _ _ a, rfl⟩
  | cons b l ih =>
    by_cases hab : a.cosignerId = b.cosignerId
    · rw [destutter'_cons_neg _ (not_not_intro hab)]
      rcases mem_cons.mp h with rfl | htail
      · exact ⟨s, mem_destutter' _ _ s, rfl⟩
      · rcases mem_cons.mp htail with rfl | hl
        · exact ⟨a, mem_destutter' _ _ a, hab⟩
        · exact ih (mem_cons_of_mem a hl)
    · rw [destutter'_cons_pos _ hab]
      rcases mem_cons.mp h with rfl | htail
      · exact ⟨s, mem_cons_self, rfl⟩
      · obtain ⟨s', hs', hid⟩ := ih htail
        exact ⟨s', mem_cons_of_mem a hs', hid⟩

theorem exists_mem_sortUnique {signatures : List MtcSignature} (h : s ∈ signatures) :
    ∃ s' ∈ sortUnique signatures, s'.cosignerId = s.cosignerId := by
  have hsorted : s ∈ signatures.insertionSort fun a b ↦ idLe a b = true :=
    (mem_insertionSort _).mpr h
  unfold sortUnique
  cases hlist : signatures.insertionSort fun a b ↦ idLe a b = true with
  | nil =>
    rw [hlist] at hsorted
    cases hsorted
  | cons =>
    rw [hlist] at hsorted
    exact exists_mem_destutter' hsorted

theorem signatureOver_eq_some_iff {start stop : ℕ} {c : Cosignature} :
    signatureOver lib start stop c = some signature ↔
      ∃ s, c.body = some s ∧ asU64 s.subtree.start = some start ∧
        asU64 s.subtree.stop = some stop ∧ mtcSignature lib s = signature := by
  unfold signatureOver
  cases c.body with
  | none => simp
  | some s =>
    simp only [Option.bind_some, Option.some.injEq, exists_eq_left', extractMtcSignature]
    cases asU64 s.subtree.start with
    | none => simp
    | some =>
      cases asU64 s.subtree.stop with
      | none => simp
      | some => simp [and_assoc]

theorem exists_of_mem_signatures (h : signature ∈ p.signatures lib) :
    ∃ c ∈ p.cosignatures, ∃ s, c.body = some s ∧ asU64 s.subtree.start = some p.subtreeStart ∧
      asU64 s.subtree.stop = some p.treeSize ∧ mtcSignature lib s = signature := by
  obtain ⟨c, hc, hover⟩ := mem_filterMap.mp (mem_of_mem_sortUnique h)
  exact ⟨c, hc, signatureOver_eq_some_iff.mp hover⟩

theorem exists_signature_of_body {c : Cosignature} {s : SubtreeSignature} (hc : c ∈ p.cosignatures)
    (hbody : c.body = some s) (hstart : asU64 s.subtree.start = some p.subtreeStart)
    (hstop : asU64 s.subtree.stop = some p.treeSize) :
    ∃ signature ∈ p.signatures lib, signature.cosignerId = lib.encodeOid s.cosigner :=
  exists_mem_sortUnique (mem_filterMap.mpr
    ⟨c, hc, signatureOver_eq_some_iff.mpr ⟨s, hbody, hstart, hstop, rfl⟩⟩)

/-! ## The order of the signatures -/

/-- Shorter ids come first, and ids of one length in lexicographic order. -/
def idKey (s : MtcSignature) : ℕ ×ₗ List ℕ :=
  toLex (s.cosignerId.length, s.cosignerId.map UInt8.toNat)

theorem idKey_inj {t : MtcSignature} : idKey s = idKey t ↔ s.cosignerId = t.cosignerId := by
  have hbytes := (map_injective_iff.mpr fun _ _ ↦ UInt8.toNat_inj.mp).eq_iff
    (a := s.cosignerId) (b := t.cosignerId)
  constructor
  · intro h
    exact hbytes.mp (congrArg (fun k ↦ (ofLex k).2) h)
  · intro h
    rw [idKey, idKey, h]

theorem lexLe_iff {as bs : List UInt8} :
    lexLe as bs = true ↔ as.map UInt8.toNat ≤ bs.map UInt8.toNat := by
  induction as generalizing bs with
  | nil => simp [lexLe, ← not_lt]
  | cons a as ih =>
    cases bs with
    | nil => simp [lexLe, ← not_lt]
    | cons =>
      simp only [lexLe, Bool.or_eq_true, decide_eq_true_eq, Bool.and_eq_true, beq_iff_eq, ih,
        map_cons, UInt8.lt_iff_toNat_lt, ← UInt8.toNat_inj]
      rw [← not_lt, ← not_lt, cons_lt_cons_iff]
      grind

theorem idLe_iff {t : MtcSignature} : idLe s t = true ↔ idKey s ≤ idKey t := by
  simp [idLe, idKey, Prod.Lex.toLex_le_toLex, lexLe_iff]

theorem pairwise_sortUnique (signatures : List MtcSignature) :
    (sortUnique signatures).Pairwise fun s t ↦ idKey s < idKey t := by
  have htotal : Std.Total fun s t : MtcSignature ↦ idLe s t = true :=
    ⟨fun s t ↦ by simpa only [idLe_iff] using le_total (idKey s) (idKey t)⟩
  have htrans : IsTrans MtcSignature fun s t ↦ idLe s t = true :=
    ⟨fun s t u hst htu ↦ idLe_iff.mpr ((idLe_iff.mp hst).trans (idLe_iff.mp htu))⟩
  -- sorted, and no two neighbours with one id
  have hsorted := (pairwise_insertionSort (fun s t ↦ idLe s t = true) signatures).sublist
    (destutter_sublist (fun s t ↦ s.cosignerId ≠ t.cosignerId) _)
  have hchain := isChain_destutter (fun s t ↦ s.cosignerId ≠ t.cosignerId)
    (signatures.insertionSort fun s t ↦ idLe s t = true)
  rw [isChain_iff_forall_rel_of_append_cons_cons] at hchain
  refine isChain_iff_pairwise.mp
    (isChain_iff_forall_rel_of_append_cons_cons.mpr fun s t before after hlist ↦ ?_)
  have hle := isChain_iff_forall_rel_of_append_cons_cons.mp hsorted.isChain hlist
  exact (idLe_iff.mp hle).lt_of_ne fun heq ↦ hchain hlist (idKey_inj.mp heq)

/-- The signatures of a certificate are in strictly increasing order of their
cosigners, each is over the range of the proof, and no cosigner of that range is
missing. -/
theorem standalone_signatures_canonical (lib : MtcLibrary) (p : StandaloneParams) :
    ((buildStandalone lib p).map fun cert ↦ cert.proof.signatures) =
        ((buildStandalone lib p).map fun _ ↦ p.signatures lib) ∧
      ((p.signatures lib).Pairwise fun s t ↦ idKey s < idKey t) ∧
      (∀ signature ∈ p.signatures lib, ∃ c ∈ p.cosignatures, ∃ s, c.body = some s ∧
        asU64 s.subtree.start = some p.subtreeStart ∧ asU64 s.subtree.stop = some p.treeSize ∧
        mtcSignature lib s = signature) ∧
      ∀ c ∈ p.cosignatures, ∀ s, c.body = some s → asU64 s.subtree.start = some p.subtreeStart →
        asU64 s.subtree.stop = some p.treeSize →
        ∃ signature ∈ p.signatures lib, signature.cosignerId = lib.encodeOid s.cosigner := by
  refine ⟨?_, pairwise_sortUnique _, fun _ ↦ exists_of_mem_signatures,
    fun _ hc _ ↦ exists_signature_of_body hc⟩
  cases h : buildStandalone lib p with
  | error => rfl
  | ok => exact congrArg Except.ok (congrArg MtcProof.signatures (buildStandalone_eq_ok h).2)

end Akamu.Mtc
