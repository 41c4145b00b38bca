import Akamu.Lib.KeyedTable
import Akamu.Lib.Tasks
import Akamu.Mtc.Standalone
import Mathlib.Data.List.MinMax

/-!
# The issuance logs of a server

The transparency side of a server with any number of CAs: issuance appends to
the log of the CA, checkpoints turn logged certificates into standalone ones,
landmarks freeze tree sizes, and inclusion proofs are served on request.  Each
of these is a task that takes one step per lock of a log or statement of the
database, so any of them may come between two steps of another.
-/

namespace Akamu.Mtc

open Tasks

/-! ## Configuration -/

structure CosignerClient where
  url : String
  verifier : Option CosignerVerifier
  deriving DecidableEq, Repr

structure SigningConfig (S : SignatureScheme) where
  key : S.Key
  hashAlg : String

/-- `MtcState` of a CA whose log is enabled. -/
structure MtcState (S : SignatureScheme) where
  algorithm : HashAlgorithm
  signing : Option (SigningConfig S)
  cosignerClients : List CosignerClient
  logNumber : ℕ
  treeMinimumIndex : Option ℕ
  trustAnchorId : Option RelativeOid
  tlogOrigin : Option String

structure MtcEnv where
  library : MtcLibrary
  mtc : String → Option (MtcState library.scheme)

def MtcState.caLog {S : SignatureScheme} (m : MtcState S) (signing : SigningConfig S) : CaLog where
  algorithm := m.algorithm
  spkiDer := S.spkiDer signing.key
  trustAnchorId := m.trustAnchorId.elim "" dotted
  logNumber := m.logNumber
  treeMinimumIndex := m.treeMinimumIndex

def MtcState.logId {S : SignatureScheme} (m : MtcState S) (signing : SigningConfig S) : LogId where
  hashAlgorithm := m.algorithm
  publicKey := S.spkiDer signing.key

/-! ## Tables -/

structure CertRow where
  id : String
  caId : String
  der : List UInt8
  mtcLogIndex : Option ℕ
  mtcStandaloneDer : Option StandaloneCert
  /-- Not a column: the hash that was appended for the certificate. -/
  leaf : Option Hash
  deriving DecidableEq, Repr

structure CheckpointRow where
  caId : String
  treeSize : ℕ
  root : Hash
  signature : List UInt8
  created : Int
  deriving DecidableEq, Repr

structure LandmarkCert where
  tbs : List UInt8
  logId : LogId
  treeSize : ℕ
  logEntryIndex : ℕ
  inclusionProof : List Hash
  signatureAlgorithm : List UInt8
  signature : List UInt8
  deriving DecidableEq, Repr

structure LandmarkRow where
  id : ℕ
  caId : String
  sequenceNo : ℕ
  treeSize : ℕ
  certDer : Option LandmarkCert
  created : Int
  deriving DecidableEq, Repr

structure Server where
  logs : String → List Hash
  certs : KeyedTable CertRow CertRow.id
  checkpoints : List CheckpointRow
  landmarks : List LandmarkRow
  /-- The next value of the `AUTOINCREMENT` column. -/
  nextLandmarkId : ℕ
  /-- Not a table: every landmark row that was ever inserted. -/
  allocated : List LandmarkRow

def Server.appendLeaf (s : Server) (caId : String) (leaf : Hash) : Server :=
  { s with logs := Function.update s.logs caId (s.logs caId ++ [leaf]) }

/-! ## Statements -/

/-- `CertForStandalone` -/
structure PendingCert where
  id : String
  der : List UInt8
  logIndex : ℕ
  deriving DecidableEq, Repr

namespace Certs

def insert (s : Server) (row : CertRow) : Option Server :=
  (s.certs.insert? row).map fun certs ↦ { s with certs := certs }

/-- A logged certificate below a tree size that has no standalone form. -/
def pending? (treeSize : ℕ) (row : CertRow) : Option PendingCert :=
  match row.mtcLogIndex, row.mtcStandaloneDer with
  | some index, none => if index < treeSize then some ⟨row.id, row.der, index⟩ else none
  | _, _ => none

theorem pending?_eq_some {treeSize : ℕ} {row : CertRow} {c : PendingCert}
    (h : pending? treeSize row = some c) :
    row.mtcLogIndex = some c.logIndex ∧ row.mtcStandaloneDer = none ∧ c.logIndex < treeSize ∧
      c.id = row.id ∧ c.der = row.der := by
  unfold pending? at h
  split at h
  · next index hindex hder =>
      split at h
      · next hlt =>
          cases h
          exact ⟨hindex, hder, hlt, rfl, rfl⟩
      · cases h
  · cases h

theorem pending?_of {treeSize index : ℕ} {row : CertRow} (hindex : row.mtcLogIndex = some index)
    (hder : row.mtcStandaloneDer = none) (hlt : index < treeSize) :
    pending? treeSize row = some ⟨row.id, row.der, index⟩ := by
  simp [pending?, hindex, hder, hlt]

/-- The statement does not look at the CA. -/
def getPendingStandalone (s : Server) (treeSize : ℕ) : List PendingCert :=
  ((s.certs.rows.filterMap (pending? treeSize)).insertionSort
    fun a b ↦ a.logIndex ≤ b.logIndex).take 500

def setMtcStandaloneDer (s : Server) (id : String) (cert : StandaloneCert) : Server :=
  { s with
    certs := s.certs.updateWhere (fun row ↦ row.id == id)
      (fun row ↦ { row with mtcStandaloneDer := some cert }) fun _ ↦ rfl }

def logged? (treeSize : ℕ) (row : CertRow) : Option (CertRow × ℕ) :=
  row.mtcLogIndex.bind fun index ↦ if index < treeSize then some (row, index) else none

/-- The statement does not look at the CA. -/
def getRepresentativeForLandmark (s : Server) (treeSize : ℕ) : Option (CertRow × ℕ) :=
  (s.certs.rows.filterMap (logged? treeSize)).argmin Prod.snd

end Certs

namespace Checkpoints

def ofCa (s : Server) (caId : String) : List CheckpointRow :=
  s.checkpoints.filter fun row ↦ row.caId == caId

def getLatest (s : Server) (caId : String) : Option CheckpointRow :=
  (ofCa s caId).argmax CheckpointRow.treeSize

def upsert (s : Server) (row : CheckpointRow) : Server :=
  if (ofCa s row.caId).any fun r ↦ r.treeSize == row.treeSize then s
  else { s with checkpoints := s.checkpoints ++ [row] }

def pruneOldest (s : Server) (caId : String) (keepCount : ℕ) : Server :=
  if keepCount = 0 then s
  else
    let kept := (((ofCa s caId).map CheckpointRow.treeSize).insertionSort (· ≥ ·)).take keepCount
    { s with
      checkpoints := s.checkpoints.filter fun row ↦ row.caId != caId || kept.contains row.treeSize }

end Checkpoints

namespace Landmarks

def ofCa (s : Server) (caId : String) : List LandmarkRow :=
  s.landmarks.filter fun row ↦ row.caId == caId

def getLatest (s : Server) (caId : String) : Option LandmarkRow :=
  (ofCa s caId).argmax LandmarkRow.sequenceNo

/-- `COALESCE(MAX(sequence_no), -1) + 1` -/
def nextSequenceNo (s : Server) (caId : String) : ℕ :=
  ((ofCa s caId).map fun row ↦ row.sequenceNo + 1).foldr max 0

def newRow (s : Server) (caId : String) (treeSize : ℕ) (created : Int) : LandmarkRow where
  id := s.nextLandmarkId
  caId := caId
  sequenceNo := nextSequenceNo s caId
  treeSize := treeSize
  certDer := none
  created := created

/-- Inserts nothing when the CA has a landmark of this tree size. -/
def insert (s : Server) (caId : String) (treeSize : ℕ) (created : Int) : Option Server :=
  if (ofCa s caId).any fun row ↦ row.treeSize == treeSize then none
  else
    some { s with
      landmarks := s.landmarks ++ [newRow s caId treeSize created]
      nextLandmarkId := s.nextLandmarkId + 1
      allocated := s.allocated ++ [newRow s caId treeSize created] }

def setCertDer (s : Server) (id : ℕ) (cert : LandmarkCert) : Server :=
  { s with
    landmarks := s.landmarks.map fun row ↦
      if row.id = id then { row with certDer := some cert } else row }

def pruneOldest (s : Server) (caId : String) (keepCount : ℕ) : Server :=
  if keepCount = 0 then s
  else
    let kept := (((ofCa s caId).map LandmarkRow.sequenceNo).insertionSort (· ≥ ·)).take keepCount
    { s with
      landmarks := s.landmarks.filter fun row ↦ row.caId != caId || kept.contains row.sequenceNo }

end Landmarks

/-! ## Tasks -/

/-- A certificate that `finalize_order` has issued. -/
structure Issued where
  id : String
  certDer : List UInt8
  deriving DecidableEq, Repr

inductive IssueStage where
  | appending (cert : Issued) (issueAsMtc : Bool)
  /-- The leaf is in the log; its proof is needed for a profile that issues
  standalone certificates. -/
  | proving (cert : Issued) (index : ℕ) (leaf : Hash)
  | persisting (row : CertRow) (standalone : Option StandaloneCert)
  | storing (certId : String) (standalone : StandaloneCert)

structure CertProof where
  certId : String
  certDer : List UInt8
  leafIndex : ℕ
  proof : List Hash
  subtreeStart : ℕ
  deriving DecidableEq, Repr

/-- What `produce_checkpoint` computes while it holds the log. -/
structure Proved where
  treeSize : ℕ
  root : Hash
  checkpoint : Checkpoint
  signature : List UInt8
  proofs : List CertProof
  subtreeStart : ℕ
  subtreeRoot : Hash
  now : Int

inductive CheckpointStage where
  | start
  | sized (treeSize : ℕ)
  | behind (treeSize prevTreeSize : ℕ)
  | selected (prevTreeSize : ℕ) (pending : List PendingCert)
  | proved (p : Proved)
  | recorded (p : Proved)
  /-- The cosignatures are those that the certificates were built with. -/
  | storing (cosignatures : List Cosignature) (certs : List (String × StandaloneCert))

inductive LandmarkStage where
  | start
  | sized (treeSize : ℕ)
  | behind (treeSize : ℕ)
  | represented (treeSize : ℕ) (row : CertRow) (index : ℕ)
  | inserted (treeSize : ℕ) (row : CertRow) (index landmarkId : ℕ)
  | built (landmarkId : ℕ) (cert : LandmarkCert)
  | certified

inductive ProofStage where
  | start (certId : String)
  | found (row : CertRow)

inductive Task where
  | issue (caId : String) (stage : IssueStage)
  | checkpoint (caId : String) (stage : CheckpointStage)
  | landmark (caId : String) (keepCount : ℕ) (stage : LandmarkStage)
  | inclusionProof (caId : String) (stage : ProofStage)

inductive Arrival where
  | issue (caId : String) (cert : Issued) (issueAsMtc : Bool)
  | checkpoint (caId : String)
  | landmark (caId : String) (keepCount : ℕ)
  | inclusionProof (caId certId : String)
  | pruneCheckpoints (caId : String) (keepCount : ℕ)

structure Input where
  now : Int := 0
  /-- For each configured cosigner: nothing usable, or a body, which need not
  decode. -/
  replies : List (Option (Option SubtreeSignature)) := []
  /-- The operation of the step fails. -/
  fails : Bool := false

structure InclusionProof where
  leafIndex : ℕ
  treeSize : ℕ
  proof : List Hash
  deriving DecidableEq, Repr

inductive Output where
  /-- `produce_checkpoint` has stored a standalone certificate. -/
  | standaloneStored (certId : String) (cosignatures : List Cosignature) (cert : StandaloneCert)
  /-- `maybe_allocate_landmark` has built a landmark certificate over a
  certificate. -/
  | landmarkBuilt (certId : String) (cert : LandmarkCert)
  | proofServed (certId : String) (answer : InclusionProof)
  | refused (e : AcmeError)
  deriving DecidableEq, Repr

end Akamu.Mtc
