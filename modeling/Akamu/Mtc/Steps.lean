import Akamu.Mtc.Server

/-!
# Steps of the logging tasks

What issuance, `produce_checkpoint`, `maybe_allocate_landmark` and
`get_inclusion_proof` do from one await to the next.
-/

namespace Akamu.Mtc

open Option Tasks
open Except (bind_eq_ok)

/-! ## Issuance -/

def certRow (caId : String) (cert : Issued) (entry : Option (ℕ × Hash)) : CertRow where
  id := cert.id
  caId := caId
  der := cert.certDer
  mtcLogIndex := entry.map Prod.fst
  mtcStandaloneDer := none
  leaf := entry.map Prod.snd

/-- Without a log entry a certificate of an ordinary profile is issued all the
same. -/
def issueWithoutEntry (s : Server) (caId : String) (cert : Issued) (issueAsMtc : Bool) :
    Result Server Task Output :=
  if issueAsMtc then .idle s
  else .goOn s (.issue caId (.persisting (certRow caId cert none) none))

def afterAppend (caId : String) (cert : Issued) (issueAsMtc : Bool) (index : ℕ) (leaf : Hash) :
    IssueStage :=
  if issueAsMtc then .proving cert index leaf
  else .persisting (certRow caId cert (some (index, leaf))) none

/-- The standalone certificate of a profile that issues such, and the row that
has it in place of the certificate. -/
def proveAndBuild (lib : MtcLibrary) (m : MtcState lib.scheme) (signing : SigningConfig lib.scheme)
    (leaves : List Hash) (caId : String) (cert : Issued) (index : ℕ) (leaf : Hash) :
    Except AcmeError (CertRow × StandaloneCert) := do
  let proof ← (lib.generateProof m.algorithm leaves index).mapError
    fun e ↦ AcmeError.mtc ("MTC inclusion proof for cert " ++ cert.id ++ ": " ++ e)
  let standalone ← buildStandalone lib {
    certDer := cert.certDer, leafIndex := index, proof := proof, treeSize := leaves.length,
    logId := m.logId signing, cosignatures := [], logNumber := m.logNumber, subtreeStart := 0 }
  return ({ certRow caId cert (some (index, leaf)) with der := lib.standaloneDer standalone },
    standalone)

def MtcEnv.signing (env : MtcEnv) (caId : String) :
    Option (MtcState env.library.scheme × SigningConfig env.library.scheme) :=
  (env.mtc caId).bind fun m ↦ m.signing.map fun signing ↦ (m, signing)

theorem mtc_of_signing {env : MtcEnv} {caId : String} {m : MtcState env.library.scheme}
    {signing : SigningConfig env.library.scheme} (h : env.signing caId = some (m, signing)) :
    env.mtc caId = some m := by
  obtain ⟨m', hm', h⟩ := bind_eq_some_iff.mp h
  obtain ⟨signing', -, h⟩ := map_eq_some_iff.mp h
  cases h
  exact hm'

def MtcEnv.leafOf (env : MtcEnv) (caId : String) (cert : Issued) : Option Hash :=
  (env.signing caId).bind fun (m, signing) ↦
    (env.library.leafHash m.algorithm (env.library.scheme.spkiDer signing.key)
      cert.certDer).toOption

def MtcEnv.standaloneRow (env : MtcEnv) (leaves : List Hash) (caId : String) (cert : Issued)
    (index : ℕ) (leaf : Hash) : Option (CertRow × StandaloneCert) :=
  (env.signing caId).bind fun (m, signing) ↦
    (proveAndBuild env.library m signing leaves caId cert index leaf).toOption

def issueStep (env : MtcEnv) (s : Server) (caId : String) (input : Input) :
    IssueStage → Result Server Task Output
  | .appending cert issueAsMtc =>
    match env.leafOf caId cert with
    | none => issueWithoutEntry s caId cert issueAsMtc
    | some leaf =>
      if input.fails then issueWithoutEntry s caId cert issueAsMtc
      else
        ⟨s.appendLeaf caId leaf,
          [.issue caId (afterAppend caId cert issueAsMtc (s.logs caId).length leaf)], none⟩
  | .proving cert index leaf =>
    match env.standaloneRow (s.logs caId) caId cert index leaf with
    | none => .idle s
    | some (row, standalone) => .goOn s (.issue caId (.persisting row (some standalone)))
  | .persisting row standalone =>
    match Certs.insert s row with
    | none => .idle s
    | some s' => ⟨s', standalone.toList.map fun c ↦ .issue caId (.storing row.id c), none⟩
  | .storing certId standalone =>
    .idle (if input.fails then s else Certs.setMtcStandaloneDer s certId standalone)

/-! ## Checkpoints -/

def nextPowerOfTwo (n : ℕ) : ℕ := if n ≤ 1 then 1 else 2 ^ ((n - 1).log2 + 1)

/-- `checked_next_power_of_two().unwrap_or(u64::MAX)` -/
def nextPowerOfTwoOrMax (n : ℕ) : ℕ :=
  if nextPowerOfTwo n < 2 ^ 64 then nextPowerOfTwo n else 2 ^ 64 - 1

/-- Whether the proofs are made relative to the leaves since the last
checkpoint. -/
def useSubtree (prevTreeSize treeSize : ℕ) (pending : List PendingCert) : Bool :=
  0 < prevTreeSize && 0 < treeSize - prevTreeSize &&
    prevTreeSize % nextPowerOfTwoOrMax (treeSize - prevTreeSize) == 0 &&
    pending.all fun c ↦ prevTreeSize ≤ c.logIndex

section Checkpoint

variable (lib : MtcLibrary) (m : MtcState lib.scheme) (signing : SigningConfig lib.scheme)

/-- The proof for one certificate; without one it is skipped. -/
def certProof (leaves : List Hash) (subtreeStart : ℕ) (c : PendingCert) : Option CertProof :=
  let proof :=
    if subtreeStart = 0 then lib.generateProof m.algorithm leaves c.logIndex
    else lib.generateInclusionProof m.algorithm (c.logIndex - subtreeStart)
      (hashRange leaves subtreeStart (leaves.length - subtreeStart))
  proof.toOption.map fun p ↦ ⟨c.id, c.der, c.logIndex, p, subtreeStart⟩

def subtreeRoot (leaves : List Hash) (root : Hash) (subtreeStart : ℕ) : Except AcmeError Hash :=
  if subtreeStart = 0 then .ok root
  else (lib.generateSubtreeHash m.algorithm
    (hashRange leaves subtreeStart (leaves.length - subtreeStart))).mapError
      fun e ↦ .mtc ("subtree root: " ++ e)

/-- Everything under one lock of the log: size, root, proofs and the signed
checkpoint. -/
def prove (leaves : List Hash) (prevTreeSize : ℕ) (pending : List PendingCert) (now : Int) :
    Except AcmeError Proved := do
  let root ← (lib.computeRoot m.algorithm leaves).mapError
    fun e ↦ AcmeError.mtc ("compute_root: " ++ e)
  let start := if useSubtree prevTreeSize leaves.length pending then prevTreeSize else 0
  let subRoot ← subtreeRoot lib m leaves root start
  let checkpoint := (m.caLog signing).checkpoint leaves.length root now
  let signature ← (lib.scheme.signTbs signing.key signing.hashAlg
    (lib.checkpointDer checkpoint)).mapError fun e ↦ AcmeError.mtc ("sign checkpoint: " ++ e)
  return {
    treeSize := leaves.length, root := root, checkpoint := checkpoint, signature := signature,
    proofs := pending.filterMap (certProof lib m leaves start), subtreeStart := start,
    subtreeRoot := subRoot, now := now }

def buildCaSelfCosignature (cosigner : RelativeOid) (origin : String) (p : Proved) :
    Except AcmeError SubtreeSignature := do
  let subtree : Subtree := ⟨p.subtreeStart, p.treeSize, p.subtreeRoot⟩
  let message ← (buildCosignedMessage cosigner subtree p.checkpoint origin).mapError
    fun e ↦ AcmeError.mtc ("build CosignedMessage for self-cosig: " ++ e)
  let signature ← (lib.scheme.signTbs signing.key signing.hashAlg message).mapError
    fun e ↦ AcmeError.mtc ("sign CA self-cosignature: " ++ e)
  match lib.scheme.algorithmDer signing.key signing.hashAlg with
  | none => throw (.mtc "unsupported key/hash combination for CA self-cosig")
  | some alg => return ⟨cosigner, subtree, p.checkpoint, alg, signature⟩

def selfCosignature (p : Proved) : Except AcmeError (List Cosignature) :=
  match m.trustAnchorId, m.tlogOrigin with
  | some cosigner, some origin =>
    (buildCaSelfCosignature lib signing cosigner origin p).map fun s ↦ [⟨"self", some s, false⟩]
  | _, _ => .ok []

/-- What a cosigner's reply contributes.  Where no key is configured anything
is accepted. -/
def postToCosigner (origin : String) (client : CosignerClient)
    (reply : Option (Option SubtreeSignature)) : Option Cosignature :=
  reply.bind fun body ↦
    match client.verifier with
    | none => some ⟨client.url, body, false⟩
    | some v =>
      body.bind fun response ↦
        if verifySubtreeSignature lib.scheme response v origin = .ok () then
          some ⟨client.url, some response, true⟩
        else none

def gatherCosignatures (replies : List (Option (Option SubtreeSignature))) : List Cosignature :=
  match m.tlogOrigin with
  | none => []
  | some origin =>
    (m.cosignerClients.zip replies).filterMap fun (client, reply) ↦
      postToCosigner lib origin client reply

def standaloneOf (cosignatures : List Cosignature) (treeSize : ℕ) (c : CertProof) :
    Option (String × StandaloneCert) :=
  ((buildStandalone lib {
      certDer := c.certDer, leafIndex := c.leafIndex, proof := c.proof, treeSize := treeSize,
      logId := m.logId signing, cosignatures := cosignatures, logNumber := m.logNumber,
      subtreeStart := c.subtreeStart }).toOption).map fun cert ↦ (c.certId, cert)

def assemble (replies : List (Option (Option SubtreeSignature))) (p : Proved) :
    Except AcmeError (List Cosignature × List (String × StandaloneCert)) := do
  let self ← selfCosignature lib m signing p
  let cosignatures := self ++ gatherCosignatures lib m replies
  return (cosignatures, p.proofs.filterMap (standaloneOf lib m signing cosignatures p.treeSize))

def checkpointRow (caId : String) (p : Proved) : CheckpointRow :=
  ⟨caId, p.treeSize, p.root, p.signature, p.now⟩

/-- One step of `produce_checkpoint`.  A step that fails ends the call, except
that the rest of the certificates are stored when one cannot be. -/
def checkpointStep (s : Server) (caId : String) (input : Input) :
    CheckpointStage → Result Server Task Output
  | .storing _ [] => .idle s
  | .storing cosignatures ((certId, cert) :: rest) =>
    if input.fails || (s.certs.find? certId).isNone then
      .goOn s (.checkpoint caId (.storing cosignatures rest))
    else
      ⟨Certs.setMtcStandaloneDer s certId cert, [.checkpoint caId (.storing cosignatures rest)],
        some (.standaloneStored certId cosignatures cert)⟩
  | stage =>
    if input.fails then .idle s
    else
      match stage with
      | .start =>
        let treeSize := (s.logs caId).length
        if treeSize = 0 then .idle s else .goOn s (.checkpoint caId (.sized treeSize))
      | .sized treeSize =>
        match Checkpoints.getLatest s caId with
        | none => .goOn s (.checkpoint caId (.behind treeSize 0))
        | some latest =>
          if treeSize ≤ latest.treeSize then .idle s
          else .goOn s (.checkpoint caId (.behind treeSize latest.treeSize))
      | .behind treeSize prevTreeSize =>
        .goOn s (.checkpoint caId
          (.selected prevTreeSize (Certs.getPendingStandalone s treeSize)))
      | .selected prevTreeSize pending =>
        match prove lib m signing (s.logs caId) prevTreeSize pending input.now with
        | .error _ => .idle s
        | .ok p => .goOn s (.checkpoint caId (.proved p))
      | .proved p =>
        .goOn (Checkpoints.upsert s (checkpointRow caId p)) (.checkpoint caId (.recorded p))
      | .recorded p =>
        match assemble lib m signing input.replies p with
        | .error _ => .idle s
        | .ok (cosignatures, certs) =>
          .goOn s (.checkpoint caId (.storing cosignatures certs))
      | .storing _ _ => .idle s

end Checkpoint

/-! ### What the parts of a checkpoint compute -/

variable {leaves : List Hash}

section Specs

variable {lib : MtcLibrary} {m : MtcState lib.scheme} {signing : SigningConfig lib.scheme}

theorem prove_eq_ok {prev : ℕ} {pending : List PendingCert} {now : Int} {p : Proved}
    (h : prove lib m signing leaves prev pending now = .ok p) :
    p.treeSize = leaves.length ∧
      p.subtreeStart = (if useSubtree prev leaves.length pending then prev else 0) ∧
      p.proofs = pending.filterMap (certProof lib m leaves p.subtreeStart) := by
  obtain ⟨root, -, h⟩ := bind_eq_ok h
  obtain ⟨subRoot, -, h⟩ := bind_eq_ok h
  obtain ⟨signature, -, h⟩ := bind_eq_ok h
  cases h
  exact ⟨rfl, rfl, rfl⟩

variable {cosignatures : List Cosignature}

theorem standaloneOf_eq_some {treeSize : ℕ} {c : CertProof} {certId : String}
    {cert : StandaloneCert}
    (h : standaloneOf lib m signing cosignatures treeSize c = some (certId, cert)) :
    certId = c.certId ∧ buildStandalone lib {
      certDer := c.certDer, leafIndex := c.leafIndex, proof := c.proof, treeSize := treeSize,
      logId := m.logId signing, cosignatures := cosignatures, logNumber := m.logNumber,
      subtreeStart := c.subtreeStart } = .ok cert := by
  obtain ⟨cert', hbuild, heq⟩ := map_eq_some_iff.mp h
  cases heq
  exact ⟨rfl, Except.toOption_eq_some_iff.mp hbuild⟩

theorem assemble_eq_ok {replies : List (Option (Option SubtreeSignature))} {p : Proved}
    {certs : List (String × StandaloneCert)}
    (h : assemble lib m signing replies p = .ok (cosignatures, certs)) :
    (∃ self, selfCosignature lib m signing p = .ok self ∧
      cosignatures = self ++ gatherCosignatures lib m replies) ∧
      certs = p.proofs.filterMap (standaloneOf lib m signing cosignatures p.treeSize) := by
  obtain ⟨self, hself, h⟩ := bind_eq_ok h
  cases h
  exact ⟨⟨self, hself, rfl⟩, rfl⟩

end Specs

/-! ## Landmarks -/

section Landmark

variable (lib : MtcLibrary) (m : MtcState lib.scheme) (signing : SigningConfig lib.scheme)

/-- `build_landmark_cert_der` -/
def buildLandmarkCert (leaves : List Hash) (treeSize index : ℕ) (certDer : List UInt8) :
    Except AcmeError LandmarkCert := do
  let tbs ← (lib.tbsOf certDer).mapError fun e ↦ AcmeError.mtc ("decode cert for landmark: " ++ e)
  let signature ← (lib.scheme.signTbs signing.key signing.hashAlg tbs).mapError
    fun e ↦ AcmeError.mtc ("sign landmark TBS: " ++ e)
  let proof ← (lib.generateInclusionProof m.algorithm index leaves).mapError
    fun e ↦ AcmeError.mtc ("build LandmarkCertificate: " ++ e)
  match lib.scheme.algorithmDer signing.key signing.hashAlg with
  | none => throw (.mtc "signature_algorithm_der for landmark")
  | some alg =>
    return {
      tbs := tbs, logId := m.logId signing, treeSize := treeSize, logEntryIndex := index,
      inclusionProof := proof, signatureAlgorithm := alg, signature := signature }

def landmarkStep (s : Server) (caId : String) (keepCount : ℕ) (input : Input) :
    LandmarkStage → Result Server Task Output
  | stage =>
    if input.fails then .idle s
    else
      match stage with
      | .start =>
        let treeSize := (s.logs caId).length
        if treeSize = 0 then .idle s else .goOn s (.landmark caId keepCount (.sized treeSize))
      | .sized treeSize =>
        if (Landmarks.getLatest s caId).any fun latest ↦ treeSize ≤ latest.treeSize then .idle s
        else .goOn s (.landmark caId keepCount (.behind treeSize))
      | .behind treeSize =>
        match Certs.getRepresentativeForLandmark s treeSize with
        | none => .idle s
        | some (row, index) =>
          .goOn s (.landmark caId keepCount (.represented treeSize row index))
      | .represented treeSize row index =>
        -- one write transaction: insert, read the row back, commit
        match Landmarks.insert s caId treeSize input.now with
        | none => .idle s
        | some s' =>
          match Landmarks.getLatest s' caId with
          | none => .idle s
          | some landmark =>
            .goOn s' (.landmark caId keepCount
              (.inserted treeSize row index landmark.id))
      | .inserted treeSize row index landmarkId =>
        match buildLandmarkCert lib m signing (hashRange (s.logs caId) 0 treeSize) treeSize index
            row.der with
        | .error _ => .idle s
        | .ok cert =>
          ⟨s, [.landmark caId keepCount (.built landmarkId cert)],
            some (.landmarkBuilt row.id cert)⟩
      | .built landmarkId cert =>
        if s.landmarks.any fun row ↦ row.id = landmarkId then
          .goOn (Landmarks.setCertDer s landmarkId cert) (.landmark caId keepCount .certified)
        else .idle s
      | .certified => .idle (Landmarks.pruneOldest s caId keepCount)

end Landmark

theorem buildLandmarkCert_eq_ok {lib : MtcLibrary} {m : MtcState lib.scheme}
    {signing : SigningConfig lib.scheme} {treeSize index : ℕ} {der : List UInt8}
    {cert : LandmarkCert}
    (h : buildLandmarkCert lib m signing leaves treeSize index der = .ok cert) :
    cert.treeSize = treeSize ∧ cert.logEntryIndex = index ∧
      lib.generateInclusionProof m.algorithm index leaves = .ok cert.inclusionProof := by
  obtain ⟨tbs, -, h⟩ := bind_eq_ok h
  obtain ⟨signature, -, h⟩ := bind_eq_ok h
  obtain ⟨proof, hproof, h⟩ := bind_eq_ok h
  split at h
  · cases h
  · cases h
    exact ⟨rfl, rfl, Except.mapError_eq_ok_iff.mp hproof⟩

/-! ## Inclusion proofs -/

def inclusionProofStep (lib : MtcLibrary) (m : MtcState lib.scheme) (s : Server) (caId : String) :
    ProofStage → Result Server Task Output
  | .start certId =>
    match s.certs.find? certId with
    | none => .answer s (.refused .notFound)
    | some row => .goOn s (.inclusionProof caId (.found row))
  | .found row =>
    match row.mtcLogIndex with
    | none => .answer s (.refused .notFound)
    | some index =>
      match lib.generateProof m.algorithm (s.logs caId) index with
      | .error e => .answer s (.refused (.mtc ("generate_proof: " ++ e)))
      | .ok proof => .answer s (.proofServed row.id ⟨index, (s.logs caId).length, proof⟩)

/-! ## The system -/

def arrive (env : MtcEnv) (s : Server) : Arrival → Result Server Task Output
  | .issue caId cert issueAsMtc => .goOn s (.issue caId (.appending cert issueAsMtc))
  | .checkpoint caId =>
    if (env.signing caId).isSome then .goOn s (.checkpoint caId .start) else .idle s
  | .landmark caId keepCount =>
    if (env.signing caId).isSome then .goOn s (.landmark caId keepCount .start) else .idle s
  | .inclusionProof caId certId =>
    if (env.mtc caId).isSome then .goOn s (.inclusionProof caId (.start certId))
    else .answer s (.refused .notFound)
  | .pruneCheckpoints caId keepCount => .idle (Checkpoints.pruneOldest s caId keepCount)

def act (env : MtcEnv) (s : Server) (t : Task) (input : Input) : Result Server Task Output :=
  match t with
  | .issue caId stage => issueStep env s caId input stage
  | .checkpoint caId stage =>
    (env.signing caId).elim (.idle s) fun (m, signing) ↦
      checkpointStep env.library m signing s caId input stage
  | .landmark caId keepCount stage =>
    (env.signing caId).elim (.idle s) fun (m, signing) ↦
      landmarkStep env.library m signing s caId keepCount input stage
  | .inclusionProof caId stage =>
    (env.mtc caId).elim (.idle s) fun m ↦ inclusionProofStep env.library m s caId stage

def system (env : MtcEnv) : System Server Task Arrival Input Output where
  arrive := arrive env
  act := act env

/-- Logs that hold their first entries, empty tables, nothing running. -/
def fresh (logs : String → List Hash) : Pool Server Task where
  shared := {
    logs := logs, certs := .empty, checkpoints := [], landmarks := [], nextLandmarkId := 1,
    allocated := [] }
  tasks := []

/-! ## What a step can do -/

/-- The effect of one step of a task.  A step that fails or finds nothing to do
is `idle`: it ends the task and changes nothing. -/
inductive Moves (env : MtcEnv) (s : Server) (input : Input) :
    Task → Result Server Task Output → Prop where
  | idle {t} : Moves env s input t (.idle s)
  | skipLog {caId cert issueAsMtc} : Moves env s input (.issue caId (.appending cert issueAsMtc))
      (.goOn s (.issue caId (.persisting (certRow caId cert none) none)))
  | append {caId cert issueAsMtc leaf} (hleaf : env.leafOf caId cert = some leaf) :
      Moves env s input (.issue caId (.appending cert issueAsMtc))
        (.goOn (s.appendLeaf caId leaf)
          (.issue caId (afterAppend caId cert issueAsMtc (s.logs caId).length leaf)))
  | build {caId cert index leaf row standalone}
      (hrow : env.standaloneRow (s.logs caId) caId cert index leaf = some (row, standalone)) :
      Moves env s input (.issue caId (.proving cert index leaf))
        (.goOn s (.issue caId (.persisting row (some standalone))))
  | persist {caId row standalone s'} (hinsert : Certs.insert s row = some s') :
      Moves env s input (.issue caId (.persisting row standalone))
        ⟨s', standalone.toList.map fun c ↦ .issue caId (.storing row.id c), none⟩
  | store {caId certId standalone} : Moves env s input (.issue caId (.storing certId standalone))
      (.idle (Certs.setMtcStandaloneDer s certId standalone))
  | size {caId} : Moves env s input (.checkpoint caId .start)
      (.goOn s (.checkpoint caId (.sized (s.logs caId).length)))
  | compare {caId treeSize prev} : Moves env s input (.checkpoint caId (.sized treeSize))
      (.goOn s (.checkpoint caId (.behind treeSize prev)))
  | select {caId treeSize prev} : Moves env s input (.checkpoint caId (.behind treeSize prev))
      (.goOn s (.checkpoint caId (.selected prev (Certs.getPendingStandalone s treeSize))))
  | prove {caId prev pending m signing p} (hsigning : env.signing caId = some (m, signing))
      (hprove : prove env.library m signing (s.logs caId) prev pending input.now = .ok p) :
      Moves env s input (.checkpoint caId (.selected prev pending))
        (.goOn s (.checkpoint caId (.proved p)))
  | record {caId p} : Moves env s input (.checkpoint caId (.proved p))
      (.goOn (Checkpoints.upsert s (checkpointRow caId p)) (.checkpoint caId (.recorded p)))
  | assemble {caId p m signing cosignatures certs}
      (hsigning : env.signing caId = some (m, signing))
      (hassemble : assemble env.library m signing input.replies p = .ok (cosignatures, certs)) :
      Moves env s input (.checkpoint caId (.recorded p))
        (.goOn s (.checkpoint caId (.storing cosignatures certs)))
  | passOver {caId cosignatures c rest} :
      Moves env s input (.checkpoint caId (.storing cosignatures (c :: rest)))
        (.goOn s (.checkpoint caId (.storing cosignatures rest)))
  | storeNext {caId cosignatures certId cert rest} :
      Moves env s input (.checkpoint caId (.storing cosignatures ((certId, cert) :: rest)))
        ⟨Certs.setMtcStandaloneDer s certId cert, [.checkpoint caId (.storing cosignatures rest)],
          some (.standaloneStored certId cosignatures cert)⟩
  | sizeLandmark {caId keepCount} : Moves env s input (.landmark caId keepCount .start)
      (.goOn s (.landmark caId keepCount (.sized (s.logs caId).length)))
  | look {caId keepCount treeSize}
      (hlatest : ∀ latest ∈ Landmarks.getLatest s caId, latest.treeSize < treeSize) :
      Moves env s input (.landmark caId keepCount (.sized treeSize))
        (.goOn s (.landmark caId keepCount (.behind treeSize)))
  | represent {caId keepCount treeSize row index}
      (hrow : Certs.getRepresentativeForLandmark s treeSize = some (row, index)) :
      Moves env s input (.landmark caId keepCount (.behind treeSize))
        (.goOn s (.landmark caId keepCount (.represented treeSize row index)))
  | insert {caId keepCount treeSize row index landmarkId s'}
      (hinsert : Landmarks.insert s caId treeSize input.now = some s') :
      Moves env s input (.landmark caId keepCount (.represented treeSize row index))
        (.goOn s' (.landmark caId keepCount (.inserted treeSize row index landmarkId)))
  | buildLandmark {caId keepCount treeSize row index landmarkId m signing cert}
      (hsigning : env.signing caId = some (m, signing))
      (hbuild : buildLandmarkCert env.library m signing (hashRange (s.logs caId) 0 treeSize)
        treeSize index row.der = .ok cert) :
      Moves env s input (.landmark caId keepCount (.inserted treeSize row index landmarkId))
        ⟨s, [.landmark caId keepCount (.built landmarkId cert)],
          some (.landmarkBuilt row.id cert)⟩
  | certify {caId keepCount landmarkId cert} :
      Moves env s input (.landmark caId keepCount (.built landmarkId cert))
        (.goOn (Landmarks.setCertDer s landmarkId cert) (.landmark caId keepCount .certified))
  | prune {caId keepCount} : Moves env s input (.landmark caId keepCount .certified)
      (.idle (Landmarks.pruneOldest s caId keepCount))
  | refuse {caId stage e} : Moves env s input (.inclusionProof caId stage) (.answer s (.refused e))
  | find {caId certId row} (hrow : s.certs.find? certId = some row) :
      Moves env s input (.inclusionProof caId (.start certId))
        (.goOn s (.inclusionProof caId (.found row)))
  | serve {caId row index m proof} (hm : env.mtc caId = some m)
      (hindex : row.mtcLogIndex = some index)
      (hproof : env.library.generateProof m.algorithm (s.logs caId) index = .ok proof) :
      Moves env s input (.inclusionProof caId (.found row))
        (.answer s (.proofServed row.id ⟨index, (s.logs caId).length, proof⟩))

/-- What an arrival can do. -/
inductive Enters (s : Server) : Result Server Task Output → Prop where
  | idle : Enters s (.idle s)
  | issue {caId cert issueAsMtc} : Enters s (.goOn s (.issue caId (.appending cert issueAsMtc)))
  | checkpoint {caId} : Enters s (.goOn s (.checkpoint caId .start))
  | landmark {caId keepCount} : Enters s (.goOn s (.landmark caId keepCount .start))
  | inclusionProof {caId certId} : Enters s (.goOn s (.inclusionProof caId (.start certId)))
  | refuse : Enters s (.answer s (.refused .notFound))
  | prune {caId keepCount} : Enters s (.idle (Checkpoints.pruneOldest s caId keepCount))

section Moves

variable {env : MtcEnv} {s : Server} {input : Input} {caId : String}
  {m : MtcState env.library.scheme} {signing : SigningConfig env.library.scheme}

theorem moves_issueWithoutEntry (cert : Issued) (issueAsMtc : Bool) :
    Moves env s input (.issue caId (.appending cert issueAsMtc))
      (issueWithoutEntry s caId cert issueAsMtc) := by
  unfold issueWithoutEntry
  split
  · exact .idle
  · exact .skipLog

theorem moves_issueStep (stage : IssueStage) :
    Moves env s input (.issue caId stage) (issueStep env s caId input stage) := by
  cases stage with
  | appending cert issueAsMtc =>
    dsimp only [issueStep]
    split
    · exact moves_issueWithoutEntry cert issueAsMtc
    · split
      · exact moves_issueWithoutEntry cert issueAsMtc
      · exact .append ‹_›
  | proving =>
    dsimp only [issueStep]
    split
    · exact .idle
    · exact .build ‹_›
  | persisting =>
    dsimp only [issueStep]
    split
    · exact .idle
    · exact .persist ‹_›
  | storing =>
    dsimp only [issueStep]
    split
    · exact .idle
    · exact .store

theorem moves_checkpointStep (hsigning : env.signing caId = some (m, signing))
    (stage : CheckpointStage) : Moves env s input (.checkpoint caId stage)
      (checkpointStep env.library m signing s caId input stage) := by
  unfold checkpointStep
  split
  · exact .idle
  · split
    · exact .passOver
    · exact .storeNext
  · split
    · exact .idle
    · split
      · dsimp only
        split
        · exact .idle
        · exact .size
      · split
        · exact .compare
        · split
          · exact .idle
          · exact .compare
      · exact .select
      · split
        · exact .idle
        · exact .prove hsigning ‹_›
      · exact .record
      · split
        · exact .idle
        · exact .assemble hsigning ‹_›
      · exact .idle

theorem moves_landmarkStep (hsigning : env.signing caId = some (m, signing)) (keepCount : ℕ)
    (stage : LandmarkStage) : Moves env s input (.landmark caId keepCount stage)
      (landmarkStep env.library m signing s caId keepCount input stage) := by
  unfold landmarkStep
  split
  · exact .idle
  cases stage with
  | start =>
    dsimp only
    split
    · exact .idle
    · exact .sizeLandmark
  | sized =>
    dsimp only
    split
    · exact .idle
    · rename_i hlatest
      refine .look fun latest hlt ↦ ?_
      rw [mem_def] at hlt
      simpa [hlt] using hlatest
  | behind =>
    dsimp only
    split
    · exact .idle
    · exact .represent ‹_›
  | represented =>
    dsimp only
    split
    · exact .idle
    · split
      · exact .idle
      · exact .insert ‹_›
  | inserted =>
    dsimp only
    split
    · exact .idle
    · exact .buildLandmark hsigning ‹_›
  | built =>
    dsimp only
    split
    · exact .certify
    · exact .idle
  | certified => exact .prune

theorem moves_inclusionProofStep (hm : env.mtc caId = some m) (stage : ProofStage) :
    Moves env s input (.inclusionProof caId stage)
      (inclusionProofStep env.library m s caId stage) := by
  cases stage with
  | start =>
    dsimp only [inclusionProofStep]
    split
    · exact .refuse
    · exact .find ‹_›
  | found =>
    dsimp only [inclusionProofStep]
    split
    · exact .refuse
    · split
      · exact .refuse
      · exact .serve hm ‹_› ‹_›

theorem moves_act (env : MtcEnv) (s : Server) (t : Task) (input : Input) :
    Moves env s input t (act env s t input) := by
  cases t with
  | issue caId stage => exact moves_issueStep stage
  | checkpoint caId stage =>
    dsimp only [act]
    cases hsigning : env.signing caId with
    | none => exact .idle
    | some => exact moves_checkpointStep hsigning stage
  | landmark caId keepCount stage =>
    dsimp only [act]
    cases hsigning : env.signing caId with
    | none => exact .idle
    | some => exact moves_landmarkStep hsigning keepCount stage
  | inclusionProof caId stage =>
    dsimp only [act]
    cases hm : env.mtc caId with
    | none => exact .idle
    | some => exact moves_inclusionProofStep hm stage

theorem enters_arrive (env : MtcEnv) (s : Server) (a : Arrival) : Enters s (arrive env s a) := by
  cases a with
  | issue => exact .issue
  | checkpoint =>
    dsimp only [arrive]
    split
    · exact .checkpoint
    · exact .idle
  | landmark =>
    dsimp only [arrive]
    split
    · exact .landmark
    · exact .idle
  | inclusionProof =>
    dsimp only [arrive]
    split
    · exact .inclusionProof
    · exact .refuse
  | pruneCheckpoints => exact .prune

end Moves

namespace TwoLogs

def library : MtcLibrary where
  scheme := CosignExample.scheme
  encodeOid oid := oid.map UInt8.ofNat
  checkpointDer _ := []
  tbsOf der := .ok der
  buildX509 _ := .ok ()
  standaloneDer cert := cert.tbs
  leafHash _ _ der := .ok der
  computeRoot _ leaves := .ok leaves.flatten
  generateProof _ leaves index :=
    if index < leaves.length then .ok (leaves.eraseIdx index) else .error "leaf index out of range"
  generateSubtreeHash _ leaves := .ok leaves.flatten
  generateInclusionProof _ index leaves :=
    if index < leaves.length then .ok (leaves.eraseIdx index) else .error "leaf index out of range"

def env : MtcEnv where
  library := library
  mtc caId :=
    if caId = "a" ∨ caId = "b" then
      some {
        algorithm := .sha256, signing := some ⟨(), "sha256"⟩, cosignerClients := [], logNumber := 1,
        treeMinimumIndex := none, trustAnchorId := none, tlogOrigin := none }
    else none

def start : Pool Server Task := fresh fun _ ↦ [[0]]

/-- Append a certificate to the log of a CA and store its row, as the only
step of anybody's when `i` tasks are under way. -/
def issue (i : ℕ) (caId id : String) (der : UInt8) : List (Move Arrival Input) :=
  [.arrive (.issue caId ⟨id, [der]⟩ false), .advance i {}, .advance i {}]

end TwoLogs

end Akamu.Mtc
