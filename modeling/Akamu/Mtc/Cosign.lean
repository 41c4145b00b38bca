import Akamu.Lib.Framing
import Akamu.Mtc.Tiles

/-!
# Cosignatures

Two programs build the octets that a cosigner signs: the cosigner itself
(`akamu-cosigner`, `post_sign`) and the server when it checks what the cosigner
returns (`mtc/cosign.rs`).  Both call `build_cosigned_message`; the origin they
pass to it comes from different places.
-/

namespace Akamu.Mtc

open Except Framing List

/-! ## Values on the wire -/

inductive HashAlgorithm where
  | sha256
  | sha384
  | sha512
  | sha3_256
  | sha3_384
  | sha3_512
  deriving DecidableEq, Repr

/-- `hash_algorithm_to_oid`, in dotted decimal. -/
def HashAlgorithm.oid : HashAlgorithm → String
  | .sha256 => "2.16.840.1.101.3.4.2.1"
  | .sha384 => "2.16.840.1.101.3.4.2.2"
  | .sha512 => "2.16.840.1.101.3.4.2.3"
  | .sha3_256 => "2.16.840.1.101.3.4.2.8"
  | .sha3_384 => "2.16.840.1.101.3.4.2.9"
  | .sha3_512 => "2.16.840.1.101.3.4.2.10"

/-- The components of a `RELATIVE-OID`. -/
abbrev RelativeOid := List ℕ

def dotted (oid : RelativeOid) : String := ".".intercalate (oid.map toString)

structure LogId where
  hashAlgorithm : HashAlgorithm
  publicKey : List UInt8
  deriving DecidableEq, Repr

structure Checkpoint where
  logId : LogId
  treeSize : Int
  treeMinimumIndex : Option Int
  rootValue : Hash
  timestamp : Int
  deriving DecidableEq, Repr

/-- The leaves from `start` to `stop` and their tree hash. -/
structure Subtree where
  start : Int
  stop : Int
  value : Hash
  deriving DecidableEq, Repr

structure SubtreeSignature where
  cosigner : RelativeOid
  subtree : Subtree
  checkpoint : Checkpoint
  signatureAlgorithm : List UInt8
  signature : List UInt8
  deriving DecidableEq, Repr

/-- `Integer::as_u64` -/
def asU64 (n : Int) : Option ℕ := if 0 ≤ n ∧ n < 2 ^ 64 then some n.toNat else none

/-- `"subtree/v1\n\0"` -/
def label : List UInt8 := [115, 117, 98, 116, 114, 101, 101, 47, 118, 49, 10, 0]

def cosignerName (cosigner : RelativeOid) : String := "oid/" ++ dotted cosigner

def buildCosignedMessage (cosigner : RelativeOid) (subtree : Subtree) (checkpoint : Checkpoint)
    (logOrigin : String) : Except String (List UInt8) := do
  let name := utf8 (cosignerName cosigner)
  if 255 < name.length then throw "cosigner_name too long for CosignedMessage"
  let origin := utf8 logOrigin
  if 255 < origin.length then throw "log_origin too long for CosignedMessage"
  let timestamp := checkpoint.timestamp.toNat
  let start ← (asU64 subtree.start).elim (throw "subtree start overflows u64") pure
  let stop ← (asU64 subtree.stop).elim (throw "subtree end overflows u64") pure
  return label ++ (field name ++ (word64 timestamp ++ (field origin ++
    (word64 start ++ (word64 stop ++ subtree.value)))))

/-! ## Signatures -/

structure SignatureScheme where
  Key : Type
  spkiDer : Key → List UInt8
  spkiDer_ne_nil : ∀ key, spkiDer key ≠ []
  /-- `signing_algorithm_der` for a key and the name of a hash. -/
  algorithmDer : Key → String → Option (List UInt8)
  signTbs : Key → String → List UInt8 → Except String (List UInt8)
  /-- `verify_certificate_signature` of signed data, algorithm, signature and
  public key. -/
  verify : List UInt8 → List UInt8 → List UInt8 → List UInt8 → Except String Unit

/-- A signature verifies for what was signed and for nothing else. -/
def SignatureScheme.Correct (S : SignatureScheme) : Prop :=
  ∀ key hashAlg alg message signature, S.algorithmDer key hashAlg = some alg →
    S.signTbs key hashAlg message = .ok signature →
    ∀ message', S.verify message' alg signature (S.spkiDer key) = .ok () ↔ message' = message

/-! ## The cosigner -/

inductive CosignerError where
  | badRequest (detail : String)
  | asn1 (detail : String)
  | crypto (detail : String)
  deriving DecidableEq, Repr

structure CosignerState (S : SignatureScheme) where
  signingKey : S.Key
  hashAlg : String
  sigAlgDer : List UInt8
  cosignerOid : RelativeOid
  sigAlg_eq : S.algorithmDer signingKey hashAlg = some sigAlgDer

variable {S : SignatureScheme}

def fullSubtree (checkpoint : Checkpoint) : Except CosignerError Subtree :=
  match asU64 checkpoint.treeSize with
  | none => .error (.badRequest "tree_size out of range")
  | some 0 => .error (.badRequest "tree_size must be > 0")
  | some n => .ok ⟨0, n, checkpoint.rootValue⟩

/-- The octets that `post_sign` signs.  The origin is made from the hash
algorithm of the log. -/
def signedMessage (st : CosignerState S) (checkpoint : Checkpoint) (subtree : Subtree) :
    Except CosignerError (List UInt8) :=
  (buildCosignedMessage st.cosignerOid subtree checkpoint
    ("oid/" ++ checkpoint.logId.hashAlgorithm.oid)).mapError
      fun e ↦ .asn1 ("build CosignedMessage: " ++ e)

def postSign (st : CosignerState S) (checkpoint : Checkpoint) :
    Except CosignerError SubtreeSignature := do
  let subtree ← fullSubtree checkpoint
  let message ← signedMessage st checkpoint subtree
  let signature ← (S.signTbs st.signingKey st.hashAlg message).mapError
    fun e ↦ CosignerError.crypto ("sign CosignedMessage: " ++ e)
  return {
    cosigner := st.cosignerOid, subtree := subtree, checkpoint := checkpoint,
    signatureAlgorithm := st.sigAlgDer, signature := signature }

/-! ## The server -/

structure CosignerVerifier where
  expectedCosignerOid : Option RelativeOid
  spkiDer : List UInt8
  deriving DecidableEq, Repr

def CosignerVerifier.verifyCosignature (S : SignatureScheme) (v : CosignerVerifier)
    (cosignerId : RelativeOid) (algorithm signedData signature : List UInt8) :
    Except String Unit :=
  if v.expectedCosignerOid.isNone && v.spkiDer.isEmpty then
    .error "AkamuCosignerVerifier has no identity or key check configured"
  else if v.expectedCosignerOid.any (· != cosignerId) then
    .error "SubtreeSignature cosigner TrustAnchorID OID does not match expected"
  else
    (S.verify signedData algorithm signature v.spkiDer).mapError
      fun e ↦ "cosignature cryptographic verification failed: " ++ e

/-- A quorum of one: the signed octets are built again from the response and
the origin of the log. -/
def verifySubtreeSignature (S : SignatureScheme) (response : SubtreeSignature)
    (v : CosignerVerifier) (logOrigin : String) : Except String Unit :=
  (do
    let message ← buildCosignedMessage response.cosigner response.subtree response.checkpoint
      logOrigin
    v.verifyCosignature S response.cosigner response.signatureAlgorithm message
      response.signature).mapError fun e ↦ "cosignature verification failed: " ++ e

/-- A log with the texts of its configuration. -/
structure CaLog where
  algorithm : HashAlgorithm
  spkiDer : List UInt8
  trustAnchorId : String
  logNumber : ℕ
  treeMinimumIndex : Option ℕ
  deriving DecidableEq, Repr

/-- `tlog_origin`, as the server sets it at its start. -/
def CaLog.origin (log : CaLog) : String :=
  "oid/1.3.6.1.4.1." ++ log.trustAnchorId ++ ".0." ++ toString log.logNumber

/-- `build_checkpoint_der` -/
def CaLog.checkpoint (log : CaLog) (treeSize : ℕ) (root : Hash) (now : Int) : Checkpoint where
  logId := ⟨log.algorithm, log.spkiDer⟩
  treeSize := treeSize
  treeMinimumIndex := log.treeMinimumIndex.map Int.ofNat
  rootValue := root
  timestamp := now

structure CosignerVerifier.PinnedTo (v : CosignerVerifier) (st : CosignerState S) : Prop where
  spkiDer_eq : v.spkiDer = S.spkiDer st.signingKey
  oid_eq : ∀ oid ∈ v.expectedCosignerOid, oid = st.cosignerOid

/-! ## Agreement -/

def layout (name : List UInt8) (timestamp : ℕ) (origin : List UInt8) (start stop : ℕ)
    (hash : List UInt8) : List UInt8 :=
  label ++ (field name ++ (word64 timestamp ++ (field origin ++
    (word64 start ++ (word64 stop ++ hash)))))

variable {checkpoint : Checkpoint} {v : CosignerVerifier} {st : CosignerState S}

theorem buildCosignedMessage_eq_ok {cosigner : RelativeOid} {subtree : Subtree} {origin : String}
    {message : List UInt8} :
    buildCosignedMessage cosigner subtree checkpoint origin = .ok message ↔
      (utf8 (cosignerName cosigner)).length ≤ 255 ∧ (utf8 origin).length ≤ 255 ∧
        ∃ start stop, asU64 subtree.start = some start ∧ asU64 subtree.stop = some stop ∧
          message = layout (utf8 (cosignerName cosigner)) checkpoint.timestamp.toNat (utf8 origin)
            start stop subtree.value := by
  unfold buildCosignedMessage
  dsimp only
  constructor
  · intro h
    split at h
    · cases h
    rename_i hname
    split at h
    · cases h
    rename_i horigin
    cases hstart : asU64 subtree.start with
    | none =>
      rw [hstart] at h
      cases h
    | some start =>
      cases hstop : asU64 subtree.stop with
      | none =>
        rw [hstart, hstop] at h
        cases h
      | some stop =>
        simp only [hstart, hstop] at h
        cases h
        exact ⟨Nat.not_lt.mp hname, Nat.not_lt.mp horigin, start, stop, rfl, rfl, rfl⟩
  · rintro ⟨hname, horigin, start, stop, hstart, hstop, rfl⟩
    rw [if_neg (Nat.not_lt.mpr hname), if_neg (Nat.not_lt.mpr horigin), hstart, hstop]
    rfl

theorem buildCosignedMessage_origin_inj {cosigner cosigner' : RelativeOid}
    {subtree subtree' : Subtree} {checkpoint' : Checkpoint} {origin origin' : String}
    {message : List UInt8}
    (h : buildCosignedMessage cosigner subtree checkpoint origin = .ok message)
    (h' : buildCosignedMessage cosigner' subtree' checkpoint' origin' = .ok message) :
    origin = origin' := by
  obtain ⟨hname, horigin, start, stop, -, -, rfl⟩ := buildCosignedMessage_eq_ok.mp h
  obtain ⟨hname', horigin', start', stop', -, -, heq⟩ := buildCosignedMessage_eq_ok.mp h'
  obtain ⟨-, heq⟩ := field_append_inj hname hname' (append_cancel_left heq)
  obtain ⟨-, heq⟩ := append_inj heq (by simp)
  exact utf8_injective (field_append_inj horigin horigin' heq).1

theorem verifyCosignature_eq (hpinned : v.PinnedTo st)
    (algorithm signedData signature : List UInt8) :
    v.verifyCosignature S st.cosignerOid algorithm signedData signature =
      (S.verify signedData algorithm signature (S.spkiDer st.signingKey)).mapError
        fun e ↦ "cosignature cryptographic verification failed: " ++ e := by
  have hkey : v.spkiDer.isEmpty = false := by
    rw [hpinned.spkiDer_eq, isEmpty_eq_false_iff]
    exact S.spkiDer_ne_nil st.signingKey
  have hoid : v.expectedCosignerOid.any (· != st.cosignerOid) = false := by
    cases hexpected : v.expectedCosignerOid with
    | none => rfl
    | some oid => simp [hpinned.oid_eq oid hexpected]
  rw [CosignerVerifier.verifyCosignature, hkey, Bool.and_false, if_neg (by simp), hoid,
    if_neg (by simp), hpinned.spkiDer_eq]

/-- What a cosigner returns is accepted for the origin it has made up, and for
no other. -/
theorem verify_postSign_iff (hS : S.Correct) (hpinned : v.PinnedTo st)
    {response : SubtreeSignature} (h : postSign st checkpoint = .ok response) (origin : String) :
    verifySubtreeSignature S response v origin = .ok () ↔
      origin = "oid/" ++ checkpoint.logId.hashAlgorithm.oid := by
  obtain ⟨subtree, -, h⟩ := bind_eq_ok h
  obtain ⟨message, hmessage, h⟩ := bind_eq_ok h
  obtain ⟨signature, hsignature, h⟩ := bind_eq_ok h
  cases h
  have hbuilt := mapError_eq_ok_iff.mp hmessage
  have hverify := hS _ _ _ message signature st.sigAlg_eq (mapError_eq_ok_iff.mp hsignature)
  rw [verifySubtreeSignature, mapError_eq_ok_iff]
  constructor
  · intro haccepted
    obtain ⟨message', hbuilt', haccepted⟩ := bind_eq_ok haccepted
    rw [verifyCosignature_eq hpinned, mapError_eq_ok_iff, hverify] at haccepted
    subst haccepted
    exact buildCosignedMessage_origin_inj hbuilt' hbuilt
  · rintro rfl
    rw [hbuilt]
    change v.verifyCosignature S _ _ _ _ = _
    rw [verifyCosignature_eq hpinned, mapError_eq_ok_iff, hverify]

theorem CaLog.origin_eq (log : CaLog) : log.origin =
    "oid/1.3.6.1.4.1." ++ log.trustAnchorId ++ ".0." ++ toString log.logNumber := rfl

theorem CaLog.origin_ne (log : CaLog) (algorithm : HashAlgorithm) :
    log.origin ≠ "oid/" ++ algorithm.oid := by
  intro h
  rw [log.origin_eq] at h
  have hlist := congrArg String.toList h
  cases algorithm <;> simp [HashAlgorithm.oid] at hlist

theorem HashAlgorithm.oid_injective : Function.Injective HashAlgorithm.oid := by
  intro a b h
  cases a <;> cases b <;> first | rfl | (simp [HashAlgorithm.oid] at h)

/-- Whatever the configuration of a log, its server rejects every cosignature
that a cosigner returns for one of its checkpoints, and the cosigner signs the
same octets for it as for every other log with its hash algorithm. -/
theorem cosignatures_never_accepted (hS : S.Correct) (log : CaLog) :
    (∀ (treeSize : ℕ) (root : Hash) (now : Int) (st : CosignerState S) (v : CosignerVerifier)
        (response : SubtreeSignature), 0 < treeSize → v.PinnedTo st →
      postSign st (log.checkpoint treeSize root now) = .ok response →
      verifySubtreeSignature S response v log.origin ≠ .ok ()) ∧
    ∀ (other : CaLog) (st : CosignerState S) (treeSize : ℕ) (root : Hash) (now : Int)
        (subtree : Subtree) (message : List UInt8),
      signedMessage st (log.checkpoint treeSize root now) subtree = .ok message →
      (signedMessage st (other.checkpoint treeSize root now) subtree = .ok message ↔
        other.algorithm = log.algorithm) := by
  constructor
  · intro treeSize root now st v response _ hpinned hresponse haccepted
    exact log.origin_ne _ ((verify_postSign_iff hS hpinned hresponse log.origin).mp haccepted)
  · intro other st treeSize root now subtree message hmessage
    constructor
    · intro hother
      have horigin := buildCosignedMessage_origin_inj (mapError_eq_ok_iff.mp hother)
        (mapError_eq_ok_iff.mp hmessage)
      exact HashAlgorithm.oid_injective (String.append_right_inj _ |>.mp horigin)
    · intro halgorithm
      change (buildCosignedMessage _ _ (other.checkpoint treeSize root now)
        ("oid/" ++ other.algorithm.oid)).mapError _ = _
      rw [halgorithm]
      exact hmessage

namespace CosignExample

def scheme : SignatureScheme where
  Key := Unit
  spkiDer _ := [1]
  spkiDer_ne_nil _ := by simp
  algorithmDer _ _ := some [2]
  signTbs _ _ message := .ok message
  verify message _ signature _ :=
    if message = signature then .ok () else .error "signature mismatch"

theorem scheme_correct : scheme.Correct := by
  intro key hashAlg alg message signature _ hsigned message'
  cases hsigned
  change (if _ then _ else _) = _ ↔ _
  split_ifs with h
  · exact iff_of_true rfl h
  · exact iff_of_false (by simp) h

def cosigner : CosignerState scheme where
  signingKey := ()
  hashAlg := "sha256"
  sigAlgDer := [2]
  cosignerOid := [32473, 1]
  sigAlg_eq := rfl

def pinned : CosignerVerifier := ⟨some [32473, 1], [1]⟩

theorem pinned_to : pinned.PinnedTo cosigner where
  spkiDer_eq := rfl
  oid_eq _ hoid := by
    cases hoid
    rfl

def firstLog : CaLog := ⟨.sha256, [3], "32473.2", 1, none⟩

def secondLog : CaLog := ⟨.sha256, [4], "32473.2", 2, none⟩

/-- The server rejects a cosignature over a log with an origin of its own, and
the cosigner signs the same octets for two such logs. -/
theorem own_origin_rejected :
    ((postSign cosigner (firstLog.checkpoint 1 [7] 5)).map fun response ↦
      verifySubtreeSignature scheme response pinned firstLog.origin) =
        .ok (.error ("cosignature verification failed: " ++
          "cosignature cryptographic verification failed: signature mismatch")) ∧
      firstLog.origin ≠ secondLog.origin ∧
      signedMessage cosigner (firstLog.checkpoint 1 [7] 5) ⟨0, 1, [7]⟩ =
        signedMessage cosigner (secondLog.checkpoint 1 [7] 5) ⟨0, 1, [7]⟩ := by
  decide +kernel

def message : List UInt8 :=
  label ++ (field (utf8 "oid/32473.1") ++ (word64 5 ++ (field (utf8 "oid/2.16.840.1.101.3.4.2.1") ++
    (word64 0 ++ (word64 1 ++ [7])))))

def response : SubtreeSignature where
  cosigner := [32473, 1]
  subtree := ⟨0, 1, [7]⟩
  checkpoint := firstLog.checkpoint 1 [7] 5
  signatureAlgorithm := [2]
  signature := message

theorem first_log_never_accepted :
    postSign cosigner (firstLog.checkpoint 1 [7] 5) = .ok response ∧
      verifySubtreeSignature scheme response pinned firstLog.origin ≠ .ok () ∧
      signedMessage cosigner (secondLog.checkpoint 1 [7] 5) ⟨0, 1, [7]⟩ = .ok message := by
  obtain ⟨hrejected, hsame⟩ := cosignatures_never_accepted scheme_correct firstLog
  have hsigned : postSign cosigner (firstLog.checkpoint 1 [7] 5) = .ok response := by
    decide +kernel
  refine ⟨hsigned, hrejected 1 [7] 5 cosigner pinned response (by decide) pinned_to hsigned, ?_⟩
  exact (hsame secondLog cosigner 1 [7] 5 ⟨0, 1, [7]⟩ message (by decide +kernel)).mpr rfl

end CosignExample

/-! ## The builder of `tlog.rs` -/

def buildMlDsaCosignedMessage (cosignerName : String) (timestamp : UInt64) (logOrigin : String)
    (start stop : UInt64) (rootHash : List UInt8) : Except AcmeError (List UInt8) := do
  let name := utf8 cosignerName
  let origin := utf8 logOrigin
  if 255 < name.length then throw (.mtc "cosigner_name exceeds 255 bytes")
  if 255 < origin.length then throw (.mtc "log_origin exceeds 255 bytes")
  if rootHash.length ∉ [32, 48, 64] then
    throw (.mtc ("root_hash must be 32, 48, or 64 bytes, got " ++ toString rootHash.length))
  if timestamp ≠ 0 ∧ start ≠ 0 then
    throw (.mtc "ML-DSA-44 cosigned_message: timestamp and start cannot both be non-zero")
  return layout name timestamp.toNat origin start.toNat stop.toNat rootHash

/-- What both builders can be asked for: the name is that of an object
identifier, and the time comes from a checkpoint. -/
structure Cosigned where
  cosigner : RelativeOid
  checkpoint : Checkpoint
  origin : String
  start : UInt64
  stop : UInt64
  hash : List UInt8
  timestamp_lt : checkpoint.timestamp < 2 ^ 63

namespace Cosigned

variable {c d : Cosigned} {m : List UInt8}

def timestamp (c : Cosigned) : UInt64 := UInt64.ofNat c.checkpoint.timestamp.toNat

def wire (c : Cosigned) : Except String (List UInt8) :=
  buildCosignedMessage c.cosigner ⟨c.start.toNat, c.stop.toNat, c.hash⟩ c.checkpoint c.origin

def mlDsa (c : Cosigned) : Except AcmeError (List UInt8) :=
  buildMlDsaCosignedMessage (cosignerName c.cosigner) c.timestamp c.origin c.start c.stop c.hash

def fields (c : Cosigned) : String × UInt64 × String × UInt64 × UInt64 × List UInt8 :=
  (cosignerName c.cosigner, c.timestamp, c.origin, c.start, c.stop, c.hash)

/-- The checks that only `build_ml_dsa_cosigned_message` makes. -/
structure Regular (c : Cosigned) : Prop where
  hash : c.hash.length ∈ [32, 48, 64]
  exclusive : c.timestamp = 0 ∨ c.start = 0

def Short (c : Cosigned) : Prop :=
  (utf8 (cosignerName c.cosigner)).length ≤ 255 ∧ (utf8 c.origin).length ≤ 255

def message (c : Cosigned) : List UInt8 :=
  layout (utf8 (cosignerName c.cosigner)) c.timestamp.toNat (utf8 c.origin) c.start.toNat
    c.stop.toNat c.hash

theorem asU64_toNat (n : UInt64) : asU64 (n.toNat : Int) = some n.toNat := by
  have hlt : n.toNat < 2 ^ 64 := n.toNat_lt
  rw [asU64, if_pos (by omega), Int.toNat_natCast]

theorem timestamp_toNat (c : Cosigned) : c.timestamp.toNat = c.checkpoint.timestamp.toNat := by
  have hlt := c.timestamp_lt
  rw [timestamp, UInt64.toNat_ofNat']
  omega

theorem wire_eq_ok : c.wire = .ok m ↔ c.Short ∧ m = c.message := by
  rw [wire, buildCosignedMessage_eq_ok, message, c.timestamp_toNat]
  simp only [asU64_toNat, Option.some.injEq, Short, and_assoc, exists_and_left, exists_eq_left']

theorem mlDsa_eq_ok : c.mlDsa = .ok m ↔ c.Short ∧ c.Regular ∧ m = c.message := by
  unfold mlDsa buildMlDsaCosignedMessage
  dsimp only
  constructor
  · intro h
    split at h
    · cases h
    rename_i hname
    split at h
    · cases h
    rename_i horigin
    split at h
    · cases h
    rename_i hhash
    split at h
    · cases h
    rename_i hexclusive
    cases h
    refine ⟨⟨Nat.not_lt.mp hname, Nat.not_lt.mp horigin⟩, ⟨not_not.mp hhash, ?_⟩, rfl⟩
    by_contra hboth
    exact hexclusive (not_or.mp hboth)
  · rintro ⟨⟨hname, horigin⟩, ⟨hhash, hexclusive⟩, rfl⟩
    rw [if_neg (Nat.not_lt.mpr hname), if_neg (Nat.not_lt.mpr horigin), if_neg (not_not.mpr hhash),
      if_neg (fun hboth ↦ hexclusive.elim hboth.1 hboth.2)]
    rfl

theorem fields_of_message (hc : c.Short) (hd : d.Short) (h : c.message = d.message) :
    c.fields = d.fields := by
  obtain ⟨hname, h⟩ := field_append_inj hc.1 hd.1 (append_cancel_left h)
  obtain ⟨htimestamp, h⟩ := append_inj h (by simp)
  obtain ⟨horigin, h⟩ := field_append_inj hc.2 hd.2 h
  obtain ⟨hstart, h⟩ := append_inj h (by simp)
  obtain ⟨hstop, hhash⟩ := append_inj h (by simp)
  have hword : ∀ {a b : UInt64}, word64 a.toNat = word64 b.toNat → a = b := fun {a b} hab ↦
    UInt64.toNat_inj.mp (word64_injective a.toNat_lt b.toNat_lt hab)
  rw [fields, fields, utf8_injective hname, hword htimestamp, utf8_injective horigin, hword hstart,
    hword hstop, hhash]

end Cosigned

/-- The builders are one format at this input: they accept it together and make
the same octets of it, no message has both a time and a start, and it is told
apart from every other input of either builder. -/
structure Cosigned.OneFormat (c : Cosigned) : Prop where
  same : ∀ m, c.wire = .ok m ↔ c.mlDsa = .ok m
  exclusive : ∀ m, c.wire = .ok m ∨ c.mlDsa = .ok m → c.timestamp = 0 ∨ c.start = 0
  injective : ∀ m (d : Cosigned), c.wire = .ok m ∨ c.mlDsa = .ok m →
    d.wire = .ok m ∨ d.mlDsa = .ok m → c.fields = d.fields

theorem Cosigned.message_of_ok {c : Cosigned} {m : List UInt8}
    (h : c.wire = .ok m ∨ c.mlDsa = .ok m) : c.Short ∧ m = c.message := by
  rcases h with h | h
  · exact Cosigned.wire_eq_ok.mp h
  · obtain ⟨hshort, -, hm⟩ := Cosigned.mlDsa_eq_ok.mp h
    exact ⟨hshort, hm⟩

/-- The two builders are one format exactly for what passes the checks of
`build_ml_dsa_cosigned_message` or is refused by both as too long. -/
theorem cosigned_messages_one_format (c : Cosigned) : c.OneFormat ↔ c.Regular ∨ ¬ c.Short := by
  constructor
  · intro h
    by_cases hshort : c.Short
    · have hwire : c.wire = .ok c.message := Cosigned.wire_eq_ok.mpr ⟨hshort, rfl⟩
      exact .inl (Cosigned.mlDsa_eq_ok.mp ((h.same _).mp hwire)).2.1
    · exact .inr hshort
  · intro h
    refine ⟨fun m ↦ ?_, fun m hm ↦ ?_, fun m d hm hd ↦ ?_⟩
    · rw [Cosigned.wire_eq_ok, Cosigned.mlDsa_eq_ok]
      refine and_congr_right fun hshort ↦ ?_
      exact (and_iff_right (h.resolve_right (not_not.mpr hshort))).symm
    · obtain ⟨hshort, -⟩ := Cosigned.message_of_ok hm
      exact (h.resolve_right (not_not.mpr hshort)).exclusive
    · obtain ⟨hshort, rfl⟩ := Cosigned.message_of_ok hm
      obtain ⟨hshort', heq⟩ := Cosigned.message_of_ok hd
      exact Cosigned.fields_of_message hshort hshort' heq

namespace CosignExample

/-- The leaves from `start` to 4 of a log, at the time of its checkpoint. -/
def part (start : UInt64) : Cosigned where
  cosigner := [32473, 1]
  checkpoint := firstLog.checkpoint 4 (List.replicate 32 7) 5
  origin := firstLog.origin
  start := start
  stop := 4
  hash := List.replicate 32 7
  timestamp_lt := by decide

/-- The cosigner signs a time for a subtree that does not begin with the log. -/
theorem timestamp_and_start_emitted :
    (part 2).wire = .ok (part 2).message ∧ (part 2).timestamp ≠ 0 ∧ (part 2).start ≠ 0 ∧
      (part 2).mlDsa = .error (.mtc
        "ML-DSA-44 cosigned_message: timestamp and start cannot both be non-zero") := by
  decide +kernel

theorem whole_log_one_format : (part 0).mlDsa = .ok (part 0).message := by
  have hregular : (part 0).Regular := ⟨by decide, .inr rfl⟩
  have hwire : (part 0).wire = .ok (part 0).message := by decide +kernel
  exact (((cosigned_messages_one_format (part 0)).mpr (.inl hregular)).same _).mp hwire

end CosignExample

end Akamu.Mtc
