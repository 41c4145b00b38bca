import Akamu.Jose.Jwk
import Akamu.Lib.Der

/-!
# Keys from SubjectPublicKeyInfo

`JwkPublic::from_public_key` against `to_spki_der`, and both against a reader of
the structure.
-/

namespace Akamu.Jose

open Base64Url Der Framing List Option
open Except (bind_eq_ok)

/-- A key of the backend, with what its accessors answer. -/
structure BackendPublicKey where
  keyType : String
  spkiDer : List UInt8
  ecCurveName : Except String (Option String)
  ecAffineCoordinates : Except String (Option (List UInt8 × List UInt8))
  rsaModulus : Except String (Option (List UInt8))
  rsaPublicExponent : Except String (Option (List UInt8))

def padCoord (v : List UInt8) (size : ℕ) : String :=
  Base64Url.encode (List.replicate (size - v.length) 0 ++ v.drop (v.length - size))

def component {α : Type} (missing : String) : Except String (Option α) → Except JoseError α
  | .error e => .error (.crypto e)
  | .ok none => .error (.crypto missing)
  | .ok (some a) => .ok a

def ecCurve : String → Except JoseError (String × ℕ)
  | "P-256" | "prime256v1" => .ok ("P-256", 32)
  | "P-384" | "secp384r1" => .ok ("P-384", 48)
  | "P-521" | "secp521r1" => .ok ("P-521", 66)
  | other => .error (.unsupportedAlgorithm ("unsupported EC curve: " ++ other))

namespace JwkPublic

def empty (kty : String) : JwkPublic := ⟨kty, none, none, none, none, none, none, none⟩

def fromEdwards (crv : String) (size : ℕ) (spki : List UInt8) : Except JoseError JwkPublic :=
  if spki.length < 12 + size then .error (.crypto (crv ++ " SPKI DER too short"))
  else .ok { empty "OKP" with crv := some crv, x := some (Base64Url.encode (spki.drop 12)) }

def mlDsaOidPrefix : List UInt8 := [0x60, 0x86, 0x48, 0x01, 0x65, 0x03, 0x04, 0x03]

def mlDsaVariant : UInt8 → Option (String × ℕ)
  | 0x11 => some ("ML-DSA-44", 1312)
  | 0x12 => some ("ML-DSA-65", 1952)
  | 0x13 => some ("ML-DSA-87", 2592)
  | _ => none

def fromMlDsa (spki : List UInt8) : Except JoseError JwkPublic :=
  if 17 < spki.length ∧ (spki.drop 8).take 8 = mlDsaOidPrefix then
    match mlDsaVariant (spki.getD 16 0) with
    | none => .error (.unsupportedAlgorithm ("unknown ML-DSA OID variant: 0x" ++
        String.ofList ((Nat.toDigits 16 (spki.getD 16 0).toNat).leftpad 2 '0')))
    | some (alg, size) =>
      if spki.length ≠ 22 + size then
        .error (.crypto ("ML-DSA SPKI length " ++ toString spki.length ++ " is wrong for " ++ alg))
      else .ok { empty "AKP" with
        alg := some alg, pubKey := some (Base64Url.encode (spki.drop 22)) }
  else .error (.unsupportedAlgorithm "unknown public key type")

def fromPublicKey (key : BackendPublicKey) : Except JoseError JwkPublic :=
  match key.keyType with
  | "ec" => do
      let crvRaw ← component "EC key has no curve name" key.ecCurveName
      let (crv, size) ← ecCurve crvRaw
      let (x, y) ← component "EC key has no affine coordinates" key.ecAffineCoordinates
      return { empty "EC" with
        crv := some crv, x := some (padCoord x size), y := some (padCoord y size) }
  | "rsa" => do
      let n ← component "RSA key has no modulus" key.rsaModulus
      let e ← component "RSA key has no public exponent" key.rsaPublicExponent
      return { empty "RSA" with
        n := some (Base64Url.encode n), e := some (Base64Url.encode e) }
  | "ed25519" => fromEdwards "Ed25519" 32 key.spkiDer
  | "ed448" => fromEdwards "Ed448" 57 key.spkiDer
  | _ => fromMlDsa key.spkiDer

end JwkPublic

/-! ## The structure -/

/-- The algorithm and the key, if every length is that of its content. -/
def readSpki (spki : List UInt8) : Option (List UInt8 × List UInt8) := do
  let (body, rest) ← readTlv 0x30 spki
  let (alg, bits) ← readTlv 0x30 body
  let (oid, params) ← readTlv 0x06 alg
  let (content, after) ← readTlv 0x03 bits
  match rest, params, after, content with
  | [], [], [], 0x00 :: key => some (oid, key)
  | _, _, _, _ => none

def encodeSpki (oid key : List UInt8) : List UInt8 :=
  tlv 0x30 (tlv 0x30 (tlv 0x06 oid) ++ tlv 0x03 (0x00 :: key))

def ed25519Oid : List UInt8 := [0x2b, 0x65, 0x70]

def ed448Oid : List UInt8 := [0x2b, 0x65, 0x71]

/-- How the backend loads a key: the type goes by the algorithm. -/
structure BackendPublicKey.Holds (key : BackendPublicKey) (oid raw : List UInt8) : Prop where
  spki : readSpki key.spkiDer = some (oid, raw)
  ec : key.keyType = "ec" ↔ oid = idEcPublicKey
  rsa : key.keyType = "rsa" ↔ oid = rsaEncryption
  ed25519 : key.keyType = "ed25519" ↔ oid = ed25519Oid
  ed448 : key.keyType = "ed448" ↔ oid = ed448Oid

theorem eq_encodeSpki {spki oid key : List UInt8} (h : readSpki spki = some (oid, key)) :
    spki = encodeSpki oid key := by
  obtain ⟨⟨body, rest⟩, hbody, h⟩ := bind_eq_some_iff.mp h
  obtain ⟨⟨alg, bits⟩, halg, h⟩ := bind_eq_some_iff.mp h
  obtain ⟨⟨oid', params⟩, hoid, h⟩ := bind_eq_some_iff.mp h
  obtain ⟨⟨content, after⟩, hcontent, h⟩ := bind_eq_some_iff.mp h
  dsimp only at h
  split at h
  · cases h
    rw [eq_of_readTlv hbody, eq_of_readTlv halg, eq_of_readTlv hoid, eq_of_readTlv hcontent]
    simp [encodeSpki]
  · cases h

theorem readSpki_encodeSpki {oid key : List UInt8} (hoid : oid.length ≤ 100)
    (hkey : key.length ≤ 60000) : readSpki (encodeSpki oid key) = some (oid, key) := by
  have halg := length_tlv_le 0x06 oid
  have hbits := length_tlv_le 0x03 (0x00 :: key)
  have hseq := length_tlv_le 0x30 (tlv 0x06 oid)
  rw [length_cons] at hbits
  have hbody : readTlv 0x30 (encodeSpki oid key ++ []) = _ :=
    readTlv_tlv 0x30 [] (by rw [length_append]; omega)
  have hinner := readTlv_tlv 0x30 (tlv 0x03 (0x00 :: key)) (show (tlv 0x06 oid).length < _ by omega)
  have hname := readTlv_tlv 0x06 [] (show oid.length < _ by omega)
  have hcontent := readTlv_tlv 0x03 [] (show (0x00 :: key).length < _ by rw [length_cons]; omega)
  rw [append_nil] at hbody hname hcontent
  simp [readSpki, hbody, hinner, hname, hcontent]

/-! ## The two directions -/

def Supported (oid raw : List UInt8) : Prop :=
  oid = ed25519Oid ∧ raw.length = 32 ∨ oid = ed448Oid ∧ raw.length = 57 ∨
    ∃ alg, mlDsaParameters alg = some (raw.length, oid)

/-- The key that stands for the octets, other than for Ed448. -/
inductive RawKey (oid raw : List UInt8) : JwkPublic → Prop
  | ed25519 (hoid : oid = ed25519Oid) (hlength : raw.length = 32) :
      RawKey oid raw { JwkPublic.empty "OKP" with
        crv := some "Ed25519", x := some (Base64Url.encode raw) }
  | mlDsa {alg : String} {size : ℕ} (halg : mlDsaParameters alg = some (size, oid))
      (hlength : raw.length = size) :
      RawKey oid raw { JwkPublic.empty "AKP" with
        alg := some alg, pubKey := some (Base64Url.encode raw) }

def JwkPublic.IsEd448 (jwk : JwkPublic) : Prop := jwk.kty = "OKP" ∧ jwk.crv = some "Ed448"

section Codec

variable {lib : KeyLibrary} {jwk : JwkPublic} {oid raw spki : List UInt8} {key : BackendPublicKey}

theorem Supported.exists_rawKey (h : Supported oid raw) (hoid : oid ≠ ed448Oid) :
    ∃ jwk, RawKey oid raw jwk := by
  rcases h with ⟨hoid, hlength⟩ | ⟨hed448, -⟩ | ⟨alg, halg⟩
  · exact ⟨_, .ed25519 hoid hlength⟩
  · exact absurd hed448 hoid
  · exact ⟨_, .mlDsa halg rfl⟩

theorem ed25519_eq (h : raw.length = 32) :
    okpEd25519SpkiPrefix ++ raw = encodeSpki ed25519Oid raw := by
  simp [encodeSpki, tlv, lengthOctets, ed25519Oid, okpEd25519SpkiPrefix, h]

theorem mlDsa_eq (h : oid.length = 9) : buildMlDsaSpki oid raw = encodeSpki oid raw := by
  have hname : 0x06 :: UInt8.ofNat oid.length :: oid = tlv 0x06 oid := by
    rw [tlv, h]
    rfl
  have hbits : 0x03 :: (derLength (1 + raw.length) ++ 0x00 :: raw) = tlv 0x03 (0x00 :: raw) := by
    rw [Nat.add_comm]
    rfl
  have hseq : ∀ content, 0x30 :: (derLength content.length ++ content) = tlv 0x30 content :=
    fun _ ↦ rfl
  rw [buildMlDsaSpki, hname, hbits, hseq, ← length_append, hseq]
  rfl

theorem RawKey.length_le (h : RawKey oid raw jwk) : oid.length ≤ 100 ∧ raw.length ≤ 60000 := by
  cases h with
  | ed25519 hoid =>
    subst hoid
    exact ⟨by decide, by omega⟩
  | mlDsa halg =>
    unfold mlDsaParameters at halg
    split at halg <;> cases halg <;> exact ⟨by decide, by omega⟩

theorem RawKey.toSpkiDer_eq (h : RawKey oid raw jwk) :
    jwk.toSpkiDer lib = .ok (encodeSpki oid raw) := by
  cases h with
  | ed25519 hoid hlength =>
    rw [hoid, ← ed25519_eq hlength]
    simp [JwkPublic.toSpkiDer, JwkPublic.okpToSpkiDer, member, decodeMember, JwkPublic.empty,
      decode_encode, JwkPublic.okpKey, buildOkpSpki, okpKeySize, okpEd25519SpkiPrefix,
      hlength, bind, Except.bind]
  | mlDsa halg hlength =>
    rw [← mlDsa_eq (length_of_mlDsaParameters halg).1]
    simp [JwkPublic.toSpkiDer, JwkPublic.mlDsaToSpkiDer, member, decodeMember, JwkPublic.empty,
      decode_encode, JwkPublic.akpKey, halg, hlength, bind, Except.bind]

theorem fromMlDsa_eq {alg : String} {size : ℕ} (h : mlDsaParameters alg = some (size, oid))
    (hlength : raw.length = size) :
    JwkPublic.fromMlDsa (buildMlDsaSpki oid raw) = .ok { JwkPublic.empty "AKP" with
      alg := some alg, pubKey := some (Base64Url.encode raw) } := by
  obtain ⟨hoid, -, hsize⟩ := length_of_mlDsaParameters h
  rw [buildMlDsaSpki_eq hoid (hlength ▸ hsize), derLength_of_le (by omega),
    derLength_of_le (by omega)]
  unfold mlDsaParameters at h
  split at h <;> cases h <;>
    simp [JwkPublic.fromMlDsa, JwkPublic.mlDsaOidPrefix, JwkPublic.mlDsaVariant, *]

theorem RawKey.fromPublicKey_eq (h : RawKey oid raw jwk) (hkey : key.Holds oid raw) :
    JwkPublic.fromPublicKey key = .ok jwk := by
  have hspki := eq_encodeSpki hkey.spki
  cases h with
  | ed25519 hoid hlength =>
    rw [hoid, ← ed25519_eq hlength] at hspki
    simp [JwkPublic.fromPublicKey, hkey.ed25519.mpr hoid, JwkPublic.fromEdwards, hspki,
      okpEd25519SpkiPrefix, hlength]
  | mlDsa halg hlength =>
    obtain ⟨hoid, hhead, -⟩ := length_of_mlDsaParameters halg
    rw [← mlDsa_eq hoid] at hspki
    unfold JwkPublic.fromPublicKey
    split
    · rename_i htype
      simp [hkey.ec.mp htype] at hhead
    · rename_i htype
      simp [hkey.rsa.mp htype] at hhead
    · rename_i htype
      simp [hkey.ed25519.mp htype, ed25519Oid] at hhead
    · rename_i htype
      simp [hkey.ed448.mp htype, ed448Oid] at hhead
    · rw [hspki]
      exact fromMlDsa_eq halg hlength

theorem buildOkpSpki_ed25519 (h : buildOkpSpki raw okpEd25519SpkiPrefix = .ok spki) :
    raw.length = 32 ∧ spki = encodeSpki ed25519Oid raw := by
  have hsize : okpKeySize okpEd25519SpkiPrefix = some 32 := rfl
  rw [buildOkpSpki, hsize] at h
  dsimp only at h
  split_ifs at h with hlength
  cases h
  exact ⟨not_not.mp hlength, ed25519_eq (not_not.mp hlength)⟩

/-- The bit string of an Ed448 key is one octet longer than it says: its last
octet is left over. -/
theorem readSpki_ed448 (h : raw.length = 57) : readSpki (okpEd448SpkiPrefix ++ raw) = none := by
  have hbits : 0x03 :: 0x39 :: 0x00 :: raw = tlv 0x03 (0x00 :: raw.take 56) ++ raw.drop 56 := by
    have hlength : (0x00 :: raw.take 56).length = 57 := by simp [h]
    rw [tlv, hlength, cons_append, append_assoc, cons_append, take_append_drop]
    rfl
  have hspki : okpEd448SpkiPrefix ++ raw =
      tlv 0x30 (tlv 0x30 (tlv 0x06 ed448Oid) ++ 0x03 :: 0x39 :: 0x00 :: raw) ++ [] := by
    simp [tlv, lengthOctets, ed448Oid, okpEd448SpkiPrefix, h]
  have hbody := readTlv_tlv 0x30 []
    (show (tlv 0x30 (tlv 0x06 ed448Oid) ++ 0x03 :: 0x39 :: 0x00 :: raw).length < 65536 by
      simp [tlv, lengthOctets, ed448Oid, h])
  have halg := readTlv_tlv 0x30 (0x03 :: 0x39 :: 0x00 :: raw)
    (show (tlv 0x06 ed448Oid).length < 65536 by decide)
  have hoid := readTlv_tlv 0x06 [] (show ed448Oid.length < 65536 by decide)
  have hcontent := readTlv_tlv 0x03 (raw.drop 56)
    (show (0x00 :: raw.take 56).length < 65536 by simp [h])
  have hleft : raw.drop 56 ≠ [] := by
    rw [ne_eq, drop_eq_nil_iff]
    omega
  rw [append_nil] at hoid
  rw [← hbits] at hcontent
  rw [readSpki, hspki, hbody]
  simp only [bind_eq_bind, bind_some, halg, hoid, hcontent]
  split
  · rename_i hnil _
    exact absurd hnil hleft
  · rfl

theorem toSpkiDer_of_isEd448 (hed448 : jwk.IsEd448) (h : jwk.toSpkiDer lib = .ok spki) :
    ∃ x, spki = okpEd448SpkiPrefix ++ x ∧ x.length = 57 := by
  obtain ⟨hkty, hcrv⟩ := hed448
  unfold JwkPublic.toSpkiDer at h
  simp only [hkty] at h
  obtain ⟨crv, hmember, h⟩ := bind_eq_ok h
  obtain ⟨x64, -, h⟩ := bind_eq_ok h
  obtain ⟨x, -, h⟩ := bind_eq_ok h
  cases (member_eq_ok hmember).symm.trans hcrv
  have hsize : okpKeySize okpEd448SpkiPrefix = some 57 := rfl
  rw [JwkPublic.okpKey, buildOkpSpki, hsize] at h
  dsimp only at h
  split_ifs at h with hlength
  cases h
  exact ⟨x, rfl, not_not.mp hlength⟩

/-- The JWK made of an Ed448 key. -/
theorem isEd448_of_fromPublicKey (htype : key.keyType = "ed448")
    (h : JwkPublic.fromPublicKey key = .ok jwk) : jwk.IsEd448 := by
  simp only [JwkPublic.fromPublicKey, htype, JwkPublic.fromEdwards] at h
  split_ifs at h
  cases h
  exact ⟨rfl, rfl⟩

/-- What `to_spki_der` accepts of the two types is a key with its octets. -/
theorem exists_rawKey_of_toSpkiDer
    (htype : jwk.kty = "OKP" ∨ jwk.kty = "AKP") (hcrv : ¬ jwk.IsEd448)
    (h : jwk.toSpkiDer lib = .ok spki) :
    ∃ oid raw jwk', RawKey oid raw jwk' ∧ spki = encodeSpki oid raw ∧
      jwk'.texts? = jwk.texts? := by
  unfold JwkPublic.toSpkiDer at h
  rcases htype with hkty | hkty
  · simp only [hkty] at h
    obtain ⟨crv, hmember, h⟩ := bind_eq_ok h
    obtain ⟨x64, hx64, h⟩ := bind_eq_ok h
    obtain ⟨x, hx, h⟩ := bind_eq_ok h
    unfold JwkPublic.okpKey at h
    split at h
    · obtain ⟨hlength, hspki⟩ := buildOkpSpki_ed25519 h
      refine ⟨ed25519Oid, x, _, .ed25519 rfl hlength, hspki, ?_⟩
      rw [encode_of_decode (decodeMember_eq_ok hx)]
      simp [JwkPublic.texts?, JwkPublic.empty, hkty, member_eq_ok hmember, member_eq_ok hx64]
    · exact absurd ⟨hkty, member_eq_ok hmember⟩ hcrv
    · cases h
  · simp only [hkty] at h
    obtain ⟨alg, hmember, h⟩ := bind_eq_ok h
    obtain ⟨pub64, hpub64, h⟩ := bind_eq_ok h
    obtain ⟨pubKey, hpub, h⟩ := bind_eq_ok h
    unfold JwkPublic.akpKey at h
    split at h
    · cases h
    · rename_i size oid halg
      split_ifs at h with hlength
      cases h
      refine ⟨oid, pubKey, _, .mlDsa halg (not_not.mp hlength),
        mlDsa_eq (length_of_mlDsaParameters halg).1, ?_⟩
      rw [encode_of_decode (decodeMember_eq_ok hpub)]
      simp [JwkPublic.texts?, JwkPublic.empty, hkty, member_eq_ok hmember, member_eq_ok hpub64]

end Codec

/-- A reader takes the structure, and the key that the backend loads from it has
the parameters of the JWK. -/
def JwkPublic.Recovered (jwk : JwkPublic) (spki : List UInt8) : Prop :=
  ∃ oid raw, readSpki spki = some (oid, raw) ∧
    ∀ key : BackendPublicKey, key.spkiDer = spki → key.Holds oid raw →
      ∃ jwk', JwkPublic.fromPublicKey key = .ok jwk' ∧ jwk'.texts? = jwk.texts?

/-- The SubjectPublicKeyInfo of an accepted JWK is well formed and gives the key
back, and the JWK of a backend's key makes the SubjectPublicKeyInfo again, both
exactly for the keys that are not Ed448. -/
theorem spki_codec (lib : KeyLibrary) :
    (∀ (jwk : JwkPublic) (spki : List UInt8), (jwk.kty = "OKP" ∨ jwk.kty = "AKP") →
      jwk.toSpkiDer lib = .ok spki → (jwk.Recovered spki ↔ ¬ jwk.IsEd448)) ∧
    ∀ (oid raw : List UInt8) (key : BackendPublicKey), Supported oid raw → key.Holds oid raw →
      ((∃ jwk, JwkPublic.fromPublicKey key = .ok jwk ∧ jwk.toSpkiDer lib = .ok key.spkiDer) ↔
        oid ≠ ed448Oid) := by
  constructor
  · intro jwk spki htype h
    constructor
    · rintro ⟨oid, raw, hread, -⟩ hed448
      obtain ⟨x, rfl, hlength⟩ := toSpkiDer_of_isEd448 hed448 h
      cases (readSpki_ed448 hlength).symm.trans hread
    · intro hed448
      obtain ⟨oid, raw, jwk', hraw, rfl, htexts⟩ := exists_rawKey_of_toSpkiDer htype hed448 h
      obtain ⟨hoid, hlength⟩ := hraw.length_le
      exact ⟨oid, raw, readSpki_encodeSpki hoid hlength,
        fun key _ hkey ↦ ⟨jwk', hraw.fromPublicKey_eq hkey, htexts⟩⟩
  · intro oid raw key hsupported hkey
    constructor
    · rintro ⟨jwk, hjwk, hspki⟩ hoid
      have hed448 := isEd448_of_fromPublicKey (hkey.ed448.mpr hoid) hjwk
      obtain ⟨x, hx, hlength⟩ := toSpkiDer_of_isEd448 hed448 hspki
      have hread := hkey.spki
      rw [hx, readSpki_ed448 hlength] at hread
      cases hread
    · intro hoid
      obtain ⟨jwk, hraw⟩ := hsupported.exists_rawKey hoid
      exact ⟨jwk, hraw.fromPublicKey_eq hkey, by rw [hraw.toSpkiDer_eq, ← eq_encodeSpki hkey.spki]⟩

namespace SpkiExample

def hashless : KeyLibrary where
  sha256 := id
  fromRsaComponents _ _ := .error "no backend"
  fromEcComponents _ _ _ := .error "no backend"
  decodeError _ := "Invalid symbol"

def ed448Key : JwkPublic :=
  { JwkPublic.empty "OKP" with
    crv := some "Ed448", x := some (Base64Url.encode (List.replicate 57 0)) }

/-- The bit string of an Ed448 key has 58 octets and says 57. -/
theorem ed448_malformed :
    ed448Key.toSpkiDer hashless = .ok (okpEd448SpkiPrefix ++ List.replicate 57 0) ∧
      readSpki (okpEd448SpkiPrefix ++ List.replicate 57 0) = none :=
  ⟨by rfl, by decide +kernel⟩

def zeroKey : BackendPublicKey where
  keyType := "ed25519"
  spkiDer := okpEd25519SpkiPrefix ++ List.replicate 32 0
  ecCurveName := .ok none
  ecAffineCoordinates := .ok none
  rsaModulus := .ok none
  rsaPublicExponent := .ok none

theorem zero_key_codec : ∃ jwk, JwkPublic.fromPublicKey zeroKey = .ok jwk ∧
    jwk.toSpkiDer hashless = .ok zeroKey.spkiDer :=
  ((spki_codec hashless).2 ed25519Oid (List.replicate 32 0) zeroKey (.inl ⟨rfl, by decide⟩)
    ⟨by decide +kernel, by decide, by decide, by decide, by decide⟩).mpr (by decide)

end SpkiExample

end Akamu.Jose
