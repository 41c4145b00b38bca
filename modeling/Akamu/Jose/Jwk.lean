import Mathlib.Data.Nat.Digits.Defs
import Akamu.Lib.Base64Url
import Akamu.Lib.ExceptOps
import Akamu.Lib.Framing

/-!
# JSON web keys

`jwk.rs`: the thumbprint of a key and its SubjectPublicKeyInfo.  The thumbprint
is taken of the texts in the key, the SubjectPublicKeyInfo is made of what they
stand for, numbers among it.
-/

namespace Akamu.Jose

open Framing List
open Except (bind_eq_ok)

inductive JoseError where
  | badRequest (detail : String)
  | unsupportedAlgorithm (detail : String)
  | crypto (detail : String)
  deriving DecidableEq, Repr

structure JwkPublic where
  kty : String
  crv : Option String
  x : Option String
  y : Option String
  n : Option String
  e : Option String
  alg : Option String
  pubKey : Option String
  deriving DecidableEq, Repr

/-- The hash and the key backend, and what the base64 decoder says of a text
that it refuses. -/
structure KeyLibrary where
  sha256 : List UInt8 → List UInt8
  fromRsaComponents : List UInt8 → List UInt8 → Except String (List UInt8)
  fromEcComponents : List UInt8 → List UInt8 → String → Except String (List UInt8)
  decodeError : String → String

/-! ## Thumbprints -/

def member (kty name : String) (field : Option String) : Except JoseError String :=
  match field with
  | some s => .ok s
  | none => .error (.badRequest (kty ++ " JWK missing '" ++ name ++ "'"))

def rsaJson (n e : String) : String :=
  "\x7b\"e\":\"" ++ e ++ "\",\"kty\":\"RSA\",\"n\":\"" ++ n ++ "\"\x7d"

def ecJson (crv x y : String) : String :=
  "\x7b\"crv\":\"" ++ crv ++ "\",\"kty\":\"EC\",\"x\":\"" ++ x ++ "\",\"y\":\"" ++ y ++ "\"\x7d"

def okpJson (crv x : String) : String :=
  "\x7b\"crv\":\"" ++ crv ++ "\",\"kty\":\"OKP\",\"x\":\"" ++ x ++ "\"\x7d"

def akpJson (alg pubKey : String) : String :=
  "\x7b\"alg\":\"" ++ alg ++ "\",\"kty\":\"AKP\",\"pub\":\"" ++ pubKey ++ "\"\x7d"

def unsupportedKty (kty : String) : JoseError :=
  .unsupportedAlgorithm ("unsupported JWK key type: " ++ kty)

namespace JwkPublic

/-- The required members in order, without white space. -/
def canonical (jwk : JwkPublic) : Except JoseError String :=
  match jwk.kty with
  | "RSA" => do
      let n ← member "RSA" "n" jwk.n
      let e ← member "RSA" "e" jwk.e
      return rsaJson n e
  | "EC" => do
      let crv ← member "EC" "crv" jwk.crv
      let x ← member "EC" "x" jwk.x
      let y ← member "EC" "y" jwk.y
      return ecJson crv x y
  | "OKP" => do
      let crv ← member "OKP" "crv" jwk.crv
      let x ← member "OKP" "x" jwk.x
      return okpJson crv x
  | "AKP" => do
      let alg ← member "AKP" "alg" jwk.alg
      let pubKey ← member "AKP" "pub" jwk.pubKey
      return akpJson alg pubKey
  | kty => .error (unsupportedKty kty)

def thumbprint (lib : KeyLibrary) (jwk : JwkPublic) : Except JoseError String :=
  jwk.canonical.map fun json ↦ Base64Url.encode (lib.sha256 (utf8 json))

end JwkPublic

/-! ## SubjectPublicKeyInfo -/

def decodeMember (lib : KeyLibrary) (name s : String) : Except JoseError (List UInt8) :=
  match Base64Url.decode s with
  | some bytes => .ok bytes
  | none => .error (.badRequest ("JWK '" ++ name ++ "' base64: " ++ lib.decodeError s))

def okpEd25519SpkiPrefix : List UInt8 :=
  [0x30, 0x2a, 0x30, 0x05, 0x06, 0x03, 0x2b, 0x65, 0x70, 0x03, 0x21, 0x00]

def okpEd448SpkiPrefix : List UInt8 :=
  [0x30, 0x43, 0x30, 0x05, 0x06, 0x03, 0x2b, 0x65, 0x71, 0x03, 0x39, 0x00]

def okpKeySize (spkiPrefix : List UInt8) : Option ℕ :=
  match (spkiPrefix[8]? : Option UInt8) with
  | some 0x70 => some 32
  | some 0x71 => some 57
  | _ => none

def buildOkpSpki (x spkiPrefix : List UInt8) : Except JoseError (List UInt8) :=
  match okpKeySize spkiPrefix with
  | none => .error (.crypto "unknown OKP prefix")
  | some expected =>
    if x.length ≠ expected then
      .error (.badRequest ("OKP key x has wrong length: " ++ toString x.length ++
        " (expected " ++ toString expected ++ ")"))
    else .ok (spkiPrefix ++ x)

def derLength (len : ℕ) : List UInt8 :=
  if len < 128 then [.ofNat len]
  else if len < 256 then [0x81, .ofNat len]
  else [0x82, .ofNat (len / 256), .ofNat (len % 256)]

def buildMlDsaSpki (oid pubKey : List UInt8) : List UInt8 :=
  let oidTlv := 0x06 :: .ofNat oid.length :: oid
  let algId := 0x30 :: (derLength oidTlv.length ++ oidTlv)
  let bitString := 0x03 :: (derLength (1 + pubKey.length) ++ 0x00 :: pubKey)
  0x30 :: (derLength (algId.length + bitString.length) ++ (algId ++ bitString))

def mlDsaParameters : String → Option (ℕ × List UInt8)
  | "ML-DSA-44" => some (1312, [0x60, 0x86, 0x48, 0x01, 0x65, 0x03, 0x04, 0x03, 0x11])
  | "ML-DSA-65" => some (1952, [0x60, 0x86, 0x48, 0x01, 0x65, 0x03, 0x04, 0x03, 0x12])
  | "ML-DSA-87" => some (2592, [0x60, 0x86, 0x48, 0x01, 0x65, 0x03, 0x04, 0x03, 0x13])
  | _ => none

namespace JwkPublic

def rsaToSpkiDer (lib : KeyLibrary) (jwk : JwkPublic) : Except JoseError (List UInt8) := do
  let n64 ← member "RSA" "n" jwk.n
  let e64 ← member "RSA" "e" jwk.e
  let n ← decodeMember lib "n" n64
  let e ← decodeMember lib "e" e64
  (lib.fromRsaComponents n e).mapError fun err ↦ .crypto ("RSA key from JWK: " ++ err)

def ecKey (lib : KeyLibrary) (crv : String) (x y : List UInt8) : Except JoseError (List UInt8) :=
  if crv = "P-256" ∨ crv = "P-384" ∨ crv = "P-521" then
    (lib.fromEcComponents x y crv).mapError fun err ↦ .crypto ("EC key from JWK: " ++ err)
  else .error (.unsupportedAlgorithm ("unsupported EC curve: " ++ crv))

def ecToSpkiDer (lib : KeyLibrary) (jwk : JwkPublic) : Except JoseError (List UInt8) := do
  let crv ← member "EC" "crv" jwk.crv
  let x64 ← member "EC" "x" jwk.x
  let y64 ← member "EC" "y" jwk.y
  let x ← decodeMember lib "x" x64
  let y ← decodeMember lib "y" y64
  ecKey lib crv x y

def okpKey (crv : String) (x : List UInt8) : Except JoseError (List UInt8) :=
  match crv with
  | "Ed25519" => buildOkpSpki x okpEd25519SpkiPrefix
  | "Ed448" => buildOkpSpki x okpEd448SpkiPrefix
  | other => .error (.unsupportedAlgorithm ("unsupported OKP curve: " ++ other))

def okpToSpkiDer (lib : KeyLibrary) (jwk : JwkPublic) : Except JoseError (List UInt8) := do
  let crv ← member "OKP" "crv" jwk.crv
  let x64 ← member "OKP" "x" jwk.x
  let x ← decodeMember lib "x" x64
  okpKey crv x

def akpKey (alg : String) (pubKey : List UInt8) : Except JoseError (List UInt8) :=
  match mlDsaParameters alg with
  | none => .error (.unsupportedAlgorithm ("unsupported AKP algorithm: " ++ alg))
  | some (expected, oid) =>
    if pubKey.length ≠ expected then
      .error (.badRequest ("AKP '" ++ alg ++ "' public key has wrong length: " ++
        toString pubKey.length ++ " (expected " ++ toString expected ++ ")"))
    else .ok (buildMlDsaSpki oid pubKey)

def mlDsaToSpkiDer (lib : KeyLibrary) (jwk : JwkPublic) : Except JoseError (List UInt8) := do
  let alg ← member "AKP" "alg" jwk.alg
  let pub64 ← member "AKP" "pub" jwk.pubKey
  let pubKey ← decodeMember lib "pub" pub64
  akpKey alg pubKey

def toSpkiDer (lib : KeyLibrary) (jwk : JwkPublic) : Except JoseError (List UInt8) :=
  match jwk.kty with
  | "RSA" => jwk.rsaToSpkiDer lib
  | "EC" => jwk.ecToSpkiDer lib
  | "OKP" => jwk.okpToSpkiDer lib
  | "AKP" => jwk.mlDsaToSpkiDer lib
  | kty => .error (unsupportedKty kty)

end JwkPublic

/-! ## Keys that are accepted -/

def coordinateSize : String → ℕ
  | "P-256" => 32
  | "P-384" => 48
  | _ => 66

inductive KeyTexts where
  | rsa (n e : String)
  | ec (crv x y : String)
  | okp (crv x : String)
  | akp (alg pubKey : String)

namespace KeyTexts

def json : KeyTexts → String
  | rsa n e => rsaJson n e
  | ec crv x y => ecJson crv x y
  | okp crv x => okpJson crv x
  | akp alg pubKey => akpJson alg pubKey

/-- Numbers are written without leading zero octets, coordinates in the size of
the curve. -/
def Canonical : KeyTexts → Prop
  | rsa n e => ∀ s ∈ [n, e], ∀ bytes ∈ Base64Url.decode s, bytes.head? ≠ some 0
  | ec crv x y => ∀ s ∈ [x, y], ∀ bytes ∈ Base64Url.decode s, bytes.length = coordinateSize crv
  | okp _ _ | akp _ _ => True

inductive Makes (lib : KeyLibrary) : KeyTexts → List UInt8 → Prop
  | rsa {n64 e64 : String} {n e spki : List UInt8} (hn : Base64Url.decode n64 = some n)
      (he : Base64Url.decode e64 = some e) (h : lib.fromRsaComponents n e = .ok spki) :
      Makes lib (.rsa n64 e64) spki
  | ec {crv x64 y64 : String} {x y spki : List UInt8}
      (hcrv : crv = "P-256" ∨ crv = "P-384" ∨ crv = "P-521") (hx : Base64Url.decode x64 = some x)
      (hy : Base64Url.decode y64 = some y) (h : lib.fromEcComponents x y crv = .ok spki) :
      Makes lib (.ec crv x64 y64) spki
  | ed25519 {x64 : String} {x spki : List UInt8} (hx : Base64Url.decode x64 = some x)
      (h : spki = okpEd25519SpkiPrefix ++ x) : Makes lib (.okp "Ed25519" x64) spki
  | ed448 {x64 : String} {x spki : List UInt8} (hx : Base64Url.decode x64 = some x)
      (h : spki = okpEd448SpkiPrefix ++ x) : Makes lib (.okp "Ed448" x64) spki
  | akp {alg pub64 : String} {pubKey oid spki : List UInt8} {size : ℕ}
      (halg : mlDsaParameters alg = some (size, oid)) (hpub : Base64Url.decode pub64 = some pubKey)
      (hlength : pubKey.length = size) (h : spki = buildMlDsaSpki oid pubKey) :
      Makes lib (.akp alg pub64) spki

end KeyTexts

/-! ## Thumbprints tell texts apart -/

theorem quoted_inj {a b r s : List Char} (ha : '"' ∉ a) (hb : '"' ∉ b)
    (h : a ++ '"' :: r = b ++ '"' :: s) : a = b ∧ r = s := by
  induction a generalizing b with
  | nil =>
    cases b with
    | nil => exact ⟨rfl, (List.cons.inj h).2⟩
    | cons => exact absurd (List.cons.inj h).1 fun heq ↦ hb (heq ▸ mem_cons_self)
  | cons c a ih =>
    cases b with
    | nil => exact absurd (List.cons.inj h).1 fun heq ↦ ha (heq ▸ mem_cons_self)
    | cons =>
      obtain ⟨rfl, htail⟩ := List.cons.inj h
      obtain ⟨rfl, rfl⟩ := ih (fun hmem ↦ ha (mem_cons_of_mem c hmem))
        (fun hmem ↦ hb (mem_cons_of_mem c hmem)) htail
      exact ⟨rfl, rfl⟩

def renderObject (lead : Char) : List (String × String) → List Char
  | [] => ['\x7d']
  | (key, text) :: rest =>
    lead :: '"' :: (key.toList ++ '"' :: ':' :: '"' :: (text.toList ++ '"' ::
      renderObject ',' rest))

theorem renderObject_inj {lead : Char} (hlead : lead ≠ '\x7d') {fields fields' : List (String × String)}
    (h : ∀ f ∈ fields, '"' ∉ f.1.toList ∧ '"' ∉ f.2.toList)
    (h' : ∀ f ∈ fields', '"' ∉ f.1.toList ∧ '"' ∉ f.2.toList)
    (heq : renderObject lead fields = renderObject lead fields') : fields = fields' := by
  induction fields generalizing lead fields' with
  | nil =>
    cases fields' with
    | nil => rfl
    | cons => exact absurd (List.cons.inj heq).1.symm hlead
  | cons f fields ih =>
    cases fields' with
    | nil => exact absurd (List.cons.inj heq).1 hlead
    | cons f' =>
      obtain ⟨hkey, htext⟩ := h f mem_cons_self
      obtain ⟨hkey', htext'⟩ := h' f' mem_cons_self
      simp only [renderObject, List.cons.injEq, true_and] at heq
      obtain ⟨hkeys, hrest⟩ := quoted_inj hkey hkey' heq
      simp only [List.cons.injEq, true_and] at hrest
      obtain ⟨htexts, hrest⟩ := quoted_inj htext htext' hrest
      have htail := ih (by decide) (fun g hg ↦ h g (mem_cons_of_mem f hg))
        (fun g hg ↦ h' g (mem_cons_of_mem f' hg)) hrest
      rw [htail, Prod.ext (String.toList_inj.mp hkeys) (String.toList_inj.mp htexts)]

namespace KeyTexts

def members : KeyTexts → List (String × String)
  | rsa n e => [("e", e), ("kty", "RSA"), ("n", n)]
  | ec crv x y => [("crv", crv), ("kty", "EC"), ("x", x), ("y", y)]
  | okp crv x => [("crv", crv), ("kty", "OKP"), ("x", x)]
  | akp alg pubKey => [("alg", alg), ("kty", "AKP"), ("pub", pubKey)]

theorem toList_json (t : KeyTexts) : t.json.toList = renderObject '\x7b' t.members := by
  cases t <;> simp [json, members, renderObject, rsaJson, ecJson, okpJson, akpJson]

theorem json_inj {t u : KeyTexts}
    (ht : ∀ f ∈ t.members, '"' ∉ f.1.toList ∧ '"' ∉ f.2.toList)
    (hu : ∀ f ∈ u.members, '"' ∉ f.1.toList ∧ '"' ∉ f.2.toList) (h : t.json = u.json) : t = u := by
  have hlist := congrArg String.toList h
  rw [toList_json, toList_json] at hlist
  have hmembers := renderObject_inj (by decide) ht hu hlist
  cases t <;> cases u <;> simp_all [members]

end KeyTexts

def JwkPublic.texts? (jwk : JwkPublic) : Option KeyTexts :=
  match jwk.kty with
  | "RSA" => do return .rsa (← jwk.n) (← jwk.e)
  | "EC" => do return .ec (← jwk.crv) (← jwk.x) (← jwk.y)
  | "OKP" => do return .okp (← jwk.crv) (← jwk.x)
  | "AKP" => do return .akp (← jwk.alg) (← jwk.pubKey)
  | _ => none

def JwkPublic.Canonical (jwk : JwkPublic) : Prop := ∀ texts ∈ jwk.texts?, texts.Canonical

variable {pubKey a b : List UInt8} {alg : String}

section Accepted

variable {lib : KeyLibrary} {jwk : JwkPublic} {spki : List UInt8}

theorem member_eq_ok {kty name s : String} {field : Option String}
    (h : member kty name field = .ok s) : field = some s := by
  cases field with
  | none => cases h
  | some =>
    cases h
    rfl

theorem decodeMember_eq_ok {name s : String} {bytes : List UInt8}
    (h : decodeMember lib name s = .ok bytes) : Base64Url.decode s = some bytes := by
  unfold decodeMember at h
  split at h
  · rename_i hdecode
    cases h
    exact hdecode
  · cases h

variable {x : List UInt8}

theorem buildOkpSpki_eq_ok {pre : List UInt8} (h : buildOkpSpki x pre = .ok spki) :
    spki = pre ++ x := by
  unfold buildOkpSpki at h
  split at h
  · cases h
  · split_ifs at h
    cases h
    rfl

theorem makes_okp {crv x64 : String} (hx : Base64Url.decode x64 = some x)
    (h : JwkPublic.okpKey crv x = .ok spki) : KeyTexts.Makes lib (.okp crv x64) spki := by
  unfold JwkPublic.okpKey at h
  split at h
  · exact .ed25519 hx (buildOkpSpki_eq_ok h)
  · exact .ed448 hx (buildOkpSpki_eq_ok h)
  · cases h

theorem makes_akp {pub64 : String} (hpub : Base64Url.decode pub64 = some pubKey)
    (h : JwkPublic.akpKey alg pubKey = .ok spki) : KeyTexts.Makes lib (.akp alg pub64) spki := by
  unfold JwkPublic.akpKey at h
  split at h
  · cases h
  · rename_i size oid halg
    split_ifs at h with hlength
    cases h
    exact .akp halg hpub (not_not.mp hlength) rfl

theorem makes_ec {crv x64 y64 : String} {y : List UInt8} (hx : Base64Url.decode x64 = some x)
    (hy : Base64Url.decode y64 = some y) (h : JwkPublic.ecKey lib crv x y = .ok spki) :
    KeyTexts.Makes lib (.ec crv x64 y64) spki := by
  unfold JwkPublic.ecKey at h
  split_ifs at h with hcrv
  exact .ec hcrv hx hy (Except.mapError_eq_ok_iff.mp h)

theorem exists_texts (h : jwk.toSpkiDer lib = .ok spki) :
    ∃ texts : KeyTexts, jwk.texts? = some texts ∧ texts.Makes lib spki ∧
      jwk.canonical = .ok texts.json := by
  unfold JwkPublic.toSpkiDer at h
  unfold JwkPublic.canonical JwkPublic.texts?
  split at h
  · obtain ⟨n64, hn64, h⟩ := bind_eq_ok h
    obtain ⟨e64, he64, h⟩ := bind_eq_ok h
    obtain ⟨n, hn, h⟩ := bind_eq_ok h
    obtain ⟨e, he, h⟩ := bind_eq_ok h
    refine ⟨.rsa n64 e64, ?_, .rsa (decodeMember_eq_ok hn) (decodeMember_eq_ok he)
      (Except.mapError_eq_ok_iff.mp h), ?_⟩
    · rw [member_eq_ok hn64, member_eq_ok he64]
      rfl
    · rw [hn64, he64]
      rfl
  · obtain ⟨crv, hcrv, h⟩ := bind_eq_ok h
    obtain ⟨x64, hx64, h⟩ := bind_eq_ok h
    obtain ⟨y64, hy64, h⟩ := bind_eq_ok h
    obtain ⟨x, hx, h⟩ := bind_eq_ok h
    obtain ⟨y, hy, h⟩ := bind_eq_ok h
    refine ⟨.ec crv x64 y64, ?_, makes_ec (decodeMember_eq_ok hx) (decodeMember_eq_ok hy) h, ?_⟩
    · rw [member_eq_ok hcrv, member_eq_ok hx64, member_eq_ok hy64]
      rfl
    · rw [hcrv, hx64, hy64]
      rfl
  · obtain ⟨crv, hcrv, h⟩ := bind_eq_ok h
    obtain ⟨x64, hx64, h⟩ := bind_eq_ok h
    obtain ⟨x, hx, h⟩ := bind_eq_ok h
    refine ⟨.okp crv x64, ?_, makes_okp (decodeMember_eq_ok hx) h, ?_⟩
    · rw [member_eq_ok hcrv, member_eq_ok hx64]
      rfl
    · rw [hcrv, hx64]
      rfl
  · obtain ⟨alg, halg, h⟩ := bind_eq_ok h
    obtain ⟨pub64, hpub64, h⟩ := bind_eq_ok h
    obtain ⟨pubKey, hpub, h⟩ := bind_eq_ok h
    refine ⟨.akp alg pub64, ?_, makes_akp (decodeMember_eq_ok hpub) h, ?_⟩
    · rw [member_eq_ok halg, member_eq_ok hpub64]
      rfl
    · rw [halg, hpub64]
      rfl
  · cases h

end Accepted

/-! ## SubjectPublicKeyInfo tells keys apart -/

def octetsToNat (bytes : List UInt8) : ℕ := Nat.ofDigits 256 (bytes.reverse.map UInt8.toNat)

theorem map_toNat_lt (bytes : List UInt8) : ∀ d ∈ bytes.reverse.map UInt8.toNat, d < 256 := by
  intro d hd
  obtain ⟨b, -, rfl⟩ := mem_map.mp hd
  exact b.toNat_lt

theorem eq_of_map_toNat (h : a.reverse.map UInt8.toNat = b.reverse.map UInt8.toNat) : a = b := by
  have hinj : Function.Injective UInt8.toNat := fun _ _ ↦ UInt8.toNat_inj.mp
  exact reverse_injective (hinj.list_map h)

theorem octetsToNat_inj_of_length (hlength : a.length = b.length)
    (h : octetsToNat a = octetsToNat b) : a = b :=
  eq_of_map_toNat (Nat.ofDigits_inj_of_len_eq (by decide) (by simpa using hlength)
    (map_toNat_lt a) (map_toNat_lt b) h)

theorem digits_octetsToNat (ha : a.head? ≠ some 0) :
    Nat.digits 256 (octetsToNat a) = a.reverse.map UInt8.toNat := by
  refine Nat.digits_ofDigits 256 (by decide) _ (map_toNat_lt a) ?_
  intro hne hzero
  cases a with
  | nil => exact hne rfl
  | cons b =>
    have hb : b.toNat = 0 := by simpa using hzero
    exact ha (congrArg some (UInt8.toNat_inj.mp hb))

theorem octetsToNat_inj_of_minimal (ha : a.head? ≠ some 0) (hb : b.head? ≠ some 0)
    (h : octetsToNat a = octetsToNat b) : a = b := by
  apply eq_of_map_toNat
  rw [← digits_octetsToNat ha, ← digits_octetsToNat hb, h]

/-- Skip a tag and a length, which is one octet or a number of further octets. -/
def skipHeader : List UInt8 → List UInt8
  | _ :: size :: rest => if size < 0x80 then rest else rest.drop (size.toNat - 0x80)
  | _ => []

def algorithmOid (spki : List UInt8) : List UInt8 :=
  match skipHeader (skipHeader spki) with
  | 0x06 :: size :: rest => rest.take size.toNat
  | _ => []

@[simp] def rsaEncryption : List UInt8 := [0x2a, 0x86, 0x48, 0x86, 0xf7, 0x0d, 0x01, 0x01, 0x01]

@[simp] def idEcPublicKey : List UInt8 := [0x2a, 0x86, 0x48, 0xce, 0x3d, 0x02, 0x01]

/-- What is assumed of the hash and of the key backend: a SubjectPublicKeyInfo
names its algorithm and determines the key's numbers. -/
structure KeyLibrary.Faithful (lib : KeyLibrary) : Prop where
  sha256_injective : Function.Injective lib.sha256
  rsa_oid : ∀ {n e spki}, lib.fromRsaComponents n e = .ok spki → algorithmOid spki = rsaEncryption
  ec_oid : ∀ {x y crv spki}, lib.fromEcComponents x y crv = .ok spki →
    algorithmOid spki = idEcPublicKey
  rsa_numbers : ∀ {n e n' e' spki}, lib.fromRsaComponents n e = .ok spki →
    lib.fromRsaComponents n' e' = .ok spki →
    octetsToNat n = octetsToNat n' ∧ octetsToNat e = octetsToNat e'
  ec_point : ∀ {x y crv x' y' crv' spki}, lib.fromEcComponents x y crv = .ok spki →
    lib.fromEcComponents x' y' crv' = .ok spki →
    crv = crv' ∧ octetsToNat x = octetsToNat x' ∧ octetsToNat y = octetsToNat y'

variable {size : ℕ}

theorem length_of_mlDsaParameters {oid : List UInt8} (h : mlDsaParameters alg = some (size, oid)) :
    oid.length = 9 ∧ oid.head? = some 0x60 ∧ 256 ≤ size := by
  unfold mlDsaParameters at h
  split at h <;> cases h <;> decide

theorem quoteFree_of_mlDsaParameters {parameters : ℕ × List UInt8}
    (h : mlDsaParameters alg = some parameters) : '"' ∉ alg.toList := by
  unfold mlDsaParameters at h
  split at h <;> first | decide | cases h

theorem derLength_of_le {len : ℕ} (h : 256 ≤ len) :
    derLength len = [0x82, .ofNat (len / 256), .ofNat (len % 256)] := by
  rw [derLength, if_neg (by omega), if_neg (by omega)]

theorem buildMlDsaSpki_eq {oid : List UInt8} (hoid : oid.length = 9) (hpub : 256 ≤ pubKey.length) :
    buildMlDsaSpki oid pubKey =
      (0x30 :: derLength (pubKey.length + 18)) ++ ([0x30, 0x0b, 0x06, 0x09] ++ (oid ++
        (0x03 :: derLength (pubKey.length + 1)) ++ (0x00 :: pubKey))) := by
  have hlength : (0x03 :: (derLength (1 + pubKey.length) ++ 0x00 :: pubKey)).length =
      pubKey.length + 5 := by
    rw [derLength_of_le (by omega)]
    simp
  have halg : (0x30 :: (derLength (0x06 :: UInt8.ofNat oid.length :: oid).length ++
      (0x06 :: UInt8.ofNat oid.length :: oid))) = [0x30, 0x0b, 0x06, 0x09] ++ oid := by
    simp [hoid, derLength]
  rw [buildMlDsaSpki, halg, hlength]
  have hsum : ([0x30, 0x0b, 0x06, 0x09] ++ oid).length + (pubKey.length + 5) =
      pubKey.length + 18 := by
    simp only [List.length_append, List.length_cons, List.length_nil, hoid]
    omega
  rw [hsum, Nat.add_comm 1]
  simp

theorem algorithmOid_buildMlDsaSpki {oid : List UInt8} (hoid : oid.length = 9)
    (hpub : 256 ≤ pubKey.length) : algorithmOid (buildMlDsaSpki oid pubKey) = oid := by
  rw [buildMlDsaSpki_eq hoid hpub, derLength_of_le (by omega)]
  simp [algorithmOid, skipHeader, hoid]

theorem buildMlDsaSpki_inj {oid pubKey' : List UInt8} (hoid : oid.length = 9)
    (hpub : 256 ≤ pubKey.length) (hlength : pubKey.length = pubKey'.length)
    (h : buildMlDsaSpki oid pubKey = buildMlDsaSpki oid pubKey') : pubKey = pubKey' := by
  rw [buildMlDsaSpki_eq hoid hpub, buildMlDsaSpki_eq hoid (hlength ▸ hpub), ← hlength] at h
  simpa using h

@[simp] def KeyTexts.oid : KeyTexts → List UInt8
  | rsa _ _ => rsaEncryption
  | ec _ _ _ => idEcPublicKey
  | okp crv _ => if crv = "Ed25519" then [0x2b, 0x65, 0x70] else [0x2b, 0x65, 0x71]
  | akp alg _ => ((mlDsaParameters alg).map Prod.snd).getD []

section Distinct

variable {lib : KeyLibrary} {t u : KeyTexts} {spki : List UInt8}

theorem KeyTexts.Makes.oid_eq (hlib : lib.Faithful) (h : t.Makes lib spki) :
    algorithmOid spki = t.oid := by
  cases h with
  | rsa _ _ h => exact hlib.rsa_oid h
  | ec _ _ _ h => exact hlib.ec_oid h
  | ed25519 _ h =>
    rw [h]
    rfl
  | ed448 _ h =>
    rw [h]
    rfl
  | akp halg _ hlength h =>
    obtain ⟨hoid, -, hsize⟩ := length_of_mlDsaParameters halg
    rw [h, algorithmOid_buildMlDsaSpki hoid (hlength ▸ hsize), KeyTexts.oid, halg]
    rfl

theorem oid_akp_ne {pub64 : String} {oid other : List UInt8}
    (h : mlDsaParameters alg = some (size, oid)) (hother : other.head? ≠ some 0x60) :
    (KeyTexts.akp alg pub64).oid ≠ other := by
  rintro rfl
  apply hother
  rw [KeyTexts.oid, h]
  exact (length_of_mlDsaParameters h).2.1

theorem mlDsaParameters_inj {alg' : String} {size' : ℕ} {oid : List UInt8}
    (h : mlDsaParameters alg = some (size, oid)) (h' : mlDsaParameters alg' = some (size', oid)) :
    alg = alg' := by
  unfold mlDsaParameters at h h'
  split at h <;> cases h <;> split at h' <;> first | rfl | (cases h')

theorem KeyTexts.Makes.inj (hlib : lib.Faithful) (ht : t.Canonical) (hu : u.Canonical)
    (h : t.Makes lib spki) (h' : u.Makes lib spki) : t = u := by
  -- Keys of different types differ in the algorithm that they name.
  have hoid : t.oid = u.oid := (h.oid_eq hlib).symm.trans (h'.oid_eq hlib)
  cases h with
  | rsa hn he hmake =>
    cases h' with
    | rsa hn' he' hmake' =>
      obtain ⟨hnat, henat⟩ := hlib.rsa_numbers hmake hmake'
      have hnbytes := octetsToNat_inj_of_minimal (ht _ (by simp) _ hn) (hu _ (by simp) _ hn') hnat
      have hebytes := octetsToNat_inj_of_minimal (ht _ (by simp) _ he) (hu _ (by simp) _ he') henat
      rw [Base64Url.decode_injective hn (hnbytes ▸ hn'), Base64Url.decode_injective he (hebytes ▸ he')]
    | akp halg => exact absurd hoid.symm (oid_akp_ne halg (by simp))
    | _ => simp at hoid
  | ec hcrv hx hy hmake =>
    cases h' with
    | ec hcrv' hx' hy' hmake' =>
      obtain ⟨rfl, hxnat, hynat⟩ := hlib.ec_point hmake hmake'
      have hxbytes := octetsToNat_inj_of_length
        ((ht _ (by simp) _ hx).trans (hu _ (by simp) _ hx').symm) hxnat
      have hybytes := octetsToNat_inj_of_length
        ((ht _ (by simp) _ hy).trans (hu _ (by simp) _ hy').symm) hynat
      rw [Base64Url.decode_injective hx (hxbytes ▸ hx'), Base64Url.decode_injective hy (hybytes ▸ hy')]
    | akp halg => exact absurd hoid.symm (oid_akp_ne halg (by simp))
    | _ => simp at hoid
  | ed25519 hx hmake =>
    cases h' with
    | ed25519 hx' hmake' =>
      have hbytes := List.append_cancel_left (hmake.symm.trans hmake')
      rw [Base64Url.decode_injective hx (hbytes ▸ hx')]
    | akp halg => exact absurd hoid.symm (oid_akp_ne halg (by simp))
    | _ => simp at hoid
  | ed448 hx hmake =>
    cases h' with
    | ed448 hx' hmake' =>
      have hbytes := List.append_cancel_left (hmake.symm.trans hmake')
      rw [Base64Url.decode_injective hx (hbytes ▸ hx')]
    | akp halg => exact absurd hoid.symm (oid_akp_ne halg (by simp))
    | _ => simp at hoid
  | akp halg hpub hlength hmake =>
    cases h' with
    | akp halg' hpub' hlength' hmake' =>
      simp only [KeyTexts.oid, halg, halg', Option.map_some, Option.getD_some] at hoid
      subst hoid
      cases mlDsaParameters_inj halg halg'
      rw [halg] at halg'
      cases halg'
      obtain ⟨hoid, -, hsize⟩ := length_of_mlDsaParameters halg
      have hbytes := buildMlDsaSpki_inj hoid (hlength ▸ hsize) (hlength.trans hlength'.symm)
        (hmake.symm.trans hmake')
      rw [Base64Url.decode_injective hpub (hbytes ▸ hpub')]
    | _ => exact absurd hoid (oid_akp_ne halg (by simp))

theorem KeyTexts.Makes.deterministic {spki' : List UInt8} (h : t.Makes lib spki)
    (h' : u.Makes lib spki') (heq : t = u) : spki = spki' := by
  cases h with
  | rsa hn he hmake =>
    cases h' with
    | rsa hn' he' hmake' =>
      cases heq
      cases hn.symm.trans hn'
      cases he.symm.trans he'
      exact Except.ok.inj (hmake.symm.trans hmake')
    | _ => cases heq
  | ec _ hx hy hmake =>
    cases h' with
    | ec _ hx' hy' hmake' =>
      cases heq
      cases hx.symm.trans hx'
      cases hy.symm.trans hy'
      exact Except.ok.inj (hmake.symm.trans hmake')
    | _ => cases heq
  | ed25519 hx hmake =>
    cases h' with
    | ed25519 hx' hmake' =>
      cases heq
      cases hx.symm.trans hx'
      exact hmake.trans hmake'.symm
    | _ => simp at heq
  | ed448 hx hmake =>
    cases h' with
    | ed448 hx' hmake' =>
      cases heq
      cases hx.symm.trans hx'
      exact hmake.trans hmake'.symm
    | _ => simp at heq
  | akp halg hpub _ hmake =>
    cases h' with
    | akp halg' hpub' _ hmake' =>
      cases heq
      cases halg.symm.trans halg'
      cases hpub.symm.trans hpub'
      exact hmake.trans hmake'.symm
    | _ => cases heq

theorem KeyTexts.Makes.quoteFree (h : t.Makes lib spki) :
    ∀ f ∈ t.members, '"' ∉ f.1.toList ∧ '"' ∉ f.2.toList := by
  have hdecoded : ∀ {s : String} {bytes : List UInt8}, Base64Url.decode s = some bytes →
      '"' ∉ s.toList := fun hdecode hmem ↦
    absurd (Base64Url.mem_alphabet_of_decode hdecode _ hmem) (by decide)
  cases h with
  | rsa hn he => simp [KeyTexts.members, hdecoded hn, hdecoded he]
  | ec hcrv hx hy =>
    rcases hcrv with rfl | rfl | rfl <;> simp [KeyTexts.members, hdecoded hx, hdecoded hy]
  | ed25519 hx => simp [KeyTexts.members, hdecoded hx]
  | ed448 hx => simp [KeyTexts.members, hdecoded hx]
  | akp halg hpub =>
    have hname := quoteFree_of_mlDsaParameters halg
    simp [KeyTexts.members, hname, hdecoded hpub]

/-! ### Thumbprints and keys -/

variable {j k : JwkPublic} {spki' : List UInt8} {thumb thumb' : String}

theorem json_of_thumbprint (h : j.thumbprint lib = .ok thumb) :
    ∃ json, j.canonical = .ok json ∧ thumb = Base64Url.encode (lib.sha256 (utf8 json)) := by
  obtain ⟨json, hjson, hthumb⟩ := Except.map_eq_ok h
  exact ⟨json, hjson, hthumb.symm⟩

theorem spki_of_thumbprint (hlib : lib.Faithful) (hj : j.toSpkiDer lib = .ok spki)
    (hk : k.toSpkiDer lib = .ok spki') (htj : j.thumbprint lib = .ok thumb)
    (htk : k.thumbprint lib = .ok thumb) : spki = spki' := by
  obtain ⟨t, -, hmake, htext⟩ := exists_texts hj
  obtain ⟨u, -, hmake', htext'⟩ := exists_texts hk
  obtain ⟨json, hjson, hthumb⟩ := json_of_thumbprint htj
  obtain ⟨json', hjson', hthumb'⟩ := json_of_thumbprint htk
  cases htext.symm.trans hjson
  cases htext'.symm.trans hjson'
  have hbytes := hlib.sha256_injective (Base64Url.encode_injective (hthumb.symm.trans hthumb'))
  exact hmake.deterministic hmake'
    (KeyTexts.json_inj hmake.quoteFree hmake'.quoteFree (utf8_injective hbytes))

theorem thumbprint_of_spki (hlib : lib.Faithful) (hcj : j.Canonical) (hck : k.Canonical)
    (hj : j.toSpkiDer lib = .ok spki) (hk : k.toSpkiDer lib = .ok spki) :
    j.thumbprint lib = k.thumbprint lib := by
  obtain ⟨t, ht, hmake, htext⟩ := exists_texts hj
  obtain ⟨u, hu, hmake', htext'⟩ := exists_texts hk
  cases KeyTexts.Makes.inj hlib (hcj t ht) (hck u hu) hmake hmake'
  rw [JwkPublic.thumbprint, JwkPublic.thumbprint, htext, htext']

theorem exists_thumbprint (hj : j.toSpkiDer lib = .ok spki) :
    ∃ thumb, j.thumbprint lib = .ok thumb := by
  obtain ⟨t, -, -, htext⟩ := exists_texts hj
  exact ⟨_, by rw [JwkPublic.thumbprint, htext]; rfl⟩

end Distinct

end Akamu.Jose
