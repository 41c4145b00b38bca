import Akamu.Schema
import Akamu.Text

/-!
# Configuration and identifier rules

The configuration values that the handlers consult, the functions of libraries
outside the repository as parameters, and the syntactic rules for identifiers:
which are accepted and which challenge types are offered for them.
-/

namespace Akamu

/-! ## Values that cross the boundary to other libraries -/

inductive CsrName where
  | dnsName (content : List UInt8)
  | ipAddress (content : List UInt8)
  | rfc822Name (content : List UInt8)
  | other
  deriving DecidableEq, Repr

structure Subject where
  der : List UInt8
  commonNames : List String
  deriving DecidableEq, Repr

structure ParsedCsr where
  subject : Subject
  sans : List CsrName
  caCert : Bool
  keyType : Option String
  deriving DecidableEq, Repr

inductive GeneralName where
  | dnsName (name : String)
  | ipAddress (octets : List UInt8)
  | rfc822Name (name : String)
  | otherName (der : List UInt8)
  deriving DecidableEq, Repr

structure IssuedCert where
  id : String
  serialHex : String
  notBefore : Int
  notAfter : Int
  subject : Subject
  san : List GeneralName
  deriving DecidableEq, Repr

structure CertificateParameters where
  validityDays : UInt32
  kpnSanTemplates : List String
  msUpnSanTemplate : Option String
  injectAccountKpn : Bool
  deriving DecidableEq, Repr

inductive ClaimEncoder where
  | krb5Kpn (defaultRealm : Option String)
  | msUpn
  | dnsSan
  deriving DecidableEq, Repr

structure CaCertificate where
  subjectDer : List UInt8
  /-- The bits of the key, without the octet that counts the unused ones. -/
  subjectPublicKey : List UInt8
  deriving DecidableEq, Repr

structure CaState where
  caaIdentities : List String
  dogtag : Bool
  validityDays : UInt32
  enforceValidityCap : Bool
  certificate : CaCertificate := ⟨[], []⟩
  crlNextUpdateSecs : ℕ := 86400
  deriving DecidableEq, Repr

inductive PolicyMode where
  | enforce
  | shadow
  deriving DecidableEq, Repr

structure PolicyRequest where
  accountId : String
  accountGroups : List String
  caId : String
  profile : Option String
  keyType : Option String
  identifier : Option Identifier
  deriving DecidableEq, Repr

/-! ## Configuration -/

structure Config where
  /-- `[gossip]` is configured. -/
  gossip : Bool
  nodeId : String
  writeCoalescer : Bool
  baseUrl : String
  defaultCaId : String
  orderExpirySecs : UInt64
  authzExpirySecs : UInt64
  allowSubdomainAuth : Bool
  dnsPersistIssuerDomains : List String
  torConnectivityEnabled : Bool
  tkauthEnabled : Bool
  claimEncoderRegistry : Option (List (String × ClaimEncoder))
  emailChallengeEnabled : Bool
  delegationEnabled : Bool
  delegationUpstream : Bool
  externalAccountRequired : Bool
  eabKeys : List (String × String)
  starMinLifetimeSecs : Option ℕ
  starMaxDurationSecs : Option ℕ
  caaIdentities : List String
  policyMode : PolicyMode
  cas : List (String × CaState)

/-- Functions of other libraries, and the profile, policy and template engines
that the handlers call. -/
structure Library where
  /-- What the database driver makes of `NULL` in a column read as text. -/
  decodeNull : Except AcmeError String
  /-- `str::to_lowercase`, which follows the Unicode tables. -/
  toLowercase : String → String
  fromUtf8 : List UInt8 → Option String
  /-- The octets of `str::parse::<IpAddr>`. -/
  parseIpAddr : String → Option (List UInt8)
  ipv6ToString : List UInt8 → String
  decodeUrlSafe : String → Except String (List UInt8)
  certIdSerial : String → Except AcmeError String
  /-- The problem document stored with a failed challenge. -/
  errorJson : AcmeError → String
  parseCsr : List UInt8 → Except AcmeError ParsedCsr
  /-- `Name::from_str`; the error text is the library's. -/
  parseDnsName : String → Except String Unit
  parseStringArray : String → Option (List String)
  /-- The (claim, values) pairs of a constraints blob, JSON or DER. -/
  constraintEntries : List UInt8 → Option (List (String × List String))
  encodePrincipal : String → Except String (List UInt8)
  encodeMsUpn : String → Except String (List UInt8)
  expandKpnTemplate : String → List String → Except String (List (List UInt8))
  expandMsUpnTemplate : String → List String → Except String (Option (List UInt8))
  profilesEmpty : Bool
  profileParams : String → String → Option CertificateParameters
  defaultParams : String → CertificateParameters
  profileAuth : String → String → List Identifier → Except AcmeError (List (List UInt8))
  policyAllows : PolicyRequest → Except String Bool
  checkCsrTemplate : String → List UInt8 → Except AcmeError Unit
  /-- Id and serial number of a local issuance for a validity window, or its
  failure. -/
  assemble : Subject → List GeneralName → Int → Int → Except AcmeError (String × String)
  /-- The check of a certificate that was just signed, by the clock of the
  issuance. -/
  lintIssuedCert : Int → IssuedCert → Except AcmeError Unit
  issueViaDogtag : List UInt8 → Except AcmeError IssuedCert

structure Env where
  config : Config
  library : Library

def Env.decodeNull (env : Env) : Except AcmeError String := env.library.decodeNull

def Library.profileResolves (lib : Library) (profile caId : String) : Bool :=
  (lib.profileParams profile caId).isSome

def Config.getCa (cfg : Config) (caId : String) : Option CaState :=
  (cfg.cas.find? fun c ↦ c.1 == caId).map Prod.snd

def Config.dnsSanEncoder (cfg : Config) : Bool :=
  cfg.claimEncoderRegistry.any fun r ↦ r.any fun e ↦ e.2 == .dnsSan

/-! ## Identifier rules -/

def isOnionDomain (value : String) : Bool :=
  Text.endsWith (Text.toAsciiLowercase value) ".onion"

def isBase32Char (c : Char) : Bool :=
  (decide ('a' ≤ c) && decide (c ≤ 'z')) || (decide ('2' ≤ c) && decide (c ≤ '7'))

/-- The rightmost label before `.onion` is a version 3 address; the suffix is
compared with its case. -/
def validateOnionV3 (domain : String) : Bool :=
  match Text.stripSuffix domain ".onion" with
  | none => false
  | some s =>
    let label := (Text.lastLabel s).toList
    label.length == 56 && label.all isBase32Char

def isValidEmail (value : String) : Bool :=
  if 320 < value.utf8ByteSize then false
  else if value.toList.any (fun c ↦ decide (c.toNat < 0x20) || c.toNat == 0x7f) then false
  else if !Text.contains value '@' then false
  else
    let localPart := value.toList.takeWhile (· != '@')
    let domain := (value.toList.dropWhile (· != '@')).drop 1
    !localPart.isEmpty && decide ((String.ofList localPart).utf8ByteSize ≤ 64) &&
      !domain.isEmpty && !domain.contains '@' && domain.contains '.'

def isWildcard (value : String) : Bool := Text.startsWith value "*."

def dnsPersistEnabled (cfg : Config) : Bool := !cfg.dnsPersistIssuerDomains.isEmpty

def wildcardDnsTypes (cfg : Config) : List ChallengeType :=
  if dnsPersistEnabled cfg then [.dns01, .dnsPersist01] else [.dns01]

def onionTypes (cfg : Config) : List ChallengeType :=
  if cfg.torConnectivityEnabled then [.onionCsr01, .http01, .tlsAlpn01] else [.onionCsr01]

def eligibleChallengeTypes (cfg : Config) (id : Identifier) : List ChallengeType :=
  match id.type with
  | .dns =>
    if isOnionDomain id.value then onionTypes cfg
    else if isWildcard id.value then wildcardDnsTypes cfg
    else if cfg.tkauthEnabled && cfg.dnsSanEncoder then [.tkauth01]
    else if dnsPersistEnabled cfg then [.http01, .dns01, .tlsAlpn01, .dnsPersist01]
    else [.http01, .dns01, .tlsAlpn01]
  | .ip => [.http01, .tlsAlpn01]
  | .email => [.emailReply00]
  | .tnAuthList | .jwtClaimConstraints | .enhancedJwtClaimConstraints => [.tkauth01]
  | .other _ => []

/-! ## A small installation -/

def ascii (s : String) : List UInt8 := s.toList.map fun c ↦ UInt8.ofNat c.toNat

/-- One CA, no optional feature. -/
def Config.plain : Config where
  gossip := false
  nodeId := "node-a"
  writeCoalescer := false
  baseUrl := "https://acme.example.com"
  defaultCaId := "ca"
  orderExpirySecs := 100
  authzExpirySecs := 100
  allowSubdomainAuth := false
  dnsPersistIssuerDomains := []
  torConnectivityEnabled := false
  tkauthEnabled := false
  claimEncoderRegistry := none
  emailChallengeEnabled := false
  delegationEnabled := false
  delegationUpstream := false
  externalAccountRequired := false
  eabKeys := []
  starMinLifetimeSecs := none
  starMaxDurationSecs := none
  caaIdentities := []
  policyMode := .enforce
  cas := [("ca",
    { caaIdentities := [], dogtag := false, validityDays := 90, enforceValidityCap := false })]

/-- Libraries over ASCII text, with no profile and a policy that allows
everything; text decodes to its own octets. -/
def Library.plain : Library where
  decodeNull := .error (.database "unexpected null")
  toLowercase := Text.toAsciiLowercase
  fromUtf8 bytes :=
    if bytes.all fun b ↦ decide (b < 128) then
      some (String.ofList (bytes.map fun b ↦ Char.ofNat b.toNat))
    else none
  parseIpAddr _ := none
  ipv6ToString _ := "::"
  decodeUrlSafe s := .ok (ascii s)
  certIdSerial s := .ok s
  errorJson _ := "error"
  parseCsr _ := .error (.badCsr "CSR does not decode")
  parseDnsName _ := .ok ()
  parseStringArray _ := none
  constraintEntries _ := none
  encodePrincipal s := .ok (ascii s)
  encodeMsUpn s := .ok (ascii s)
  expandKpnTemplate _ _ := .ok []
  expandMsUpnTemplate _ _ := .ok none
  profilesEmpty := true
  profileParams _ _ := none
  defaultParams _ :=
    { validityDays := 90, kpnSanTemplates := [], msUpnSanTemplate := none,
      injectAccountKpn := false }
  profileAuth _ _ _ := .ok []
  policyAllows _ := .ok true
  checkCsrTemplate _ _ := .ok ()
  assemble _ _ _ _ := .ok ("cert-1", "01")
  lintIssuedCert now cert :=
    if cert.notBefore ≤ now ∧ now ≤ cert.notAfter then .ok ()
    else .error (.internal "pre-issuance lint failed: certificate is not valid now")
  issueViaDogtag _ := .error (.internal "no remote CA")

/-! ## Challenge types for wildcards -/

theorem eligible_of_wildcard {cfg : Config} {id : Identifier} (htype : id.type = .dns)
    (hwild : isWildcard id.value = true) (honion : isOnionDomain id.value = false) :
    eligibleChallengeTypes cfg id = wildcardDnsTypes cfg := by
  simp [eligibleChallengeTypes, htype, hwild, honion]

theorem mem_wildcardDnsTypes {cfg : Config} {t : ChallengeType}
    (h : t ∈ wildcardDnsTypes cfg) : t = .dns01 ∨ t = .dnsPersist01 := by
  unfold wildcardDnsTypes at h
  split at h <;> simp_all

end Akamu
