import Akamu.Arith
import Akamu.Lib.ExceptOps
import Akamu.Config

/-!
# Certificate requests and the names in issued certificates

`validate_csr` of `ca/csr.rs`, and from `ca/issue.rs` the construction of the
subjectAltName and the validity window and the two ways of local issuance.
-/

namespace Akamu

open Except (bind_eq_ok)

abbrev SanEntry := Identifier

structure ValidatedCsr where
  subject : Subject
  sans : List SanEntry
  caCert : Bool
  keyType : Option String
  deriving DecidableEq, Repr

def octetToString (b : UInt8) : String := toString b.toNat

def bytesToIpString (lib : Library) (bytes : List UInt8) : Option String :=
  match bytes with
  | [a, b, c, d] => some (octetToString a ++ "." ++ octetToString b ++ "." ++
      octetToString c ++ "." ++ octetToString d)
  | _ => if bytes.length = 16 then some (lib.ipv6ToString bytes) else none

def normalizeEmail (addr : String) : String :=
  if Text.contains addr '@' then
    let front := addr.toList.takeWhile (· != '@')
    let domain := (addr.toList.dropWhile (· != '@')).drop 1
    String.ofList front ++ "@" ++ Text.toAsciiLowercase (String.ofList domain)
  else addr

def parseSan (lib : Library) : CsrName → Except AcmeError (Option SanEntry)
  | .dnsName content =>
    match lib.fromUtf8 content with
    | some name => .ok (some ⟨.dns, name⟩)
    | none => .error (.badCsr "SAN dNSName is not valid UTF-8")
  | .ipAddress content =>
    match bytesToIpString lib content with
    | some ip => .ok (some ⟨.ip, ip⟩)
    | none => .error (.badCsr "SAN iPAddress invalid length")
  | .rfc822Name content =>
    match lib.fromUtf8 content with
    | some addr => .ok (some ⟨.email, normalizeEmail addr⟩)
    | none => .error (.badCsr "SAN rfc822Name is not valid UTF-8")
  | .other => .ok none

def isSanType (t : IdType) : Bool := t == .dns || t == .ip || t == .email

def checkSanAllowed (allowed : List Identifier) (san : SanEntry) : Except AcmeError Unit :=
  if allowed.contains san then .ok ()
  else .error (.badCsr ("SAN " ++ san.type.asStr ++ ":" ++ san.value ++ " not authorised by order"))

def checkInSans (sans : List SanEntry) (id : Identifier) : Except AcmeError Unit :=
  if !isSanType id.type || sans.contains id then .ok ()
  else .error (.badCsr
    ("order identifier " ++ id.type.asStr ++ ":" ++ id.value ++ " missing from CSR SANs"))

/-- The subject is copied as it is; nothing compares it with the order. -/
def validateCsr (lib : Library) (csrDer : List UInt8) (allowed : List Identifier) :
    Except AcmeError ValidatedCsr := do
  let csr ← lib.parseCsr csrDer
  let sans ← csr.sans.mapM (parseSan lib)
  let sans := sans.filterMap id
  sans.forM (checkSanAllowed allowed)
  allowed.forM (checkInSans sans)
  return { subject := csr.subject, sans := sans, caCert := csr.caCert, keyType := csr.keyType }

variable {lib : Library} {csr : ValidatedCsr} {cert : IssuedCert}

theorem mem_allowed_of_validateCsr {csrDer : List UInt8} {allowed : List Identifier}
    (h : validateCsr lib csrDer allowed = .ok csr) : ∀ san ∈ csr.sans, san ∈ allowed := by
  obtain ⟨parsed, -, h⟩ := bind_eq_ok h
  obtain ⟨entries, -, h⟩ := bind_eq_ok h
  obtain ⟨_, hsans, h⟩ := bind_eq_ok h
  obtain ⟨_, -, h⟩ := bind_eq_ok h
  cases h
  intro san hsan
  have hallowed := Except.forM_eq_ok_iff.mp hsans san hsan
  unfold checkSanAllowed at hallowed
  split at hallowed
  · rename_i hcontains
    simpa using hcontains
  · cases hallowed

/-! ## The subjectAltName of the certificate -/

def sanOfEntry (lib : Library) (san : SanEntry) : Except AcmeError (Option GeneralName) :=
  match san.type with
  | .dns => .ok (some (.dnsName san.value))
  | .ip =>
    match lib.parseIpAddr san.value with
    | some octets => .ok (some (.ipAddress octets))
    | none => .error (.builder ("invalid IP SAN: " ++ san.value))
  | .email => .ok (some (.rfc822Name san.value))
  | _ => .ok none

/-- The entries in the order in which the builder adds them; an empty list
means that the extension is left out. -/
def buildSanFromCsr (lib : Library) (sans : List SanEntry) (extraOtherNames : List (List UInt8))
    (extraDnsNames : List String) : Except AcmeError (List GeneralName) := do
  let names ← sans.mapM (sanOfEntry lib)
  let san := names.filterMap id ++ extraOtherNames.map .otherName ++ extraDnsNames.map .dnsName
  if san.isEmpty && !sans.isEmpty then
    throw (.badRequest
      "all requested SAN types are unrecognised; cannot issue certificate without SANs")
  return san

variable {extraOtherNames : List (List UInt8)} {notAfter : Option Int} {extraDnsNames : List String}
  {san : List GeneralName} {now : Int}

theorem mem_buildSanFromCsr {sans : List SanEntry}
    (h : buildSanFromCsr lib sans extraOtherNames extraDnsNames = .ok san) (n : GeneralName) :
    n ∈ san ↔ (∃ entry ∈ sans, sanOfEntry lib entry = .ok (some n)) ∨
      n ∈ extraOtherNames.map .otherName ∨ n ∈ extraDnsNames.map .dnsName := by
  obtain ⟨names, hnames, h⟩ := bind_eq_ok h
  dsimp only at h
  split at h
  · cases h
  · cases h
    rw [List.mem_append, List.mem_append, Except.mem_filterMap_of_mapM hnames, or_assoc]

/-! ## Issuance -/

/-- The window of a certificate, by the clock of the issuance.  The start is
moved up to five minutes ago; an end that is not after it is replaced. -/
def resolveClampedValidity (now : Int) (notBeforeOverride notAfterOverride : Option Int)
    (validityDays : UInt32) : Int × Int :=
  let rawNotBefore := notBeforeOverride.getD now
  let earliestAllowed := now - 300
  let notBefore := if rawNotBefore < earliestAllowed then earliestAllowed else rawNotBefore
  let fallback := addSecs notBefore (validityDays.toNat * 86400)
  let rawNotAfter := notAfterOverride.getD fallback
  (notBefore, if rawNotAfter ≤ notBefore then fallback else rawNotAfter)

/-- The start of a certificate: as requested or now, but not long ago. -/
def certStart (now : Int) (notBefore : Option Int) : Int := max (notBefore.getD now) (now - 300)

variable {notBefore : Option Int}

theorem resolveClampedValidity_cases {first last : Int} {days : UInt32}
    (h : (first, last) = resolveClampedValidity now notBefore notAfter days) :
    first = certStart now notBefore ∧
      (last = addSecs first (days.toNat * 86400) ∧ (∀ t ∈ notAfter, t ≤ first) ∨
        first < last ∧ notAfter = some last) := by
  obtain ⟨hfirst, hlast⟩ := Prod.mk.inj h
  rw [← hfirst] at hlast
  refine ⟨by rw [hfirst, certStart]; split <;> omega, ?_⟩
  cases notAfter with
  | none => exact .inl ⟨by simpa using hlast, by simp⟩
  | some =>
    rw [Option.getD_some] at hlast
    split at hlast
    · rename_i hle
      exact .inl ⟨hlast, by simpa using hle⟩
    · exact .inr ⟨by omega, by rw [hlast]⟩

def checkValidityCap (ca : CaState) (window : Int × Int) : Except AcmeError Unit :=
  let days := (subI64 window.2 window.1).tdiv 86400
  if ca.enforceValidityCap && decide (200 < days) then
    .error (.badRequest ("certificate validity " ++ toString days ++
      " days exceeds the 200-day CA/B Forum BR §6.3.2 limit; set ca.enforce_validity_cap = " ++
      "false to allow longer validity for private PKI"))
  else .ok ()

def buildLeaf (lib : Library) (now : Int) (subject : Subject) (san : List GeneralName)
    (window : Int × Int) : Except AcmeError IssuedCert := do
  let (id, serialHex) ← lib.assemble subject san window.1 window.2
  let cert : IssuedCert :=
    { id := id, serialHex := serialHex, notBefore := window.1, notAfter := window.2,
      subject := subject, san := san }
  lib.lintIssuedCert now cert
  return cert

def issueWithParams (lib : Library) (ca : CaState) (now : Int) (csr : ValidatedCsr)
    (params : CertificateParameters) (notBefore notAfter : Option Int)
    (extraOtherNames : List (List UInt8)) (extraDnsNames : List String) :
    Except AcmeError IssuedCert := do
  let window := resolveClampedValidity now notBefore notAfter params.validityDays
  checkValidityCap ca window
  let san ← buildSanFromCsr lib csr.sans extraOtherNames extraDnsNames
  buildLeaf lib now csr.subject san window

def issueCertificate (lib : Library) (ca : CaState) (now : Int) (csr : ValidatedCsr)
    (notBefore notAfter : Option Int) : Except AcmeError IssuedCert := do
  let window := resolveClampedValidity now notBefore notAfter ca.validityDays
  let san ← buildSanFromCsr lib csr.sans [] []
  buildLeaf lib now csr.subject san window

theorem buildLeaf_eq_ok {subject : Subject} {window : Int × Int}
    (h : buildLeaf lib now subject san window = .ok cert) :
    (cert.subject = subject ∧ cert.san = san ∧ (cert.notBefore, cert.notAfter) = window) ∧
      lib.lintIssuedCert now cert = .ok () := by
  obtain ⟨⟨id, serialHex⟩, -, h⟩ := bind_eq_ok h
  obtain ⟨⟨⟩, hlint, h⟩ := bind_eq_ok h
  cases h
  exact ⟨⟨rfl, rfl, rfl⟩, hlint⟩

theorem issueWithParams_eq_ok {ca : CaState} {params : CertificateParameters}
    (h : issueWithParams lib ca now csr params notBefore notAfter extraOtherNames extraDnsNames =
    .ok cert) : (cert.notBefore, cert.notAfter) =
        resolveClampedValidity now notBefore notAfter params.validityDays ∧
      cert.subject = csr.subject ∧ ∀ n, n ∈ cert.san ↔
        (∃ san ∈ csr.sans, sanOfEntry lib san = .ok (some n)) ∨
          n ∈ extraOtherNames.map .otherName ∨ n ∈ extraDnsNames.map .dnsName := by
  obtain ⟨⟨⟩, -, h⟩ := bind_eq_ok h
  obtain ⟨san, hsan, h⟩ := bind_eq_ok h
  obtain ⟨⟨hsubject, rfl, hwindow⟩, -⟩ := buildLeaf_eq_ok h
  exact ⟨hwindow, hsubject, mem_buildSanFromCsr hsan⟩

theorem issueCertificate_eq_ok {ca : CaState}
    (h : issueCertificate lib ca now csr notBefore notAfter = .ok cert) :
    (cert.notBefore, cert.notAfter) =
        resolveClampedValidity now notBefore notAfter ca.validityDays ∧
      lib.lintIssuedCert now cert = .ok () := by
  obtain ⟨san, -, h⟩ := bind_eq_ok h
  obtain ⟨⟨-, -, hwindow⟩, hlint⟩ := buildLeaf_eq_ok h
  exact ⟨hwindow, hlint⟩

/-- A certificate name and the identifier it stands for; an address is the one
that the identifier's text parses to. -/
def GeneralName.Matches (lib : Library) (n : GeneralName) (id : Identifier) : Prop :=
  match n with
  | .dnsName name => id = ⟨.dns, name⟩
  | .ipAddress octets => id.type = .ip ∧ lib.parseIpAddr id.value = some octets
  | .rfc822Name name => id = ⟨.email, name⟩
  | .otherName _ => False

theorem matches_of_sanOfEntry {san : SanEntry} {n : GeneralName}
    (h : sanOfEntry lib san = .ok (some n)) : n.Matches lib san := by
  obtain ⟨type, value⟩ := san
  unfold sanOfEntry at h
  cases type with
  | ip =>
    dsimp only at h
    split at h
    · rename_i octets hparse
      cases h
      exact ⟨rfl, hparse⟩
    · cases h
  | dns | email =>
    cases h
    rfl
  | _ => cases h

end Akamu
