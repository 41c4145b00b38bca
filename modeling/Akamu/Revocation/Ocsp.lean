import Akamu.Lib.ExceptOps
import Akamu.Config
import Akamu.Db.Statements

/-!
# The OCSP responder

`handle_ocsp_request` of `routes/ocsp.rs`.  A request names certificates by the
hashes of the issuer's name and key and by serial number.  The responder
compares the hashes with its own and looks the serial number up in the table of
all CAs.
-/

namespace Akamu

open Except List

/-! ## Requests and responses -/

structure CertId where
  hashAlgOid : List ℕ
  issuerNameHash : List UInt8
  issuerKeyHash : List UInt8
  serial : List UInt8
  deriving DecidableEq, Repr

inductive OcspStatus where
  | good
  | revoked
  | unknown
  deriving DecidableEq, Repr

structure SingleResponse where
  certId : CertId
  status : OcspStatus
  thisUpdate : Int
  nextUpdate : Int
  deriving DecidableEq, Repr

/-- A response without answers, or a signed one. -/
inductive OcspResponse where
  | unauthorized
  | successful (responder : List UInt8) (producedAt : Int) (responses : List SingleResponse)
  deriving DecidableEq, Repr

structure OcspLibrary where
  fromDer : List UInt8 → Except String (List CertId)
  hash : List ℕ → List UInt8 → Except String (List UInt8)

/-! ## The responder -/

def hexDigit (n : ℕ) : Char := if n < 10 then Char.ofNat (48 + n) else Char.ofNat (87 + n)

def hexEncode (bytes : List UInt8) : String :=
  String.ofList (bytes.flatMap fun b ↦ [hexDigit (b.toNat / 16), hexDigit (b.toNat % 16)])

def computeIssuerHashes (lib : OcspLibrary) (cert : CaCertificate) (oid : List ℕ) :
    Except AcmeError (List UInt8 × List UInt8) := do
  let nameHash ← (lib.hash oid cert.subjectDer).mapError fun e ↦
    .crypto ("OCSP: issuerNameHash: " ++ e)
  let keyHash ← (lib.hash oid (0 :: cert.subjectPublicKey)).mapError fun e ↦
    .crypto ("OCSP: issuerKeyHash: " ++ e)
  return (nameHash, keyHash)

def checkIssuers (lib : OcspLibrary) (cert : CaCertificate) :
    List CertId → Except AcmeError Bool
  | [] => .ok true
  | id :: ids => do
      let expected ← computeIssuerHashes lib cert id.hashAlgOid
      if id.issuerNameHash ≠ expected.1 ∨ id.issuerKeyHash ≠ expected.2 then return false
      checkIssuers lib cert ids

def statusBySerial (db : Db) (serialHex : String) : OcspStatus :=
  match Certs.getBySerial db serialHex with
  | none => .unknown
  | some row => if row.status = .revoked then .revoked else .good

def singleResponse (db : Db) (now : Int) (id : CertId) : SingleResponse where
  certId := id
  status := statusBySerial db (hexEncode id.serial)
  thisUpdate := now
  nextUpdate := now + 86400

def handleOcspRequest (lib : OcspLibrary) (db : Db) (ca : CaState) (now : Int)
    (der : List UInt8) : Except AcmeError OcspResponse := do
  let entries ← (lib.fromDer der).mapError fun e ↦ .badRequest ("invalid OCSPRequest: " ++ e)
  if 10 < entries.length then
    throw (.badRequest ("OCSPRequest contains " ++ toString entries.length ++
      " entries; max allowed is 10"))
  if !(← checkIssuers lib ca.certificate entries) then return .unauthorized
  if ca.dogtag then throw (.internal "OCSP: CA has no local key")
  return .successful ca.certificate.subjectDer now (entries.map (singleResponse db now))

/-! ## What is asked and what is true -/

/-- The identification that RFC 6960 section 4.1.1 prescribes: the hash of the
name and the hash of the key's bits. -/
def rfcCertId (lib : OcspLibrary) (cert : CaCertificate) (oid : List ℕ) (serial : List UInt8) :
    Except String CertId := do
  let nameHash ← lib.hash oid cert.subjectDer
  let keyHash ← lib.hash oid cert.subjectPublicKey
  return { hashAlgOid := oid, issuerNameHash := nameHash, issuerKeyHash := keyHash,
           serial := serial }

def statusAt (db : Db) (caId serialHex : String) : OcspStatus :=
  if ∃ c ∈ db.certificates.rows,
      c.caId = caId ∧ c.serialNumber = serialHex ∧ c.status = .revoked then .revoked
  else if ∃ c ∈ db.certificates.rows, c.caId = caId ∧ c.serialNumber = serialHex then .good
  else .unknown

/-- The column `serial_number` is unique. -/
def SerialsUnique (db : Db) : Prop :=
  (db.certificates.rows.map CertificateRow.serialNumber).Nodup

def Answers (db : Db) (caId : String) (serials : List (List UInt8))
    (result : Except AcmeError OcspResponse) : Prop :=
  ∃ responder producedAt responses, result = .ok (.successful responder producedAt responses) ∧
    responses.map (fun r ↦ (r.certId.serial, r.status)) =
      serials.map fun s ↦ (s, statusAt db caId (hexEncode s))

section Lookup

variable {db : Db} {caId serialHex : String}

theorem getBySerial_eq_some_iff (hunique : SerialsUnique db) {row : CertificateRow} :
    Certs.getBySerial db serialHex = some row ↔
      row ∈ db.certificates.rows ∧ row.serialNumber = serialHex := by
  unfold Certs.getBySerial
  constructor
  · intro h
    exact ⟨mem_of_find?_eq_some h, by simpa using find?_some h⟩
  · rintro ⟨hrow, rfl⟩
    cases hfind : db.certificates.rows.find? fun c ↦ c.serialNumber == row.serialNumber with
    | none => simpa using find?_eq_none.mp hfind row hrow
    | some found =>
      have hserial : found.serialNumber = row.serialNumber := by
        simpa using find?_some hfind
      rw [inj_on_of_nodup_map hunique (mem_of_find?_eq_some hfind) hrow hserial]

theorem statusBySerial_eq_iff (hunique : SerialsUnique db) :
    statusBySerial db serialHex = statusAt db caId serialHex ↔
      ∀ c ∈ db.certificates.rows, c.serialNumber = serialHex → c.caId = caId := by
  have hfound := @getBySerial_eq_some_iff db serialHex hunique
  unfold statusBySerial statusAt
  cases hlookup : Certs.getBySerial db serialHex with
  | none =>
    have hnone : ∀ c ∈ db.certificates.rows, c.serialNumber ≠ serialHex := by
      intro c hc hserial
      simp [hfound.mpr ⟨hc, hserial⟩] at hlookup
    rw [if_neg fun ⟨c, hc, _, hserial, _⟩ ↦ hnone c hc hserial,
      if_neg fun ⟨c, hc, _, hserial⟩ ↦ hnone c hc hserial]
    exact ⟨fun _ c hc hserial ↦ absurd hserial (hnone c hc), fun _ ↦ rfl⟩
  | some row =>
    obtain ⟨hrow, hserial⟩ := hfound.mp hlookup
    have honly : ∀ c ∈ db.certificates.rows, c.serialNumber = serialHex → c = row := by
      intro c hc h
      exact Option.some.inj ((hfound.mpr ⟨hc, h⟩).symm.trans hlookup)
    by_cases hca : row.caId = caId
    · -- the CA's own row decides
      have hissued : ∃ c ∈ db.certificates.rows, c.caId = caId ∧ c.serialNumber = serialHex :=
        ⟨row, hrow, hca, hserial⟩
      have hrevoked : (∃ c ∈ db.certificates.rows, c.caId = caId ∧
          c.serialNumber = serialHex ∧ c.status = .revoked) ↔ row.status = .revoked :=
        ⟨fun ⟨c, hc, _, h, hstatus⟩ ↦ honly c hc h ▸ hstatus,
          fun hstatus ↦ ⟨row, hrow, hca, hserial, hstatus⟩⟩
      simp only [hrevoked, hissued, if_true, true_iff]
      exact fun c hc h ↦ honly c hc h ▸ hca
    · -- another CA's row is taken for this CA's
      have hnot : ¬ ∃ c ∈ db.certificates.rows, c.caId = caId ∧ c.serialNumber = serialHex :=
        fun ⟨c, hc, h, hs⟩ ↦ hca (honly c hc hs ▸ h)
      rw [if_neg fun ⟨c, hc, h, hs, _⟩ ↦ hnot ⟨c, hc, h, hs⟩, if_neg hnot]
      refine ⟨fun h ↦ ?_, fun h ↦ absurd (h row hrow hserial) hca⟩
      dsimp only at h
      split at h <;> cases h

end Lookup

section Issuer

variable {lib : OcspLibrary} {cert : CaCertificate}

theorem rfcCertId_eq_ok {oid : List ℕ} {serial : List UInt8} {id : CertId}
    (h : rfcCertId lib cert oid serial = .ok id) :
    id.hashAlgOid = oid ∧ id.serial = serial ∧ lib.hash oid cert.subjectDer = .ok id.issuerNameHash ∧
      lib.hash oid cert.subjectPublicKey = .ok id.issuerKeyHash := by
  obtain ⟨nameHash, hname, h⟩ := bind_eq_ok h
  obtain ⟨keyHash, hkey, h⟩ := bind_eq_ok h
  cases h
  exact ⟨rfl, rfl, hname, hkey⟩

/-- The responder accepts the entries whose hashes are those of its name and of
its key with the octet in front. -/
theorem checkIssuers_eq_true_iff {ids : List CertId} :
    checkIssuers lib cert ids = .ok true ↔ ∀ id ∈ ids,
      lib.hash id.hashAlgOid cert.subjectDer = .ok id.issuerNameHash ∧
        lib.hash id.hashAlgOid (0 :: cert.subjectPublicKey) = .ok id.issuerKeyHash := by
  induction ids with
  | nil => simp [checkIssuers]
  | cons id ids ih =>
    rw [forall_mem_cons, ← ih, checkIssuers]
    constructor
    · intro h
      obtain ⟨expected, hexpected, h⟩ := bind_eq_ok h
      obtain ⟨nameHash, hname, hexpected⟩ := bind_eq_ok hexpected
      obtain ⟨keyHash, hkey, hexpected⟩ := bind_eq_ok hexpected
      cases hexpected
      split at h
      · cases h
      · rename_i hsame
        simp only [not_or, not_not] at hsame
        rw [hsame.1, hsame.2]
        exact ⟨⟨mapError_eq_ok_iff.mp hname, mapError_eq_ok_iff.mp hkey⟩, h⟩
    · rintro ⟨⟨hname, hkey⟩, hrest⟩
      have hexpected : computeIssuerHashes lib cert id.hashAlgOid =
          .ok (id.issuerNameHash, id.issuerKeyHash) := by
        simp [computeIssuerHashes, hname, hkey, Except.mapError, bind, Except.bind, pure,
          Except.pure]
      simp [hexpected, bind, Except.bind, hrest]

end Issuer

section Request

variable {lib : OcspLibrary} {db : Db} {ca : CaState} {caId : String} {now : Int}
  {der : List UInt8} {ids : List CertId}

theorem handleOcspRequest_eq_ok_iff (hder : lib.fromDer der = .ok ids) (hlen : ids.length ≤ 10)
    {responder : List UInt8} {producedAt : Int} {responses : List SingleResponse} :
    handleOcspRequest lib db ca now der = .ok (.successful responder producedAt responses) ↔
      checkIssuers lib ca.certificate ids = .ok true ∧ ca.dogtag = false ∧
        responder = ca.certificate.subjectDer ∧ producedAt = now ∧
        responses = ids.map (singleResponse db now) := by
  have hstart : handleOcspRequest lib db ca now der = do
      if !(← checkIssuers lib ca.certificate ids) then return .unauthorized
      if ca.dogtag then throw (.internal "OCSP: CA has no local key")
      return .successful ca.certificate.subjectDer now (ids.map (singleResponse db now)) := by
    simp only [handleOcspRequest, hder, Except.mapError]
    exact if_neg (Nat.not_lt.mpr hlen)
  rw [hstart]
  cases hcheck : checkIssuers lib ca.certificate ids with
  | error => simp [bind, Except.bind]
  | ok accepted =>
    cases accepted with
    | false => simp [bind, Except.bind, pure, Except.pure]
    | true =>
      cases hremote : ca.dogtag with
      | true => simp [bind, Except.bind, throw, throwThe, MonadExceptOf.throw]
      | false =>
        simp only [bind, Except.bind, pure, Except.pure, Bool.not_true, Bool.false_eq_true,
          if_false, ok.injEq, OcspResponse.successful.injEq, true_and]
        exact ⟨fun ⟨h₁, h₂, h₃⟩ ↦ ⟨h₁.symm, h₂.symm, h₃.symm⟩,
          fun ⟨h₁, h₂, h₃⟩ ↦ ⟨h₁.symm, h₂.symm, h₃.symm⟩⟩

/-- Requests that follow RFC 6960 are answered rightly exactly when the CA signs
itself, the hash does not see the octet in front of the key, and no other CA has
issued the serial numbers. -/
theorem ocsp_answers_iff (hunique : SerialsUnique db) {asked : List (List ℕ × List UInt8)}
    (hlen : asked.length ≤ 10)
    (hids : asked.mapM (fun q ↦ rfcCertId lib ca.certificate q.1 q.2) = .ok ids)
    (hder : lib.fromDer der = .ok ids) :
    Answers db caId (asked.map Prod.snd) (handleOcspRequest lib db ca now der) ↔
      ca.dogtag = false ∧ ∀ q ∈ asked,
        lib.hash q.1 (0 :: ca.certificate.subjectPublicKey) =
            lib.hash q.1 ca.certificate.subjectPublicKey ∧
          ∀ c ∈ db.certificates.rows, c.serialNumber = hexEncode q.2 → c.caId = caId := by
  have hserials : ids.map CertId.serial = asked.map Prod.snd :=
    Except.map_of_mapM (fun q id h ↦ (rfcCertId_eq_ok h).2.1) hids
  have hlength : ids.length ≤ 10 := by
    rw [← List.length_map CertId.serial, hserials, List.length_map]
    exact hlen
  -- the issuer check compares with the key's hash with the octet
  have hissuers : checkIssuers lib ca.certificate ids = .ok true ↔ ∀ q ∈ asked,
      lib.hash q.1 (0 :: ca.certificate.subjectPublicKey) =
        lib.hash q.1 ca.certificate.subjectPublicKey := by
    rw [checkIssuers_eq_true_iff]
    constructor
    · intro h q hq
      obtain ⟨id, hid, hrfc⟩ := Except.exists_result_of_mem hids hq
      obtain ⟨hoid, -, -, hkey⟩ := rfcCertId_eq_ok hrfc
      rw [hkey, ← hoid]
      exact (h id hid).2
    · intro h id hid
      obtain ⟨q, hq, hrfc⟩ := Except.exists_of_mem_mapM hids hid
      obtain ⟨hoid, -, hname, hkey⟩ := rfcCertId_eq_ok hrfc
      rw [hoid]
      exact ⟨hname, (h q hq).trans hkey⟩
  have hstatuses : (ids.map (singleResponse db now)).map (fun r ↦ (r.certId.serial, r.status)) =
      (asked.map Prod.snd).map (fun s ↦ (s, statusAt db caId (hexEncode s))) ↔
        ∀ q ∈ asked, ∀ c ∈ db.certificates.rows,
          c.serialNumber = hexEncode q.2 → c.caId = caId := by
    have hleft : (ids.map (singleResponse db now)).map (fun r ↦ (r.certId.serial, r.status)) =
        (asked.map Prod.snd).map fun s ↦ (s, statusBySerial db (hexEncode s)) := by
      rw [← hserials, List.map_map, List.map_map]
      rfl
    rw [hleft, List.map_inj_left]
    simp only [List.forall_mem_map, Prod.mk.injEq, true_and, statusBySerial_eq_iff hunique]
  unfold Answers
  simp only [handleOcspRequest_eq_ok_iff hder hlength, hissuers]
  constructor
  · rintro ⟨_, _, _, ⟨hkeys, hlocal, rfl, rfl, rfl⟩, hanswers⟩
    exact ⟨hlocal, fun q hq ↦ ⟨hkeys q hq, hstatuses.mp hanswers q hq⟩⟩
  · rintro ⟨hlocal, h⟩
    exact ⟨_, _, _, ⟨fun q hq ↦ (h q hq).1, hlocal, rfl, rfl, rfl⟩,
      hstatuses.mpr fun q hq ↦ (h q hq).2⟩

end Request

/-! ## Two CAs -/

def sampleCa (key : List UInt8) : CaState where
  caaIdentities := []
  dogtag := false
  validityDays := 90
  enforceValidityCap := false
  certificate := ⟨[48, 0], key⟩

/-- A certificate of `ca` with serial number 10. -/
def issuedByCa : Db :=
  { Db.empty with
    certificates := ⟨[
      { id := "cert-1", orderId := "order-1", accountId := "acct-1", serialNumber := "0a"
        status := .valid, notBefore := 0, notAfter := 1000, revokedAt := none
        revocationReason := none, created := 0, replacedBy := none, caId := "ca" }], by simp⟩ }

/-- Every request is the one about `id`. -/
def sampleOcsp (hash : List UInt8 → List UInt8) (id : CertId) : OcspLibrary where
  fromDer _ := .ok [id]
  hash _ bytes := .ok (hash bytes)

/-- A hash that a leading zero does not change. -/
def checksum (bytes : List UInt8) : List UInt8 := [bytes.foldl (· + ·) 0]

/-- The CA does not recognise a request about its own certificate; and if the
hash is blind to the octet, a CA that has issued nothing answers for another
one's certificate. -/
theorem ocsp_answers_wrong :
    rfcCertId (sampleOcsp id ⟨[], [48, 0], [1, 2], [10]⟩) (sampleCa [1, 2]).certificate [] [10] =
        .ok ⟨[], [48, 0], [1, 2], [10]⟩ ∧
      handleOcspRequest (sampleOcsp id ⟨[], [48, 0], [1, 2], [10]⟩) issuedByCa (sampleCa [1, 2])
        0 [] = .ok .unauthorized ∧
      statusAt issuedByCa "ca" "0a" = .good ∧
      rfcCertId (sampleOcsp checksum ⟨[], [48], [7], [10]⟩) (sampleCa [7]).certificate [] [10] =
        .ok ⟨[], [48], [7], [10]⟩ ∧
      handleOcspRequest (sampleOcsp checksum ⟨[], [48], [7], [10]⟩) issuedByCa (sampleCa [7])
        0 [] = .ok (.successful [48, 0] 0 [⟨⟨[], [48], [7], [10]⟩, .good, 0, 86400⟩]) ∧
      statusAt issuedByCa "other" "0a" = .unknown := by
  refine ⟨by decide, by decide, by decide, by decide, by decide, by decide⟩

theorem ocsp_answers_own :
    Answers issuedByCa "ca" [[10]] (handleOcspRequest
      (sampleOcsp checksum ⟨[], [48], [7], [10]⟩) issuedByCa (sampleCa [7]) 0 []) := by
  have hiff := @ocsp_answers_iff (sampleOcsp checksum ⟨[], [48], [7], [10]⟩) issuedByCa
    (sampleCa [7]) "ca" 0 [] [⟨[], [48], [7], [10]⟩] (List.nodup_singleton _) [([], [10])]
    (by decide) (by decide) rfl
  exact hiff.mpr ⟨rfl, by decide⟩

end Akamu
