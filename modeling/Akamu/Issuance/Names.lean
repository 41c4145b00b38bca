import Akamu.Routes.Finalize

/-!
# Names in issued certificates

Where each name of a certificate comes from: the CSR, whose names
`validate_csr` compares with the order, or a claim of an authority token.  The
subject is outside that comparison.
-/

namespace Akamu

open Except (bind_eq_ok map_eq_ok)
open List

/-! ## Names attested by authority tokens -/

/-- A claim behind the authorization has a registered encoder that turns it
into the dns name. -/
def AttestsDns (env : Env) (db : Db) (a : AuthorizationRow) (name : String) : Prop :=
  ∃ registry blob entry, env.config.claimEncoderRegistry = some registry ∧
    tokenBlob db a = some blob ∧ entry ∈ blobEntries env.library blob ∧
    encodeEntry env.library registry entry = .ok (some (.dnsName name))

variable {env : Env} {db : Db} {a : AuthorizationRow} {sans : List EncodedSan} {name : String}
  {job : FinalizeJob}

theorem dnsName_mem_attestedSans_iff {registry : List (String × ClaimEncoder)}
    (hregistry : env.config.claimEncoderRegistry = some registry)
    (h : attestedSans env.library registry db a = .ok sans) :
    EncodedSan.dnsName name ∈ sans ↔ AttestsDns env db a name := by
  unfold attestedSans at h
  unfold AttestsDns
  split at h
  · rename_i hblob
    cases h
    simp [hblob]
  · rename_i blob hblob
    obtain ⟨encoded, hencoded, h⟩ := bind_eq_ok h
    cases h
    rw [Except.mem_filterMap_of_mapM hencoded]
    simp [hregistry, hblob]

theorem mem_contributions_iff {orderId : String}
    {tokens : List (AuthorizationRow × List EncodedSan)}
    (h : contributions env db orderId = .ok tokens) :
    (a, sans) ∈ tokens ↔ a ∈ validAuthz db orderId ∧
      ∃ registry, env.config.claimEncoderRegistry = some registry ∧
        attestedSans env.library registry db a = .ok sans := by
  unfold contributions at h
  split at h
  · rename_i hnone
    cases h
    simp [hnone]
  · rename_i registry hregistry
    constructor
    · intro hmem
      obtain ⟨a', ha', hmap⟩ := Except.exists_of_mem_mapM h hmem
      obtain ⟨sans', hsans', heq⟩ := map_eq_ok hmap
      cases heq
      exact ⟨ha', registry, hregistry, hsans'⟩
    · rintro ⟨ha, registry', hregistry', hsans⟩
      rw [hregistry] at hregistry'
      cases hregistry'
      obtain ⟨c, hc, hmap⟩ := Except.exists_result_of_mem h ha
      rw [hsans] at hmap
      cases hmap
      exact hc

variable {allowed : List Identifier} {inj : SanInjection}

theorem mem_injectedDnsNames_iff :
    name ∈ injectedDnsNames allowed a sans ↔ EncodedSan.dnsName name ∈ sans ∧
      (⟨.dns, name⟩ ∈ allowed → a.identifier.type = .enhancedJwtClaimConstraints) := by
  unfold injectedDnsNames
  rw [mem_filterMap]
  constructor
  · rintro ⟨s, hs, hname⟩
    cases s with
    | otherName => cases hname
    | dnsName =>
      dsimp only at hname
      split_ifs at hname with hin
      cases hname
      refine ⟨hs, fun hallowed ↦ ?_⟩
      simpa [hallowed] using hin
  · rintro ⟨hs, hin⟩
    refine ⟨_, hs, ?_⟩
    dsimp only
    rw [if_neg]
    simp only [bne_iff_ne, contains_eq_mem, Bool.and_eq_true, decide_eq_true_eq, not_and]
    exact fun hne hallowed ↦ hne (hin hallowed)

theorem mem_extraDnsNames_iff (h : injectTemplateAndTkauthSans env db job = .ok inj) :
    name ∈ inj.extraDnsNames ↔ ∃ a ∈ validAuthz db job.order.id, AttestsDns env db a name ∧
      (⟨.dns, name⟩ ∈ job.allowed → a.identifier.type = .enhancedJwtClaimConstraints) := by
  obtain ⟨template, -, h⟩ := bind_eq_ok h
  obtain ⟨principal, -, h⟩ := bind_eq_ok h
  obtain ⟨tokens, htokens, h⟩ := bind_eq_ok h
  obtain ⟨_, -, h⟩ := bind_eq_ok h
  cases h
  simp only [mem_flatMap, Prod.exists, mem_contributions_iff htokens,
    mem_injectedDnsNames_iff]
  constructor
  · rintro ⟨a, sans, ⟨ha, registry, hregistry, hsans⟩, hname, hin⟩
    exact ⟨a, ha, (dnsName_mem_attestedSans_iff hregistry hsans).mp hname, hin⟩
  · rintro ⟨a, ha, hattests, hin⟩
    obtain ⟨registry, -, -, hregistry, -⟩ := id hattests
    -- the call succeeded, so the row's claims were encoded
    obtain ⟨sans, hsans⟩ : ∃ sans, attestedSans env.library registry db a = .ok sans := by
      simp only [contributions, hregistry] at htokens
      obtain ⟨c, -, hmap⟩ := Except.exists_result_of_mem htokens ha
      obtain ⟨sans, hsans, -⟩ := map_eq_ok hmap
      exact ⟨sans, hsans⟩
    exact ⟨a, sans, ⟨ha, registry, hregistry, hsans⟩,
      (dnsName_mem_attestedSans_iff hregistry hsans).mpr hattests, hin⟩

/-! ## The names of a certificate -/

def DogtagKeepsNames (lib : Library) : Prop :=
  ∀ csrDer cert parsed, lib.issueViaDogtag csrDer = .ok cert → lib.parseCsr csrDer = .ok parsed →
    ∀ n ∈ cert.san, (∃ der, n = .otherName der) ∨
      ∃ c ∈ parsed.sans, ∃ san, parseSan lib c = .ok (some san) ∧ n.Matches lib san

theorem parsed_of_validateCsr {lib : Library} {csrDer : List UInt8} {csr : ValidatedCsr}
    (h : validateCsr lib csrDer allowed = .ok csr) :
    ∃ parsed, lib.parseCsr csrDer = .ok parsed ∧ csr.subject = parsed.subject ∧
      ∀ san, san ∈ csr.sans ↔ ∃ c ∈ parsed.sans, parseSan lib c = .ok (some san) := by
  obtain ⟨parsed, hparsed, h⟩ := bind_eq_ok h
  obtain ⟨entries, hentries, h⟩ := bind_eq_ok h
  obtain ⟨_, -, h⟩ := bind_eq_ok h
  obtain ⟨_, -, h⟩ := bind_eq_ok h
  cases h
  exact ⟨parsed, hparsed, rfl, fun san ↦ Except.mem_filterMap_of_mapM hentries⟩

variable {cert : IssuedCert}

/-- A local certificate carries the CSR's subject; its names are the CSR's,
further `otherName`s and the added dns names. -/
theorem local_names {now : Int} (hlocal : signsRemotely env job.order = false)
    (h : issueLeafCertificate env now job inj = .ok cert) :
    cert.subject = job.csr.subject ∧ ∀ n, n ∈ cert.san ↔
      (∃ san ∈ job.csr.sans, sanOfEntry env.library san = .ok (some n)) ∨
        n ∈ inj.extraOtherNames.map .otherName ∨ n ∈ inj.extraDnsNames.map .dnsName := by
  rcases issueLeafCertificate_eq_ok h with ⟨hremote, -⟩ | ⟨-, ca, -, hissue⟩
  · simp [hlocal] at hremote
  · exact (issueWithParams_eq_ok hissue).2

/-- A name of a certificate: an identifier of the order, a dns name added under
a valid authorization, or an `otherName`. -/
theorem name_of_issued {reads : FinalizeReads} {lookup : Caa.Lookup} {req : FinalizeRequest}
    (hdogtag : DogtagKeepsNames env.library)
    (h : finalizeOrder env reads lookup req = .ok (job, some cert)) {n : GeneralName}
    (hn : n ∈ cert.san) : (∃ id ∈ job.order.identifiers, n.Matches env.library id) ∨
      (signsRemotely env job.order = false ∧ ∃ name, n = .dnsName name ∧
        ∃ a ∈ validAuthz reads.sans job.order.id, AttestsDns env reads.sans a name) ∨
      ∃ der, n = .otherName der := by
  obtain ⟨hchecks, -, -, inj, hinj, hissue⟩ := finalizeOrder_issued h
  have hcsr := (checksPassed_of_finalizeChecks hchecks).csr
  have hallowed := mem_allowed_of_validateCsr hcsr
  rcases issueLeafCertificate_eq_ok hissue with ⟨-, hremote⟩ | ⟨hlocal, -⟩
  · obtain ⟨parsed, hparsed, -, hsans⟩ := parsed_of_validateCsr hcsr
    rcases hdogtag _ _ _ hremote hparsed n hn with hother | ⟨c, hc, san, hsan, hmatch⟩
    · exact Or.inr (Or.inr hother)
    · exact Or.inl ⟨san, hallowed san ((hsans san).mpr ⟨c, hc, hsan⟩), hmatch⟩
  · obtain ⟨-, hnames⟩ := local_names hlocal hissue
    rcases (hnames n).mp hn with ⟨san, hsan, hentry⟩ | hother | hdns
    · exact Or.inl ⟨san, hallowed san hsan, matches_of_sanOfEntry hentry⟩
    · obtain ⟨der, -, rfl⟩ := mem_map.mp hother
      exact Or.inr (Or.inr ⟨der, rfl⟩)
    · obtain ⟨name, hname, rfl⟩ := mem_map.mp hdns
      obtain ⟨a, ha, hattests, -⟩ := (mem_extraDnsNames_iff hinj).mp hname
      exact Or.inr (Or.inl ⟨hlocal, name, rfl, a, ha, hattests⟩)

/-! ## Authorized names -/

/-- The name is an identifier of the order, or a dns name that the authority
token of one of the order's valid authorizations attests. -/
def NameAuthorized (env : Env) (db : Db) (order : OrderRow) (n : GeneralName) : Prop :=
  (∃ id ∈ order.identifiers, n.Matches env.library id) ∨
    ∃ name, n = .dnsName name ∧ ∃ a ∈ validAuthz db order.id, AttestsDns env db a name

/-- The same for a commonName, which has no type of its own. -/
def CommonNameAuthorized (env : Env) (db : Db) (order : OrderRow) (cn : String) : Prop :=
  (∃ id ∈ order.identifiers, id.value = cn) ∨
    ∃ a ∈ validAuthz db order.id, AttestsDns env db a cn

/-- Every dns name, address and mailbox in the subjectAltName and every
commonName is authorized. -/
def NamesAuthorized (env : Env) (db : Db) (order : OrderRow) (cert : IssuedCert) : Prop :=
  (∀ n ∈ cert.san, (∀ der, n ≠ .otherName der) → NameAuthorized env db order n) ∧
    ∀ cn ∈ cert.subject.commonNames, CommonNameAuthorized env db order cn

/-- A CSR for `a.example` whose subject claims to be `b.example`. -/
def foreignCsr : ParsedCsr where
  subject := { der := ascii "CN=b.example", commonNames := ["b.example"] }
  sans := [.dnsName (ascii "a.example")]
  caCert := false
  keyType := none

def foreignEnv : Env where
  config := Config.plain
  library :=
    { Library.plain with
      parseCsr := fun der ↦
        if der = ascii "csr" then .ok foreignCsr else .error (.badCsr "CSR does not decode")
      issueViaDogtag := fun der ↦
        if der = ascii "csr" then .ok
          { id := "cert-9", serialHex := "09", notBefore := 0, notAfter := 1000
            subject := foreignCsr.subject, san := [.dnsName "a.example"] }
        else .error (.badCsr "CSR does not decode") }

def foreignOrder : OrderRow :=
  OrderRow.plain "order-1" "acct-1" "ca" .ready [⟨.dns, "a.example"⟩] 0 100

def foreignDb : Db :=
  { Db.empty with orders := { rows := [foreignOrder], nodup := by simp } }

def foreignRequest : FinalizeRequest where
  accountId := "acct-1"
  caId := "ca"
  orderId := "order-1"
  csr := "csr"

/-- The certificate says `b.example`, which nobody authorized. -/
theorem foreign_commonName_issued :
    ∃ job cert, finalizeOrder foreignEnv ⟨foreignDb, foreignDb, foreignDb, 0⟩ (fun _ ↦ .ok [])
        foreignRequest = .ok (job, some cert) ∧
      ¬ NamesAuthorized foreignEnv foreignDb job.order cert := by
  refine ⟨_, _, rfl, fun h ↦ ?_⟩
  rcases h.2 "b.example" (by decide) with ⟨id, hid, hvalue⟩ | ⟨a, ha, -⟩
  · cases List.mem_singleton.mp hid
    exact absurd hvalue (by decide)
  · cases ha

/-- The names in the subjectAltName are authorized, whatever the CSR; the
subject of a local certificate is the CSR's. -/
theorem san_authorized_of_finalize {env : Env} {reads : FinalizeReads} {lookup : Caa.Lookup}
    {req : FinalizeRequest} {job : FinalizeJob} {cert : IssuedCert}
    (hdogtag : DogtagKeepsNames env.library)
    (h : finalizeOrder env reads lookup req = .ok (job, some cert)) :
    (∀ n ∈ cert.san, (∀ der, n ≠ .otherName der) →
        NameAuthorized env reads.sans job.order n) ∧
      (signsRemotely env job.order = false →
        ∃ parsed, env.library.parseCsr job.csrDer = .ok parsed ∧
          cert.subject = parsed.subject) := by
  constructor
  · intro n hn hother
    rcases name_of_issued hdogtag h hn with hid | ⟨-, hattested⟩ | ⟨der, hder⟩
    · exact Or.inl hid
    · exact Or.inr hattested
    · exact (hother der hder).elim
  · intro hlocal
    obtain ⟨hchecks, -, -, inj, -, hissue⟩ := finalizeOrder_issued h
    obtain ⟨parsed, hparsed, hsubject, -⟩ :=
      parsed_of_validateCsr (checksPassed_of_finalizeChecks hchecks).csr
    exact ⟨parsed, hparsed, (local_names hlocal hissue).1.trans hsubject⟩

theorem foreignEnv_dogtagKeepsNames : DogtagKeepsNames foreignEnv.library := by
  intro csrDer cert parsed hissue hparse n hn
  dsimp only [foreignEnv] at hissue hparse
  split at hissue
  · rename_i hder
    rw [if_pos hder] at hparse
    cases hissue
    cases hparse
    cases mem_singleton.mp hn
    exact Or.inr ⟨_, mem_singleton_self _, ⟨.dns, "a.example"⟩, rfl, rfl⟩
  · cases hissue

theorem foreign_csr_san_authorized :
    ∃ job cert, finalizeOrder foreignEnv ⟨foreignDb, foreignDb, foreignDb, 0⟩ (fun _ ↦ .ok [])
        foreignRequest = .ok (job, some cert) ∧
      NameAuthorized foreignEnv foreignDb job.order (.dnsName "a.example") := by
  obtain ⟨job, cert, hissued, hname⟩ : ∃ job cert,
      finalizeOrder foreignEnv ⟨foreignDb, foreignDb, foreignDb, 0⟩ (fun _ ↦ .ok [])
        foreignRequest = .ok (job, some cert) ∧ GeneralName.dnsName "a.example" ∈ cert.san :=
    ⟨_, _, rfl, List.mem_singleton_self _⟩
  exact ⟨job, cert, hissued,
    (san_authorized_of_finalize foreignEnv_dogtagKeepsNames hissued).1 _ hname (by simp)⟩

end Akamu
