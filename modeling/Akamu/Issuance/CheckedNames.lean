import Akamu.Issuance.Names

/-!
# Names and the checks of a finalize call

CAA checking and the issuance policy look at the identifiers of the order.
Names added from authority tokens come later, so they are covered by the checks
only when the order names them too.
-/

namespace Akamu

open Except List

def CaaChecked (env : Env) (db : Db) (lookup : Caa.Lookup) (job : FinalizeJob)
    (name : String) : Prop :=
  ∃ inputs p, caaInputs env db job = .ok inputs ∧ p ∈ inputs ∧ p.domain = bareName name ∧
    p.isWildcard = isWildcard name ∧ Caa.checkCaa env.library lookup p = .ok ()

/-- The name is one of the identifiers handed to the policy engine, which
allowed it. -/
def PolicyEvaluated (env : Env) (db : Db) (job : FinalizeJob) (name : String) : Prop :=
  ⟨.dns, name⟩ ∈ job.allowed ∧ ∃ profile, env.library.policyAllows
    { policyBase env.library db job.order.accountId job.order.caId profile job.csr.keyType with
      identifier := some ⟨.dns, name⟩ } = .ok true

variable {env : Env} {db : Db} {job : FinalizeJob} {lookup : Caa.Lookup}

theorem caaInputs_of_check (hcaa : effectiveCaa env job.order.caId ≠ [])
    (h : checkCaaForOrder env db lookup job = .ok ()) :
    ∃ inputs, caaInputs env db job = .ok inputs ∧
      ∀ p ∈ inputs, Caa.checkCaa env.library lookup p = .ok () := by
  unfold checkCaaForOrder at h
  rw [if_neg (by simpa using hcaa)] at h
  obtain ⟨inputs, hinputs, h⟩ := bind_eq_ok h
  exact ⟨inputs, hinputs, forM_eq_ok_iff.mp h⟩

theorem caaChecked_of_mem (hcaa : effectiveCaa env job.order.caId ≠ [])
    (h : checkCaaForOrder env db lookup job = .ok ()) {name : String}
    (hname : ⟨.dns, name⟩ ∈ job.allowed) : CaaChecked env db lookup job name := by
  obtain ⟨inputs, hinputs, hpassed⟩ := caaInputs_of_check hcaa h
  have hdns : (⟨.dns, name⟩ : Identifier) ∈ dnsIdentifiers job.allowed :=
    mem_filter.mpr ⟨hname, rfl⟩
  obtain ⟨p, hp, hparams⟩ := exists_result_of_mem hinputs hdns
  obtain ⟨challengeType, -, rfl⟩ := map_eq_ok hparams
  exact ⟨inputs, _, hinputs, hp, rfl, rfl, hpassed _ hp⟩

theorem policyAllows_of_mem {accountId caId : String} {profile keyType : Option String}
    {allowed : List Identifier} (hmode : env.config.policyMode = .enforce)
    (h : evaluateIssuancePolicy env db accountId caId profile keyType allowed = .ok ())
    {id : Identifier} (hid : id ∈ allowed) :
    env.library.policyAllows { policyBase env.library db accountId caId profile keyType with
      identifier := some id } = .ok true := by
  unfold evaluateIssuancePolicy at h
  rw [if_neg (by simp [hmode])] at h
  split at h
  · cases h
  · split at h
    · cases h
    · rename_i decisions hdecisions
      split_ifs at h with hall
      unfold policyDecisions at hdecisions
      rw [if_neg (by simpa using ne_nil_of_mem hid)] at hdecisions
      obtain ⟨b, hb, hallows⟩ := exists_result_of_mem hdecisions hid
      rw [hallows]
      exact congrArg Except.ok (by simpa using all_eq_true.mp hall b hb)

theorem policyEvaluated_of_mem {req : FinalizeRequest} (hmode : env.config.policyMode = .enforce)
    (h : ChecksPassed env db req job) {name : String} (hname : ⟨.dns, name⟩ ∈ job.allowed) :
    PolicyEvaluated env db job name := by
  obtain ⟨profile, hpolicy⟩ := h.policy
  rw [← h.accountId] at hpolicy
  exact ⟨hname, profile, policyAllows_of_mem hmode hpolicy hname⟩

/-- The dns names of the certificate were all checked exactly when the tokens
attest no dns name beyond the order's identifiers (a remote CA does not see the
attested names). -/
theorem dnsNames_checked_iff {env : Env} {reads : FinalizeReads} {lookup : Caa.Lookup}
    {req : FinalizeRequest} {job : FinalizeJob} {cert : IssuedCert}
    (hdogtag : DogtagKeepsNames env.library)
    (hcaa : effectiveCaa env job.order.caId ≠ []) (hmode : env.config.policyMode = .enforce)
    (h : finalizeOrder env reads lookup req = .ok (job, some cert)) :
    (∀ name, .dnsName name ∈ cert.san →
        CaaChecked env reads.caa lookup job name ∧ PolicyEvaluated env reads.checks job name) ↔
      signsRemotely env job.order = true ∨
        ∀ a ∈ validAuthz reads.sans job.order.id, ∀ name, AttestsDns env reads.sans a name →
          ⟨.dns, name⟩ ∈ job.order.identifiers := by
  obtain ⟨hchecks, -, hcaaPassed, inj, hinj, hissue⟩ := finalizeOrder_issued h
  constructor
  · intro hall
    rw [or_iff_not_imp_left]
    intro hlocal a ha name hattests
    by_contra hforeign
    have hinjected : name ∈ inj.extraDnsNames :=
      (mem_extraDnsNames_iff hinj).mpr ⟨a, ha, hattests, fun hin ↦ (hforeign hin).elim⟩
    have hsan : .dnsName name ∈ cert.san :=
      ((local_names (Bool.eq_false_iff.mpr hlocal) hissue).2 _).mpr
        (Or.inr (Or.inr (List.mem_map_of_mem hinjected)))
    exact hforeign (hall name hsan).2.1
  · intro hcond name hname
    have hallowed : ⟨.dns, name⟩ ∈ job.allowed := by
      rcases name_of_issued hdogtag h hname with ⟨id, hid, hmatch⟩ | ⟨hlocal, n, hn, a, ha, hattests⟩ |
        ⟨der, hder⟩
      · cases hmatch
        exact hid
      · cases hn
        exact hcond.resolve_left (Bool.eq_false_iff.mp hlocal) a ha name hattests
      · cases hder
    exact ⟨caaChecked_of_mem hcaa hcaaPassed hallowed,
      policyEvaluated_of_mem hmode (checksPassed_of_finalizeChecks hchecks) hallowed⟩

/-! A token whose one claim, `sub`, attests the dns name `svc.example`; the
order may or may not ask for that name itself. -/

def tokenEnv : Env where
  config :=
    { Config.plain with
      tkauthEnabled := true
      claimEncoderRegistry := some [("sub", .dnsSan)]
      caaIdentities := ["ca.example"] }
  library :=
    { Library.plain with
      constraintEntries := fun raw ↦
        if raw = ascii "blob" then some [("sub", ["svc.example"])] else none
      parseCsr := fun der ↦
        if der = ascii "csr" then .ok
          { subject := ⟨[], []⟩, sans := [], caCert := false, keyType := none }
        else if der = ascii "csr-svc" then .ok
          { subject := ⟨[], []⟩, sans := [.dnsName (ascii "svc.example")], caCert := false
            keyType := none }
        else .error (.badCsr "CSR does not decode") }

def tokenDb (identifiers : List Identifier) : Db :=
  { Db.empty with
    orders :=
      { rows := [OrderRow.plain "order-1" "acct-1" "ca" .ready identifiers 0 100]
        nodup := by simp }
    authorizations :=
      { rows :=
          [{ id := "authz-1", orderId := some "order-1", accountId := "acct-1", status := .valid
             identifier := ⟨.jwtClaimConstraints, "blob"⟩, expires := some 100, wildcard := false
             subdomainAuthAllowed := false, created := 0, updated := 0, caId := "ca" }]
        nodup := by simp } }

def tokenReads (identifiers : List Identifier) : FinalizeReads where
  checks := tokenDb identifiers
  caa := tokenDb identifiers
  sans := tokenDb identifiers

def tokenRequest (csr : String) : FinalizeRequest where
  accountId := "acct-1"
  caId := "ca"
  orderId := "order-1"
  csr := csr

/-- The order asks for the token identifier alone; the certificate is for
`svc.example`, and neither check has seen that name. -/
theorem token_dnsName_unchecked :
    ∃ job cert, finalizeOrder tokenEnv (tokenReads [⟨.jwtClaimConstraints, "blob"⟩])
        (fun _ ↦ .ok []) (tokenRequest "csr") = .ok (job, some cert) ∧
      effectiveCaa tokenEnv job.order.caId ≠ [] ∧ tokenEnv.config.policyMode = .enforce ∧
      .dnsName "svc.example" ∈ cert.san ∧
      ¬ CaaChecked tokenEnv (tokenDb [⟨.jwtClaimConstraints, "blob"⟩]) (fun _ ↦ .ok []) job
        "svc.example" ∧
      ¬ PolicyEvaluated tokenEnv (tokenDb [⟨.jwtClaimConstraints, "blob"⟩]) job "svc.example" := by
  refine ⟨_, _, rfl, by decide, rfl, List.mem_singleton_self _, ?_, ?_⟩
  · rintro ⟨inputs, p, hinputs, hp, -⟩
    cases hinputs
    cases hp
  · rintro ⟨hallowed, -⟩
    exact absurd hallowed (by decide)

theorem tokenEnv_dogtagKeepsNames : DogtagKeepsNames tokenEnv.library := by
  intro csrDer cert parsed hissue
  cases hissue

/-- With `svc.example` among the identifiers the token adds nothing new. -/
theorem token_dnsName_checked :
    ∃ job cert, finalizeOrder tokenEnv
        (tokenReads [⟨.jwtClaimConstraints, "blob"⟩, ⟨.dns, "svc.example"⟩])
        (fun _ ↦ .ok []) (tokenRequest "csr-svc") = .ok (job, some cert) ∧
      (∀ name, .dnsName name ∈ cert.san →
        CaaChecked tokenEnv (tokenDb [⟨.jwtClaimConstraints, "blob"⟩, ⟨.dns, "svc.example"⟩])
          (fun _ ↦ .ok []) job name ∧
        PolicyEvaluated tokenEnv (tokenDb [⟨.jwtClaimConstraints, "blob"⟩, ⟨.dns, "svc.example"⟩])
          job name) := by
  obtain ⟨job, cert, hissued, hcaa, hid, hmem⟩ : ∃ job cert, finalizeOrder tokenEnv
      (tokenReads [⟨.jwtClaimConstraints, "blob"⟩, ⟨.dns, "svc.example"⟩])
      (fun _ ↦ .ok []) (tokenRequest "csr-svc") = .ok (job, some cert) ∧
      effectiveCaa tokenEnv job.order.caId ≠ [] ∧ job.order.id = "order-1" ∧
      ⟨.dns, "svc.example"⟩ ∈ job.order.identifiers :=
    ⟨_, _, rfl, by decide, rfl, by decide⟩
  refine ⟨job, cert, hissued,
    (dnsNames_checked_iff tokenEnv_dogtagKeepsNames hcaa rfl hissued).mpr (Or.inr ?_)⟩
  rintro a ha name ⟨registry, blob, entry, hregistry, hblob, hentry, hencoded⟩
  rw [hid] at ha
  cases hregistry
  cases List.mem_singleton.mp ha
  cases hblob
  cases List.mem_singleton.mp hentry
  cases hencoded
  exact hmem

end Akamu
