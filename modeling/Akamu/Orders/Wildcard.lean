import Akamu.Orders.Coverage

/-!
# How wildcard names are validated

The challenge types for wildcards are chosen by the value that an authorization
is created for.  A wildcard whose authorization is created for an ancestor, or
that reuses one, is covered by a name that is no wildcard.
-/

namespace Akamu

open Crdt Machine Node

/-- The validation is one that a wildcard may rest on. -/
structure WildcardValidated (env : Env) (id : Identifier) (job : ValidationJob)
    (evidence : List String) : Prop where
  offered : job.type ∈ eligibleChallengeTypes env.config id
  notHttp01 : job.type ≠ .http01
  notTlsAlpn01 : job.type ≠ .tlsAlpn01
  policy : job.type = .dnsPersist01 → ∃ record ∈ evidence, ∃ clock,
    DnsPersist01.matchesRecord env.library.toLowercase (Text.trim record)
      env.config.dnsPersistIssuerDomains job.accountUri true clock = true ∧
    DnsPersist01.CarriesWildcardPolicy (Text.trim record)

/-! ## The side conditions -/

/-- A wildcard is requested without `ancestorDomain`, and not below an onion
address that is validated over Tor. -/
def RequestedIdentifier.validatesAsWildcard (env : Env) (r : RequestedIdentifier) : Bool :=
  !(r.type == .dns && isWildcard r.value) ||
    r.ancestorDomain.isNone && !(isOnionDomain r.value && env.config.torConnectivityEnabled)

/-- The authorizations that the search for an ancestor of a wildcard may return
have been validated by dns-01 alone. -/
def ReusesDns01 (env : Env) (db : Db) (d : OrderDraft) (r : RequestedIdentifier) : Prop :=
  mayReuse env r = true → isWildcard r.value = true →
    ∀ remaining ∈ Text.ancestorDomains r.value, ∀ a ∈ db.authorizations.rows,
      Authz.isSubdomainAncestor d.accountId remaining d.caId d.now a = true →
        ∀ c ∈ db.challenges.rows, c.authzId = a.id → c.status = .valid → c.type = .dns01

def Txn.revalidates (db : Db) : Txn → Bool
  | .onValid job _ _ =>
    processing db job.challengeId && db.authorizations.rows.any fun a ↦
      a.id == job.authzId && a.status != .pending && a.subdomainAuthAllowed
  | _ => false

@[mk_iff]
structure KeepsWildcards (env : Env) (s : Node) (e : Event) : Prop where
  writesBack : WritesBackAgreeing s e
  requested : ∀ r ∈ e.requested, r.validatesAsWildcard env = true
  reused : ∀ p ∈ s.covering e, ReusesDns01 env s.db p.1 p.2
  validated : ∀ t ∈ s.attempt e, t.revalidates s.db = false

instance (env : Env) (db : Db) (d : OrderDraft) (r : RequestedIdentifier) :
    Decidable (ReusesDns01 env db d r) :=
  inferInstanceAs (Decidable (_ → _ → _))

instance (env : Env) (s : Node) (e : Event) : Decidable (KeepsWildcards env s e) :=
  decidable_of_iff' _ (keepsWildcards_iff ..)

/-! ## Authorizations validated by dns-01 alone -/

structure Dns01Only (db : Db) (authzId : String) : Prop where
  settled : ∃ a ∈ db.authorizations.rows, a.id = authzId ∧ a.subdomainAuthAllowed = true ∧
    a.status ≠ .pending
  valid : ∃ c ∈ db.challenges.rows, c.authzId = authzId ∧ c.status = .valid
  dns01 : ∀ c ∈ db.challenges.rows, c.authzId = authzId → c.status = .valid → c.type = .dns01

def Assumed.wildcard (env : Env) : Assumed where
  requested r := r.validatesAsWildcard env = true
  reused db id authzId := isWildcard id.value = true →
    isOnionDomain id.value = false ∧ Dns01Only db authzId

section Step

variable {env : Env} {H : Assumed} {s : Node} {e : Event}

theorem pending_onAuthz {db : Db} {t : Txn} {a : AuthorizationRow}
    (h : (t.onAuthz db a).status = .pending) : a.status = .pending := by
  cases t with
  | onValid | onInvalid =>
    simp only [Txn.onAuthz] at h
    split at h
    · cases h
    · exact h
  | _ => exact h

theorem Dns01Only.exec {db db' : Db} {t : Txn} {authzId : String} (h : Dns01Only db authzId)
    (hwrites : Writes env.decodeNull db t db') (hsound : TxnSound env H db t)
    (hok : t.revalidates db = false) : Dns01Only db' authzId := by
  obtain ⟨⟨a, ha, haid, hflag, hsettled⟩, ⟨c, hc, hcauthz, hcvalid⟩, hdns⟩ := h
  have hafixed := t.fixed_onAuthz db a
  have hcfixed := t.fixed_onChallenge
  refine ⟨⟨t.onAuthz db a, (hwrites.authorizations _).mpr (.inl ⟨a, ha, rfl⟩), ?_, ?_, ?_⟩,
    ⟨t.onChallenge c, (hwrites.challenges _).mpr (.inl ⟨c, hc, rfl⟩), ?_, ?_⟩, ?_⟩
  · exact (congrArg AuthorizationRow.id hafixed).trans haid
  · exact (congrArg AuthorizationRow.subdomainAuthAllowed hafixed).trans hflag
  · exact fun hpending ↦ hsettled (pending_onAuthz hpending)
  · exact (congrArg ChallengeRow.authzId (hcfixed c)).trans hcauthz
  · exact valid_onChallenge.mpr (.inl hcvalid)
  · intro c' hc' hauthz hvalid
    rcases (hwrites.challenges c').mp hc' with ⟨c₀, hc₀, rfl⟩ | hnew
    · have hauthz₀ : c₀.authzId = authzId :=
        (congrArg ChallengeRow.authzId (hcfixed c₀)).symm.trans hauthz
      rcases valid_onChallenge.mp hvalid with hvalid₀ | ⟨job, evidence, now, rfl, hid, hproc⟩
      · exact (congrArg ChallengeRow.type (hcfixed c₀)).trans (hdns c₀ hc₀ hauthz₀ hvalid₀)
      · -- the success would be a second one for this authorization
        obtain ⟨⟨c₁, hc₁, hid₁, hauthz₁, -⟩, -⟩ := hsound.1
        obtain rfl : c₁ = c₀ := db.challenges.eq_of_mem_of_key_eq hc₁ hc₀ (hid₁.trans hid.symm)
        have hagain : Txn.revalidates db (.onValid job evidence now) = true := by
          simp only [Txn.revalidates, processing_iff.mpr ⟨c₁, hc₁, hid, hproc⟩, Bool.true_and,
            List.any_eq_true]
          exact ⟨a, ha, by simp [haid, ← hauthz₁, hauthz₀, hsettled, hflag]⟩
        simp [hok] at hagain
    · obtain ⟨plan, -, -, now, hc'⟩ := hsound.plan_of_newChallenge hnew
      obtain ⟨p, -, rfl⟩ := List.mem_map.mp hc'
      cases hvalid

theorem challenge_of_validates (hledger : Ledger env s) (hsound : s.Sound env H)
    {authzId : String} {job : ValidationJob} {evidence : List String}
    (h : s.Validates authzId job evidence) : ∃ c ∈ s.db.challenges.rows,
      c.authzId = authzId ∧ c.status = .valid ∧ c.type = job.type := by
  obtain ⟨now, out, hmem, hhit, hjob⟩ := h
  obtain ⟨c, hc, hid, hvalid⟩ := hledger.recorded job evidence now out hmem hhit
  obtain ⟨⟨⟨c', hc', hid', hauthz, htype⟩, -⟩, -⟩ := hsound.log _ hmem
  obtain rfl : c' = c := s.db.challenges.eq_of_mem_of_key_eq hc' hc (hid'.trans hid.symm)
  exact ⟨c', hc', hauthz.trans hjob, hvalid, htype⟩

theorem admits_wildcard (hledger : Ledger env s) (hsound : s.Sound env (.wildcard env))
    (hok : KeepsWildcards env s e) : Admits env (.wildcard env) s e where
  requested := hok.requested
  reused d r hcovering row hfind hwild := by
    obtain ⟨hreusable, a, ha, hid, haccount, hflag, hca, hvalid, hunexpired, remaining, hmem,
      hident⟩ := findReusable_eq_some hfind
    refine ⟨(mayReuse_iff.mp hreusable).2.2.1, ?_⟩
    rw [← hid]
    obtain ⟨job, evidence, hvalidates⟩ := hledger.validated a ha hvalid
    obtain ⟨c, hc, hauthz, hcvalid, -⟩ := challenge_of_validates hledger hsound hvalidates
    refine ⟨⟨a, ha, rfl, hflag, by simp [hvalid]⟩, ⟨c, hc, hauthz, hcvalid⟩, ?_⟩
    refine hok.reused (d, r) hcovering hreusable hwild remaining hmem a ha ?_
    simp [Authz.isSubdomainAncestor, haccount, hident, hflag, hca, hvalid, hunexpired]

structure WildcardSound (env : Env) (s : Node) : Prop where
  sound : s.Sound env (.wildcard env)
  ledger : Ledger env s

theorem WildcardSound.step (h : WildcardSound env s) (hok : KeepsWildcards env s e) :
    WildcardSound env (Node.step env s e).1 where
  sound := by
    refine h.sound.step (admits_wildcard h.ledger h.sound hok)
      (extends_of_step hok.writesBack.quiet) fun id aid hreused hwild ↦ ?_
    obtain ⟨honion, hdns⟩ := hreused hwild
    refine ⟨honion, ?_⟩
    refine db_rule hdns fun t out db' hattempt hexec ↦ ?_
    exact hdns.exec (writes_of_exec hexec (hok.writesBack.quiet t hattempt))
      (h.sound.attempt hattempt) (hok.validated t hattempt)
  ledger := h.ledger.step h.sound hok.writesBack.quiet

end Step

/-! ## The validations behind a covered wildcard -/

section Covered

variable {env : Env} {s : Node} {orderId aid : String} {id : Identifier}

theorem wildcardType_of_eligible {t : ChallengeType} (htype : id.type = .dns)
    (hwild : isWildcard id.value = true)
    (honion : isOnionDomain id.value = true → env.config.torConnectivityEnabled = false)
    (h : t ∈ eligibleChallengeTypes env.config id) : t ≠ .http01 ∧ t ≠ .tlsAlpn01 := by
  cases hdomain : isOnionDomain id.value with
  | true =>
    have htypes : eligibleChallengeTypes env.config id = [.onionCsr01] := by
      simp [eligibleChallengeTypes, htype, hdomain, onionTypes, honion hdomain]
    rw [htypes] at h
    simp [List.mem_singleton.mp h]
  | false =>
    rw [eligible_of_wildcard htype hwild hdomain] at h
    rcases mem_wildcardDnsTypes h with rfl | rfl <;> simp

variable {job : ValidationJob} {evidence : List String}

variable (h : WildcardSound env s) (htype : id.type = .dns) (hwild : isWildcard id.value = true)

include h htype hwild

theorem WildcardSound.validated_own
    (honion : isOnionDomain id.value = true → env.config.torConnectivityEnabled = false)
    {a : AuthorizationRow} (ha : a ∈ s.db.authorizations.rows) (hident : a.identifier = id)
    (hv : s.Validates a.id job evidence) : WildcardValidated env id job evidence := by
  obtain ⟨now, out, hmem, -, hjob⟩ := hv
  obtain ⟨hmatches, hevidence⟩ := h.sound.log _ hmem
  obtain ⟨heligible, hjobIdent⟩ := h.ledger.eligible hmatches ha hjob
  rw [hident] at heligible hjobIdent
  obtain ⟨hhttp, halpn⟩ := wildcardType_of_eligible htype hwild honion heligible
  refine ⟨heligible, hhttp, halpn, fun hpersist ↦ ?_⟩
  obtain ⟨clock, hclock⟩ := hevidence hpersist
  rw [hjobIdent] at hclock
  obtain ⟨record, hrecord, hmatch, hpolicy⟩ :=
    DnsPersist01.exists_record_of_validate hwild hclock
  exact ⟨record, hrecord, clock, hmatch, hpolicy⟩

theorem WildcardSound.validated_reused (honion : isOnionDomain id.value = false)
    (hdns : Dns01Only s.db aid) (hv : s.Validates aid job evidence) :
    WildcardValidated env id job evidence := by
  obtain ⟨c, hc, hauthz, hvalid, hctype⟩ := challenge_of_validates h.ledger h.sound hv
  have hjob : job.type = .dns01 := hctype.symm.trans (hdns.dns01 c hc hauthz hvalid)
  refine ⟨?_, by simp [hjob], by simp [hjob], by simp [hjob]⟩
  rw [eligible_of_wildcard htype hwild honion, hjob, wildcardDnsTypes]
  split <;> simp

theorem WildcardSound.covered (hcovers : s.Covers orderId id aid) :
    (∃ a ∈ s.db.authorizations.rows, a.id = aid ∧ a.identifier = id ∧
        a.orderId = some orderId ∧
        (isOnionDomain id.value = true → env.config.torConnectivityEnabled = false)) ∨
      isOnionDomain id.value = false ∧ Dns01Only s.db aid := by
  obtain ⟨order, plans, covered, ⟨out, hlog⟩, rfl, hmem⟩ := Node.covers_iff.mp hcovers
  have hsound : NewOrderSound env (.wildcard env) s.db order plans covered := h.sound.log _ hlog
  cases hsound.covered _ hmem with
  | @own r plan hreq _ hplan hident _ =>
    obtain ⟨hnone, honion⟩ : r.ancestorDomain = none ∧
        (isOnionDomain r.value = true → env.config.torConnectivityEnabled = false) := by
      have htype' : r.type = .dns := htype
      have hwild' : isWildcard r.value = true := hwild
      simpa [Assumed.wildcard, RequestedIdentifier.validatesAsWildcard, htype', hwild',
        imp_iff_not_or] using hreq
    obtain ⟨a, ha, hfixed⟩ := (h.ledger.created order plans covered ⟨out, hlog⟩).2 plan hplan
    refine .inl ⟨a, ha, (congrArg AuthorizationRow.id hfixed :), ?_, ?_, honion⟩
    · refine (congrArg AuthorizationRow.identifier hfixed).trans (hident.trans ?_)
      simp [authzIdentifier, hnone, RequestedIdentifier.identifier]
    · exact (congrArg AuthorizationRow.orderId hfixed).trans (hsound.plans plan hplan).2.1
  | reused _ hreuse => exact .inr (hreuse hwild)

theorem WildcardSound.wildcardValidated (hcovers : s.Covers orderId id aid)
    (hv : s.Validates aid job evidence) : WildcardValidated env id job evidence := by
  rcases h.covered htype hwild hcovers with ⟨a, ha, rfl, hident, -, honion⟩ | ⟨honion, hdns⟩
  · exact h.validated_own htype hwild honion ha hident hv
  · exact h.validated_reused htype hwild honion hdns hv

theorem WildcardSound.exists_validates {o : OrderRow} (ho : o ∈ s.db.orders.rows)
    (hdelegation : o.delegationId = none) (hstatus : o.status.authorized)
    (hcovers : s.Covers o.id id aid) : ∃ job evidence, s.Validates aid job evidence := by
  rcases h.covered htype hwild hcovers with ⟨a, ha, rfl, -, howns, -⟩ | ⟨-, hdns⟩
  · exact h.ledger.validated a ha (h.ledger.ready o ho hdelegation hstatus a ha howns)
  · obtain ⟨c, hc, hauthz, hvalid⟩ := hdns.valid
    obtain ⟨job, evidence, now, out, hmem, hhit, hjob⟩ := h.ledger.decided c hc hvalid
    obtain ⟨⟨⟨c', hc', hid', hauthz', -⟩, -⟩, -⟩ := h.sound.log _ hmem
    obtain rfl : c' = c := s.db.challenges.eq_of_mem_of_key_eq hc' hc (hid'.trans hjob)
    exact ⟨job, evidence, now, out, hmem, hhit, hauthz'.symm.trans hauthz⟩

end Covered

/-- In every run that meets the side conditions: when `finalize_order` commits a
certificate, its order has an authorization listed for each identifier, the one
listed for a wildcard has been validated, and each of its validations is one that
a wildcard may rest on. -/
theorem wildcard_control {env : Env} {now : Int} {es : List Event} {e : Event}
    (hmeets : Meets (Node.step env) (KeepsWildcards env) (.boot env now) (es ++ [e]))
    {orderId : String} {issuedAt : Int}
    (hissued : (Node.step env (run (Node.step env) (.boot env now) es) e).2.issuance =
      some (orderId, issuedAt)) :
    ∃ o ∈ (run (Node.step env) (.boot env now) es).db.orders.rows, o.id = orderId ∧
      (o.delegationId = none → ∀ id ∈ o.identifiers,
        ∃ aid, (run (Node.step env) (.boot env now) es).Covers orderId id aid) ∧
      ∀ id aid, (run (Node.step env) (.boot env now) es).Covers orderId id aid → id.type = .dns →
        isWildcard id.value = true →
        (o.delegationId = none → ∃ job evidence,
          (run (Node.step env) (.boot env now) es).Validates aid job evidence) ∧
        ∀ job evidence, (run (Node.step env) (.boot env now) es).Validates aid job evidence →
          WildcardValidated env id job evidence := by
  rw [meets_append] at hmeets
  have h : WildcardSound env (run (Node.step env) (.boot env now) es) :=
    hmeets.1.invariant (WildcardSound env) ⟨Node.sound_boot env _ now, ledger_boot env now⟩
      fun s e h hok ↦ h.step hok
  obtain ⟨o, ho, rfl, hready⟩ := Node.ready_of_issuance hissued
  refine ⟨o, ho, rfl, fun hnone id hmem ↦ h.ledger.exists_covers h.sound ho hnone hmem,
    fun id aid hcovers htype hwild ↦ ⟨fun hnone ↦ ?_, fun job evidence hv ↦ ?_⟩⟩
  · exact h.exists_validates htype hwild ho hnone (.inl hready) hcovers
  · exact h.wildcardValidated htype hwild hcovers hv

/-! ## Wildcards that rest on http-01 -/

def Txn.validation : Txn → Option (ValidationJob × List String)
  | .onValid job evidence _ => some (job, evidence)
  | _ => none

theorem Node.validates_of_log {s : Node} {aid : String} {type : ChallengeType}
    (h : ∃ p ∈ s.log, ∃ v ∈ p.1.validation,
      p.2.hit = true ∧ v.1.authzId = aid ∧ v.1.type = type) :
    ∃ job evidence, s.Validates aid job evidence ∧ job.type = type := by
  obtain ⟨⟨t, out⟩, hmem, ⟨job, evidence⟩, hval, hhit, haid, htype⟩ := h
  cases t with
  | onValid job' evidence' now =>
    cases hval
    exact ⟨job, evidence, ⟨now, out, hmem, hhit, haid⟩, htype⟩
  | _ => cases hval

/-- Finalize an order, with the CSR written as in `Library.numbered`. -/
def issueFor (orderId csr : String) (now : Int) : List Event :=
  .request (.finalize { accountId := "acct-1", caId := "ca", orderId := orderId, csr := csr }) now ::
    drain 4 now

/-- `ancestorDomain` names the parent of the wildcard. -/
def wildcardAncestorEvents : List Event :=
  coverEvents ⟨.dns, "*.a.example", some "a.example"⟩ ++ issueFor "order-1" "1*.a.example" 4

def wildcardReuseEvents : List Event :=
  coverEvents ⟨.dns, "b.a.example", some "a.example"⟩ ++
    [.request (.newOrder "acct-1" "ca" (.plain [⟨.dns, "*.a.example", none⟩]) (.sample "2")) 4] ++
    drain 5 4 ++ issueFor "order-2" "1*.a.example" 5

def onionWildcard : String := "*." ++ String.ofList (List.replicate 56 'a') ++ ".onion"

def wildcardOnionEvents : List Event :=
  coverEvents ⟨.dns, onionWildcard, none⟩ ++ issueFor "order-1" ("1" ++ onionWildcard) 4

def torEnv : Env := ⟨{ Config.plain with torConnectivityEnabled := true }, Library.numbered⟩

/-- A certificate was issued for the order, and the authorization listed for the
identifier was validated by a challenge of this type. -/
def Node.IssuedOver (s : Node) (orderId : String) (id : Identifier) (type : ChallengeType) :
    Prop :=
  (∃ p ∈ s.log, ∃ i ∈ p.1.issuance, i.1 = orderId) ∧ ∃ aid, s.Covers orderId id aid ∧
    ∃ job evidence, s.Validates aid job evidence ∧ job.type = type

theorem wildcard_over_http01 :
    (runPlain wildcardAncestorEvents).IssuedOver "order-1" ⟨.dns, "*.a.example"⟩ .http01 ∧
      (run (Node.step subdomainEnv) (.boot subdomainEnv 0) wildcardReuseEvents).IssuedOver
        "order-2" ⟨.dns, "*.a.example"⟩ .http01 ∧
      (run (Node.step torEnv) (.boot torEnv 0) wildcardOnionEvents).IssuedOver
        "order-1" ⟨.dns, onionWildcard⟩ .http01 := by
  refine ⟨⟨?_, "authz-1-0", ?_, Node.validates_of_log ?_⟩,
    ⟨?_, "authz-1-0", ?_, Node.validates_of_log ?_⟩,
    ⟨?_, "authz-1-0", ?_, Node.validates_of_log ?_⟩⟩
  all_goals decide +kernel

/-- The authorization for `a.example` is validated by dns-01 alone and reused for
the wildcard, up to the point where the certificate is written. -/
def wildcardDnsEvents : List Event :=
  accountEvents ++
    [.request (.newOrder "acct-1" "ca" (.plain [⟨.dns, "b.a.example", some "a.example"⟩])
      (.sample "1")) 2] ++ drain 9 2 ++
    [.request (.respondChallenge "acct-1" "ca" "authz-1-0" .dns01 (.ok ())) 3] ++ drain 7 3 ++
    [.request (.newOrder "acct-1" "ca" (.plain [⟨.dns, "*.a.example", none⟩]) (.sample "2")) 4] ++
    drain 5 4 ++
    [.request (.finalize
      { accountId := "acct-1", caId := "ca", orderId := "order-2", csr := "1*.a.example" }) 5] ++
    drain 3 5

def wildcardDnsNode : Node := run (Node.step subdomainEnv) (.boot subdomainEnv 0) wildcardDnsEvents

theorem wildcard_over_dns01 :
    ∃ job evidence, wildcardDnsNode.Validates "authz-1-0" job evidence ∧
      WildcardValidated subdomainEnv ⟨.dns, "*.a.example"⟩ job evidence := by
  have hcovers : wildcardDnsNode.Covers "order-2" ⟨.dns, "*.a.example"⟩ "authz-1-0" := by
    decide +kernel
  have hdelegation : ∀ o ∈ (run (Node.step subdomainEnv) (.boot subdomainEnv 0)
      wildcardDnsEvents).db.orders.rows, o.delegationId = none := by decide +kernel
  obtain ⟨o, ho, -, -, hall⟩ := @wildcard_control subdomainEnv 0 wildcardDnsEvents
    (.advance 0 5 Input.plain) (by decide +kernel) "order-2" 5 (by decide +kernel)
  obtain ⟨hexists, hvalidated⟩ := hall _ _ hcovers rfl (by decide)
  obtain ⟨job, evidence, hv⟩ := hexists (hdelegation o ho)
  exact ⟨job, evidence, hv, hvalidated job evidence hv⟩

end Akamu
