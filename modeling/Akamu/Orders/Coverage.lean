import Akamu.Node.Ledger
import Akamu.Orders.Lifecycle

/-!
# Every identifier of a ready order is authorized

`ancestorDomain` is taken from the payload as it stands, and a subdomain
authorization that other orders rely on can still fail through a second
challenge.  Apart from that, an order is not ready before its identifiers are
covered.
-/

namespace Akamu

open Machine

/-- The account of the order holds a valid authorization for the identifier, or
for an ancestor of it where the server allows that. -/
def Authorized (env : Env) (db : Db) (o : OrderRow) (id : Identifier) : Prop :=
  ∃ a ∈ db.authorizations.rows, a.accountId = o.accountId ∧ a.status = .valid ∧
    caScope a.caId o.caId = true ∧
    (a.identifier = id ∨
      a.identifier.type = .dns ∧ id.type = .dns ∧ a.subdomainAuthAllowed = true ∧
        Text.IsLabelAncestor a.identifier.value id.value ∧ env.config.allowSubdomainAuth = true)

/-! ## Where the handlers look the other way -/

/-- `ancestorDomain` is used for dns identifiers and with the feature enabled. -/
def RequestedIdentifier.withinPolicy (env : Env) (r : RequestedIdentifier) : Bool :=
  r.ancestorDomain.isNone || r.type == .dns && env.config.allowSubdomainAuth

/-- A failure is recorded for an authorization that is valid already and open to
reuse. -/
def Txn.failsShared (db : Db) : Txn → Bool
  | .onInvalid challengeId authzId _ _ _ =>
    processing db challengeId && db.authorizations.rows.any fun a ↦
      a.id == authzId && a.status == .valid && a.subdomainAuthAllowed
  | _ => false

def KeepsCover (env : Env) (s : Node) (e : Event) : Prop :=
  (∀ r ∈ e.requested, r.withinPolicy env = true) ∧
    ∀ t ∈ s.attempt e, t.failsShared s.db = false

instance (env : Env) (s : Node) (e : Event) : Decidable (KeepsCover env s e) :=
  inferInstanceAs (Decidable (_ ∧ _))

/-- What orders rely on: requests within the policy, and reused authorizations
that stay valid. -/
def Assumed.cover (env : Env) : Assumed where
  requested r := r.withinPolicy env = true
  reused db _ authzId := ∃ a ∈ db.authorizations.rows, a.id = authzId ∧ a.status = .valid ∧
    a.subdomainAuthAllowed = true

section Step

variable {env : Env} {s : Node} {e : Event}

theorem admits_cover (hok : KeepsCover env s e) : Admits env (.cover env) s e where
  requested := hok.1
  reused d r _ a hfind := by
    obtain ⟨-, a', ha', hid, -, hflag, -, hvalid, -⟩ := findReusable_eq_some hfind
    exact ⟨a', ha', hid, hvalid, hflag⟩

theorem valid_onAuthz_of_shared {db : Db} {t : Txn} {a : AuthorizationRow}
    (hok : t.failsShared db = false) (ha : a ∈ db.authorizations.rows) (hvalid : a.status = .valid)
    (hflag : a.subdomainAuthAllowed = true) : (t.onAuthz db a).status = .valid := by
  cases t with
  | onValid =>
    simp only [Txn.onAuthz]
    split
    · rfl
    · exact hvalid
  | onInvalid challengeId authzId orderId error now =>
    simp only [Txn.onAuthz]
    split
    · rename_i hhit
      simp only [Bool.and_eq_true, beq_iff_eq] at hhit
      have hshared : Txn.failsShared db (.onInvalid challengeId authzId orderId error now) = true := by
        simp only [Txn.failsShared, hhit.1, Bool.true_and, List.any_eq_true]
        exact ⟨a, ha, by simp [hhit.2, hvalid, hflag]⟩
      simp [hok] at hshared
    · exact hvalid
  | _ => exact hvalid

theorem reused_step (hsound : s.Sound env (.cover env)) (hgossip : env.config.gossip = false)
    (hok : KeepsCover env s e) (id : Identifier) (aid : String)
    (h : (Assumed.cover env).reused s.db id aid) :
    (Assumed.cover env).reused (Node.step env s e).1.db id aid := by
  refine Node.db_rule h fun t out db' hattempt hexec ↦ ?_
  obtain ⟨a, ha, hid, hvalid, hflag⟩ := h
  have hwrites := writes_of_exec hexec (quiet_of_attempt hsound hgossip t hattempt)
  have hfixed := t.fixed_onAuthz s.db a
  refine ⟨t.onAuthz s.db a, (hwrites.authorizations _).mpr (.inl ⟨a, ha, rfl⟩), ?_, ?_, ?_⟩
  · exact (congrArg AuthorizationRow.id hfixed).trans hid
  · exact valid_onAuthz_of_shared (hok.2 t hattempt) ha hvalid hflag
  · exact (congrArg AuthorizationRow.subdomainAuthAllowed hfixed).trans hflag

structure CoverSound (env : Env) (s : Node) : Prop where
  sound : s.Sound env (.cover env)
  ledger : Ledger env s

theorem CoverSound.step (hgossip : env.config.gossip = false) (h : CoverSound env s)
    (hok : KeepsCover env s e) : CoverSound env (Node.step env s e).1 where
  sound := h.sound.step (admits_cover hok) (extends_of_step (quiet_of_attempt h.sound hgossip))
    (reused_step h.sound hgossip hok)
  ledger := h.ledger.step h.sound (quiet_of_attempt h.sound hgossip)

end Step

/-! ## Reading off the coverage -/

theorem isLabelAncestor_of_check {r : RequestedIdentifier} {ancestor : String}
    (hancestor : r.ancestorDomain = some ancestor) (h : checkAncestorDomain r = .ok ()) :
    Text.IsLabelAncestor ancestor r.value := by
  simp only [checkAncestorDomain, hancestor] at h
  split at h
  · rename_i hends
    obtain ⟨front, hfront⟩ := Text.endsWith_iff.mp hends
    exact ⟨front, by simpa using hfront⟩
  · cases h

theorem CoverSound.authorized {env : Env} {s : Node} (h : CoverSound env s) {o : OrderRow}
    (ho : o ∈ s.db.orders.rows) (hdelegation : o.delegationId = none)
    (hstatus : o.status.authorized) {id : Identifier} (hid : id ∈ o.identifiers) :
    Authorized env s.db o id := by
  obtain ⟨order, plans, covered, ⟨out, hlog⟩, hfixed⟩ := h.ledger.order o ho
  have hsound : NewOrderSound env (.cover env) s.db order plans covered := h.sound.log _ hlog
  have haccount : o.accountId = order.accountId := (congrArg OrderRow.accountId hfixed :)
  have hca : o.caId = order.caId := (congrArg OrderRow.caId hfixed :)
  have hlisted := hsound.listed ((congrArg OrderRow.delegationId hfixed).symm.trans hdelegation)
  rw [show o.identifiers = order.identifiers from (congrArg OrderRow.identifiers hfixed :),
    hlisted] at hid
  obtain ⟨⟨id', aid⟩, hcovered, rfl⟩ := List.mem_map.mp hid
  cases hsound.covered _ hcovered with
  | @own r plan hreq hancestor hplan hident hflag =>
    obtain ⟨-, horder, hplanAccount, hplanCa⟩ := hsound.plans plan hplan
    obtain ⟨a, ha, hafixed⟩ :=
      (h.ledger.created order plans covered ⟨out, hlog⟩).2 plan hplan
    have howns : a.orderId = some o.id := by
      rw [show o.id = order.id from (congrArg OrderRow.id hfixed :), ← horder]
      exact (congrArg AuthorizationRow.orderId hafixed :)
    have haident : a.identifier = authzIdentifier r :=
      (congrArg AuthorizationRow.identifier hafixed).trans hident
    refine ⟨a, ha, ?_, h.ledger.ready o ho hdelegation hstatus a ha howns, ?_, ?_⟩
    · rw [haccount, ← hplanAccount]
      exact (congrArg AuthorizationRow.accountId hafixed :)
    · rw [hca, ← hplanCa,
        show a.caId = plan.authz.caId from (congrArg AuthorizationRow.caId hafixed :)]
      simp [caScope]
    · rw [haident]
      cases hdomain : r.ancestorDomain with
      | none => exact .inl (by simp [authzIdentifier, hdomain, RequestedIdentifier.identifier])
      | some =>
        have hpolicy : r.type = .dns ∧ env.config.allowSubdomainAuth = true := by
          simpa [Assumed.cover, RequestedIdentifier.withinPolicy, hdomain] using hreq
        refine .inr ⟨hpolicy.1, hpolicy.1, ?_, ?_, hpolicy.2⟩
        · rw [show a.subdomainAuthAllowed = _ from
            (congrArg AuthorizationRow.subdomainAuthAllowed hafixed).trans hflag, hdomain]
          rfl
        · simpa [authzIdentifier, hdomain, RequestedIdentifier.identifier] using
            isLabelAncestor_of_check hdomain hancestor
  | @reused value remaining a henabled hreuse ha haaccount hflag hcaScope hremaining hident =>
    obtain ⟨a', ha', haid, hvalid, -⟩ := hreuse
    obtain rfl : a' = a := s.db.authorizations.eq_of_mem_of_key_eq ha' ha haid
    refine ⟨a', ha', haaccount.trans haccount.symm, hvalid, hca ▸ hcaScope, .inr ?_⟩
    rw [hident]
    exact ⟨rfl, rfl, hflag, Text.isLabelAncestor_of_mem_ancestorDomains hremaining, henabled⟩

/-- In every run in which `ancestorDomain` is used within the policy and no
shared authorization fails after it has become valid, the identifiers of an order
that is ready or valid are authorized. -/
theorem ready_order_authorized {env : Env} (hgossip : env.config.gossip = false) (now : Int)
    {es : List Event} (hmeets : Meets (Node.step env) (KeepsCover env) (.boot env now) es) :
    ∀ o ∈ (run (Node.step env) (.boot env now) es).db.orders.rows, o.delegationId = none →
      o.status = .ready ∨ o.status = .valid → ∀ id ∈ o.identifiers,
        Authorized env (run (Node.step env) (.boot env now) es).db o id := by
  have hcover : CoverSound env (run (Node.step env) (.boot env now) es) :=
    hmeets.invariant (CoverSound env) ⟨Node.sound_boot env _ now, ledger_boot env now⟩
      fun s e h hok ↦ h.step hgossip hok
  intro o ho hdelegation hstatus id hid
  refine hcover.authorized ho hdelegation ?_ hid
  rcases hstatus with hready | hvalid
  · exact .inl hready
  · exact .inr (.inr hvalid)

/-! ## Orders that are ready without cover -/

theorem exists_unauthorized {env : Env} {db : Db} (id : Identifier)
    (hready : ∃ o ∈ db.orders.rows, o.delegationId = none ∧ o.status = .ready ∧ id ∈ o.identifiers)
    (h : ∀ a ∈ db.authorizations.rows, a.status = .valid →
      a.identifier ≠ id ∧ (env.config.allowSubdomainAuth = false ∨ id.type ≠ .dns)) :
    ∃ o ∈ db.orders.rows, o.delegationId = none ∧ o.status = .ready ∧
      ∃ id ∈ o.identifiers, ¬ Authorized env db o id := by
  obtain ⟨o, ho, hdelegation, hready, hid⟩ := hready
  refine ⟨o, ho, hdelegation, hready, id, hid, ?_⟩
  rintro ⟨a, ha, -, hvalid, -, hident | ⟨-, htype, -, -, henabled⟩⟩
  · exact (h a ha hvalid).1 hident
  · rcases (h a ha hvalid).2 with hdisabled | hother
    · simp [henabled] at hdisabled
    · exact hother htype

def coverEvents (r : RequestedIdentifier) : List Event :=
  accountEvents ++
    [.request (.newOrder "acct-1" "ca" (.plain [r]) (.sample "1")) 2] ++ drain 9 2 ++ validateEvents

/-- Subdomain authorizations are allowed, and `10.0.0.1` is an address. -/
def subdomainEnv : Env :=
  ⟨{ Config.plain with allowSubdomainAuth := true },
    { Library.numbered with
      parseIpAddr := fun s ↦ if s = "10.0.0.1" then some [10, 0, 0, 1] else none }⟩

/-- Both challenges of the authorization for `a.example` are answered; one
succeeds, an order for `c.a.example` reuses the authorization, the other fails. -/
def lateFailureEvents : List Event :=
  accountEvents ++
    [.request (.newOrder "acct-1" "ca" (.plain [⟨.dns, "b.a.example", some "a.example"⟩])
      (.sample "1")) 2] ++ drain 9 2 ++
    [.request (.respondChallenge "acct-1" "ca" "authz-1-0" .dns01 (.ok ())) 3] ++ drain 3 3 ++
    [.request (.respondChallenge "acct-1" "ca" "authz-1-0" .http01 (.ok ())) 3] ++
    List.replicate 7 (.advance 1 3 Input.plain) ++
    [.request (.newOrder "acct-1" "ca" (.plain [⟨.dns, "c.a.example", none⟩]) (.sample "2")) 4] ++
    List.replicate 5 (.advance 1 4 Input.plain) ++
    List.replicate 2 (.advance 0 5
      { Input.plain with outcome := .error (.incorrectResponse "no TXT record") })

/-- A ready order is not covered: with the feature disabled, for an address
whose `ancestorDomain` is the end of its text, and after a late failure. -/
theorem ready_order_unauthorized :
    (∃ o ∈ (run (Node.step plainEnv) (.boot plainEnv 0)
        (coverEvents ⟨.dns, "b.a.example", some "a.example"⟩)).db.orders.rows,
      o.delegationId = none ∧ o.status = .ready ∧ ∃ id ∈ o.identifiers,
        ¬ Authorized plainEnv (run (Node.step plainEnv) (.boot plainEnv 0)
          (coverEvents ⟨.dns, "b.a.example", some "a.example"⟩)).db o id) ∧
      (∃ o ∈ (run (Node.step subdomainEnv) (.boot subdomainEnv 0)
          (coverEvents ⟨.ip, "10.0.0.1", some "1"⟩)).db.orders.rows,
        o.delegationId = none ∧ o.status = .ready ∧ ∃ id ∈ o.identifiers,
          ¬ Authorized subdomainEnv (run (Node.step subdomainEnv) (.boot subdomainEnv 0)
            (coverEvents ⟨.ip, "10.0.0.1", some "1"⟩)).db o id) ∧
      ∃ o ∈ (run (Node.step subdomainEnv) (.boot subdomainEnv 0) lateFailureEvents).db.orders.rows,
        o.delegationId = none ∧ o.status = .ready ∧ ∃ id ∈ o.identifiers,
          ¬ Authorized subdomainEnv
            (run (Node.step subdomainEnv) (.boot subdomainEnv 0) lateFailureEvents).db o id := by
  refine ⟨exists_unauthorized ⟨.dns, "b.a.example"⟩ ?_ ?_,
    exists_unauthorized ⟨.ip, "10.0.0.1"⟩ ?_ ?_, exists_unauthorized ⟨.dns, "c.a.example"⟩ ?_ ?_⟩
  all_goals decide +kernel

/-- An authorization for `a.example` is validated, and a second order reuses it. -/
def ancestorEvents : List Event :=
  coverEvents ⟨.dns, "b.a.example", some "a.example"⟩ ++
    [.request (.newOrder "acct-1" "ca" (.plain [⟨.dns, "c.a.example", none⟩]) (.sample "2")) 4] ++
    drain 5 4

theorem reusing_order_authorized :
    ∃ o ∈ (run (Node.step subdomainEnv) (.boot subdomainEnv 0) ancestorEvents).db.orders.rows,
      o.id = "order-2" ∧ o.status = .ready ∧ Authorized subdomainEnv
        (run (Node.step subdomainEnv) (.boot subdomainEnv 0) ancestorEvents).db o
        ⟨.dns, "c.a.example"⟩ := by
  have horder : ∃ o ∈ (run (Node.step subdomainEnv) (.boot subdomainEnv 0)
      ancestorEvents).db.orders.rows, o.id = "order-2" ∧ o.delegationId = none ∧
        o.status = .ready ∧ ⟨.dns, "c.a.example"⟩ ∈ o.identifiers := by decide +kernel
  obtain ⟨o, ho, hid, hdelegation, hready, hmem⟩ := horder
  exact ⟨o, ho, hid, hready,
    ready_order_authorized rfl 0 (by decide +kernel) o ho hdelegation (.inl hready) _ hmem⟩

end Akamu
