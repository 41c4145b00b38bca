import Akamu.Node.Origin

/-!
# What pending tasks know

A task carries what its handler read when it started.  The columns it relies on
are never rewritten, so the facts below stay true while the task waits, and the
log of committed transactions inherits them.
-/

namespace Akamu

open Crdt KeyedTable List Node

/-! ## Columns that stay -/

/-- Rows of `db` are still there, with the same fixed columns. -/
structure Extends (db db' : Db) : Prop where
  orders : ∀ o ∈ db.orders.rows, ∃ o' ∈ db'.orders.rows, o'.fixed = o.fixed
  authorizations : ∀ a ∈ db.authorizations.rows, ∃ a' ∈ db'.authorizations.rows, a'.fixed = a.fixed
  challenges : ∀ c ∈ db.challenges.rows, ∃ c' ∈ db'.challenges.rows, c'.fixed = c.fixed

theorem Extends.refl (db : Db) : Extends db db :=
  ⟨fun o h ↦ ⟨o, h, rfl⟩, fun a h ↦ ⟨a, h, rfl⟩, fun c h ↦ ⟨c, h, rfl⟩⟩

theorem Writes.extends {decodeNull : Except AcmeError String} {db db' : Db} {t : Txn}
    (h : Writes decodeNull db t db') : Extends db db' where
  orders o ho := ⟨t.onOrder decodeNull db o, (h.orders _).mpr (.inl ⟨o, ho, rfl⟩), by simp⟩
  authorizations a ha := ⟨t.onAuthz db a, (h.authorizations _).mpr (.inl ⟨a, ha, rfl⟩), by simp⟩
  challenges c hc := ⟨t.onChallenge c, (h.challenges _).mpr (.inl ⟨c, hc, rfl⟩), by simp⟩

theorem extends_of_step {env : Env} {s : Node} {e : Event}
    (hquiet : ∀ t ∈ s.attempt e, Quiet s.db t) : Extends s.db (Node.step env s e).1.db := by
  refine db_rule (.refl s.db) fun t o db' hattempt hexec ↦ ?_
  exact (writes_of_exec hexec (hquiet t hattempt)).extends

def WritesBackAgreeing (s : Node) (e : Event) : Prop := ∀ crdt ∈ s.writesBack e, Agrees s.db crdt

instance (s : Node) (e : Event) : Decidable (WritesBackAgreeing s e) :=
  inferInstanceAs (Decidable (∀ crdt ∈ s.writesBack e, Agrees s.db crdt))

theorem WritesBackAgreeing.quiet {s : Node} {e : Event} (h : WritesBackAgreeing s e) :
    ∀ t ∈ s.attempt e, Quiet s.db t := by
  rintro _ ht crdt rfl
  exact h crdt (Node.writesBack_eq_some.mpr ht)

/-! ## The facts -/

/-- What is assumed of the identifiers that clients request, and of an
authorization when it is reused for one of them. -/
structure Assumed where
  requested : RequestedIdentifier → Prop
  reused : Db → Identifier → String → Prop

/-- Nothing is assumed. -/
def Assumed.nothing : Assumed := ⟨fun _ ↦ True, fun _ _ _ ↦ True⟩

structure JobMatches (db : Db) (job : ValidationJob) : Prop where
  challenge : ∃ c ∈ db.challenges.rows,
    c.id = job.challengeId ∧ c.authzId = job.authzId ∧ c.type = job.type
  authz : ∃ a ∈ db.authorizations.rows, a.id = job.authzId ∧ a.identifier = job.identifier ∧
    ∀ oid, a.orderId = some oid → job.orderId = oid

def OwnsOrder (db : Db) (authzId orderId : String) : Prop :=
  ∃ a ∈ db.authorizations.rows, a.id = authzId ∧ ∀ oid, a.orderId = some oid → orderId = oid

def Evidenced (env : Env) (job : ValidationJob) (evidence : List String) : Prop :=
  job.type = .dnsPersist01 → ∃ clock, DnsPersist01.validate env.library.toLowercase
    job.identifier.value job.accountUri env.config.dnsPersistIssuerDomains evidence clock = true

structure PlanSound (env : Env) (plan : AuthzPlan) : Prop where
  status : plan.authz.status = .pending
  expires : plan.authz.expires = some (addSecs plan.authz.created env.config.authzExpirySecs.toNat)
  types : ∀ c ∈ plan.challenges, c.2 ∈ eligibleChallengeTypes env.config plan.authz.identifier

/-- How an identifier of an order got the authorization that is listed for it. -/
inductive CoveredBy (env : Env) (H : Assumed) (db : Db) (accountId caId : String)
    (plans : List AuthzPlan) : Identifier × String → Prop
  | own {r : RequestedIdentifier} {plan : AuthzPlan} (hreq : H.requested r)
      (hancestor : checkAncestorDomain r = .ok ()) (hplan : plan ∈ plans)
      (hident : plan.authz.identifier = authzIdentifier r)
      (hflag : plan.authz.subdomainAuthAllowed = r.ancestorDomain.isSome) :
      CoveredBy env H db accountId caId plans (r.identifier, plan.authz.id)
  | reused {value remaining : String} {a : AuthorizationRow}
      (henabled : env.config.allowSubdomainAuth = true)
      (hreuse : H.reused db ⟨.dns, value⟩ a.id) (ha : a ∈ db.authorizations.rows)
      (haccount : a.accountId = accountId) (hflag : a.subdomainAuthAllowed = true)
      (hca : caScope a.caId caId = true) (hremaining : remaining ∈ Text.ancestorDomains value)
      (hident : a.identifier = ⟨.dns, remaining⟩) :
      CoveredBy env H db accountId caId plans (⟨.dns, value⟩, a.id)

structure DraftSound (env : Env) (H : Assumed) (db : Db) (d : OrderDraft) : Prop where
  requested : ∀ r ∈ d.remaining, H.requested r ∧ checkAncestorDomain r = .ok ()
  listed : d.delegationId = none → d.payload.identifiers.map RequestedIdentifier.identifier =
    d.covered.map Prod.fst ++ d.remaining.map RequestedIdentifier.identifier
  plans : ∀ plan ∈ d.plans, PlanSound env plan ∧ plan.authz.orderId = some d.fresh.orderId ∧
    plan.authz.accountId = d.accountId ∧ plan.authz.caId = d.caId
  covered : ∀ p ∈ d.covered, CoveredBy env H db d.accountId d.caId d.plans p

structure NewOrderSound (env : Env) (H : Assumed) (db : Db) (order : OrderRow)
    (plans : List AuthzPlan) (covered : List (Identifier × String)) : Prop where
  status : order.status = .pending ∨
    order.status = .ready ∧ (order.delegationId = none → plans = [])
  expires : order.expires = some (addSecs order.created env.config.orderExpirySecs.toNat)
  listed : order.delegationId = none → order.identifiers = covered.map Prod.fst
  covered : ∀ p ∈ covered, CoveredBy env H db order.accountId order.caId plans p
  plans : ∀ plan ∈ plans, PlanSound env plan ∧ plan.authz.orderId = some order.id ∧
    plan.authz.accountId = order.accountId ∧ plan.authz.caId = order.caId

def TxnSound (env : Env) (H : Assumed) (db : Db) : Txn → Prop
  | .newOrder order plans covered => NewOrderSound env H db order plans covered
  | .newAuthz plan => PlanSound env plan ∧ plan.authz.orderId = none
  | .setProcessingIfPending _ job _ => ∀ j ∈ job, JobMatches db j
  | .setEmailToken job _ _ => JobMatches db job
  | .insertJti _ job _ => JobMatches db job ∧ job.type = .tkauth01
  | .onValid job evidence _ => JobMatches db job ∧ Evidenced env job evidence
  | .onInvalid _ authzId orderId _ _ => ∀ oid ∈ orderId, OwnsOrder db authzId oid
  | .finalize order cert _ _ _ _ =>
    (∃ o ∈ db.orders.rows, o.fixed = order.fixed) ∧ cert.orderId = order.id
  | .starRenew cert _ => ∃ o ∈ db.orders.rows, o.id = cert.orderId ∧ o.isStar = true
  | .persist _ => env.config.gossip = true
  | _ => True

def PhaseSound (env : Env) (H : Assumed) (db : Db) : Phase → Prop
  | .cover d => DraftSound env H db d
  | .validate job | .sendEmail job => JobMatches db job
  | .checkCaa job | .issue job | .persistCert job _ =>
    ∃ o ∈ db.orders.rows, o.fixed = job.order.fixed
  | .renewStar order => order.isStar = true ∧ ∃ o ∈ db.orders.rows, o.fixed = order.fixed
  | .rereadAccount _ | .eabCheck .. => True

/-- The transactions that only the upstream loop runs. -/
def Txn.isUpstream : Txn → Bool
  | .orderInvalid .. | .setUpstreamOrderUrl .. | .completeOrder .. => true
  | _ => false

def TaskSound (env : Env) (H : Assumed) (db : Db) : Task → Prop
  | .commit t => TxnSound env H db t ∧ t.isUpstream = false
  | .hooks _ spawn => ∀ job ∈ spawn, JobMatches db job
  | .phase p => PhaseSound env H db p

/-! ## They stay true -/

variable {job : ValidationJob}

section Mono

variable {env : Env} {H : Assumed} {db db' : Db}

theorem JobMatches.mono (hext : Extends db db') (h : JobMatches db job) : JobMatches db' job := by
  obtain ⟨⟨c, hc, hid, hauthz, htype⟩, a, ha, haid, hident, horder⟩ := h
  obtain ⟨c', hc', hcfixed⟩ := hext.challenges c hc
  obtain ⟨a', ha', hafixed⟩ := hext.authorizations a ha
  refine ⟨⟨c', hc', ?_, ?_, ?_⟩, a', ha', ?_, ?_, fun oid hoid ↦ horder oid ?_⟩
  · exact (congrArg ChallengeRow.id hcfixed).trans hid
  · exact (congrArg ChallengeRow.authzId hcfixed).trans hauthz
  · exact (congrArg ChallengeRow.type hcfixed).trans htype
  · exact (congrArg AuthorizationRow.id hafixed).trans haid
  · exact (congrArg AuthorizationRow.identifier hafixed).trans hident
  · exact (congrArg AuthorizationRow.orderId hafixed).symm.trans hoid

theorem OwnsOrder.mono {authzId orderId : String} (hext : Extends db db')
    (h : OwnsOrder db authzId orderId) : OwnsOrder db' authzId orderId := by
  obtain ⟨a, ha, haid, horder⟩ := h
  obtain ⟨a', ha', hafixed⟩ := hext.authorizations a ha
  refine ⟨a', ha', (congrArg AuthorizationRow.id hafixed).trans haid, fun oid hoid ↦ horder oid ?_⟩
  exact (congrArg AuthorizationRow.orderId hafixed).symm.trans hoid

theorem Extends.order_fixed (hext : Extends db db') {order : OrderRow}
    (h : ∃ o ∈ db.orders.rows, o.fixed = order.fixed) :
    ∃ o ∈ db'.orders.rows, o.fixed = order.fixed := by
  obtain ⟨o, ho, hfixed⟩ := h
  obtain ⟨o', ho', hfixed'⟩ := hext.orders o ho
  exact ⟨o', ho', hfixed'.trans hfixed⟩

variable {p : Identifier × String} {plans : List AuthzPlan} {accountId : String}

theorem CoveredBy.mono {caId : String} (hext : Extends db db')
    (hkeep : ∀ id aid, H.reused db id aid → H.reused db' id aid)
    (h : CoveredBy env H db accountId caId plans p) :
    CoveredBy env H db' accountId caId plans p := by
  cases h with
  | own hreq hancestor hplan hident hflag => exact .own hreq hancestor hplan hident hflag
  | @reused value remaining a henabled hreuse ha haccount hflag hca hremaining hident =>
    obtain ⟨a', ha', hfixed⟩ := hext.authorizations a ha
    have hid : a'.id = a.id := (congrArg AuthorizationRow.id hfixed :)
    rw [← hid]
    refine .reused henabled (hid ▸ hkeep _ _ hreuse) ha' ?_ ?_ ?_ hremaining ?_
    · exact (congrArg AuthorizationRow.accountId hfixed).trans haccount
    · exact (congrArg AuthorizationRow.subdomainAuthAllowed hfixed).trans hflag
    · rw [show a'.caId = a.caId from (congrArg AuthorizationRow.caId hfixed :)]
      exact hca
    · exact (congrArg AuthorizationRow.identifier hfixed).trans hident

theorem CoveredBy.plans_mono {caId : String} {plans' : List AuthzPlan}
    (hplans : ∀ plan ∈ plans, plan ∈ plans') (h : CoveredBy env H db accountId caId plans p) :
    CoveredBy env H db accountId caId plans' p := by
  cases h with
  | own hreq hancestor hplan hident hflag =>
    exact .own hreq hancestor (hplans _ hplan) hident hflag
  | reused henabled hreuse ha haccount hflag hca hremaining hident =>
    exact .reused henabled hreuse ha haccount hflag hca hremaining hident

theorem TxnSound.mono {t : Txn} (hext : Extends db db')
    (hkeep : ∀ id aid, H.reused db id aid → H.reused db' id aid) (h : TxnSound env H db t) :
    TxnSound env H db' t := by
  cases t with
  | newOrder order plans covered =>
    exact { h with covered := fun p hp ↦ (h.covered p hp).mono hext hkeep }
  | setProcessingIfPending => exact fun j hj ↦ (h j hj).mono hext
  | setEmailToken => exact JobMatches.mono hext h
  | insertJti | onValid => exact ⟨h.1.mono hext, h.2⟩
  | onInvalid => exact fun oid hoid ↦ (h oid hoid).mono hext
  | finalize => exact ⟨hext.order_fixed h.1, h.2⟩
  | starRenew =>
    obtain ⟨o, ho, hid, hstar⟩ := h
    obtain ⟨o', ho', hfixed⟩ := hext.orders o ho
    refine ⟨o', ho', (congrArg OrderRow.id hfixed).trans hid, ?_⟩
    exact (congrArg OrderRow.isStar hfixed).trans hstar
  | _ => exact h

theorem TaskSound.mono {task : Task} (hext : Extends db db')
    (hkeep : ∀ id aid, H.reused db id aid → H.reused db' id aid) (h : TaskSound env H db task) :
    TaskSound env H db' task := by
  cases task with
  | commit => exact ⟨TxnSound.mono hext hkeep h.1, h.2⟩
  | hooks => exact fun job hjob ↦ (h job hjob).mono hext
  | phase p =>
    cases p with
    | cover => exact { h with covered := fun p hp ↦ (h.covered p hp).mono hext hkeep }
    | validate | sendEmail => exact JobMatches.mono hext h
    | checkCaa | issue | persistCert => exact hext.order_fixed h
    | renewStar => exact ⟨h.1, hext.order_fixed h.2⟩
    | rereadAccount | eabCheck => exact h

end Mono

/-! ## They are true to begin with -/

def Event.requested : Event → List RequestedIdentifier
  | .request (.newOrder _ _ payload _) _ => payload.identifiers
  | _ => []

def Node.covering (s : Node) : Event → Option (OrderDraft × RequestedIdentifier)
  | .advance i _ _ =>
    match s.tasks[i]? with
    | some (.phase (.cover d)) => d.remaining.head?.map fun r ↦ (d, r)
    | _ => none
  | _ => none

/-- The event brings in only requested identifiers and reuses that are assumed. -/
structure Admits (env : Env) (H : Assumed) (s : Node) (e : Event) : Prop where
  requested : ∀ r ∈ e.requested, H.requested r
  reused : ∀ d r, s.covering e = some (d, r) → ∀ a, findReusable env s.db d r = .ok (some a) →
    H.reused s.db r.identifier a.id

theorem admits_nothing (env : Env) (s : Node) (e : Event) : Admits env .nothing s e :=
  ⟨fun _ _ ↦ trivial, fun _ _ _ _ _ ↦ trivial⟩

section Origin

variable {env : Env} {H : Assumed} {db : Db} {now : Int}

variable {ts : List Task} {accountId caId : String} {input : Input} {authz : AuthorizationRow}
  {d : OrderDraft}

theorem jobMatches_of_challenge {authzId : String} {cfg : Config} {challenges : List ChallengeRow}
    {c : ChallengeRow} (h : Authz.getWithChallenges db authzId = some (authz, challenges))
    (hc : c ∈ challenges) : JobMatches db (validationJob cfg accountId caId authz c) := by
  simp only [Authz.getWithChallenges, Option.map_eq_some_iff, Prod.mk.injEq] at h
  obtain ⟨a, ha, rfl, rfl⟩ := h
  obtain ⟨hmem, hauthz⟩ := mem_filter.mp hc
  have hid : a.id = authzId := key_of_find? ha
  refine ⟨⟨c, hmem, rfl, ?_, rfl⟩, a, mem_of_find? ha, rfl, rfl, ?_⟩
  · exact (beq_iff_eq.mp hauthz).trans hid.symm
  · intro oid hoid
    simp [validationJob, hoid]

theorem jobMatches_of_emailReply {inReplyTo : String} {c : ChallengeRow}
    (hfind : Challenges.getByEmailMessageId db inReplyTo = some c)
    (hauthz : Authz.getById env.decodeNull db c.authzId = .ok (some authz)) :
    JobMatches db { challengeId := c.id, authzId := c.authzId, orderId := authz.orderId.getD ""
                    type := c.type, identifier := authz.identifier, accountId := authz.accountId
                    accountUri := "" } := by
  obtain ⟨a, ha, hdecoded, horder⟩ := Authz.decodeOpt_eq_ok hauthz
  refine ⟨⟨c, mem_of_find?_eq_some hfind, rfl, rfl, rfl⟩, a, mem_of_find? ha,
    key_of_find? ha, ?_, fun oid hoid ↦ ?_⟩
  · exact (congrArg AuthorizationRow.identifier hdecoded :).symm
  · simp [horder oid hoid]

theorem draftSound_of_checks {payload : NewOrderPayload} {fresh : Fresh}
    (hreq : ∀ r ∈ payload.identifiers, H.requested r)
    (h : newOrderChecks env db accountId caId payload fresh now = .ok d) :
    DraftSound env H db d := by
  obtain ⟨hancestor, -, hpayload, hplans, hcovered, hremaining⟩ := newOrderChecks_eq_ok h
  refine ⟨fun r hr ↦ ?_, fun hnone ↦ ?_, by simp [hplans], by simp [hcovered]⟩
  · rw [hremaining] at hr
    split at hr
    · exact ⟨hreq r hr, hancestor r hr⟩
    · cases hr
  · rw [hremaining, hcovered, hnone, hpayload]
    simp

theorem planSound_preAuthz (accountId caId : String) (identifier : Identifier) (flag : Bool)
    (fresh : Fresh) (now : Int) :
    PlanSound env (preAuthzPlan env accountId caId identifier flag fresh now) where
  status := rfl
  expires := rfl
  types c hc := by
    obtain ⟨t, ht, rfl⟩ := mem_map.mp hc
    exact fst_mem_of_mem_zipIdx ht

theorem planSound_planAuthz (d : OrderDraft) (r : RequestedIdentifier) :
    PlanSound env (planAuthz env d r) where
  status := rfl
  expires := rfl
  types c hc := by
    obtain ⟨t, ht, rfl⟩ := mem_map.mp hc
    exact fst_mem_of_mem_zipIdx ht

theorem taskSound_of_begin {r : Request}
    (hreq : ∀ accountId caId payload fresh, r = .newOrder accountId caId payload fresh →
    ∀ r ∈ payload.identifiers, H.requested r) (h : r.begin env db now = .ok ts) :
    ∀ task ∈ ts, TaskSound env H db task := by
  intro task htask
  cases opens_of_begin h task htask with
  | cover hchecks => exact draftSound_of_checks (hreq _ _ _ _ rfl) hchecks
  | preAuthz => exact ⟨⟨planSound_preAuthz .., rfl⟩, rfl⟩
  | respond hrows hc =>
    refine ⟨fun job hjob ↦ ?_, rfl⟩
    unfold spawnedJob at hjob
    split at hjob <;> cases hjob
    exact jobMatches_of_challenge hrows hc
  | replied hfind hauthz =>
    refine ⟨⟨jobMatches_of_emailReply hfind hauthz, fun htype ↦ ?_⟩, rfl⟩
    have hwhere := find?_some hfind
    simp only [Bool.and_eq_true, beq_iff_eq] at hwhere
    exact absurd (hwhere.1.2.symm.trans htype) (by decide)
  | failed => exact ⟨nofun, rfl⟩
  | finalize hchecks =>
    exact ⟨_, mem_of_find? (checksPassed_of_finalizeChecks hchecks).order, rfl⟩
  | handOff => exact ⟨trivial, rfl⟩
  | reread => trivial
  | @standalone _ t ht => cases t <;> simp_all [Txn.standalone, TaskSound, TxnSound, Txn.isUpstream]

theorem taskSound_of_followUp {lib : Library} {clock : Int} {t : Txn} {o : Outcome}
    (h : TxnSound env H db t) : ∀ task ∈ followUp lib clock t o, TaskSound env H db task := by
  cases t with
  | setProcessingIfPending =>
    intro task htask
    simp only [followUp] at htask
    split at htask
    · cases mem_singleton.mp htask
      exact h
    · cases htask
  | setEmailToken =>
    intro task htask
    cases mem_singleton.mp htask
    exact h
  | insertJti =>
    intro task htask
    simp only [followUp] at htask
    split at htask
    · cases mem_singleton.mp htask
      exact ⟨⟨h.1, fun htype ↦ absurd (h.2.symm.trans htype) (by decide)⟩, rfl⟩
    · cases mem_singleton.mp htask
      refine ⟨fun oid hoid ↦ ?_, rfl⟩
      cases hoid
      obtain ⟨a, ha, hid, -, horder⟩ := h.1.authz
      exact ⟨a, ha, hid, horder⟩
  | deactivateAccount | onValid | finalize | revoke | insertEabIfAbsent =>
    simp only [followUp]
    split_ifs <;> simp [TaskSound, PhaseSound]
  | _ => simp [followUp, TaskSound, PhaseSound]

theorem taskSound_failChallenge (h : JobMatches db job) (err : AcmeError) :
    ∀ task ∈ [Task.commit (failChallenge env.library job err now)], TaskSound env H db task := by
  intro task htask
  cases mem_singleton.mp htask
  refine ⟨fun oid hoid ↦ ?_, rfl⟩
  cases hoid
  obtain ⟨a, ha, hid, -, horder⟩ := h.authz
  exact ⟨a, ha, hid, horder⟩

theorem taskSound_of_validate (h : JobMatches db job) :
    ∀ task ∈ validateChallenge env db now input job, TaskSound env H db task := by
  have hfail : ∀ err, ∀ task ∈ [Task.commit (failChallenge env.library job err now)],
      TaskSound env H db task := taskSound_failChallenge h
  unfold validateChallenge
  split
  · split
    · exact hfail _
    · split_ifs
      · exact hfail _
      · exact hfail _
      · split
        · exact hfail _
        · split_ifs with hvalid
          · intro task htask
            cases mem_singleton.mp htask
            exact ⟨⟨h, fun _ ↦ ⟨now, hvalid⟩⟩, rfl⟩
          · exact hfail _
  · rename_i htype
    split
    · exact hfail _
    · intro task htask
      cases mem_singleton.mp htask
      exact ⟨⟨h, htype⟩, rfl⟩
  · intro task htask
    cases mem_singleton.mp htask
    exact ⟨h, rfl⟩
  all_goals
    rename_i htype
    split
    · exact hfail _
    · intro task htask
      cases mem_singleton.mp htask
      exact ⟨⟨h, fun hpersist ↦ absurd (htype.symm.trans hpersist) (by decide)⟩, rfl⟩

theorem newOrderSound_of_draft (h : DraftSound env H db d) (hremaining : d.remaining = []) :
    NewOrderSound env H db (draftOrderRow env d) d.plans d.covered := by
  refine ⟨?_, rfl, fun hnone ↦ ?_, h.covered, h.plans⟩
  · unfold draftOrderRow initialStatus
    split_ifs with hdel hempty
    · refine .inr ⟨rfl, fun hnone ↦ ?_⟩
      rw [show d.delegationId = none from hnone] at hdel
      cases hdel
    · simp only [Bool.and_eq_true, List.isEmpty_iff] at hempty
      exact .inr ⟨rfl, fun _ ↦ hempty.1⟩
    · exact .inl rfl
  · simpa [draftOrderRow, hremaining] using h.listed hnone

theorem draftSound_of_cover {d' : OrderDraft} {r : RequestedIdentifier}
    {rs : List RequestedIdentifier} (h : DraftSound env H db d) (hrem : d.remaining = r :: rs)
    (hreuse : ∀ a, findReusable env db d r = .ok (some a) → H.reused db r.identifier a.id)
    (hcover : coverIdentifier env db d r = .ok d') :
    DraftSound env H db { d' with remaining := rs } := by
  obtain ⟨hreq, hancestor⟩ := h.requested r (by simp [hrem])
  have hrest : ∀ r ∈ rs, H.requested r ∧ checkAncestorDomain r = .ok () :=
    fun r hr ↦ h.requested r (by simp [hrem, hr])
  rcases coverIdentifier_eq_ok hcover with ⟨row, hfound, rfl⟩ | rfl
  · refine ⟨hrest, fun hnone ↦ ?_, h.plans, fun p hp ↦ ?_⟩
    · simpa [hrem] using h.listed hnone
    · rcases mem_append.mp hp with hp | hp
      · exact h.covered p hp
      · cases mem_singleton.mp hp
        obtain ⟨hreusable, a, ha, hid, haccount, hflag, hca, -, -, remaining, hmem, hident⟩ :=
          findReusable_eq_some hfound
        obtain ⟨htype, -, -, henabled⟩ := mayReuse_iff.mp hreusable
        have hrid : r.identifier = ⟨.dns, r.value⟩ := by
          rw [RequestedIdentifier.identifier, htype]
        have hreused := hreuse row hfound
        rw [hrid, ← hid] at hreused ⊢
        exact .reused henabled hreused ha haccount hflag hca hmem hident
  · refine ⟨hrest, fun hnone ↦ ?_, fun plan hplan ↦ ?_, fun p hp ↦ ?_⟩
    · simpa [hrem] using h.listed hnone
    · rcases mem_append.mp hplan with hplan | hplan
      · exact h.plans plan hplan
      · cases mem_singleton.mp hplan
        exact ⟨planSound_planAuthz d r, rfl, rfl, rfl⟩
    · rcases mem_append.mp hp with hp | hp
      · exact (h.covered p hp).plans_mono fun plan hplan ↦ mem_append_left _ hplan
      · cases mem_singleton.mp hp
        exact .own hreq hancestor (by simp) rfl rfl

theorem taskSound_of_proceed {p : Phase} (h : PhaseSound env H db p)
    (hreuse : ∀ d r rs a, p = .cover d → d.remaining = r :: rs →
    findReusable env db d r = .ok (some a) → H.reused db r.identifier a.id)
    (hproceed : p.proceed env db now input = .ok ts) : ∀ task ∈ ts, TaskSound env H db task := by
  intro task htask
  cases leads_of_proceed hproceed task htask with
  | rereadAccount | eabCheck => exact nofun
  | cover hremaining hcover =>
    exact draftSound_of_cover h hremaining (fun a ↦ hreuse _ _ _ a rfl hremaining) hcover
  | newOrder hremaining => exact ⟨newOrderSound_of_draft h hremaining, rfl⟩
  | validate hmem => exact taskSound_of_validate h _ hmem
  | sendEmail => exact taskSound_failChallenge h _ _ (mem_singleton_self _)
  | checkCaa | issue => exact h
  | persistCert => exact ⟨⟨h, rfl⟩, rfl⟩
  | renewStar hrun =>
    obtain ⟨hstar, o, ho, hfixed⟩ := h
    obtain hnil | ⟨_, _, _, _, _, issued, -, -, -, -, -, hts⟩ := starRunOnce_cases hrun
    · cases hnil
    · cases hts
      exact ⟨⟨o, ho, (congrArg OrderRow.id hfixed :),
        (congrArg OrderRow.isStar hfixed).trans hstar⟩, rfl⟩

end Origin

/-! ## Along a run -/

section Run

variable {env : Env} {H : Assumed} {s : Node} {e : Event}

structure Node.Sound (env : Env) (H : Assumed) (s : Node) : Prop where
  tasks : ∀ task ∈ s.tasks, TaskSound env H s.db task
  log : ∀ p ∈ s.log, TxnSound env H s.db p.1

variable {t : Txn}

theorem txnSound_of_drive {d : Driven} {rest : List Driven} {answer : Upstream} {now : Int}
    (h : (Node.drive d rest answer now).1 = some t) (db : Db) : TxnSound env H db t := by
  rcases drive_fst h with ⟨_, rfl⟩ | ⟨_, rfl⟩ | ⟨_, _, rfl⟩ <;> trivial

theorem Node.Sound.attempt (h : s.Sound env H) (ht : s.attempt e = some t) :
    TxnSound env H s.db t := by
  rcases attempt_eq_some ht with hmem | ⟨d, rest, answer, now, -, -, hdrive⟩
  · exact (h.tasks _ hmem).1
  · exact txnSound_of_drive hdrive s.db

theorem Node.Sound.attempt_upstream (h : s.Sound env H) (ht : s.attempt e = some t)
    (hup : t.isUpstream = true) : ∃ d rest answer now, s.upstream = d :: rest ∧
      e = .upstream answer now ∧ (Node.drive d rest answer now).1 = some t := by
  rcases attempt_eq_some ht with hmem | hdrive
  · simp [(h.tasks _ hmem).2] at hup
  · exact hdrive

theorem taskSound_of_arises {task : Task} (h : s.Sound env H) (hadmits : Admits env H s e)
    (harises : Node.Arises env s e task) : TaskSound env H s.db task := by
  cases harises with
  | kept hmem => exact h.tasks _ hmem
  | @begun r now ts _ hbegin hmem =>
    refine taskSound_of_begin (fun accountId caId payload fresh hr ↦ ?_) hbegin _ hmem
    rw [hr] at hadmits
    exact hadmits.requested
  | followed hout hmem =>
    exact taskSound_of_followUp (h.attempt (exec_of_committed hout).1) _ hmem
  | @proceeded i p now input ts _ hphase hproceed hmem =>
    refine taskSound_of_proceed (h.tasks _ (mem_of_getElem? hphase)) ?_ hproceed _ hmem
    rintro d r rs a rfl hremaining
    exact hadmits.reused d r (by simp [Node.covering, hphase, hremaining]) a
  | hooked hmem =>
    have hsound := h.tasks _ (mem_of_getElem? hmem)
    exact hsound
  | spawned hmem => exact h.tasks _ (mem_of_getElem? hmem) _ rfl
  | snapshot hgossip => exact ⟨hgossip, rfl⟩
  | @starTick o ho =>
    simp only [Orders.listActiveStar, mem_filter, Bool.and_eq_true] at ho
    exact ⟨ho.2.1.1, o, ho.1, rfl⟩
  | purgeJti => exact ⟨trivial, rfl⟩
  | seeded hmem =>
    obtain ⟨k, -, rfl⟩ := mem_map.mp hmem
    exact ⟨trivial, rfl⟩

theorem Node.Sound.step (h : s.Sound env H) (hadmits : Admits env H s e)
    (hext : Extends s.db (Node.step env s e).1.db)
    (hkeep : ∀ id aid, H.reused s.db id aid → H.reused (Node.step env s e).1.db id aid) :
    (Node.step env s e).1.Sound env H := by
  refine ⟨fun task htask ↦ ?_, fun p hp ↦ ?_⟩
  · exact (taskSound_of_arises h hadmits (arises_of_mem htask)).mono hext hkeep
  · rcases mem_log_step hp with hp | ⟨hattempt, -⟩
    · exact (h.log p hp).mono hext hkeep
    · exact (h.attempt hattempt).mono hext hkeep

theorem Node.sound_boot (env : Env) (H : Assumed) (now : Int) : (Node.boot env now).Sound env H where
  tasks task htask := by
    obtain ⟨k, -, rfl⟩ := mem_map.mp htask
    exact ⟨trivial, rfl⟩
  log p hp := by cases hp

theorem Node.Sound.ne_persist (h : s.Sound env H) (hgossip : env.config.gossip = false)
    (ht : s.attempt e = some t) (crdt : AkaCrdt) : t ≠ .persist crdt := by
  rintro rfl
  have htrue : env.config.gossip = true := h.attempt ht
  simp [hgossip] at htrue

end Run

end Akamu
