import Akamu.Node.Pending

/-!
# Rows and the transactions behind them

Every order and authorization goes back to a logged transaction, a valid
authorization to a logged validation, and an order that has become ready has
only valid authorizations of its own.
-/

namespace Akamu

open Crdt List Node

def Node.Logged (s : Node) (t : Txn) : Prop := ∃ out, (t, out) ∈ s.log

/-- The authorizations that an order is created with, one for each identifier. -/
def Txn.listed (orderId : String) : Txn → List (Identifier × String)
  | .newOrder order _ covered => if order.id = orderId then covered else []
  | _ => []

def Node.Covers (s : Node) (orderId : String) (id : Identifier) (authzId : String) : Prop :=
  ∃ p ∈ s.log, (id, authzId) ∈ p.1.listed orderId

instance (s : Node) (orderId : String) (id : Identifier) (authzId : String) :
    Decidable (s.Covers orderId id authzId) :=
  inferInstanceAs (Decidable (∃ p ∈ s.log, (id, authzId) ∈ p.1.listed orderId))

variable {orderId : String} {id : Identifier}

theorem Node.covers_iff {s : Node} {authzId : String} :
    s.Covers orderId id authzId ↔ ∃ order plans covered,
      s.Logged (.newOrder order plans covered) ∧ order.id = orderId ∧ (id, authzId) ∈ covered := by
  constructor
  · rintro ⟨⟨t, out⟩, hmem, hlisted⟩
    cases t with
    | newOrder order plans covered =>
      simp only [Txn.listed] at hlisted
      split at hlisted
      · exact ⟨order, plans, covered, ⟨out, hmem⟩, ‹_›, hlisted⟩
      · cases hlisted
    | _ => cases hlisted
  · rintro ⟨order, plans, covered, ⟨out, hmem⟩, rfl, hlisted⟩
    exact ⟨_, hmem, by simpa [Txn.listed] using hlisted⟩

def Node.Validates (s : Node) (authzId : String) (job : ValidationJob) (evidence : List String) :
    Prop :=
  ∃ now out, (.onValid job evidence now, out) ∈ s.log ∧ out.hit = true ∧ job.authzId = authzId

/-- The order that `finalize_order` has issued a certificate for, and when. -/
def Txn.issuance : Txn → Option (String × Int)
  | .finalize _ cert now _ _ _ => some (cert.orderId, now)
  | _ => none

def Output.issuance : Output → Option (String × Int)
  | .committed t _ => t.issuance
  | _ => none

theorem Output.issuance_eq_some {output : Output} {issuedAt : Int}
    (h : output.issuance = some (orderId, issuedAt)) : ∃ order cert pred replacedBy csr out,
      output = .committed (.finalize order cert issuedAt pred replacedBy csr) out ∧
        cert.orderId = orderId := by
  cases output with
  | committed t out =>
    cases t with
    | finalize order cert now pred replacedBy csr =>
      cases h
      exact ⟨order, cert, pred, replacedBy, csr, out, rfl, rfl⟩
    | _ => cases h
  | _ => cases h

theorem Node.ready_of_issuance {env : Env} {s : Node} {e : Event} {issuedAt : Int}
    (h : (Node.step env s e).2.issuance = some (orderId, issuedAt)) :
    ∃ o ∈ s.db.orders.rows, o.id = orderId ∧ o.status = .ready := by
  obtain ⟨order, cert, pred, replacedBy, csr, out, hout, rfl⟩ := Output.issuance_eq_some h
  obtain ⟨-, hexec, -⟩ := exec_of_committed hout
  obtain ⟨-, hready⟩ : Effect env.decodeNull _
    (.finalize order cert issuedAt pred replacedBy csr) out _ ∧ _ := effect_finalize hexec
  exact hready

def OrderStatus.authorized (status : OrderStatus) : Prop :=
  status = .ready ∨ status = .processing ∨ status = .valid

structure Ledger (env : Env) (s : Node) : Prop where
  order : ∀ o ∈ s.db.orders.rows, ∃ order plans covered,
    s.Logged (.newOrder order plans covered) ∧ o.fixed = order.fixed
  created : ∀ order plans covered, s.Logged (.newOrder order plans covered) →
    (∃ o ∈ s.db.orders.rows, o.fixed = order.fixed) ∧
      ∀ plan ∈ plans, ∃ a ∈ s.db.authorizations.rows, a.fixed = plan.authz.fixed
  authz : ∀ a ∈ s.db.authorizations.rows, ∃ plan, a.fixed = plan.authz.fixed ∧
    (s.Logged (.newAuthz plan) ∨
      ∃ order plans covered, s.Logged (.newOrder order plans covered) ∧ plan ∈ plans)
  challenge : ∀ c ∈ s.db.challenges.rows, ∃ a ∈ s.db.authorizations.rows,
    a.id = c.authzId ∧ c.type ∈ eligibleChallengeTypes env.config a.identifier
  validated : ∀ a ∈ s.db.authorizations.rows, a.status = .valid →
    ∃ job evidence, s.Validates a.id job evidence
  decided : ∀ c ∈ s.db.challenges.rows, c.status = .valid →
    ∃ job evidence now out, (.onValid job evidence now, out) ∈ s.log ∧ out.hit = true ∧
      job.challengeId = c.id
  recorded : ∀ job evidence now out, (.onValid job evidence now, out) ∈ s.log →
    out.hit = true → ∃ c ∈ s.db.challenges.rows, c.id = job.challengeId ∧ c.status = .valid
  ready : ∀ o ∈ s.db.orders.rows, o.delegationId = none → o.status.authorized →
    ∀ a ∈ s.db.authorizations.rows, a.orderId = some o.id → a.status = .valid

variable {o : OrderRow} {job : ValidationJob}

section Facts

variable {env : Env} {H : Assumed} {s : Node}

variable {a : AuthorizationRow}

section Rows

variable (h : Ledger env s) (hsound : s.Sound env H)

include h hsound

theorem Ledger.plan (ha : a ∈ s.db.authorizations.rows) :
    ∃ plan, a.fixed = plan.authz.fixed ∧ PlanSound env plan ∧
      ∀ oid, a.orderId = some oid → ∃ o ∈ s.db.orders.rows, o.id = oid := by
  obtain ⟨plan, hfixed, ⟨out, hlog⟩ | ⟨order, plans, covered, ⟨out, hlog⟩, hplan⟩⟩ := h.authz a ha
  · obtain ⟨hsoundPlan, hnone⟩ := hsound.log _ hlog
    refine ⟨plan, hfixed, hsoundPlan, fun oid hoid ↦ ?_⟩
    rw [show a.orderId = plan.authz.orderId from (congrArg AuthorizationRow.orderId hfixed :),
      hnone] at hoid
    cases hoid
  · obtain ⟨hsoundPlan, horder, -⟩ := (hsound.log _ hlog).plans plan hplan
    refine ⟨plan, hfixed, hsoundPlan, fun oid hoid ↦ ?_⟩
    rw [show a.orderId = plan.authz.orderId from (congrArg AuthorizationRow.orderId hfixed :),
      horder] at hoid
    cases hoid
    obtain ⟨o, ho, hofixed⟩ := (h.created order plans covered ⟨out, hlog⟩).1
    exact ⟨o, ho, (congrArg OrderRow.id hofixed :)⟩

theorem Ledger.exists_covers (ho : o ∈ s.db.orders.rows) (hdelegation : o.delegationId = none)
    (hid : id ∈ o.identifiers) : ∃ aid, s.Covers o.id id aid := by
  obtain ⟨order, plans, covered, hlog, hfixed⟩ := h.order o ho
  obtain ⟨out, hmem⟩ := hlog
  have hnew : NewOrderSound env H s.db order plans covered := hsound.log _ hmem
  have hlisted := hnew.listed ((congrArg OrderRow.delegationId hfixed).symm.trans hdelegation)
  rw [show o.identifiers = order.identifiers from (congrArg OrderRow.identifiers hfixed :),
    hlisted] at hid
  obtain ⟨⟨_, aid⟩, hcovered, rfl⟩ := mem_map.mp hid
  exact ⟨aid, covers_iff.mpr
    ⟨order, plans, covered, ⟨out, hmem⟩, (congrArg OrderRow.id hfixed).symm, hcovered⟩⟩

theorem Ledger.authz_of_covers {orderId aid : String} (hcovers : s.Covers orderId id aid) :
    ∃ a ∈ s.db.authorizations.rows, a.id = aid := by
  obtain ⟨order, plans, covered, ⟨out, hlog⟩, -, hmem⟩ := covers_iff.mp hcovers
  have hnew : NewOrderSound env H s.db order plans covered := hsound.log _ hlog
  cases hnew.covered _ hmem with
  | @own r plan _ _ hplan _ _ =>
    obtain ⟨a, ha, hfixed⟩ := (h.created order plans covered ⟨out, hlog⟩).2 plan hplan
    exact ⟨a, ha, (congrArg AuthorizationRow.id hfixed :)⟩
  | @reused _ _ a _ _ ha => exact ⟨a, ha, rfl⟩

theorem Ledger.order_expires (ho : o ∈ s.db.orders.rows) :
    o.expires = some (addSecs o.created env.config.orderExpirySecs.toNat) := by
  obtain ⟨order, plans, covered, ⟨out, hmem⟩, hfixed⟩ := h.order o ho
  have hnew : NewOrderSound env H s.db order plans covered := hsound.log _ hmem
  rw [show o.expires = order.expires from (congrArg OrderRow.expires hfixed :),
    show o.created = order.created from (congrArg OrderRow.created hfixed :)]
  exact hnew.expires

theorem Ledger.authz_expires (ha : a ∈ s.db.authorizations.rows) :
    a.expires = some (addSecs a.created env.config.authzExpirySecs.toNat) := by
  obtain ⟨plan, hfixed, hplan, -⟩ := h.plan hsound ha
  rw [show a.expires = plan.authz.expires from (congrArg AuthorizationRow.expires hfixed :),
    show a.created = plan.authz.created from (congrArg AuthorizationRow.created hfixed :)]
  exact hplan.expires

end Rows

theorem Ledger.eligible (h : Ledger env s) (hjob : JobMatches s.db job)
    (ha : a ∈ s.db.authorizations.rows) (hid : job.authzId = a.id) :
    job.type ∈ eligibleChallengeTypes env.config a.identifier ∧ job.identifier = a.identifier := by
  obtain ⟨⟨c, hc, -, hauthz, htype⟩, a₁, ha₁, hid₁, hident, -⟩ := hjob
  obtain ⟨a₂, ha₂, hid₂, heligible⟩ := h.challenge c hc
  obtain rfl : a₁ = a := s.db.authorizations.eq_of_mem_of_key_eq ha₁ ha (hid₁.trans hid)
  obtain rfl : a₂ = a₁ :=
    s.db.authorizations.eq_of_mem_of_key_eq ha₂ ha₁ ((hid₂.trans hauthz).trans hid₁.symm)
  exact ⟨htype ▸ heligible, hident.symm⟩

theorem ledger_boot (env : Env) (now : Int) : Ledger env (.boot env now) := by
  constructor <;> simp [Node.boot, Db.empty, Node.Logged]

end Facts

/-! ## One transaction -/

variable {a : AuthorizationRow}

section Transaction

variable {env : Env} {H : Assumed} {db db' : Db} {t : Txn} {out : Outcome}

variable {decodeNull : Except AcmeError String}

theorem fresh_order_of_exec (hexec : exec decodeNull db t = .ok (db', out)) {n : OrderRow}
    (ho : o ∈ db.orders.rows) (hn : n ∈ t.newOrders) : o.id ≠ n.id := by
  refine (effect_of_exec hexec ?_).fresh_order ho hn
  rintro crdt rfl
  cases hn

theorem hit_onValid_iff {evidence : List String} {now : Int}
    (hexec : exec decodeNull db (.onValid job evidence now) = .ok (db', out)) :
    out.hit = true ↔ processing db job.challengeId = true := by
  cases hproc : processing db job.challengeId with
  | false =>
    simp only [exec, execOnValid_of_not_processing hproc] at hexec
    cases hexec
    simp
  | true =>
    simp only [exec, execOnValid_of_processing hproc, Except.ok.injEq] at hexec
    split at hexec <;> cases hexec <;> simp

theorem valid_onChallenge {c : ChallengeRow} :
    (t.onChallenge c).status = .valid ↔ c.status = .valid ∨ ∃ job evidence now,
      t = .onValid job evidence now ∧ c.id = job.challengeId ∧ c.status = .processing := by
  cases t with
  | onValid job evidence now =>
    simp only [Txn.onChallenge]
    split
    · rename_i hhit
      simp only [Challenges.inStatus, Bool.and_eq_true, beq_iff_eq] at hhit
      exact iff_of_true rfl (.inr ⟨job, evidence, now, rfl, hhit⟩)
    · rename_i hmiss
      refine ⟨.inl, ?_⟩
      rintro (hvalid | ⟨_, _, _, heq, hid, hproc⟩)
      · exact hvalid
      · cases heq
        simp [Challenges.inStatus, hid, hproc] at hmiss
  | setProcessingIfPending | onInvalid =>
    simp only [Txn.onChallenge]
    split
    · rename_i hhit
      simp only [Challenges.inStatus, Bool.and_eq_true, beq_iff_eq] at hhit
      simp [hhit.2]
    · simp
  | setEmailToken =>
    simp only [Txn.onChallenge]
    split <;> simp
  | _ => simp [Txn.onChallenge]

theorem valid_onAuthz (h : (t.onAuthz db a).status = .valid) :
    a.status = .valid ∨ ∃ job evidence now, t = .onValid job evidence now ∧
      processing db job.challengeId = true ∧ a.id = job.authzId := by
  cases t with
  | onValid job evidence now =>
    simp only [Txn.onAuthz] at h
    split at h
    · rename_i hhit
      simp only [Bool.and_eq_true, beq_iff_eq] at hhit
      exact .inr ⟨job, evidence, now, rfl, hhit.1, hhit.2⟩
    · exact .inl h
  | onInvalid =>
    simp only [Txn.onAuthz] at h
    split at h
    · cases h
    · exact .inl h
  | _ => exact .inl h

theorem authorized_onOrder (h : (t.onOrder decodeNull db o).status.authorized) :
    o.status.authorized ∨ ∃ job evidence now, t = .onValid job evidence now ∧
      readies db job now = true ∧ o.id = job.orderId := by
  cases t with
  | onValid job evidence now =>
    simp only [Txn.onOrder] at h
    split at h
    · rename_i hhit
      simp only [Bool.and_eq_true, beq_iff_eq] at hhit
      exact .inr ⟨job, evidence, now, rfl, hhit.1, hhit.2⟩
    · exact .inl h
  | onInvalid | orderInvalid =>
    simp only [Txn.onOrder] at h
    split at h
    · simp [OrderStatus.authorized] at h
    · exact .inl h
  | finalize | setProcessingWithCsrDer | completeOrder =>
    left
    simp only [Txn.onOrder] at h
    split at h
    · rename_i hhit
      simp only [Bool.and_eq_true, beq_iff_eq] at hhit
      simp [OrderStatus.authorized, hhit.2]
    · exact h
  | cancelStar | starRenew | setUpstreamOrderUrl =>
    left
    simp only [Txn.onOrder] at h
    split at h <;> exact h
  | _ => exact .inl h

theorem takesDown_of_owner {challengeId authzId error : String} {orderId : Option String}
    {now : Int} (hsound : TxnSound env H db (.onInvalid challengeId authzId orderId error now))
    (hproc : processing db challengeId = true) (ha : a ∈ db.authorizations.rows)
    (hid : a.id = authzId) {oid : String} (horder : a.orderId = some oid) :
    takesDown env.decodeNull db challengeId authzId orderId oid = true := by
  have hresolve : onInvalidOrder env.decodeNull db authzId orderId = .ok (some oid) := by
    cases orderId with
    | some x =>
      obtain ⟨a', ha', hid', howns⟩ := hsound x rfl
      obtain rfl : a' = a := db.authorizations.eq_of_mem_of_key_eq ha' ha (hid'.trans hid.symm)
      rw [howns oid horder]
      rfl
    | none =>
      rw [← hid]
      simp [onInvalidOrder, KeyedTable.find?_of_mem ha, horder]
  simp [takesDown, hproc, hresolve]

end Transaction

/-! ## One step -/

section Step

variable {env : Env} {H : Assumed} {s s' : Node} {t : Txn} {out : Outcome}

theorem Node.logged_cons {t' : Txn} (hlog : s'.log = (t, out) :: s.log) :
    s'.Logged t' ↔ t' = t ∨ s.Logged t' := by
  constructor
  · rintro ⟨out', hmem⟩
    rw [hlog] at hmem
    rcases mem_cons.mp hmem with heq | hmem
    · exact .inl (congrArg Prod.fst heq)
    · exact .inr ⟨out', hmem⟩
  · rintro (rfl | ⟨out', hmem⟩)
    · exact ⟨out, by simp [hlog]⟩
    · exact ⟨out', by simp [hlog, hmem]⟩

theorem TxnSound.plan_of_newChallenge {db : Db} {c : ChallengeRow} (h : TxnSound env H db t)
    (hc : c ∈ t.newChallenges) : ∃ plan, PlanSound env plan ∧ plan.authz ∈ t.newAuthzs ∧
      ∃ now, c ∈ plan.challengeRows now := by
  cases t with
  | newOrder order plans =>
    obtain ⟨plan, hplan, hc⟩ := mem_flatMap.mp hc
    exact ⟨plan, (h.plans plan hplan).1, mem_map_of_mem hplan, _, hc⟩
  | newAuthz plan => exact ⟨plan, h.1, mem_singleton_self _, _, hc⟩
  | _ => cases hc

theorem TxnSound.plan_of_newAuthz {db : Db} (h : TxnSound env H db t) (ha : a ∈ t.newAuthzs) :
    a.status = .pending ∧
      ∀ oid, a.orderId = some oid → ∃ o ∈ t.newOrders, o.id = oid := by
  cases t with
  | newOrder order plans =>
    obtain ⟨plan, hplan, rfl⟩ := mem_map.mp ha
    obtain ⟨hsound, horder, -⟩ := h.plans plan hplan
    refine ⟨hsound.status, fun oid hoid ↦ ⟨order, mem_singleton_self _, ?_⟩⟩
    exact Option.some.inj (horder.symm.trans hoid)
  | newAuthz =>
    rw [mem_singleton.mp ha]
    exact ⟨h.1.status, fun oid hoid ↦ by simp [h.2] at hoid⟩
  | _ => cases ha

theorem valid_onAuthz_of_authorized (hsound : TxnSound env H s.db t)
    (ha : a ∈ s.db.authorizations.rows) (howns : a.orderId = some o.id) (hvalid : a.status = .valid)
    (hauthorized : (t.onOrder env.decodeNull s.db o).status.authorized) :
    (t.onAuthz s.db a).status = .valid := by
  cases t with
  | onValid =>
    simp only [Txn.onAuthz]
    split
    · rfl
    · exact hvalid
  | onInvalid =>
    simp only [Txn.onAuthz]
    split
    · rename_i hhit
      simp only [Bool.and_eq_true, beq_iff_eq] at hhit
      have hdown := takesDown_of_owner hsound hhit.1 ha hhit.2 howns
      simp [Txn.onOrder, hdown, OrderStatus.authorized] at hauthorized
    · exact hvalid
  | _ => exact hvalid

section Commit

variable (h : Ledger env s) (hwrites : Writes env.decodeNull s.db t s'.db)

include h hwrites

theorem Ledger.challenge_commit (hsound : TxnSound env H s.db t) : ∀ c ∈ s'.db.challenges.rows,
      ∃ a ∈ s'.db.authorizations.rows, a.id = c.authzId ∧
        c.type ∈ eligibleChallengeTypes env.config a.identifier := by
  intro c hc
  rcases (hwrites.challenges c).mp hc with ⟨c₀, hc₀, rfl⟩ | hnew
  · obtain ⟨a, ha, hid, heligible⟩ := h.challenge c₀ hc₀
    obtain ⟨a', ha', hfixed⟩ := hwrites.extends.authorizations a ha
    have hcfixed := t.fixed_onChallenge c₀
    refine ⟨a', ha', ?_, ?_⟩
    · exact (congrArg AuthorizationRow.id hfixed).trans
        (hid.trans (congrArg ChallengeRow.authzId hcfixed).symm)
    · rw [show (t.onChallenge c₀).type = c₀.type from (congrArg ChallengeRow.type hcfixed :),
        show a'.identifier = a.identifier from (congrArg AuthorizationRow.identifier hfixed :)]
      exact heligible
  · obtain ⟨plan, hplan, hauthz, now, hc⟩ := hsound.plan_of_newChallenge hnew
    obtain ⟨p, hp, rfl⟩ := mem_map.mp hc
    exact ⟨plan.authz, (hwrites.authorizations _).mpr (.inr hauthz), rfl, hplan.types p hp⟩

theorem Ledger.ready_commit (hsound : s.Sound env H)
    (hexec : exec env.decodeNull s.db t = .ok (s'.db, out))
    (htxn : TxnSound env H s.db t) : ∀ o ∈ s'.db.orders.rows,
      o.delegationId = none → o.status.authorized →
        ∀ a ∈ s'.db.authorizations.rows, a.orderId = some o.id → a.status = .valid := by
  intro o ho hdelegation hauthorized a ha howns
  rcases (hwrites.orders o).mp ho with ⟨o₀, ho₀, rfl⟩ | hnewOrder
  · rw [t.id_onOrder] at howns
    have hfixed := t.fixed_onOrder env.decodeNull s.db o₀
    rcases (hwrites.authorizations a).mp ha with ⟨a₀, ha₀, rfl⟩ | hnew
    · have howns₀ : a₀.orderId = some o₀.id :=
        (congrArg AuthorizationRow.orderId (t.fixed_onAuthz s.db a₀)).symm.trans howns
      rcases authorized_onOrder hauthorized with hold | ⟨job, evidence, now, rfl, hready, hjob⟩
      · have hnone : o₀.delegationId = none :=
          (congrArg OrderRow.delegationId hfixed).symm.trans hdelegation
        exact valid_onAuthz_of_authorized htxn ha₀ howns₀
          (h.ready o₀ ho₀ hnone hold a₀ ha₀ howns₀) hauthorized
      · -- the order is ready because its authorizations, as they are now, are valid
        simp only [readies, Bool.and_eq_true, allAuthzValid_iff] at hready
        refine hready.2 _ ?_ (howns.trans (congrArg some hjob))
        simp only [markValid, KeyedTable.updateWhere, Txn.onAuthz, hready.1, Bool.true_and]
        exact mem_map_of_mem ha₀
    · obtain ⟨n, hn, hid⟩ := (htxn.plan_of_newAuthz hnew).2 _ howns
      exact absurd hid.symm (fresh_order_of_exec hexec ho₀ hn)
  · rcases (hwrites.authorizations a).mp ha with ⟨a₀, ha₀, rfl⟩ | hnew
    · -- an authorization that was there belongs to an order that was there
      have howns₀ : a₀.orderId = some o.id :=
        (congrArg AuthorizationRow.orderId (t.fixed_onAuthz s.db a₀)).symm.trans howns
      obtain ⟨-, -, -, horder⟩ := h.plan hsound ha₀
      obtain ⟨o', ho', hid⟩ := horder _ howns₀
      exact absurd hid (fresh_order_of_exec hexec ho' hnewOrder)
    · cases t with
      | newOrder =>
        cases mem_singleton.mp hnewOrder
        rcases htxn.status with hpending | ⟨-, hplans⟩
        · simp [hpending, OrderStatus.authorized] at hauthorized
        · simp [Txn.newAuthzs, hplans hdelegation] at hnew
      | _ => cases hnewOrder

variable (hlog : s'.log = (t, out) :: s.log)

include hlog

theorem Ledger.order_commit : ∀ o ∈ s'.db.orders.rows,
      ∃ order plans covered, s'.Logged (.newOrder order plans covered) ∧
        o.fixed = order.fixed := by
  intro o ho
  rcases (hwrites.orders o).mp ho with ⟨o₀, ho₀, rfl⟩ | hnew
  · obtain ⟨order, plans, covered, hlogged, hfixed⟩ := h.order o₀ ho₀
    exact ⟨order, plans, covered, (logged_cons hlog).mpr (.inr hlogged), by simp [hfixed]⟩
  · cases t with
    | newOrder order plans covered =>
      rw [mem_singleton.mp hnew]
      exact ⟨order, plans, covered, (logged_cons hlog).mpr (.inl rfl), rfl⟩
    | _ => cases hnew

theorem Ledger.created_commit : ∀ order plans covered,
      s'.Logged (.newOrder order plans covered) →
        (∃ o ∈ s'.db.orders.rows, o.fixed = order.fixed) ∧
          ∀ plan ∈ plans, ∃ a ∈ s'.db.authorizations.rows, a.fixed = plan.authz.fixed := by
  intro order plans covered hlogged
  rcases (logged_cons hlog).mp hlogged with rfl | hlogged
  · refine ⟨⟨order, (hwrites.orders _).mpr (.inr (by simp [Txn.newOrders])), rfl⟩,
      fun plan hplan ↦ ⟨plan.authz, (hwrites.authorizations _).mpr (.inr ?_), rfl⟩⟩
    exact mem_map_of_mem hplan
  · obtain ⟨horder, hplans⟩ := h.created order plans covered hlogged
    refine ⟨hwrites.extends.order_fixed horder, fun plan hplan ↦ ?_⟩
    obtain ⟨a, ha, hfixed⟩ := hplans plan hplan
    obtain ⟨a', ha', hfixed'⟩ := hwrites.extends.authorizations a ha
    exact ⟨a', ha', hfixed'.trans hfixed⟩

theorem Ledger.authz_commit : ∀ a ∈ s'.db.authorizations.rows,
      ∃ plan, a.fixed = plan.authz.fixed ∧ (s'.Logged (.newAuthz plan) ∨
        ∃ order plans covered, s'.Logged (.newOrder order plans covered) ∧ plan ∈ plans) := by
  intro a ha
  rcases (hwrites.authorizations a).mp ha with ⟨a₀, ha₀, rfl⟩ | hnew
  · obtain ⟨plan, hfixed, hlogged⟩ := h.authz a₀ ha₀
    refine ⟨plan, by simp [hfixed], ?_⟩
    rcases hlogged with hlogged | ⟨order, plans, covered, hlogged, hplan⟩
    · exact .inl ((logged_cons hlog).mpr (.inr hlogged))
    · exact .inr ⟨order, plans, covered, (logged_cons hlog).mpr (.inr hlogged), hplan⟩
  · cases t with
    | newOrder order plans covered =>
      obtain ⟨plan, hplan, rfl⟩ := mem_map.mp hnew
      exact ⟨plan, rfl, .inr ⟨order, plans, covered, (logged_cons hlog).mpr (.inl rfl),
        hplan⟩⟩
    | newAuthz plan =>
      rw [mem_singleton.mp hnew]
      exact ⟨plan, rfl, .inl ((logged_cons hlog).mpr (.inl rfl))⟩
    | _ => cases hnew

variable (hexec : exec env.decodeNull s.db t = .ok (s'.db, out))

include hexec

theorem Ledger.recorded_commit : ∀ job evidence now out,
      (.onValid job evidence now, out) ∈ s'.log → out.hit = true →
        ∃ c ∈ s'.db.challenges.rows, c.id = job.challengeId ∧ c.status = .valid := by
  intro job evidence now out' hmem hhit
  -- it is enough that the row was valid before or becomes valid now
  have hrow : ∀ c ∈ s.db.challenges.rows, c.id = job.challengeId →
      (t.onChallenge c).status = .valid →
      ∃ c ∈ s'.db.challenges.rows, c.id = job.challengeId ∧ c.status = .valid :=
    fun c hc hid hvalid ↦ ⟨t.onChallenge c, (hwrites.challenges _).mpr (.inl ⟨c, hc, rfl⟩),
      (congrArg ChallengeRow.id (t.fixed_onChallenge c)).trans hid, hvalid⟩
  rw [hlog] at hmem
  rcases mem_cons.mp hmem with heq | hmem
  · obtain ⟨rfl, rfl⟩ := Prod.mk.inj heq
    obtain ⟨c, hc, hid, hproc⟩ := processing_iff.mp ((hit_onValid_iff hexec).mp hhit)
    exact hrow c hc hid (valid_onChallenge.mpr (.inr ⟨job, evidence, now, rfl, hid, hproc⟩))
  · obtain ⟨c, hc, hid, hvalid⟩ := h.recorded job evidence now out' hmem hhit
    exact hrow c hc hid (valid_onChallenge.mpr (.inl hvalid))

variable (htxn : TxnSound env H s.db t)

include htxn

theorem Ledger.validated_commit : ∀ a ∈ s'.db.authorizations.rows,
      a.status = .valid → ∃ job evidence, s'.Validates a.id job evidence := by
  intro a ha hvalid
  rcases (hwrites.authorizations a).mp ha with ⟨a₀, ha₀, rfl⟩ | hnew
  · have hid : (t.onAuthz s.db a₀).id = a₀.id :=
      (congrArg AuthorizationRow.id (t.fixed_onAuthz s.db a₀) :)
    rcases valid_onAuthz hvalid with hvalid₀ | ⟨job, evidence, now, rfl, hproc, hjob⟩
    · obtain ⟨job, evidence, now, out', hmem, hhit, hjob⟩ := h.validated a₀ ha₀ hvalid₀
      exact ⟨job, evidence, now, out', by simp [hlog, hmem], hhit, hjob.trans hid.symm⟩
    · exact ⟨job, evidence, now, out, by simp [hlog], (hit_onValid_iff hexec).mpr hproc,
        hjob.symm.trans hid.symm⟩
  · rw [(htxn.plan_of_newAuthz hnew).1] at hvalid
    cases hvalid

theorem Ledger.decided_commit : ∀ c ∈ s'.db.challenges.rows,
      c.status = .valid → ∃ job evidence now out, (.onValid job evidence now, out) ∈ s'.log ∧
        out.hit = true ∧ job.challengeId = c.id := by
  intro c hc hvalid
  rcases (hwrites.challenges c).mp hc with ⟨c₀, hc₀, rfl⟩ | hnew
  · have hid : (t.onChallenge c₀).id = c₀.id := (congrArg ChallengeRow.id (t.fixed_onChallenge c₀) :)
    rcases valid_onChallenge.mp hvalid with hvalid₀ | ⟨job, evidence, now, rfl, hjob, hproc⟩
    · obtain ⟨job, evidence, now, out', hmem, hhit, hjob⟩ := h.decided c₀ hc₀ hvalid₀
      exact ⟨job, evidence, now, out', by simp [hlog, hmem], hhit, hjob.trans hid.symm⟩
    · have hhit := (hit_onValid_iff hexec).mpr (processing_iff.mpr ⟨c₀, hc₀, hjob, hproc⟩)
      exact ⟨job, evidence, now, out, by simp [hlog], hhit, hjob.symm.trans hid.symm⟩
  · obtain ⟨plan, -, -, now, hc⟩ := htxn.plan_of_newChallenge hnew
    obtain ⟨p, -, rfl⟩ := mem_map.mp hc
    cases hvalid

end Commit

theorem Ledger.step {e : Event} (h : Ledger env s) (hsound : s.Sound env H)
    (hquiet : ∀ t ∈ s.attempt e, Quiet s.db t) : Ledger env (Node.step env s e).1 := by
  rcases step_db env s e with ⟨hdb, hlog, -⟩ | ⟨t, out, hattempt, -, hexec, hlog⟩
  · obtain ⟨h₁, h₂, h₃, h₄, h₅, h₆, h₇, h₈⟩ := h
    constructor <;> rw [hdb] <;> simpa only [Node.Logged, Node.Validates, hlog]
  · have hwrites := writes_of_exec hexec (hquiet t hattempt)
    have htxn := hsound.attempt hattempt
    exact
      { order := h.order_commit hwrites hlog
        created := h.created_commit hwrites hlog
        authz := h.authz_commit hwrites hlog
        challenge := h.challenge_commit hwrites htxn
        validated := h.validated_commit hwrites hlog hexec htxn
        decided := h.decided_commit hwrites hlog hexec htxn
        recorded := h.recorded_commit hwrites hlog hexec
        ready := h.ready_commit hwrites hsound hexec htxn }

end Step

end Akamu
