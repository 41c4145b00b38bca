import Akamu.Node.Pending
import Akamu.Replication.Progress

/-!
# Commits and the hooks that follow them

Which rows a transaction advances, which hooks its handler runs afterwards, and
that those hooks write what the database says after the commit.
-/

namespace Akamu

open Crdt KeyedTable List

variable {c : ChallengeRow} {a : AuthorizationRow}

namespace Txn

/-! The `WHERE` clauses of the updates that change what the replica holds. -/

def advancesOrder (decodeNull : Except AcmeError String) (db : Db) : Txn → OrderRow → Bool
  | .onValid job _ now, o => readies db job now && o.id == job.orderId
  | .onInvalid challengeId authzId orderId _ _, o =>
    takesDown decodeNull db challengeId authzId orderId o.id
  | .finalize _ cert _ _ _ _, o => o.id == cert.orderId && o.status == .ready
  | .setProcessingWithCsrDer id _ _, o => o.id == id && o.status == .ready
  | .starRenew cert _, o => o.id == cert.orderId && o.starCanceledAt.isNone
  | .orderInvalid id _ _, o => o.id == id
  | .completeOrder cert _ _, o => o.id == cert.orderId && o.status == .processing
  | _, _ => false

def advancesAuthz (db : Db) : Txn → AuthorizationRow → Bool
  | .onValid job _ _, a => processing db job.challengeId && a.id == job.authzId
  | .onInvalid challengeId authzId _ _ _, a => processing db challengeId && a.id == authzId
  | _, _ => false

def advancesChallenge : Txn → ChallengeRow → Bool
  | .setProcessingIfPending challenge _ _, c => Challenges.inStatus challenge.id .pending c
  | .onValid job _ _, c => Challenges.inStatus job.challengeId .processing c
  | .onInvalid challengeId _ _ _ _, c => Challenges.inStatus challengeId .processing c
  | _, _ => false

/-- The handler goes on to run a hook for what it advances.  A finalization whose
predecessor has been replaced returns before its hooks. -/
def hooked (db : Db) : Txn → Bool
  | .onInvalid .. | .setProcessingWithCsrDer .. | .starRenew .. | .orderInvalid ..
  | .completeOrder .. => false
  | .finalize _ _ _ pred _ _ =>
    pred.all fun id ↦ db.certificates.rows.any fun c ↦ c.id == id && c.replacedBy.isNone
  | _ => true

variable {decodeNull : Except AcmeError String} {db : Db} {t : Txn}

theorem progress_onOrder {o : OrderRow} (h : t.advancesOrder decodeNull db o = false) :
    (t.onOrder decodeNull db o).progress = o.progress := by
  cases t <;> simp only [onOrder, id] <;> first
    | rfl
    | exact congrArg OrderRow.progress (if_neg (Bool.eq_false_iff.mp h))
    | (split <;> rfl)

theorem progress_onAuthz (h : t.advancesAuthz db a = false) :
    (t.onAuthz db a).progress = a.progress := by
  cases t <;> simp only [onAuthz, id] <;> first
    | rfl
    | exact congrArg AuthorizationRow.progress (if_neg (Bool.eq_false_iff.mp h))

theorem progress_onChallenge (h : t.advancesChallenge c = false) :
    (t.onChallenge c).progress = c.progress := by
  cases t <;> simp only [onChallenge, id] <;> first
    | rfl
    | exact congrArg ChallengeRow.progress (if_neg (Bool.eq_false_iff.mp h))
    | (split <;> rfl)

end Txn

theorem Db.orderProgress_of_mem {db : Db} {o : OrderRow} (h : o ∈ db.orders.rows) :
    db.orderProgress o.id = some o.progress := by
  rw [Db.orderProgress, find?_of_mem h, Option.map_some]

theorem Db.authzProgress_of_mem {db : Db} (h : a ∈ db.authorizations.rows) :
    db.authzProgress a.id = some a.progress := by
  rw [Db.authzProgress, find?_of_mem h, Option.map_some]

theorem Db.challengeProgress_of_mem {db : Db} (h : c ∈ db.challenges.rows) :
    db.challengeProgress c.id = some c.progress := by
  rw [Db.challengeProgress, find?_of_mem h, Option.map_some]

/-- Rows stay, and only those that the transaction advances change their progress. -/
structure Advances (decodeNull : Except AcmeError String) (db : Db) (t : Txn) (db' : Db) :
    Prop where
  orders : ∀ o ∈ db.orders.rows, ∃ o' ∈ db'.orders.rows, o'.fixed = o.fixed ∧
    (o'.progress = o.progress ∨ t.advancesOrder decodeNull db o = true)
  authorizations : ∀ a ∈ db.authorizations.rows, ∃ a' ∈ db'.authorizations.rows,
    a'.fixed = a.fixed ∧ (a'.progress = a.progress ∨ t.advancesAuthz db a = true)
  challenges : ∀ c ∈ db.challenges.rows, ∃ c' ∈ db'.challenges.rows,
    c'.fixed = c.fixed ∧ (c'.progress = c.progress ∨ t.advancesChallenge c = true)

section Advances

variable {decodeNull : Except AcmeError String} {db db' : Db} {t : Txn} {crdt : AkaCrdt}

section Rows

variable (h : Advances decodeNull db t db')

include h

theorem Advances.extends : Extends db db' where
  orders o ho := (h.orders o ho).imp fun _ hrow ↦ ⟨hrow.1, hrow.2.1⟩
  authorizations a ha := (h.authorizations a ha).imp fun _ hrow ↦ ⟨hrow.1, hrow.2.1⟩
  challenges c hc := (h.challenges c hc).imp fun _ hrow ↦ ⟨hrow.1, hrow.2.1⟩

variable {k : String}

theorem Advances.order {p : OrderProgress} (hp : db.orderProgress k = some p) :
    ∃ o ∈ db.orders.rows, o.id = k ∧
      ∃ p', db'.orderProgress k = some p' ∧ (p' = p ∨ t.advancesOrder decodeNull db o = true) := by
  obtain ⟨o, ho, rfl⟩ := Option.map_eq_some_iff.mp hp
  obtain ⟨hmem, hid⟩ := KeyedTable.find?_eq_some_iff.mp ho
  obtain ⟨o', ho', hfixed, hcase⟩ := h.orders o hmem
  have hid' : o'.id = k := (congrArg OrderRow.id hfixed :).trans hid
  exact ⟨o, hmem, hid, o'.progress, hid' ▸ Db.orderProgress_of_mem ho', hcase⟩

theorem Advances.authz {p : AuthzProgress} (hp : db.authzProgress k = some p) :
    ∃ a ∈ db.authorizations.rows, a.id = k ∧
      ∃ p', db'.authzProgress k = some p' ∧ (p' = p ∨ t.advancesAuthz db a = true) := by
  obtain ⟨a, ha, rfl⟩ := Option.map_eq_some_iff.mp hp
  obtain ⟨hmem, hid⟩ := KeyedTable.find?_eq_some_iff.mp ha
  obtain ⟨a', ha', hfixed, hcase⟩ := h.authorizations a hmem
  have hid' : a'.id = k := (congrArg AuthorizationRow.id hfixed :).trans hid
  exact ⟨a, hmem, hid, a'.progress, hid' ▸ Db.authzProgress_of_mem ha', hcase⟩

theorem Advances.challenge {p : ChallengeProgress} (hp : db.challengeProgress k = some p) :
    ∃ c ∈ db.challenges.rows, c.id = k ∧
      ∃ p', db'.challengeProgress k = some p' ∧ (p' = p ∨ t.advancesChallenge c = true) := by
  obtain ⟨c, hc, rfl⟩ := Option.map_eq_some_iff.mp hp
  obtain ⟨hmem, hid⟩ := KeyedTable.find?_eq_some_iff.mp hc
  obtain ⟨c', hc', hfixed, hcase⟩ := h.challenges c hmem
  have hid' : c'.id = k := (congrArg ChallengeRow.id hfixed :).trans hid
  exact ⟨c, hmem, hid, c'.progress, hid' ▸ Db.challengeProgress_of_mem hc', hcase⟩

end Rows

theorem Effect.advances {o : Outcome} (h : Effect decodeNull db t o db') :
    Advances decodeNull db t db' where
  orders o ho := by
    refine ⟨t.onOrder decodeNull db o, mem_of_map_append h.orders ho, t.fixed_onOrder decodeNull db o, ?_⟩
    cases hadv : t.advancesOrder decodeNull db o with
    | false => exact .inl (Txn.progress_onOrder hadv)
    | true => exact .inr rfl
  authorizations a ha := by
    refine ⟨t.onAuthz db a, mem_of_map_append h.authorizations ha, t.fixed_onAuthz db a, ?_⟩
    cases hadv : t.advancesAuthz db a with
    | false => exact .inl (Txn.progress_onAuthz hadv)
    | true => exact .inr rfl
  challenges c hc := by
    refine ⟨t.onChallenge c, mem_of_map_append h.challenges hc, t.fixed_onChallenge c, ?_⟩
    cases hadv : t.advancesChallenge c with
    | false => exact .inl (Txn.progress_onChallenge hadv)
    | true => exact .inr rfl

theorem Reflects.advances (h : Reflects db crdt nowhere nowhere nowhere)
    (hpersist : persistCrdtAcme db crdt = .ok db') :
    Advances decodeNull db (.persist crdt) db' where
  orders o ho := by
    have hfind := h.order_of_persist hpersist o.id
    rw [find?_of_mem ho] at hfind
    obtain ⟨o', ho', hsame⟩ := Option.map_eq_some_iff.mp hfind
    exact ⟨o', mem_of_find? ho', (congrArg OrderRow.fixed hsame :),
      .inl (congrArg OrderRow.progress hsame :)⟩
  authorizations a ha := by
    have hfind := h.authz_of_persist hpersist a.id
    rw [find?_of_mem ha] at hfind
    obtain ⟨a', ha', hsame⟩ := Option.map_eq_some_iff.mp hfind
    exact ⟨a', mem_of_find? ha', (congrArg AuthorizationRow.fixed hsame :),
      .inl (congrArg AuthorizationRow.progress hsame :)⟩
  challenges c hc := by
    have hfind := h.challenge_of_persist hpersist c.id
    rw [find?_of_mem hc] at hfind
    obtain ⟨c', hc', hsame⟩ := Option.map_eq_some_iff.mp hfind
    exact ⟨c', mem_of_find? hc', (congrArg ChallengeRow.fixed hsame :),
      .inl (congrArg ChallengeRow.progress hsame :)⟩

end Advances

/-! ## Columns that are empty before they are needed -/

/-- Only an invalid order has an error, and a challenge that is not decided has
neither an error nor a time of validation.  The entries that finalization and
the response to a challenge write are made from rows that were read earlier. -/
structure Clean (db : Db) : Prop where
  orders : ∀ o ∈ db.orders.rows, o.status ≠ .invalid → o.error = none
  challenges : ∀ c ∈ db.challenges.rows, c.status = .pending ∨ c.status = .processing →
    c.validated = none ∧ c.error = none

def TxnClean : Txn → Prop
  | .newOrder order _ _ => order.error = none
  | .setProcessingIfPending challenge _ _ =>
    challenge.validated = none ∧ challenge.error = none
  | .finalize order _ _ _ _ _ => order.error = none
  | _ => True

def PhaseClean : Phase → Prop
  | .checkCaa job | .issue job | .persistCert job _ => job.order.error = none
  | _ => True

section Clean

variable {decodeNull : Except AcmeError String} {db db' : Db} {t : Txn} {crdt : AkaCrdt}

theorem Clean.onOrder (hclean : Clean db) {o : OrderRow} (ho : o ∈ db.orders.rows)
    (h : (t.onOrder decodeNull db o).status ≠ .invalid) :
    (t.onOrder decodeNull db o).error = none := by
  have hold := hclean.orders o ho
  revert h
  cases t with
  | onValid =>
    simp only [Txn.onOrder]
    split
    · exact fun _ ↦ rfl
    · exact hold
  | onInvalid | orderInvalid =>
    simp only [Txn.onOrder]
    split
    · exact fun h ↦ absurd rfl h
    · exact hold
  | finalize | setProcessingWithCsrDer | completeOrder =>
    simp only [Txn.onOrder]
    split
    · rename_i hguard
      simp only [Bool.and_eq_true, beq_iff_eq] at hguard
      exact fun _ ↦ hold (by simp [hguard.2])
    · exact hold
  | cancelStar | starRenew | setUpstreamOrderUrl =>
    simp only [Txn.onOrder]
    split <;> exact hold
  | _ => exact hold

theorem Clean.onChallenge (hclean : Clean db) (hc : c ∈ db.challenges.rows)
    (h : (t.onChallenge c).status = .pending ∨ (t.onChallenge c).status = .processing) :
    (t.onChallenge c).validated = none ∧ (t.onChallenge c).error = none := by
  have hold := hclean.challenges c hc
  revert h
  cases t with
  | setProcessingIfPending =>
    simp only [Txn.onChallenge]
    split
    · rename_i hguard
      simp only [Challenges.inStatus, Bool.and_eq_true, beq_iff_eq] at hguard
      exact fun _ ↦ hold (.inl hguard.2)
    · exact hold
  | onValid | onInvalid =>
    simp only [Txn.onChallenge]
    split
    · simp
    · exact hold
  | setEmailToken =>
    simp only [Txn.onChallenge]
    split <;> exact hold
  | _ => exact hold

theorem Effect.clean {o : Outcome} (h : Effect decodeNull db t o db') (hclean : Clean db)
    (htxn : TxnClean t) : Clean db' where
  orders r hr hstatus := by
    rw [h.orders, mem_append, mem_map] at hr
    rcases hr with ⟨o, ho, rfl⟩ | hnew
    · exact hclean.onOrder ho hstatus
    · cases t with
      | newOrder =>
        cases mem_singleton.mp hnew
        exact htxn
      | _ => cases hnew
  challenges r hr hstatus := by
    rw [h.challenges, mem_append, mem_map] at hr
    rcases hr with ⟨c, hc, rfl⟩ | hnew
    · exact hclean.onChallenge hc hstatus
    · cases t with
      | newOrder =>
        obtain ⟨plan, -, hc⟩ := mem_flatMap.mp hnew
        obtain ⟨c, -, rfl⟩ := mem_map.mp hc
        exact ⟨rfl, rfl⟩
      | newAuthz =>
        obtain ⟨c, -, rfl⟩ := mem_map.mp hnew
        exact ⟨rfl, rfl⟩
      | _ => cases hnew

theorem Reflects.clean (h : Reflects db crdt nowhere nowhere nowhere)
    (hpersist : persistCrdtAcme db crdt = .ok db') (hclean : Clean db) : Clean db' where
  orders r hr hstatus := by
    have hfind := h.order_of_persist hpersist r.id
    rw [find?_of_mem hr] at hfind
    obtain ⟨o, ho, hsame⟩ := Option.map_eq_some_iff.mp hfind.symm
    have hrow : r.progress = o.progress := (congrArg OrderRow.progress hsame.symm :)
    simp only [OrderRow.progress, OrderProgress.mk.injEq] at hrow
    rw [hrow.2.1]
    exact hclean.orders o (mem_of_find? ho) (hrow.1 ▸ hstatus)
  challenges r hr hstatus := by
    have hfind := h.challenge_of_persist hpersist r.id
    rw [find?_of_mem hr] at hfind
    obtain ⟨c, hc, hsame⟩ := Option.map_eq_some_iff.mp hfind.symm
    have hrow : r.progress = c.progress := (congrArg ChallengeRow.progress hsame.symm :)
    simp only [ChallengeRow.progress, ChallengeProgress.mk.injEq] at hrow
    rw [hrow.2.1, hrow.2.2]
    exact hclean.challenges c (mem_of_find? hc) (hrow.1 ▸ hstatus)

end Clean

/-! ## The hooks after a commit -/

def Task.pendingHooks : Task → List Hook
  | .hooks hs _ => hs
  | _ => []

section FollowUp

variable {env : Env} {H : Assumed} {decodeNull : Except AcmeError String} {db db' : Db} {t : Txn}
  {o : Outcome} {crdt : AkaCrdt} {lib : Library} {clock : Int} {csr : Option (List UInt8)}
  {order : OrderRow} {evidence : List String} {cert : CertificateRow} {pred : Option String}
  {job : ValidationJob} {replacedBy : String} {now : Int}

theorem outcome_of_onValid (h : exec decodeNull db (.onValid job evidence now) = .ok (db', o)) :
    o.hit = processing db job.challengeId ∧
      (o.flag = true ↔ readies db job now = true ∧ ∃ r ∈ db.orders.rows, r.id = job.orderId) := by
  replace h := Except.ok.inj h
  cases hproc : processing db job.challengeId with
  | false =>
    rw [execOnValid_of_not_processing hproc] at h
    cases h
    simp [readies, hproc]
  | true =>
    rw [execOnValid_of_processing hproc] at h
    split at h
    · rename_i hready
      cases h
      simp [hready, countWhere_ne_zero_iff]
    · rename_i hready
      cases h
      simp [hready]

theorem flag_of_finalize (h : execFinalize db cert now pred replacedBy csr = .ok (db', o))
    (hhooked : (Txn.finalize order cert now pred replacedBy csr).hooked db = true) :
    o.flag = false := by
  rw [← Bool.not_eq_true, flag_of_execFinalize h]
  rintro ⟨p, rfl, -, hreplaced⟩
  simp only [Txn.hooked, Option.all_some, any_eq_true, Bool.and_eq_true, beq_iff_eq,
    Option.isNone_iff_eq_none] at hhooked
  obtain ⟨c, hc, hid, hfree⟩ := hhooked
  exact hreplaced c hc hid hfree

theorem fits_of_newOrder {plans : List AuthzPlan} {covered : List (Identifier × String)}
    (heffect : Effect decodeNull db (.newOrder order plans covered) o db') :
    ∀ h ∈ newOrderHooks order plans, h.Fits db' crdt := by
  intro h hh
  rcases mem_cons.mp hh with rfl | hh
  · have hmem : order ∈ db'.orders.rows := by simp [heffect.orders, Txn.newOrders]
    exact ⟨order.progress, Db.orderProgress_of_mem hmem, orderSays_ofRow order⟩
  · obtain ⟨plan, hplan, hh⟩ := mem_flatMap.mp hh
    rcases mem_cons.mp hh with rfl | hh
    · have hmem : plan.authz ∈ db'.authorizations.rows := by
        rw [heffect.authorizations]
        exact mem_append_right _ (mem_map_of_mem hplan)
      exact ⟨plan.authz.progress, Db.authzProgress_of_mem hmem, authzSays_ofRow plan.authz⟩
    · obtain ⟨c, hc, rfl⟩ := mem_map.mp hh
      have hmem : Challenges.pendingRow plan.authz.id plan.token order.created c ∈
          db'.challenges.rows := by
        rw [heffect.challenges]
        exact mem_append_right _ (mem_flatMap.mpr ⟨plan, hplan, mem_map_of_mem hc⟩)
      exact ⟨_, Db.challengeProgress_of_mem hmem, challengeSays_ofRow _⟩

theorem fits_of_setProcessing {challenge : ChallengeRow} {job : Option ValidationJob}
    (h : exec decodeNull db (.setProcessingIfPending challenge job now) = .ok (db', o))
    (hhit : o.hit = true) (hclean : Clean db)
    (htxn : TxnClean (.setProcessingIfPending challenge job now)) :
    (Hook.challengeSet (processingEntry challenge now)).Fits db' crdt := by
  have heffect := effect_of_exec h nofun
  cases h
  have hcount : db.challenges.countWhere (Challenges.inStatus challenge.id .pending) ≠ 0 := by
    simpa [Challenges.setProcessingIfPending] using hhit
  obtain ⟨c, hc, hpending⟩ := KeyedTable.countWhere_ne_zero_iff.mp hcount
  have hguard := hpending
  simp only [Challenges.inStatus, Bool.and_eq_true, beq_iff_eq] at hguard
  obtain ⟨hvalidated, herror⟩ := hclean.challenges c hc (.inl hguard.2)
  have hmem := mem_of_map_append heffect.challenges hc
  simp only [Txn.onChallenge, if_pos hpending] at hmem
  have hprogress := Db.challengeProgress_of_mem hmem
  refine ⟨_, by rw [← hprogress]; exact congrArg _ hguard.1.symm, rfl, ?_, ?_⟩
  · exact htxn.1.trans hvalidated.symm
  · exact htxn.2.trans herror.symm

/-- Where the transaction advances a row, the entry of the replica is live and
describes the row as it was. -/
structure Current (decodeNull : Except AcmeError String) (db : Db) (crdt : AkaCrdt) (t : Txn) :
    Prop where
  orders : ∀ r ∈ db.orders.rows, t.advancesOrder decodeNull db r = true →
    ∀ e ∈ crdt.orders.lookup r.id, e.tombstone = false ∧ orderSays e.value r.progress
  authorizations : ∀ a ∈ db.authorizations.rows, t.advancesAuthz db a = true →
    ∀ e ∈ crdt.authorizations.lookup a.id, e.tombstone = false ∧ authzSays e.value a.progress
  challenges : ∀ c ∈ db.challenges.rows, t.advancesChallenge c = true →
    ∀ e ∈ crdt.challenges.lookup c.id, ∀ v ∈ e.value, challengeSays v c.progress

theorem fits_of_onValid (h : exec decodeNull db (.onValid job evidence now) = .ok (db', o))
    (hhit : o.hit = true) (hjob : JobMatches db job)
    (hcurrent : Current decodeNull db crdt (.onValid job evidence now)) :
    (Hook.validated job.challengeId job.authzId job.orderId now o.flag).Fits db' crdt := by
  have heffect := effect_of_exec h nofun
  obtain ⟨hproc, hflag⟩ := outcome_of_onValid h
  rw [hhit] at hproc
  refine ⟨?_, ?_, fun hadvanced ↦ ?_⟩
  · obtain ⟨c, hc, hid, hstatus⟩ := processing_iff.mp hproc.symm
    have hguard : Challenges.inStatus job.challengeId .processing c = true := by
      simp [Challenges.inStatus, hid, hstatus]
    have hmem : (Txn.onValid job evidence now).onChallenge c ∈ db'.challenges.rows :=
      mem_of_map_append heffect.challenges hc
    simp only [Txn.onChallenge, if_pos hguard] at hmem
    have hprogress := Db.challengeProgress_of_mem hmem
    refine ⟨_, hid ▸ hprogress, rfl, rfl, fun r hr v hv ↦ ?_⟩
    exact (hcurrent.challenges c hc hguard r (hid ▸ hr) v hv).2.2
  · obtain ⟨a, ha, hid, -⟩ := hjob.authz
    have hguard : (processing db job.challengeId && a.id == job.authzId) = true := by
      simp [← hproc, hid]
    have hmem : (Txn.onValid job evidence now).onAuthz db a ∈ db'.authorizations.rows :=
      mem_of_map_append heffect.authorizations ha
    simp only [Txn.onAuthz, if_pos hguard] at hmem
    have hprogress := Db.authzProgress_of_mem hmem
    refine ⟨_, hid ▸ hprogress, rfl, fun e he ↦ ?_⟩
    obtain ⟨hlive, -, hexpires⟩ := hcurrent.authorizations a ha hguard e (hid ▸ he)
    exact ⟨hlive, hexpires⟩
  · obtain ⟨hready, r, hr, hid⟩ := hflag.mp hadvanced
    have hguard : (readies db job now && r.id == job.orderId) = true := by simp [hready, hid]
    have hmem : (Txn.onValid job evidence now).onOrder decodeNull db r ∈ db'.orders.rows :=
      mem_of_map_append heffect.orders hr
    simp only [Txn.onOrder, if_pos hguard] at hmem
    have hprogress := Db.orderProgress_of_mem hmem
    refine ⟨_, hid ▸ hprogress, rfl, rfl, fun e he ↦ ?_⟩
    obtain ⟨hlive, -, -, hcert, hexpires⟩ := hcurrent.orders r hr hguard e (hid ▸ he)
    exact ⟨hlive, hcert, hexpires⟩

theorem fits_of_finalize (h : execFinalize db cert now pred replacedBy csr = .ok (db', o))
    (hsound : TxnSound env H db (.finalize order cert now pred replacedBy csr)) (hclean : Clean db)
    (htxn : order.error = none) : ∀ hook ∈ finalizeHooks order cert now, hook.Fits db' crdt := by
  obtain ⟨heffect, r, hr, hid, hstatus⟩ :
      Effect env.decodeNull db (.finalize order cert now pred replacedBy csr) o db' ∧
        ∃ r ∈ db.orders.rows, r.id = cert.orderId ∧ r.status = .ready := effect_finalize h
  obtain ⟨⟨o₁, ho₁, hfixed⟩, horder⟩ := hsound
  have hrow : o₁ = r := db.orders.eq_of_mem_of_key_eq ho₁ hr
    (((congrArg OrderRow.id hfixed :).trans horder.symm).trans hid.symm)
  rw [hrow] at hfixed
  have hguard : (r.id == cert.orderId && r.status == .ready) = true := by simp [hid, hstatus]
  have hmem : (Txn.finalize order cert now pred replacedBy csr).onOrder env.decodeNull db r ∈
      db'.orders.rows := mem_of_map_append heffect.orders hr
  simp only [Txn.onOrder, if_pos hguard] at hmem
  have hprogress := Db.orderProgress_of_mem hmem
  intro hook hhook
  simp only [finalizeHooks, mem_cons, not_mem_nil, or_false] at hhook
  rcases hhook with rfl | rfl
  · trivial
  · refine ⟨_, (hid.trans horder) ▸ hprogress, rfl, ?_, rfl, ?_⟩
    · exact htxn.trans (hclean.orders r hr (by simp [hstatus])).symm
    · exact (congrArg OrderRow.expires hfixed.symm :)

variable (h : exec decodeNull db t = .ok (db', o))

include h

theorem fits_of_followUp (hsound : TxnSound env H db t) (hclean : Clean db) (htxn : TxnClean t)
    (hcurrent : Current decodeNull db crdt t) :
    ∀ task ∈ followUp lib clock t o, ∀ hook ∈ task.pendingHooks, hook.Fits db' crdt := by
  cases t with
  | newOrder =>
    intro task htask
    cases mem_singleton.mp htask
    exact fits_of_newOrder (effect_of_exec h nofun)
  | setProcessingIfPending =>
    intro task htask hook hhook
    simp only [followUp] at htask
    split at htask
    · cases mem_singleton.mp htask
      cases mem_singleton.mp hhook
      exact fits_of_setProcessing h ‹_› hclean htxn
    · cases htask
  | onValid =>
    intro task htask hook hhook
    simp only [followUp] at htask
    split at htask
    · cases mem_singleton.mp htask
      cases mem_singleton.mp hhook
      exact fits_of_onValid h ‹_› hsound.1 hcurrent
    · cases htask
  | finalize =>
    intro task htask
    simp only [followUp] at htask
    split at htask
    · cases htask
    · cases mem_singleton.mp htask
      exact fits_of_finalize h hsound hclean htxn
  | deactivateAccount | insertJti | revoke | insertEabIfAbsent =>
    simp only [followUp]
    split_ifs <;> simp [Task.pendingHooks, Hook.Fits]
  | _ => simp [followUp, Task.pendingHooks, Hook.Fits]

theorem touchesOrder_of_followUp (hsound : TxnSound env H db t) (hhooked : t.hooked db = true)
    {r : OrderRow} (hr : r ∈ db.orders.rows) (hadv : t.advancesOrder decodeNull db r = true) :
    ∃ task ∈ followUp lib clock t o, ∃ hook ∈ task.pendingHooks, hook.touchesOrder r.id = true := by
  cases t with
  | onValid job =>
    simp only [Txn.advancesOrder, Bool.and_eq_true, beq_iff_eq] at hadv
    obtain ⟨hhit, hflag⟩ := outcome_of_onValid h
    have hproc : processing db job.challengeId = true := by
      simpa [readies] using (Bool.and_eq_true_iff.mp hadv.1).1
    rw [hproc] at hhit
    have hadvanced : o.flag = true := hflag.mpr ⟨hadv.1, r, hr, hadv.2⟩
    exact ⟨_, by rw [followUp, if_pos hhit]; exact mem_singleton_self _, _,
      mem_singleton_self _, by simp [Hook.touchesOrder, hadvanced, hadv.2]⟩
  | finalize =>
    simp only [Txn.advancesOrder, Bool.and_eq_true, beq_iff_eq] at hadv
    have hflag : o.flag = false := flag_of_finalize h hhooked
    refine ⟨_, by rw [followUp, hflag]; exact mem_singleton_self _, _,
      mem_cons_of_mem _ (mem_singleton_self _), ?_⟩
    simp [Hook.touchesOrder, orderEntryOfRow, hadv.1, hsound.2]
  | onInvalid | setProcessingWithCsrDer | starRenew | orderInvalid | completeOrder => cases hhooked
  | _ => cases hadv

theorem touchesAuthz_of_followUp (hhooked : t.hooked db = true)
    (hadv : t.advancesAuthz db a = true) :
    ∃ task ∈ followUp lib clock t o, ∃ hook ∈ task.pendingHooks, hook.touchesAuthz a.id = true := by
  cases t with
  | onValid =>
    simp only [Txn.advancesAuthz, Bool.and_eq_true, beq_iff_eq] at hadv
    have hhit := (outcome_of_onValid h).1.trans hadv.1
    exact ⟨_, by rw [followUp, if_pos hhit]; exact mem_singleton_self _, _,
      mem_singleton_self _, by simp [Hook.touchesAuthz, hadv.2]⟩
  | onInvalid => cases hhooked
  | _ => cases hadv

theorem touchesChallenge_of_followUp (hhooked : t.hooked db = true) (hc : c ∈ db.challenges.rows)
    (hadv : t.advancesChallenge c = true) :
    ∃ task ∈ followUp lib clock t o,
      ∃ hook ∈ task.pendingHooks, hook.touchesChallenge c.id = true := by
  cases t with
  | setProcessingIfPending challenge job now =>
    cases h
    have hhit : (Challenges.setProcessingIfPending db challenge.id now).2 ≠ 0 :=
      KeyedTable.countWhere_ne_zero_iff.mpr ⟨c, hc, hadv⟩
    simp only [Txn.advancesChallenge, Challenges.inStatus, Bool.and_eq_true, beq_iff_eq] at hadv
    exact ⟨_, by rw [followUp, if_pos (bne_iff_ne.mpr hhit)]; exact mem_singleton_self _, _,
      mem_singleton_self _,
      by simp [Hook.touchesChallenge, processingEntry, challengeEntryOfRow, hadv.1]⟩
  | onValid =>
    simp only [Txn.advancesChallenge, Challenges.inStatus, Bool.and_eq_true,
      beq_iff_eq] at hadv
    have hhit := (outcome_of_onValid h).1.trans (processing_iff.mpr ⟨c, hc, hadv⟩)
    exact ⟨_, by rw [followUp, if_pos hhit]; exact mem_singleton_self _, _,
      mem_singleton_self _, by simp [Hook.touchesChallenge, hadv.1]⟩
  | onInvalid => cases hhooked
  | _ => cases hadv

end FollowUp

/-! ## Tasks -/

def TaskMirrored (db : Db) (crdt : AkaCrdt) : Task → Prop
  | .commit t => TxnClean t
  | .hooks hs _ => ∀ h ∈ hs, h.Fits db crdt
  | .phase p => PhaseClean p

section Tasks

variable {env : Env} {db db' : Db} {crdt : AkaCrdt} {now : Int} {ts : List Task}

theorem TaskMirrored.fits {task : Task} (h : TaskMirrored db crdt task) :
    ∀ hook ∈ task.pendingHooks, hook.Fits db crdt := by
  cases task with
  | hooks => exact h
  | commit | phase => exact fun _ hmem ↦ absurd hmem not_mem_nil

theorem taskMirrored_of_begin {r : Request} (hclean : Clean db)
    (h : r.begin env db now = .ok ts) : ∀ task ∈ ts, TaskMirrored db' crdt task := by
  intro task htask
  cases opens_of_begin h task htask with
  | respond hrows hc hpending =>
    simp only [Authz.getWithChallenges, Option.map_eq_some_iff, Prod.mk.injEq] at hrows
    obtain ⟨a, -, rfl, rfl⟩ := hrows
    exact hclean.challenges _ (mem_filter.mp hc).1 (.inl hpending)
  | finalize hchecks =>
    have hpassed := checksPassed_of_finalizeChecks hchecks
    exact hclean.orders _ (mem_of_find? hpassed.order) (by simp [hpassed.ready])
  | @standalone _ t ht => cases t <;> simp_all [Txn.standalone, TaskMirrored, TxnClean]
  | _ => trivial

theorem taskMirrored_of_proceed {p : Phase} {input : Input} (hp : PhaseClean p)
    (h : p.proceed env db now input = .ok ts) : ∀ task ∈ ts, TaskMirrored db' crdt task := by
  intro task htask
  cases leads_of_proceed h task htask with
  | rereadAccount | eabCheck =>
    intro hook hhook
    cases mem_singleton.mp hhook
    trivial
  | newOrder => exact (rfl : (draftOrderRow env _).error = none)
  | @validate job t _ hkind => cases t <;> trivial
  | checkCaa | issue | persistCert => exact hp
  | cover | sendEmail | renewStar => trivial

theorem taskMirrored_of_followUp {lib : Library} {clock : Int} {t : Txn} {o : Outcome}
    (hfits : ∀ task ∈ followUp lib clock t o, ∀ hook ∈ task.pendingHooks, hook.Fits db crdt) :
    ∀ task ∈ followUp lib clock t o, TaskMirrored db crdt task := by
  intro task htask
  have hfollows := follows_of_followUp task htask
  cases task with
  | hooks => exact hfits _ htask
  | commit t' => cases t' <;> trivial
  | phase p => cases p <;> trivial

end Tasks

/-! ## A hook that waits while others run -/

section Waiting

variable {db db' : Db} {crdt crdt' : AkaCrdt} {h : Hook}

theorem Hook.Fits.update (hfits : h.Fits db crdt)
    (horders : ∀ k e, crdt'.orders.lookup k = some e → crdt.orders.lookup k = some e ∨
      e.tombstone = false ∧ ∃ p, db.orderProgress k = some p ∧ orderSays e.value p)
    (hauthzs : ∀ k e, crdt'.authorizations.lookup k = some e →
      crdt.authorizations.lookup k = some e ∨
        e.tombstone = false ∧ ∃ p, db.authzProgress k = some p ∧ authzSays e.value p)
    (hchallenges : ∀ k e, crdt'.challenges.lookup k = some e →
      crdt.challenges.lookup k = some e ∨
        ∃ p, db.challengeProgress k = some p ∧ ∀ v ∈ e.value, challengeSays v p) :
    h.Fits db crdt' := by
  cases h with
  | validated cid aid oid =>
    obtain ⟨⟨c, hc, hcstatus, hvalidated, hcentry⟩, ⟨a, ha, hastatus, haentry⟩, horder⟩ := hfits
    refine ⟨⟨c, hc, hcstatus, hvalidated, fun r hr v hv ↦ ?_⟩,
      ⟨a, ha, hastatus, fun e he ↦ ?_⟩, fun hadv ↦ ?_⟩
    · rcases hchallenges cid r hr with hold | ⟨p, hp, hshown⟩
      · exact hcentry r hold v hv
      · cases hc.symm.trans hp
        exact (hshown v hv).2.2
    · rcases hauthzs aid e he with hold | ⟨hlive, p, hp, hshown⟩
      · exact haentry e hold
      · cases ha.symm.trans hp
        exact ⟨hlive, hshown.2⟩
    · obtain ⟨p, hp, hstatus, herror, hentry⟩ := horder hadv
      refine ⟨p, hp, hstatus, herror, fun e he ↦ ?_⟩
      rcases horders oid e he with hold | ⟨hlive, p', hp', hshown⟩
      · exact hentry e hold
      · cases hp.symm.trans hp'
        exact ⟨hlive, hshown.2.2.1, hshown.2.2.2⟩
  | _ => exact hfits

theorem Hook.Fits.advance (hfits : h.Fits db crdt)
    (horders : ∀ k p, h.touchesOrder k = true → db.orderProgress k = some p →
      db'.orderProgress k = some p)
    (hauthzs : ∀ k p, h.touchesAuthz k = true → db.authzProgress k = some p →
      db'.authzProgress k = some p)
    (hchallenges : ∀ k p, h.touchesChallenge k = true → db.challengeProgress k = some p →
      db'.challengeProgress k = some p) : h.Fits db' crdt := by
  cases h with
  | orderUpsert =>
    obtain ⟨p, hp, hshown⟩ := hfits
    exact ⟨p, horders _ p (by simp [touchesOrder]) hp, hshown⟩
  | authzUpsert =>
    obtain ⟨p, hp, hshown⟩ := hfits
    exact ⟨p, hauthzs _ p (by simp [touchesAuthz]) hp, hshown⟩
  | challengeSet =>
    obtain ⟨p, hp, hshown⟩ := hfits
    exact ⟨p, hchallenges _ p (by simp [touchesChallenge]) hp, hshown⟩
  | validated cid aid oid =>
    obtain ⟨⟨c, hc, hcrest⟩, ⟨a, ha, harest⟩, horder⟩ := hfits
    refine ⟨⟨c, hchallenges cid c (by simp [touchesChallenge]) hc, hcrest⟩,
      ⟨a, hauthzs aid a (by simp [touchesAuthz]) ha, harest⟩, fun hadv ↦ ?_⟩
    obtain ⟨p, hp, hrest⟩ := horder hadv
    exact ⟨p, horders oid p (by simp [touchesOrder, hadv]) hp, hrest⟩
  | _ => trivial

end Waiting

end Akamu
