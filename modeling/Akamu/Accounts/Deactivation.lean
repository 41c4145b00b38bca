import Akamu.Orders.Star
import Akamu.Replication.Permanence

/-!
# Accounts that are deactivated

Deactivation sets a status that requests are checked against.  The renewal of
STAR certificates, the work on delegated orders and a finalize call that has
passed its checks do not look at it.
-/

namespace Akamu

open Crdt KeyedTable List Machine Node

def OrderRow.isOpen (o : OrderRow) : Bool :=
  (o.starEndDate.isSome && o.starCanceledAt.isNone && o.status == .valid) ||
    (o.delegationId.isSome && o.status == .processing && o.upstreamCertUrl.isNone)

def Task.issuesFor : Task → Option String
  | .phase (.checkCaa job) | .phase (.issue job) | .phase (.persistCert job _) => some job.order.id
  | .phase (.renewStar order) => some order.id
  | .commit (.finalize _ cert _ _ _ _) | .commit (.starRenew cert _)
  | .commit (.completeOrder cert _ _) => some cert.orderId
  | .commit (.setProcessingWithCsrDer orderId _ _) => some orderId
  | _ => none

def Node.working (s : Node) (o : OrderRow) : Bool :=
  o.isOpen || s.tasks.any (fun t ↦ t.issuesFor == some o.id) ||
    s.upstream.any fun d ↦ d.order.id == o.id

theorem Node.working_iff {s : Node} {o : OrderRow} :
    s.working o = true ↔ o.isOpen = true ∨ (∃ task ∈ s.tasks, task.issuesFor = some o.id) ∨
      ∃ d ∈ s.upstream, d.order.id = o.id := by
  simp [Node.working, or_assoc]

def Node.worksFor (s : Node) (accountId : String) : Bool :=
  s.db.orders.rows.any fun o ↦ o.accountId == accountId && s.working o

variable {accountId : String}

theorem Node.worksFor_eq_false_iff {s : Node} :
    s.worksFor accountId = false ↔
      ∀ o ∈ s.db.orders.rows, o.accountId = accountId → s.working o = false := by
  simp [Node.worksFor]

def Node.HasDeactivated (s : Node) (accountId : String) : Prop :=
  ∃ now byOperator o, (.deactivateAccount accountId now byOperator, o) ∈ s.log ∧ o.hit = true

/-! ## The side condition -/

def Txn.deactivates : Txn → Option String
  | .deactivateAccount id _ _ => some id
  | _ => none

def Event.finalizes : Event → Option String
  | .request (.finalize req) _ => some req.accountId
  | _ => none

instance (db : Db) (accountId : String) : Decidable (Deactivated db accountId) :=
  inferInstanceAs (Decidable (∃ a ∈ db.accounts.find? accountId, a.status = .deactivated))

/-- Writing the replica back reactivates no account and reopens no order of a
deactivated one. -/
structure KeepsClosed (db : Db) (crdt : AkaCrdt) : Prop where
  accounts : ∀ a ∈ db.accounts.rows, a.status = .deactivated →
    ∀ e ∈ crdt.accounts.lookup a.id, e.value.status = "deactivated"
  orders : ∀ o ∈ db.orders.rows, Deactivated db o.accountId →
    ∀ e ∈ crdt.orders.lookup o.id, e.value.status = o.status.asStr

instance (db : Db) (crdt : AkaCrdt) : Decidable (KeepsClosed db crdt) :=
  decidable_of_iff (_ ∧ _) ⟨fun h ↦ ⟨h.1, h.2⟩, fun h ↦ ⟨h.1, h.2⟩⟩

/-- A finalize request comes from an account that is not deactivated, and an
account is deactivated when no certificate for it is on its way. -/
structure DeactivatesIdle (s : Node) (e : Event) : Prop where
  admitted : ∀ id ∈ e.finalizes, ¬ Deactivated s.db id
  idle : ∀ t ∈ s.attempt e, ∀ id ∈ t.deactivates, s.worksFor id = false
  writesBack : ∀ crdt ∈ s.writesBack e, KeepsClosed s.db crdt

instance (s : Node) (e : Event) : Decidable (DeactivatesIdle s e) :=
  decidable_of_iff (_ ∧ _ ∧ _) ⟨fun h ↦ ⟨h.1, h.2.1, h.2.2⟩, fun h ↦ ⟨h.1, h.2, h.3⟩⟩

/-! ## Who owns the orders that tasks work on -/

def Db.Owns (db : Db) (orderId accountId : String) : Prop :=
  ∃ o ∈ db.orders.rows, o.id = orderId ∧ o.accountId = accountId

/-- The order that a task works on is there and belongs to the account that the
task has noted; a new order is not open. -/
def Task.Owned (db : Db) : Task → Prop
  | .phase (.checkCaa job) | .phase (.issue job) | .phase (.persistCert job _) =>
    db.Owns job.order.id job.order.accountId
  | .phase (.renewStar order) => db.Owns order.id order.accountId
  | .commit (.finalize _ cert _ _ _ _) | .commit (.starRenew cert _)
  | .commit (.completeOrder cert _ _) => db.Owns cert.orderId cert.accountId
  | .commit (.setProcessingWithCsrDer orderId _ _) => ∃ accountId, db.Owns orderId accountId
  | .commit (.newOrder order _ _) => order.isOpen = false
  | _ => True

section Owned

variable {env : Env} {s : Node} {e : Event} {db db' : Db} {t : Txn} {o : Outcome}

theorem Task.Owned.mono (hmono : ∀ orderId accountId, db.Owns orderId accountId →
    db'.Owns orderId accountId) {task : Task} (h : task.Owned db) : task.Owned db' := by
  cases task with
  | hooks => trivial
  | commit t =>
    cases t with
    | finalize | starRenew | completeOrder => exact hmono _ _ h
    | setProcessingWithCsrDer => exact h.imp fun accountId howns ↦ hmono _ _ howns
    | newOrder => exact h
    | _ => trivial
  | phase p =>
    cases p with
    | checkCaa | issue | persistCert | renewStar => exact hmono _ _ h
    | _ => trivial

theorem Task.Owned.exists_owner {task : Task} (h : task.Owned db) {orderId : String}
    (hissues : task.issuesFor = some orderId) : ∃ accountId, db.Owns orderId accountId := by
  cases task with
  | hooks => cases hissues
  | commit t =>
    cases t with
    | finalize | starRenew | completeOrder =>
      cases hissues
      exact ⟨_, h⟩
    | setProcessingWithCsrDer =>
      cases hissues
      exact h
    | _ => cases hissues
  | phase p =>
    cases p with
    | checkCaa | issue | persistCert | renewStar =>
      cases hissues
      exact ⟨_, h⟩
    | _ => cases hissues

end Owned

/-! ## Which orders are open -/

inductive OrderArises (db : Db) (t : Txn) (r : OrderRow) : Prop
  | kept {o : OrderRow} (ho : o ∈ db.orders.rows) (hid : o.id = r.id)
      (haccount : o.accountId = r.accountId)
      (hopen : r.isOpen = true → o.isOpen = true ∨ (Task.commit t).issuesFor = some r.id)
  | added (hfresh : ∀ o ∈ db.orders.rows, o.id ≠ r.id) (hclosed : r.isOpen = false)

section Open

variable {decodeNull : Except AcmeError String} {db db' : Db} {t : Txn} {o : Outcome}

variable {r : OrderRow}

theorem isOpen_onOrder (h : (t.onOrder decodeNull db r).isOpen = true) :
    r.isOpen = true ∨ (Task.commit t).issuesFor = some r.id := by
  cases t with
  | finalize | setProcessingWithCsrDer | completeOrder =>
    simp only [Txn.onOrder] at h
    split at h
    · rename_i hguard
      simp only [Bool.and_eq_true, beq_iff_eq] at hguard
      exact .inr (congrArg some hguard.1.symm)
    · exact .inl h
  | onValid | onInvalid | orderInvalid =>
    simp only [Txn.onOrder] at h
    split at h
    · simp [OrderRow.isOpen] at h
    · exact .inl h
  | cancelStar | starRenew | setUpstreamOrderUrl =>
    simp only [Txn.onOrder] at h
    split at h
    · simp_all [OrderRow.isOpen]
    · exact .inl h
  | _ => exact .inl h

theorem arises_of_persist {crdt : AkaCrdt} (hpersist : persistCrdtAcme db crdt = .ok db')
    (hkeeps : ∀ o ∈ db.orders.rows, o.accountId = r.accountId →
    ∀ e ∈ crdt.orders.lookup o.id, e.value.status = o.status.asStr) (hr : r ∈ db'.orders.rows) :
    OrderArises db (.persist crdt) r := by
  have hfind := find?_of_mem hr
  obtain ⟨habsent, hwritten⟩ := order_of_persist hpersist r.id
  cases hlookup : crdt.orders.lookup r.id with
  | none =>
    rw [habsent hlookup] at hfind
    exact .kept (mem_of_find? hfind) rfl rfl .inl
  | some e =>
    obtain ⟨status, hstatus, hnew⟩ := hwritten e hlookup
    rw [hfind] at hnew
    cases hold : db.orders.find? r.id with
    | none =>
      rw [hold] at hnew
      have hrow : r = orderRowOfEntry r.id status e.value := Option.some.inj hnew
      refine .added (fun o ho hid ↦ ?_) (by rw [hrow]; rfl)
      rw [← hid, find?_of_mem ho] at hold
      cases hold
    | some o =>
      rw [hold] at hnew
      obtain rfl : r = assignOrder status e.value o := Option.some.inj hnew
      have hmem := mem_of_find? hold
      have hsame : e.value.status = o.status.asStr := hkeeps o hmem rfl e hlookup
      obtain rfl : o.status = status := by simpa [hsame] using hstatus
      exact .kept hmem rfl rfl .inl

theorem arises_of_exec (hexec : exec decodeNull db t = .ok (db', o))
    (hkeeps : ∀ crdt, t = .persist crdt → ∀ o ∈ db.orders.rows, o.accountId = r.accountId →
    ∀ e ∈ crdt.orders.lookup o.id, e.value.status = o.status.asStr)
    (hnew : ∀ n ∈ t.newOrders, n.isOpen = false) (hr : r ∈ db'.orders.rows) :
    OrderArises db t r := by
  rcases exec_cases hexec with ⟨crdt, rfl, hpersist⟩ | heffect
  · exact arises_of_persist hpersist (hkeeps crdt rfl) hr
  · rw [heffect.orders] at hr
    rcases mem_append.mp hr with hr | hr
    · obtain ⟨o, ho, rfl⟩ := mem_map.mp hr
      have hid := t.id_onOrder decodeNull db o
      have haccount : (t.onOrder decodeNull db o).accountId = o.accountId :=
        (congrArg OrderRow.accountId (t.fixed_onOrder decodeNull db o) :)
      exact .kept ho hid.symm haccount.symm fun hopen ↦ hid.symm ▸ isOpen_onOrder hopen
    · exact .added (fun o ho ↦ heffect.fresh_order ho hr) (hnew r hr)

end Open

/-! ## Along a run -/

/-- Tasks work on orders of the accounts they have noted, and nothing is on its
way for a deactivated account. -/
structure Quiesced (s : Node) : Prop where
  tasks : ∀ task ∈ s.tasks, task.Owned s.db
  upstream : ∀ d ∈ s.upstream, s.db.Owns d.order.id d.order.accountId
  idle : ∀ id, s.HasDeactivated id → Deactivated s.db id ∧ s.worksFor id = false

section Run

variable {env : Env} {s : Node} {e : Event}

theorem quiesced_boot (env : Env) (now : Int) : Quiesced (.boot env now) where
  tasks task htask := by
    obtain ⟨k, -, rfl⟩ := mem_map.mp htask
    trivial
  upstream d hd := by cases hd
  idle id hid := by
    obtain ⟨_, _, _, hmem, -⟩ := hid
    cases hmem

variable {t : Txn} {db : Db}

theorem owns_of_finalizeChecks {req : FinalizeRequest} {job : FinalizeJob}
    (h : finalizeChecks env db req = .ok job) :
    db.Owns job.order.id job.order.accountId ∧ job.order.accountId = req.accountId :=
  have hpassed := checksPassed_of_finalizeChecks h
  ⟨⟨job.order, mem_of_find? hpassed.order, rfl, rfl⟩, hpassed.accountId⟩

variable {task : Task} {orderId : String}

theorem issuesFor_of_follows (h : task.follows = true) : task.issuesFor = none := by
  cases task with
  | hooks => rfl
  | commit t => cases t <;> trivial
  | phase p => cases p <;> trivial

theorem issuesFor_of_validates (h : t.validates = true) : (Task.commit t).issuesFor = none := by
  cases t <;> trivial

theorem certRow_of_starRunOnce {now signedAt : Int} {order : OrderRow} {cert : CertificateRow}
    (h : starRunOnce env db now signedAt order = .ok [.commit (.starRenew cert now)]) :
    cert.orderId = order.id ∧ cert.accountId = order.accountId := by
  obtain hnone | ⟨_, _, _, _, _, _, -, -, -, -, -, hcert⟩ := starRunOnce_cases h
  · cases hnone
  · cases hcert
    exact ⟨rfl, rfl⟩

theorem issuesFor_of_arises (harises : Node.Arises env s e task) (h : task.issuesFor = some orderId)
    : (∃ task' ∈ s.tasks, task'.issuesFor = some orderId) ∨
      (∃ o ∈ s.db.orders.rows, o.id = orderId ∧ o.isOpen = true) ∨
      ∃ id ∈ e.finalizes, s.db.Owns orderId id := by
  cases harises with
  | kept hmem => exact .inl ⟨task, hmem, h⟩
  | begun hbegin hmem =>
    cases opens_of_begin hbegin _ hmem with
    | finalize hjob | handOff hjob =>
      obtain ⟨howns, haccount⟩ := owns_of_finalizeChecks hjob
      cases h
      exact .inr (.inr ⟨_, rfl, haccount ▸ howns⟩)
    | @standalone _ t ht => cases t <;> contradiction
    | _ => cases h
  | followed hout hmem => simp [issuesFor_of_follows (follows_of_followUp _ hmem)] at h
  | proceeded hphase hproceed hmem =>
    have hold := mem_of_getElem? hphase
    cases leads_of_proceed hproceed _ hmem with
    | checkCaa | issue | persistCert => exact .inl ⟨_, hold, h⟩
    | renewStar hrun =>
      exact .inl ⟨_, hold, (congrArg some (certRow_of_starRunOnce hrun).1.symm).trans h⟩
    | validate _ hkind => simp [issuesFor_of_validates hkind] at h
    | _ => cases h
  | starTick hlisted =>
    rename_i o
    obtain ⟨hmem, hfilter⟩ := mem_filter.mp hlisted
    exact .inr (.inl ⟨o, hmem, Option.some.inj h, by simp [OrderRow.isOpen, hfilter]⟩)
  | seeded hmem =>
    obtain ⟨k, -, rfl⟩ := mem_map.mp hmem
    cases h
  | hooked | spawned | snapshot | purgeJti => cases h

theorem owned_of_arises (h : Quiesced s) (harises : Node.Arises env s e task) :
    task.Owned s.db := by
  cases harises with
  | kept hmem => exact h.tasks task hmem
  | begun hbegin hmem =>
    cases opens_of_begin hbegin _ hmem with
    | finalize hjob => exact (owns_of_finalizeChecks hjob).1
    | handOff hjob => exact ⟨_, (owns_of_finalizeChecks hjob).1⟩
    | @standalone _ t ht => cases t <;> trivial
    | _ => trivial
  | followed hout hmem =>
    have hfollows := follows_of_followUp _ hmem
    cases task with
    | hooks => trivial
    | commit t => cases t <;> trivial
    | phase p => cases p <;> trivial
  | proceeded hphase hproceed hmem =>
    have hold := h.tasks _ (mem_of_getElem? hphase)
    cases leads_of_proceed hproceed _ hmem with
    | checkCaa | issue | persistCert => exact hold
    | renewStar hrun =>
      obtain ⟨horder, haccount⟩ := certRow_of_starRunOnce hrun
      simp only [Task.Owned, horder, haccount]
      exact hold
    | @validate job t _ hkind => cases t <;> trivial
    | @newOrder d =>
      have hstatus : initialStatus d = .ready ∨ initialStatus d = .pending := by
        unfold initialStatus
        split_ifs <;> simp
      rcases hstatus with hstatus | hstatus <;>
        simp [Task.Owned, OrderRow.isOpen, draftOrderRow, hstatus]
    | _ => trivial
  | @starTick o hlisted => exact ⟨o, (mem_filter.mp hlisted).1, rfl, rfl⟩
  | seeded hmem =>
    obtain ⟨k, -, rfl⟩ := mem_map.mp hmem
    trivial
  | hooked | spawned | snapshot | purgeJti => trivial

theorem driven_of_step_upstream {d : Driven} (hd : d ∈ (Node.step env s e).1.upstream) :
    (∃ d' ∈ s.upstream, d'.order = d.order) ∨
      d.order ∈ s.db.orders.rows ∧ d.order.isOpen = true := by
  rcases upstream_of_step env s e with
    ⟨d₀, rest, answer, now, -, hqueue, hleft⟩ | ⟨-, hkept | hnil | ⟨-, hlisted⟩⟩
  · rw [hleft] at hd
    rcases drive_snd d₀ rest answer now with hrest | ⟨hagain, -⟩
    · rw [hrest] at hd
      exact .inl ⟨d, hqueue ▸ mem_cons_of_mem _ hd, rfl⟩
    · rw [hagain] at hd
      rcases mem_cons.mp hd with rfl | hd
      · exact .inl ⟨d₀, hqueue ▸ mem_cons_self, rfl⟩
      · exact .inl ⟨d, hqueue ▸ mem_cons_of_mem _ hd, rfl⟩
  · exact .inl ⟨d, hkept ▸ hd, rfl⟩
  · rw [hnil] at hd
    cases hd
  · rw [hlisted] at hd
    obtain ⟨o, ho, rfl⟩ := mem_map.mp hd
    obtain ⟨hmem, hfilter⟩ := mem_filter.mp ho
    exact .inr ⟨hmem, by simp [OrderRow.isOpen, hfilter]⟩

theorem owned_of_attempt (h : Quiesced s) (hattempt : s.attempt e = some t) :
    (Task.commit t).Owned s.db := by
  rcases attempt_eq_some hattempt with hmem | ⟨d, rest, answer, now, hqueue, -, hdrive⟩
  · exact h.tasks _ hmem
  · have hd := h.upstream d (hqueue ▸ mem_cons_self)
    rcases drive_fst hdrive with ⟨_, rfl⟩ | ⟨_, rfl⟩ | ⟨_, _, rfl⟩
    · trivial
    · trivial
    · exact hd

theorem working_of_attempt (hattempt : s.attempt e = some t) {o : OrderRow}
    (hissues : (Task.commit t).issuesFor = some o.id) : s.working o = true := by
  rw [working_iff]
  rcases attempt_eq_some hattempt with hmem | ⟨d, rest, answer, now, hqueue, -, hdrive⟩
  · exact .inr (.inl ⟨_, hmem, hissues⟩)
  · rcases drive_fst hdrive with ⟨_, rfl⟩ | ⟨_, rfl⟩ | ⟨_, _, rfl⟩
    · cases hissues
    · cases hissues
    · exact .inr (.inr ⟨d, hqueue ▸ mem_cons_self, Option.some.inj hissues⟩)

theorem closed_of_owned (h : (Task.commit t).Owned db) : ∀ n ∈ t.newOrders, n.isOpen = false := by
  cases t with
  | newOrder =>
    intro n hn
    cases mem_singleton.mp hn
    exact h
  | _ => exact fun n hn ↦ absurd hn not_mem_nil

theorem Db.Owns.step (h : s.db.Owns orderId accountId) :
    (Node.step env s e).1.db.Owns orderId accountId := by
  obtain ⟨o, ho, rfl, rfl⟩ := h
  obtain ⟨o', ho', hterms⟩ := order_of_step ho
  exact ⟨o', ho', (congrArg OrderRow.id hterms :), (congrArg OrderRow.accountId hterms :)⟩

theorem open_of_step (h : Quiesced s) {r : OrderRow}
    (hkeeps : ∀ crdt ∈ s.writesBack e, ∀ o ∈ s.db.orders.rows, o.accountId = r.accountId →
      ∀ v ∈ crdt.orders.lookup o.id, v.value.status = o.status.asStr)
    (hr : r ∈ (Node.step env s e).1.db.orders.rows) :
    (∃ o ∈ s.db.orders.rows, o.id = r.id ∧ o.accountId = r.accountId ∧
        (r.isOpen = true → s.working o = true)) ∨
      (∀ o ∈ s.db.orders.rows, o.id ≠ r.id) ∧ r.isOpen = false := by
  revert hr
  refine db_rule (fun hr ↦ ?_) fun t o db' hattempt hexec hr ↦ ?_
  · exact .inl ⟨r, hr, rfl, rfl, fun hopen ↦ working_iff.mpr (.inl hopen)⟩
  · have harises := arises_of_exec hexec
      (fun crdt hcrdt ↦ hkeeps crdt (writesBack_eq_some.mpr (hcrdt ▸ hattempt)))
      (closed_of_owned (owned_of_attempt h hattempt)) hr
    cases harises with
    | added hfresh hclosed => exact .inr ⟨hfresh, hclosed⟩
    | @kept o ho hid haccount hopen =>
      refine .inl ⟨o, ho, hid, haccount, fun hr ↦ ?_⟩
      rcases hopen hr with hopen | hissues
      · exact working_iff.mpr (.inl hopen)
      · exact working_of_attempt hattempt (hid ▸ hissues)

theorem worksFor_of_step (h : Quiesced s)
    (hkeeps : ∀ crdt ∈ s.writesBack e, ∀ o ∈ s.db.orders.rows, o.accountId = accountId →
      ∀ v ∈ crdt.orders.lookup o.id, v.value.status = o.status.asStr)
    (hadmitted : accountId ∉ e.finalizes) (hidle : s.worksFor accountId = false) :
    (Node.step env s e).1.worksFor accountId = false := by
  rw [worksFor_eq_false_iff] at hidle ⊢
  rintro r hr rfl
  -- an order that some task or the upstream loop works on has been there before
  have hwork : ∀ orderId owner, s.db.Owns orderId owner → orderId = r.id →
      ∃ o ∈ s.db.orders.rows, o.id = r.id ∧ o.accountId = r.accountId ∧ owner = r.accountId := by
    rintro _ _ ⟨o, ho, rfl, rfl⟩ hid
    obtain ⟨o', ho', hid', haccount⟩ := (Db.Owns.step ⟨o, ho, rfl, rfl⟩ :
      (Node.step env s e).1.db.Owns o.id o.accountId)
    obtain rfl := (Node.step env s e).1.db.orders.eq_of_mem_of_key_eq ho' hr (hid'.trans hid)
    exact ⟨o, ho, hid, haccount.symm, haccount.symm⟩
  by_contra hworking
  rw [Bool.not_eq_false, working_iff] at hworking
  rcases hworking with hopen | ⟨task, htask, hissues⟩ | ⟨d, hd, hid⟩
  · rcases open_of_step h hkeeps hr with ⟨o, ho, -, haccount, hworks⟩ | ⟨-, hclosed⟩
    · simp [hidle o ho haccount] at hworks
      simp [hworks] at hopen
    · simp [hclosed] at hopen
  · have harises := arises_of_mem htask
    rcases issuesFor_of_arises harises hissues with ⟨task', htask', hissues'⟩ | ⟨o, ho, hid, hopen⟩ |
      ⟨id, hid, howns⟩
    · obtain ⟨owner, howner⟩ := (h.tasks task' htask').exists_owner hissues'
      obtain ⟨o, ho, hoid, haccount, -⟩ := hwork _ _ howner rfl
      have hworks : s.working o = true :=
        working_iff.mpr (.inr (.inl ⟨task', htask', hoid ▸ hissues'⟩))
      simp [hidle o ho haccount] at hworks
    · obtain ⟨o', ho', hoid, haccount, -⟩ := hwork _ _ ⟨o, ho, rfl, rfl⟩ hid
      obtain rfl := s.db.orders.eq_of_mem_of_key_eq ho' ho (hoid.trans hid.symm)
      have hworks : s.working o' = true := working_iff.mpr (.inl hopen)
      simp [hidle o' ho haccount] at hworks
    · obtain ⟨-, -, -, -, rfl⟩ := hwork _ _ howns rfl
      exact hadmitted hid
  · rcases driven_of_step_upstream hd with ⟨d', hd', horder⟩ | ⟨hmem, hopen⟩
    · obtain ⟨o, ho, hoid, haccount, -⟩ := hwork _ _ (h.upstream d' hd') (horder ▸ hid)
      have hworks : s.working o = true :=
        working_iff.mpr (.inr (.inr ⟨d', hd', (horder ▸ hid).trans hoid.symm⟩))
      simp [hidle o ho haccount] at hworks
    · obtain ⟨o, ho, hoid, haccount, -⟩ := hwork _ _ ⟨d.order, hmem, rfl, rfl⟩ hid
      obtain rfl := s.db.orders.eq_of_mem_of_key_eq ho hmem (hoid.trans hid.symm)
      have hworks : s.working d.order = true := working_iff.mpr (.inl hopen)
      simp [hidle d.order hmem haccount] at hworks

theorem Quiesced.step (h : Quiesced s) (hok : DeactivatesIdle s e) :
    Quiesced (Node.step env s e).1 where
  tasks task htask :=
    (owned_of_arises h (arises_of_mem htask)).mono fun _ _ howns ↦ howns.step
  upstream d hd := by
    rcases driven_of_step_upstream hd with ⟨d', hd', horder⟩ | ⟨hmem, -⟩
    · exact horder ▸ (h.upstream d' hd').step
    · exact Db.Owns.step ⟨d.order, hmem, rfl, rfl⟩
  idle id hid := by
    have hold : s.HasDeactivated id → Deactivated (Node.step env s e).1.db id ∧
        (Node.step env s e).1.worksFor id = false := by
      intro hid
      obtain ⟨hdeactivated, hidle⟩ := h.idle id hid
      refine ⟨?_, worksFor_of_step h (fun crdt hcrdt o ho haccount ↦
        (hok.writesBack crdt hcrdt).orders o ho (haccount ▸ hdeactivated))
        (fun hadmitted ↦ hok.admitted id hadmitted hdeactivated) hidle⟩
      refine db_rule hdeactivated fun t o db' hattempt hexec ↦ ?_
      exact deactivated_of_exec hexec (fun crdt hcrdt ↦
        (hok.writesBack crdt (writesBack_eq_some.mpr (hcrdt ▸ hattempt))).accounts)
        hdeactivated
    obtain ⟨now, byOperator, out, hlog, hhit⟩ := hid
    rcases mem_log_step hlog with hlog | ⟨hattempt, hexec⟩
    · exact hold ⟨now, byOperator, out, hlog, hhit⟩
    · -- the deactivation is what this step commits
      refine ⟨deactivated_of_deactivate hexec hhit, worksFor_of_step h ?_ ?_
        (hok.idle _ hattempt id rfl)⟩
      · intro crdt hcrdt
        rw [writesBack_eq_some.mp hcrdt] at hattempt
        cases hattempt
      · intro hadmitted
        cases e with
        | request => cases hattempt
        | _ => cases hadmitted

theorem owns_of_newCert {out : Outcome} (h : (Task.commit t).Owned db) {c : CertificateRow}
    (hc : c ∈ t.newCerts out) :
    (Task.commit t).issuesFor = some c.orderId ∧ db.Owns c.orderId c.accountId := by
  cases t with
  | finalize order cert now pred replacedBy =>
    obtain rfl : c = Txn.onCert _ { cert with replacedBy := none } := mem_singleton.mp hc
    rw [Txn.orderId_onCert, Txn.accountId_onCert]
    exact ⟨rfl, h⟩
  | completeOrder =>
    cases mem_singleton.mp hc
    exact ⟨rfl, h⟩
  | starRenew =>
    simp only [Txn.newCerts] at hc
    split at hc
    · cases mem_singleton.mp hc
      exact ⟨rfl, h⟩
    · cases hc
  | _ => cases hc

/-- No step inserts a certificate of an account whose deactivation has been
committed, if accounts are deactivated when nothing is on its way for them. -/
theorem no_issuance_after_deactivation (env : Env) (start : Int) (es : List Event)
    (hmeets : Meets (Node.step env) DeactivatesIdle (.boot env start) es) (e : Event) :
    ∀ c ∈ (Node.step env (run (Node.step env) (.boot env start) es) e).1.db.certificates.rows,
      (∀ c' ∈ (run (Node.step env) (.boot env start) es).db.certificates.rows, c'.id ≠ c.id) →
      ¬ (run (Node.step env) (.boot env start) es).HasDeactivated c.accountId := by
  have hquiesced := hmeets.invariant Quiesced (quiesced_boot env start)
    fun s e h hok ↦ h.step hok
  generalize run (Node.step env) (.boot env start) es = s at hquiesced
  intro c hc hnew hdeactivated
  revert hc
  refine Node.db_rule (fun hc ↦ hnew c hc rfl) fun t o db' hattempt hexec hc ↦ ?_
  obtain ⟨hissues, r, hr, hid, haccount⟩ :=
    owns_of_newCert (owned_of_attempt hquiesced hattempt) (newCert_of_exec hexec hc hnew)
  have hidle := Node.worksFor_eq_false_iff.mp (hquiesced.idle _ hdeactivated).2 r hr haccount
  simp [working_of_attempt hattempt (hid ▸ hissues)] at hidle

end Run

/-! ## Two runs -/

/-- A STAR order with certificates of ninety days gets its first certificate. -/
def renewingEvents : List Event := starEvents ⟨none, 100000000, 7776000, 0⟩

def deactivateEvents (now : Int) : List Event :=
  .request (.updateAccount "acct-1" true none) now :: drain 3 now

/-- The renewal loop does not ask whether the account is still valid. -/
theorem renewed_after_deactivation :
    (runDated (renewingEvents ++ deactivateEvents 5 ++ renewEvents 4000000)).HasDeactivated "acct-1" ∧
      (runDated (renewingEvents ++ deactivateEvents 5 ++
        renewEvents 4000000)).db.certificates.rows.map CertificateRow.id = ["cert-4"] ∧
      (runDated (renewingEvents ++ deactivateEvents 5 ++ renewEvents 4000000 ++
        drain 1 4000000)).db.certificates.rows.map (fun c ↦ (c.id, c.accountId)) =
          [("cert-4", "acct-1"), ("cert-4000000", "acct-1")] := by
  refine ⟨⟨5, false, { hit := true }, ?_, rfl⟩, ?_, ?_⟩ <;> decide +kernel

/-- The STAR order is canceled, the account deactivated, and another account
gets a certificate. -/
def settledEvents : List Event :=
  renewingEvents ++ .request (.cancelOrder "acct-1" "ca" "order-1") 5 :: drain 1 5 ++
    deactivateEvents 6 ++
    .request (.newAccount "acct-2" "other" [2] none false none) 7 :: drain 3 7 ++
    .request (.newOrder "acct-2" "ca" (.plain [⟨.dns, "b.example", none⟩]) (.sample "2")) 8 ::
      drain 9 8 ++
    .request (.respondChallenge "acct-2" "ca" "authz-2-0" .http01 (.ok ())) 9 :: drain 7 9 ++
    .request (.finalize
      { accountId := "acct-2", caId := "ca", orderId := "order-2", csr := "2b.example" }) 10 ::
      drain 3 10

theorem other_account_unaffected :
    (run (Node.step datedEnv) (.boot datedEnv 0) settledEvents).HasDeactivated "acct-1" ∧
      (Node.step datedEnv (run (Node.step datedEnv) (.boot datedEnv 0) settledEvents)
        (.advance 0 10 Input.plain)).1.db.certificates.rows.map
          (fun c ↦ (c.id, c.accountId)) = [("cert-4", "acct-1"), ("cert-10", "acct-2")] ∧
      ∀ c ∈ (Node.step datedEnv (run (Node.step datedEnv) (.boot datedEnv 0) settledEvents)
          (.advance 0 10 Input.plain)).1.db.certificates.rows,
        (∀ c' ∈ (run (Node.step datedEnv) (.boot datedEnv 0)
          settledEvents).db.certificates.rows, c'.id ≠ c.id) →
        ¬ (run (Node.step datedEnv) (.boot datedEnv 0) settledEvents).HasDeactivated c.accountId :=
  ⟨⟨6, false, { hit := true }, by decide +kernel, rfl⟩, by decide +kernel,
    no_issuance_after_deactivation datedEnv 0 settledEvents (by decide +kernel)
      (.advance 0 10 Input.plain)⟩

end Akamu
