import Akamu.Orders.Lifecycle

/-!
# Finalization is all or nothing

A finalize call checks, asks for CAA records, issues and then runs one
transaction.  What it does to the database it does there.  The call returns an
error after that transaction in two cases: the ids of the order's authorizations
cannot be read for the answer, or the certificate that the order replaces has
been replaced by another order in the meantime.
-/

namespace Akamu

open Crdt KeyedTable List Machine Node

def Node.finalizing (s : Node) : Event → Bool
  | .request (.finalize _) _ => true
  | .advance i _ _ =>
    match s.tasks[i]? with
    | some (.phase (.checkCaa _)) | some (.phase (.issue _)) | some (.phase (.persistCert ..))
    | some (.commit (.finalize ..)) => true
    | _ => false
  | _ => false

/-- What the call returns.  `authzIds` is the outcome of `list_authz_ids`, which
reads the database after the transaction. -/
def Output.finalizeResult (authzIds : Except AcmeError (List String)) :
    Output → Option (Except AcmeError CertificateRow)
  | .refused e => some (.error e)
  | .committed (.finalize _ cert _ _ _ _) o =>
    some (authzIds.bind fun _ ↦ if o.flag then .error .certAlreadyReplaced else .ok cert)
  | _ => none

def Txn.predecessor : Txn → Option String
  | .finalize _ _ _ pred _ _ => pred
  | _ => none

/-- The order is ready, and no certificate has the id or the serial number. -/
structure CanFinalize (db : Db) (cert : CertificateRow) : Prop where
  ready : ∃ r ∈ db.orders.rows, r.id = cert.orderId ∧ r.status = .ready
  fresh : ∀ c ∈ db.certificates.rows, c.id ≠ cert.id ∧ c.serialNumber ≠ cert.serialNumber

instance (db : Db) (cert : CertificateRow) : Decidable (CanFinalize db cert) :=
  decidable_of_iff (_ ∧ _) ⟨fun h ↦ ⟨h.1, h.2⟩, fun h ↦ ⟨h.1, h.2⟩⟩

/-- A finalization that goes through finds its predecessor free, and the ids of
the authorizations can be read after it. -/
def Txn.Undisturbed (db : Db) (authzIds : Except AcmeError (List String)) : Txn → Prop
  | .finalize _ cert _ pred _ _ => CanFinalize db cert → authzIds.isOk = true ∧
      ∀ p ∈ pred, ∃ c ∈ db.certificates.rows, c.id = p ∧ c.replacedBy = none
  | _ => True

instance (db : Db) (authzIds : Except AcmeError (List String)) :
    DecidablePred (Txn.Undisturbed db authzIds)
  | .finalize .. => inferInstanceAs (Decidable (_ → _ ∧ _))
  | .newAccount .. | .deactivateAccount .. | .updateContact .. | .updateKey ..
  | .setProfileGrants .. | .newOrder .. | .newAuthz .. | .setProcessingIfPending ..
  | .setEmailToken .. | .insertJti .. | .purgeExpiredJti .. | .onValid .. | .onInvalid ..
  | .setProcessingWithCsrDer .. | .cancelStar .. | .starRenew .. | .orderInvalid ..
  | .setUpstreamOrderUrl .. | .completeOrder .. | .revoke .. | .insertEab ..
  | .insertEabIfAbsent .. | .deleteEab .. | .persist .. => .isTrue trivial

/-! ## Certificates stay -/

section Certificates

variable {decodeNull : Except AcmeError String} {db db' : Db} {t : Txn} {o : Outcome}
  {c : CertificateRow}

theorem Txn.onCert_replacedBy (t : Txn) (h : c.replacedBy ≠ none) :
    (t.onCert c).replacedBy = c.replacedBy := by
  unfold Txn.onCert
  split
  · rw [if_neg (by simp [h])]
  · split <;> rfl
  · rfl

theorem cert_of_exec (hexec : exec decodeNull db t = .ok (db', o)) (hc : c ∈ db.certificates.rows) :
    ∃ c' ∈ db'.certificates.rows, c'.id = c.id ∧
      (c.replacedBy ≠ none → c'.replacedBy = c.replacedBy) := by
  rcases exec_cases hexec with ⟨crdt, rfl, hpersist⟩ | heffect
  · have hfind := find?_of_mem hc
    obtain ⟨habsent, hwritten⟩ := cert_of_persist hpersist c.id
    cases hlookup : crdt.certificates.lookup c.id with
    | none =>
      have hkept := (habsent hlookup).trans hfind
      exact ⟨c, mem_of_find? hkept, rfl, fun _ ↦ rfl⟩
    | some e =>
      have hnew := hwritten e hlookup
      rw [hfind] at hnew
      obtain ⟨status, -, hnew⟩ := hnew
      exact ⟨_, mem_of_find? hnew, rfl, fun _ ↦ rfl⟩
  · exact ⟨t.onCert c, mem_of_map_append heffect.certificates hc, t.onCert_id c,
      t.onCert_replacedBy⟩

theorem cert_of_step {env : Env} {s : Node} {e : Event} (hc : c ∈ s.db.certificates.rows) :
    ∃ c' ∈ (Node.step env s e).1.db.certificates.rows,
      c'.id = c.id ∧ (c.replacedBy ≠ none → c'.replacedBy = c.replacedBy) := by
  exact db_rule ⟨c, hc, rfl, fun _ ↦ rfl⟩ fun t o db' _ hexec ↦ cert_of_exec hexec hc

end Certificates

/-! ## One transaction -/

/-- The transaction has issued `cert`: one more certificate, and a valid order
that points to it. -/
structure HasIssued (db : Db) (cert : CertificateRow) (db' : Db) : Prop where
  added : db'.certificates.rows.map CertificateRow.id =
    db.certificates.rows.map CertificateRow.id ++ [cert.id]
  row : ∃ c ∈ db'.certificates.rows, c.id = cert.id ∧ c.orderId = cert.orderId ∧
    c.accountId = cert.accountId
  order : ∃ o ∈ db'.orders.rows, o.id = cert.orderId ∧ o.status = .valid ∧
    o.certificateId = some cert.id

section Finalize

variable {decodeNull : Except AcmeError String} {db db' : Db} {o : Outcome}
  {cert : CertificateRow} {now : Int} {pred : Option String} {replacedBy : String}
  {csr : Option (List UInt8)}

theorem exists_execFinalize (h : CanFinalize db cert) :
    ∃ r, execFinalize db cert now pred replacedBy csr = .ok r := by
  obtain ⟨r, hr, hid, hstatus⟩ := h.ready
  obtain ⟨certs, hinsert⟩ :
      ∃ certs, Certs.insert db cert = .ok { db with certificates := certs } := by
    have hserial : ¬ (db.certificates.rows.any fun c ↦ c.serialNumber == cert.serialNumber) =
        true := by
      simpa using fun c hc ↦ (h.fresh c hc).2
    have hid : db.certificates.find? cert.id = none :=
      find?_eq_none_iff.mpr fun c hc ↦ (h.fresh c hc).1
    obtain ⟨certs, hcerts⟩ : ∃ certs,
        db.certificates.insert? { cert with replacedBy := none } = some certs :=
      exists_insert? hid
    exact ⟨certs, by simp [Certs.insert, hserial, hcerts]⟩
  -- the statements after the insertion update the order's row, which is there
  have hcount : db.orders.countWhere (fun o ↦ o.id == cert.orderId && o.status == .ready) ≠ 0 :=
    countWhere_ne_zero_iff.mpr ⟨r, hr, by simp [hid, hstatus]⟩
  have hstays : ∀ (f : OrderRow → OrderRow) (hf : ∀ o, (f o).id = o.id),
      (db.orders.updateWhere (fun o ↦ o.id == cert.orderId && o.status == .ready) f hf).countWhere
        (fun o ↦ o.id == cert.orderId) ≠ 0 := by
    intro f hf
    refine countWhere_ne_zero_iff.mpr ⟨_, List.mem_map_of_mem hr, ?_⟩
    split <;> simp [hf, hid]
  cases pred <;> cases csr <;>
    simp [execFinalize, hinsert, Orders.setCertificate, Orders.setStarCsr, Orders.updateOrElse,
      hcount, hstays, conflictToOrderNotReady, Certs.markReplaced, bind, Except.bind, pure,
      Except.pure]

theorem canFinalize_of_exec (h : execFinalize db cert now pred replacedBy csr = .ok (db', o)) :
    CanFinalize db cert := by
  obtain ⟨db₁, hinsert, h⟩ := Except.bind_eq_ok h
  obtain ⟨db₂, hset, -⟩ := Except.bind_eq_ok h
  obtain ⟨certs, rfl, hcerts⟩ := Certs.insert_eq_ok hinsert
  obtain ⟨⟨r, hr, hready⟩, -⟩ :=
    Orders.updateOrElse_eq_ok_iff.mp (conflictToOrderNotReady_eq_ok hset)
  refine ⟨⟨r, hr, by simpa using hready⟩, fun c hc ↦ ⟨?_, ?_⟩⟩
  · exact find?_eq_none_iff.mp (insert?_eq_some_iff.mp hcerts).1 c hc
  · unfold Certs.insert at hinsert
    split at hinsert
    · cases hinsert
    · rename_i hserial
      simpa using fun heq ↦ hserial (any_eq_true.mpr ⟨c, hc, by simpa using heq⟩)

theorem issued_of_finalize (order : OrderRow)
    (h : execFinalize db cert now pred replacedBy csr = .ok (db', o)) : HasIssued db cert db' := by
  obtain ⟨heffect, r, hr, hid, hstatus⟩ :
      Effect (.ok "") db (.finalize order cert now pred replacedBy csr) o db' ∧
        ∃ r ∈ db.orders.rows, r.id = cert.orderId ∧ r.status = .ready := effect_finalize h
  refine ⟨?_, ⟨(Txn.finalize order cert now pred replacedBy csr).onCert
    { cert with replacedBy := none }, ?_, ?_⟩,
    (Txn.finalize order cert now pred replacedBy csr).onOrder (.ok "") db r, ?_, ?_⟩
  · rw [heffect.certificates]
    simp [Txn.newCerts, Txn.onCert_id]
  · rw [heffect.certificates]
    exact mem_append_right _ (mem_singleton_self _)
  · cases pred with
    | none => exact ⟨rfl, rfl, rfl⟩
    | some =>
      simp only [Txn.onCert]
      split <;> exact ⟨rfl, rfl, rfl⟩
  · exact mem_of_map_append heffect.orders hr
  · simp [Txn.onOrder, hid, hstatus]

theorem marked_of_finalize (order : OrderRow) {p : String}
    (h : execFinalize db cert now (some p) replacedBy csr = .ok (db', o))
    (hflag : o.flag = false) (hknown : ∃ c ∈ db.certificates.rows, c.id = p) :
    (∃ c ∈ db.certificates.rows, c.id = p ∧ c.replacedBy = none) ∧
      ∃ c ∈ db'.certificates.rows, c.id = p ∧ c.replacedBy = some replacedBy := by
  have heffect : Effect (.ok "") db (.finalize order cert now (some p) replacedBy csr) o db' :=
    (effect_finalize h).1
  obtain ⟨c, hc, rfl⟩ := hknown
  -- its id is not the one of the certificate that has just been inserted
  have hne : c.id ≠ cert.id := by
    have hnodup := db'.certificates.nodup
    have hids : db'.certificates.rows.map CertificateRow.id =
        db.certificates.rows.map CertificateRow.id ++ [cert.id] :=
      (issued_of_finalize order h).added
    rw [hids, nodup_append] at hnodup
    exact hnodup.2.2 _ (mem_map_of_mem hc) _ (mem_singleton_self _)
  have hfree : c.replacedBy = none := by
    by_contra hreplaced
    have htrue : o.flag = true := (flag_of_execFinalize h).mpr
      ⟨c.id, rfl, hne, fun c' hc' hid ↦ db.certificates.eq_of_mem_of_key_eq hc' hc hid ▸ hreplaced⟩
    simp [hflag] at htrue
  refine ⟨⟨c, hc, rfl, hfree⟩,
    (Txn.finalize order cert now (some c.id) replacedBy csr).onCert c, ?_, ?_, ?_⟩
  · exact mem_of_map_append heffect.certificates hc
  · exact Txn.onCert_id _ c
  · simp [Txn.onCert, hfree]

end Finalize

/-! ## Along a run -/

/-- The committed transaction replaced the certificate `p`, and its call returned
the new one. -/
def Replaces (q : Txn × Outcome) (p : String) : Prop :=
  q.1.predecessor = some p ∧ q.2.flag = false

/-- Predecessors are certificates of the database, and those that a successful
call has replaced are marked. -/
structure PredecessorsMarked (s : Node) : Prop where
  tasks : ∀ t, .commit t ∈ s.tasks → ∀ p ∈ t.predecessor, ∃ c ∈ s.db.certificates.rows, c.id = p
  log : ∀ q ∈ s.log, ∀ p, Replaces q p →
    ∃ c ∈ s.db.certificates.rows, c.id = p ∧ c.replacedBy ≠ none

section Run

variable {env : Env} {s : Node} {e : Event}

theorem predecessorsMarked_boot (env : Env) (now : Int) : PredecessorsMarked (.boot env now) where
  tasks t ht := by
    obtain ⟨k, -, hk⟩ := mem_map.mp ht
    cases hk
    exact fun p hp ↦ nomatch hp
  log q hq := by cases hq

variable {t : Txn}

/-- Only the last phase of a finalize call prepares a transaction with a
predecessor, and it has just looked it up. -/
theorem known_of_arises (h : PredecessorsMarked s) (harises : Node.Arises env s e (.commit t)) :
    ∀ p ∈ t.predecessor, ∃ c ∈ s.db.certificates.rows, c.id = p := by
  cases harises with
  | kept hmem => exact h.tasks t hmem
  | begun hbegin hmem =>
    have hkind : t.begins = true := begins_of_begin hbegin _ hmem
    cases t with
    | finalize => cases hkind
    | _ => exact fun p hp ↦ nomatch hp
  | followed hout hmem =>
    have hkind : (Task.commit t).follows = true := follows_of_followUp _ hmem
    cases t with
    | finalize => cases hkind
    | _ => exact fun p hp ↦ nomatch hp
  | proceeded hphase hproceed hmem =>
    cases leads_of_proceed hproceed _ hmem with
    | newOrder | sendEmail | renewStar => exact fun p hp ↦ nomatch hp
    | validate h hkind =>
      cases t with
      | finalize => cases hkind
      | _ => exact fun p hp ↦ nomatch hp
    | @persistCert job cert pred hpred =>
      rintro p rfl
      unfold predCertUuid at hpred
      split at hpred
      · cases hpred
      · obtain ⟨found, hfound, hid⟩ := Except.map_eq_ok hpred
        obtain ⟨serial, -, hserial⟩ := Except.map_eq_ok hfound
        cases found with
        | none => cases hid
        | some c =>
          cases hid
          exact ⟨c, mem_of_find?_eq_some hserial, rfl⟩
  | snapshot | purgeJti => exact fun p hp ↦ nomatch hp
  | seeded hmem =>
    obtain ⟨k, -, hk⟩ := mem_map.mp hmem
    cases hk
    exact fun p hp ↦ nomatch hp

theorem PredecessorsMarked.attempt (h : PredecessorsMarked s) (hattempt : s.attempt e = some t) :
    ∀ p ∈ t.predecessor, ∃ c ∈ s.db.certificates.rows, c.id = p := by
  rcases attempt_eq_some hattempt with hmem | ⟨d, rest, answer, now, -, -, hdrive⟩
  · exact h.tasks t hmem
  · rcases drive_fst hdrive with ⟨_, rfl⟩ | ⟨_, rfl⟩ | ⟨_, _, rfl⟩ <;>
      exact fun p hp ↦ nomatch hp

theorem PredecessorsMarked.step (h : PredecessorsMarked s) :
    PredecessorsMarked (Node.step env s e).1 where
  tasks t ht p hp := by
    obtain ⟨c, hc, rfl⟩ := known_of_arises h (arises_of_mem ht) p hp
    obtain ⟨c', hc', hid, -⟩ := cert_of_step hc
    exact ⟨c', hc', hid⟩
  log q hq p hp := by
    have hold : q ∈ s.log → ∃ c ∈ (Node.step env s e).1.db.certificates.rows,
        c.id = p ∧ c.replacedBy ≠ none := by
      intro hq
      obtain ⟨c, hc, rfl, hreplaced⟩ := h.log q hq p hp
      obtain ⟨c', hc', hid, hkept⟩ := cert_of_step hc
      exact ⟨c', hc', hid, hkept hreplaced ▸ hreplaced⟩
    rcases mem_log_step hq with hq | ⟨hattempt, hexec⟩
    · exact hold hq
    · obtain ⟨hpred, hflag⟩ := hp
      have hknown := h.attempt hattempt p hpred
      obtain ⟨t, o⟩ := q
      cases t with
      | finalize order cert now pred =>
        obtain rfl : pred = some p := hpred
        obtain ⟨-, c, hc, hid, hmarked⟩ := marked_of_finalize order hexec hflag hknown
        exact ⟨c, hc, hid, by simp [hmarked]⟩
      | _ => cases hpred

/-- The finalize call that takes the step has done everything or nothing. -/
structure AllOrNothing (env : Env) (s : Node) (e : Event)
    (authzIds : Except AcmeError (List String)) : Prop where
  nothing : s.finalizing e = true →
    (∀ cert, (Node.step env s e).2.finalizeResult authzIds ≠ some (.ok cert)) →
    (Node.step env s e).1.db = s.db
  all : ∀ order cert now pred replacedBy csr o,
    (Node.step env s e).2 = .committed (.finalize order cert now pred replacedBy csr) o →
    (Node.step env s e).2.finalizeResult authzIds = some (.ok cert) →
    HasIssued s.db cert (Node.step env s e).1.db ∧
      ∀ p ∈ pred, (∃ c ∈ s.db.certificates.rows, c.id = p ∧ c.replacedBy = none) ∧
        (∃ c ∈ (Node.step env s e).1.db.certificates.rows, c.id = p ∧
          c.replacedBy = some replacedBy) ∧
        ∀ q ∈ s.log, ¬ Replaces q p

theorem finalize_of_finalizing (h : s.finalizing e = true) (hattempt : s.attempt e = some t) :
    ∃ order cert now pred replacedBy csr, t = .finalize order cert now pred replacedBy csr := by
  cases e with
  | advance =>
    simp only [Node.attempt, Option.bind_eq_some_iff, Task.txn?_eq_some] at hattempt
    obtain ⟨task, htask, rfl⟩ := hattempt
    cases t with
    | finalize => exact ⟨_, _, _, _, _, _, rfl⟩
    | _ => simp [Node.finalizing, htask] at h
  | upstream => cases h
  | _ => cases hattempt

theorem finalizing_of_attempt {order : OrderRow} {cert : CertificateRow} {now : Int}
    {pred : Option String} {replacedBy : String} {csr : Option (List UInt8)}
    (h : s.attempt e = some (.finalize order cert now pred replacedBy csr)) :
    s.finalizing e = true := by
  cases e with
  | advance =>
    simp only [Node.attempt, Option.bind_eq_some_iff, Task.txn?_eq_some] at h
    obtain ⟨task, htask, rfl⟩ := h
    simp [Node.finalizing, htask]
  | upstream =>
    cases hup : s.upstream with
    | nil => simp [Node.attempt, hup] at h
    | cons d rest =>
      simp only [Node.attempt, hup] at h
      rcases drive_fst h with ⟨_, ht⟩ | ⟨_, ht⟩ | ⟨_, _, ht⟩ <;> cases ht
  | _ => cases h

variable {authzIds : Except AcmeError (List String)}

theorem finalizeResult_eq_ok_iff {order : OrderRow} {cert cert' : CertificateRow} {now : Int}
    {pred : Option String} {replacedBy : String} {csr : Option (List UInt8)} {o : Outcome} :
    (Output.committed (.finalize order cert now pred replacedBy csr) o).finalizeResult authzIds =
      some (.ok cert') ↔ authzIds.isOk = true ∧ o.flag = false ∧ cert = cert' := by
  cases authzIds with
  | error => simp [Output.finalizeResult, Except.bind, Except.isOk, Except.toBool]
  | ok => cases hflag : o.flag <;> simp [Output.finalizeResult, Except.bind, Except.isOk,
      Except.toBool, hflag]

theorem PredecessorsMarked.all (h : PredecessorsMarked s) {order : OrderRow}
    {cert : CertificateRow} {now : Int} {pred : Option String} {replacedBy : String}
    {csr : Option (List UInt8)} {o : Outcome}
    (hout : (Node.step env s e).2 = .committed (.finalize order cert now pred replacedBy csr) o)
    (hflag : o.flag = false) :
    HasIssued s.db cert (Node.step env s e).1.db ∧
      ∀ p ∈ pred, (∃ c ∈ s.db.certificates.rows, c.id = p ∧ c.replacedBy = none) ∧
        (∃ c ∈ (Node.step env s e).1.db.certificates.rows, c.id = p ∧
          c.replacedBy = some replacedBy) ∧
        ∀ q ∈ s.log, ¬ Replaces q p := by
  obtain ⟨hattempt, hexec, -⟩ := exec_of_committed hout
  refine ⟨issued_of_finalize order hexec, ?_⟩
  rintro p rfl
  obtain ⟨hbefore, hafter⟩ := marked_of_finalize order hexec hflag (h.attempt hattempt p rfl)
  refine ⟨hbefore, hafter, fun q hq hreplaces ↦ ?_⟩
  obtain ⟨c, hc, rfl, hnone⟩ := hbefore
  obtain ⟨c', hc', hid, hmarked⟩ := h.log q hq _ hreplaces
  exact hmarked (s.db.certificates.eq_of_mem_of_key_eq hc' hc hid ▸ hnone)

theorem PredecessorsMarked.allOrNothing_iff (h : PredecessorsMarked s) :
    AllOrNothing env s e authzIds ↔ ∀ t ∈ s.attempt e, t.Undisturbed s.db authzIds := by
  constructor
  · intro hall t hattempt
    cases t with
    | finalize order cert now pred replacedBy csr =>
      intro hcan
      obtain ⟨⟨db', o⟩, hexec⟩ :
          ∃ r, execFinalize s.db cert now pred replacedBy csr = .ok r := exists_execFinalize hcan
      have hout : (Node.step env s e).2 = .committed _ o := committed_of_attempt hattempt hexec
      -- the database has one more certificate, so the call has not failed
      have hresult : ∃ cert', (Node.step env s e).2.finalizeResult authzIds = some (.ok cert') := by
        by_contra hfails
        have hsame := hall.nothing (finalizing_of_attempt hattempt) (not_exists.mp hfails)
        have hadded := (issued_of_finalize order (exec_of_committed hout).2.1).added
        rw [hsame] at hadded
        simpa using congrArg List.length hadded
      obtain ⟨cert', hresult⟩ := hresult
      rw [hout, finalizeResult_eq_ok_iff] at hresult
      obtain ⟨hread, hflag, -⟩ := hresult
      exact ⟨hread, fun p hp ↦ ((h.all hout hflag).2 p hp).1⟩
    | _ => trivial
  · intro hok
    refine ⟨fun hfinalizing hfails ↦ ?_, fun order cert now pred replacedBy csr o hout hresult ↦ ?_⟩
    · rcases step_db env s e with ⟨hdb, -, -⟩ | ⟨t, o, hattempt, hout, hexec, -⟩
      · exact hdb
      · obtain ⟨order, cert, now, pred, replacedBy, csr, rfl⟩ :=
          finalize_of_finalizing hfinalizing hattempt
        obtain ⟨hread, hfree⟩ := hok _ hattempt (canFinalize_of_exec hexec)
        -- the only other error after the commit is the replaced predecessor
        have hflag : o.flag = true := by
          by_contra hflag
          refine hfails cert ?_
          rw [hout, finalizeResult_eq_ok_iff]
          exact ⟨hread, by simpa using hflag, rfl⟩
        obtain ⟨p, rfl, -, hreplaced⟩ := (flag_of_execFinalize hexec).mp hflag
        obtain ⟨c, hc, hid, hnone⟩ := hfree p rfl
        exact absurd hnone (hreplaced c hc hid)
    · rw [hout, finalizeResult_eq_ok_iff] at hresult
      exact h.all hout hresult.2.1

/-- After any history, in any interleaving: a call does everything or nothing
exactly if a finalization that goes through finds its predecessor free, and the
ids of the authorizations can be read after it. -/
theorem finalize_all_or_nothing (env : Env) (start : Int) (es : List Event) (e : Event)
    (authzIds : Except AcmeError (List String)) :
    AllOrNothing env (run (Node.step env) (.boot env start) es) e authzIds ↔
      ∀ t ∈ (run (Node.step env) (.boot env start) es).attempt e,
        t.Undisturbed (run (Node.step env) (.boot env start) es).db authzIds := by
  have hmarked : PredecessorsMarked (run (Node.step env) (.boot env start) es) :=
    (meets_true _ es).invariant PredecessorsMarked (predecessorsMarked_boot env start)
      fun s e h _ ↦ h.step
  exact hmarked.allOrNothing_iff

end Run

/-! ## Two orders for one predecessor -/

/-- A second order for `a.example` that replaces the first certificate, and its
validation. -/
def replacingEvents (n : String) : List Event :=
  .request (.newOrder "acct-1" "ca" { NewOrderPayload.plain [⟨.dns, "a.example", none⟩] with
    replaces := some "1" } (.sample n)) 5 :: drain 9 5 ++
  .request (.respondChallenge "acct-1" "ca" ("authz-" ++ n ++ "-0") .http01 (.ok ())) 6 :: drain 7 6

def finalizingEvents (n : String) (now : Int) : List Event :=
  .request (.finalize { accountId := "acct-1", caId := "ca", orderId := "order-" ++ n
                        csr := n ++ "a.example" }) now :: drain 3 now

def firstCertificate : List Event :=
  accountEvents ++ orderEvents ++ validateEvents ++ finalizeEvents "1" 4

def racingEvents : List Event :=
  firstCertificate ++ replacingEvents "2" ++ replacingEvents "3" ++ finalizingEvents "2" 7 ++
    drain 4 7 ++ finalizingEvents "3" 8

/-- The second call returns an error and has issued a certificate. -/
theorem failed_finalize_issues :
    (Node.step plainEnv (runPlain racingEvents)
        (.advance 0 8 Input.plain)).2.finalizeResult (.ok []) =
          some (.error .certAlreadyReplaced) ∧
      (runPlain racingEvents).db.certificates.rows.map CertificateRow.id = ["cert-1", "cert-2"] ∧
      (Node.step plainEnv (runPlain racingEvents)
        (.advance 0 8 Input.plain)).1.db.certificates.rows.map CertificateRow.id =
          ["cert-1", "cert-2", "cert-3"] ∧
      ¬ AllOrNothing plainEnv (runPlain racingEvents) (.advance 0 8 Input.plain) (.ok []) := by
  have hresult : (Node.step plainEnv (runPlain racingEvents)
      (.advance 0 8 Input.plain)).2.finalizeResult (.ok []) =
        some (.error .certAlreadyReplaced) := by
    decide +kernel
  refine ⟨hresult, by decide +kernel, by decide +kernel, fun h ↦ ?_⟩
  have hsame := h.nothing (by decide +kernel) fun cert hcert ↦ by simp [hresult] at hcert
  have hcerts := congrArg (fun db ↦ db.certificates.rows.map CertificateRow.id) hsame
  exact absurd hcerts (by decide +kernel)

/-- The first of the two calls finds the predecessor free. -/
theorem first_replacement_issues :
    ∃ cert, (Node.step plainEnv (runPlain (firstCertificate ++ replacingEvents "2" ++
        finalizingEvents "2" 7)) (.advance 0 7 Input.plain)).2.finalizeResult (.ok ["authz-2-0"]) =
          some (.ok cert) ∧
      AllOrNothing plainEnv (runPlain (firstCertificate ++ replacingEvents "2" ++
        finalizingEvents "2" 7)) (.advance 0 7 Input.plain) (.ok ["authz-2-0"]) := by
  have hresult : (((Node.step plainEnv (runPlain (firstCertificate ++ replacingEvents "2" ++
      finalizingEvents "2" 7)) (.advance 0 7 Input.plain)).2.finalizeResult
        (.ok ["authz-2-0"])).bind Except.toOption).isSome = true := by decide +kernel
  obtain ⟨cert, hcert⟩ := Option.isSome_iff_exists.mp hresult
  obtain ⟨result, hout, hok⟩ := Option.bind_eq_some_iff.mp hcert
  cases result with
  | error => cases hok
  | ok cert' =>
    exact ⟨cert', hout, (finalize_all_or_nothing plainEnv 0 (firstCertificate ++
      replacingEvents "2" ++ finalizingEvents "2" 7) (.advance 0 7 Input.plain)
      (.ok ["authz-2-0"])).mpr (by decide +kernel)⟩

end Akamu
