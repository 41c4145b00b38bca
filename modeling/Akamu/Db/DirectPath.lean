import Akamu.Db.Coalescer
import Akamu.Db.Effects

/-!
# The writes without a coalescer

The `else` branches of `new_order`, `new_account`, `post_challenge`,
`persist_certificate`, `on_valid` and `on_invalid`, and both ways of making
one write from the caller's side.
-/

namespace Akamu.DirectPath

open Coalescer (WriteOp Answer Request Batch)
open KeyedTable

/-- `sqlx::Error` as far as the two callers that return it can produce it: a
message of their own, or the driver's report of a value it could not decode. -/
inductive SqlxError where
  | protocol (detail : String)
  | decode (text : String)
  deriving DecidableEq, Repr

/-- `on_valid` and `on_invalid` fail with a `sqlx::Error`, the handlers with an
`AcmeError`. -/
inductive CallError where
  | acme (e : AcmeError)
  | sqlx (e : SqlxError)
  deriving DecidableEq, Repr

/-! ## The transactions

A failure of `on_valid` or `on_invalid` is known by the driver's text. -/

def newOrder (order : OrderRow) (authzPlans : List AuthzPlan) (now : Int) :
    Script AcmeError Db Answer := do
  Script.exec (Orders.insert · order)
  authzPlans.forM fun plan ↦ do
    Script.exec (Authz.insert · plan.authz)
    Script.exec (Challenges.insertBatch · plan.authz.id plan.challenges plan.token now)
  return .done

def setProcessingIfPending (challengeId : String) (now : Int) : Script AcmeError Db Answer := do
  let affected ← Script.ask fun db ↦ (Challenges.setProcessingIfPending db challengeId now).swap
  return .rows affected

def onValid (challengeId authzId orderId : String) (now : Int) : Script String Db Answer := do
  let challRows ← Script.ask (Coalescer.setChallengeValid challengeId now)
  if challRows = 0 then return .flags false false
  Script.ask (Coalescer.setAuthzStatus authzId .valid now)
  let rows ← Script.ask (Coalescer.setOrderReady orderId now)
  return .flags true (0 < rows)

def onInvalid (decodeNull : Except String String) (challengeId authzId : String)
    (orderId : Option String) (errorJson : String) (now : Int) : Script String Db Answer := do
  let challRows ← Script.ask (Coalescer.setChallengeInvalid challengeId errorJson now)
  if challRows = 0 then return .flag false
  Script.ask (Coalescer.setAuthzStatus authzId .invalid now)
  let oid ← match orderId with
    | some oid => pure (some oid)
    | none => Script.select (Coalescer.selectOrderId decodeNull authzId)
  match oid with
  | some oid => Script.ask (Coalescer.setOrderInvalid oid errorJson now)
  | none => pure ()
  return .flag true

def persistCertificate (cert : CertificateRow) (orderId : String) (now : Int)
    (predCertUuid : Option String) (starCsr : Option (List UInt8)) :
    Script AcmeError Db Answer := do
  Script.exec (Certs.insert · cert)
  Script.exec fun db ↦ conflictToOrderNotReady (Orders.setCertificate db orderId cert.id now)
  let predAlreadyReplaced ← match predCertUuid with
    | some predUuid => do
        let replaced ← Script.ask fun db ↦ (Certs.markReplaced db predUuid orderId).swap
        pure !replaced
    | none => pure false
  match starCsr with
  | some csr => Script.exec (Orders.setStarCsr · orderId csr)
  | none => pure ()
  return .flag predAlreadyReplaced

def newAccount (account : AccountRow) (eabKid : Option String) (now : Int) :
    Script AcmeError Db Answer := do
  Script.exec (Accounts.insert · account)
  match eabKid with
  | some kid => Script.exec (Eab.markUsed · kid now)
  | none => pure ()
  return .done

/-! ## One write from the caller's side -/

section

-- The text of the driver's error for a `NULL` order id, or what it reads there.
variable (decodeNull : Except String String)

/-- Without a coalescer.  The order row of `new_order` is built with the `now`
that the challenges get. -/
def direct (conn : Connection Db) : WriteOp → Connection Db × Except CallError Answer
  | .newOrder order authzPlans =>
    (conn.transact (newOrder order authzPlans order.created)).map id (·.mapError .acme)
  | .setProcessing challengeId now =>
    (conn.run (setProcessingIfPending challengeId now) []).map id (·.mapError .acme)
  | .onValid challengeId authzId orderId now =>
    (conn.transact (onValid challengeId authzId orderId now)).map id
      (·.mapError fun text ↦ .sqlx (.decode text))
  | .onInvalid challengeId authzId orderId errorJson now =>
    (conn.transact (onInvalid decodeNull challengeId authzId orderId errorJson now)).map id
      (·.mapError fun text ↦ .sqlx (.decode text))
  | .finalize cert orderId now predCertUuid starCsrDer =>
    (conn.transact (persistCertificate cert orderId now predCertUuid starCsrDer)).map id
      (·.mapError .acme)
  | .newAccount account eabKid now =>
    (conn.transact (newAccount account eabKid now)).map id (·.mapError .acme)

def replyError (e : AcmeError) : WriteOp → CallError
  | .onValid .. | .onInvalid .. => .sqlx (.protocol e.display)
  | _ => .acme e

/-- Through the coalescer, with nothing else in the queue and no failure of the
database. -/
def coalesced (conn : Connection Db) (op : WriteOp) : Connection Db × Except CallError Answer :=
  let r := Coalescer.coalesceLoop (decodeNull.mapError .database) conn
    [{ requests := [{ reply := 0, op := op, faults := [] }], beginOk := true, commitOk := true }]
  (r.1, match r.2.flatten.find? fun p ↦ p.1 == 0 with
    | some p => p.2.mapError fun e ↦ replyError e op
    | none => .error (replyError (.database "coalescer reply dropped") op))

/-- The finalization goes through, and its predecessor has no successor yet. -/
structure LinksPredecessor (db : Db) (cert : CertificateRow) (orderId predUuid : String) :
    Prop where
  fresh : ∀ c ∈ db.certificates.rows, c.serialNumber ≠ cert.serialNumber ∧ c.id ≠ cert.id
  ready : ∃ o ∈ db.orders.rows, o.id = orderId ∧ o.status = .ready
  free : predUuid = cert.id ∨ ∃ c ∈ db.certificates.rows, c.id = predUuid ∧ c.replacedBy = none

/-- Neither the replacement link nor the report of an order id that the driver
cannot read comes into play. -/
def Unaffected (db : Db) : WriteOp → Prop
  | .finalize cert orderId _ (some predUuid) _ =>
    LinksPredecessor db cert orderId predUuid → cert.id = orderId
  | .onInvalid challengeId authzId none _ _ =>
    (∃ c ∈ db.challenges.rows, c.id = challengeId ∧ c.status = .processing) →
      (∃ a ∈ db.authorizations.rows, a.id = authzId ∧ a.orderId = none) → decodeNull.isOk = true
  | _ => True

/-! ## The two agree -/

theorem coalesced_eq (db : Db) (op : WriteOp) :
    coalesced decodeNull ⟨db, none⟩ op =
      match (Coalescer.executeOp (decodeNull.mapError .database) op).outcome db with
      | .ok r => (⟨r.2, none⟩, .ok r.1)
      | .error e => (⟨db, none⟩, .error (replyError e op)) := by
  have hbatch := Coalescer.coalesceBatch_single (decodeNull.mapError .database) db 0 op
  simp only [coalesced, Coalescer.coalesceLoop, hbatch]
  cases (Coalescer.executeOp (decodeNull.mapError .database) op).outcome db with
  | ok | error => rfl

variable {db : Db} {orderId : String} {now : Int}

theorem coalesced_eq_transact_iff {ε : Type} {op : WriteOp} {p : Script ε Db Answer}
    {toCall : ε → CallError} : coalesced decodeNull ⟨db, none⟩ op =
      ((⟨db, none⟩ : Connection Db).transact p).map id (·.mapError toCall) ↔
    ((Coalescer.executeOp (decodeNull.mapError .database) op).outcome db).mapError
      (replyError · op) = (p.outcome db).mapError toCall := by
  rw [coalesced_eq, Connection.transact_eq]
  cases (Coalescer.executeOp (decodeNull.mapError .database) op).outcome db with
  | ok => cases p.outcome db <;> simp [Prod.ext_iff, Except.mapError, and_comm]
  | error => cases p.outcome db <;> simp [Prod.ext_iff, Except.mapError]

variable {starCsrDer : Option (List UInt8)} {cert : CertificateRow} {predUuid : String}

theorem execOnValid_eq (challengeId authzId orderId : String) (now : Int) :
    Coalescer.execOnValid challengeId authzId orderId now =
      (onValid challengeId authzId orderId now).relabel .database := by
  simp only [Coalescer.execOnValid, onValid, Script.relabel_bind, Script.relabel_ask]
  congr
  funext challRows
  split <;> rfl

theorem selectOrderId_mapError {ε ε' : Type} (d : Except ε String) (f : ε → ε') (authzId : String)
    (db : Db) : Coalescer.selectOrderId (d.mapError f) authzId db =
      (Coalescer.selectOrderId d authzId db).mapError f := by
  unfold Coalescer.selectOrderId
  split
  · rfl
  · split
    · rfl
    · cases d <;> rfl

theorem execOnInvalid_eq (challengeId authzId : String) (orderId : Option String)
    (errorJson : String) (now : Int) :
    Coalescer.execOnInvalid (decodeNull.mapError .database) challengeId authzId orderId
        errorJson now =
      (onInvalid decodeNull challengeId authzId orderId errorJson now).relabel .database := by
  simp only [Coalescer.execOnInvalid, onInvalid, Script.relabel_bind, Script.relabel_ask]
  congr
  funext challRows
  by_cases hrows : challRows = 0
  · simp only [hrows, if_true, Script.relabel_pure]
  · simp only [hrows, if_false, Script.relabel_bind, Script.relabel_ask]
    congr
    funext _
    cases orderId with
    | some => rfl
    | none =>
      simp only [Script.relabel_bind, Script.relabel_select, ← selectOrderId_mapError]
      congr
      funext oid
      cases oid <;> rfl

theorem outcome_onValid (challengeId authzId orderId : String) (now : Int) (db : Db) :
    ∃ r, (onValid challengeId authzId orderId now).outcome db = .ok r := by
  simp only [onValid, Script.outcome_bind, Script.outcome_ask, Except.bind]
  split <;> exact ⟨_, rfl⟩

theorem selectOrderId_eq_error_iff {authzId text : String} :
    Coalescer.selectOrderId decodeNull authzId db = .error text ↔
      (∃ a ∈ db.authorizations.rows, a.id = authzId ∧ a.orderId = none) ∧
        decodeNull = .error text := by
  unfold Coalescer.selectOrderId
  cases hfind : db.authorizations.find? authzId with
  | none =>
    have hnone : ¬ ∃ a ∈ db.authorizations.rows, a.id = authzId ∧ a.orderId = none :=
      fun ⟨a, ha, hid, _⟩ ↦ KeyedTable.find?_eq_none_iff.mp hfind a ha hid
    simp [hnone]
  | some a =>
    obtain ⟨ha, hid⟩ := KeyedTable.find?_eq_some_iff.mp hfind
    have hrow : (∃ b ∈ db.authorizations.rows, b.id = authzId ∧ b.orderId = none) ↔
        a.orderId = none := by
      refine ⟨fun ⟨b, hb, hid', hnone⟩ ↦ ?_, fun hnone ↦ ⟨a, ha, hid, hnone⟩⟩
      rwa [db.authorizations.eq_of_mem_of_key_eq ha hb (hid.trans hid'.symm)]
    rw [hrow]
    cases horder : a.orderId with
    | some => simp [horder]
    | none => cases decodeNull <;> simp [horder, Except.map]

/-- `on_invalid` fails just when the order id it has to look up is unreadable. -/
theorem outcome_onInvalid_eq_error_iff {challengeId authzId errorJson : String} :
    (∃ text, (onInvalid decodeNull challengeId authzId none errorJson now).outcome db =
        .error text) ↔
      ¬ Unaffected decodeNull db (.onInvalid challengeId authzId none errorJson now) := by
  have hcount : (∃ c ∈ db.challenges.rows, c.id = challengeId ∧ c.status = .processing) ↔
      (Coalescer.setChallengeInvalid challengeId errorJson now db).1 ≠ 0 := by
    simp [Coalescer.setChallengeInvalid, KeyedTable.countWhere_ne_zero_iff, Challenges.inStatus]
  have hauthz : (∃ a ∈ (Coalescer.setAuthzStatus authzId .invalid now
      (Coalescer.setChallengeInvalid challengeId errorJson now db).2).2.authorizations.rows,
        a.id = authzId ∧ a.orderId = none) ↔
      ∃ a ∈ db.authorizations.rows, a.id = authzId ∧ a.orderId = none := by
    simp only [Coalescer.setAuthzStatus, Coalescer.setChallengeInvalid, KeyedTable.updateWhere,
      List.mem_map, exists_exists_and_eq_and]
    refine exists_congr fun a ↦ and_congr_right fun _ ↦ ?_
    split <;> rfl
  have herror : decodeNull.isOk ≠ true ↔ ∃ text, decodeNull = .error text := by
    cases decodeNull <;> simp [Except.isOk, Except.toBool]
  simp only [Unaffected, hcount, Classical.not_imp, herror, ← exists_and_left]
  refine exists_congr fun text ↦ ?_
  rw [← hauthz, ← selectOrderId_eq_error_iff]
  simp only [onInvalid, Script.outcome_bind, Script.outcome_ask, Except.bind]
  split
  · rename_i hrows
    simp [hrows]
  · rename_i hrows
    simp only [Script.outcome_bind, Script.outcome_ask, Script.outcome_select, Except.bind,
      ne_eq, hrows, not_false_iff, true_and]
    cases Coalescer.selectOrderId decodeNull authzId (Coalescer.setAuthzStatus authzId .invalid now
        (Coalescer.setChallengeInvalid challengeId errorJson now db).2).2 with
    | error => simp [Except.map]
    | ok oid => cases oid <;> simp [Except.map, Except.bind]

/-! ### Replacement links -/

/-- The transaction of a finalization, with what it stores as the successor:
the certificate through the coalescer, the order past it. -/
def finalizeLinked (cert : CertificateRow) (orderId : String) (now : Int) (predUuid : String)
    (starCsr : Option (List UInt8)) (link : String) : Script AcmeError Db Answer := do
  Script.exec (Certs.insert · cert)
  Script.exec fun db ↦ conflictToOrderNotReady (Orders.setCertificate db orderId cert.id now)
  let replaced ← Script.ask fun db ↦ (Certs.markReplaced db predUuid link).swap
  match starCsr with
  | some csr => Script.exec (Orders.setStarCsr · orderId csr)
  | none => pure ()
  return .flag !replaced

/-- The link shows in the row of a predecessor that has none. -/
theorem link_eq_of_certificates {link link' : String}
    (h : (Certs.markReplaced db predUuid link).1.certificates =
      (Certs.markReplaced db predUuid link').1.certificates)
    (hfree : ∃ c ∈ db.certificates.rows, c.id = predUuid ∧ c.replacedBy = none) : link = link' := by
  obtain ⟨c, hc, rfl, hnone⟩ := hfree
  have hrow : ∀ link, (Certs.markReplaced db c.id link).1.certificates.find? c.id =
      some { c with replacedBy := some link } := by
    intro link
    simp [Certs.markReplaced, KeyedTable.find?_updateWhere, KeyedTable.find?_of_mem hc, hnone]
  have hsame := (hrow link).symm.trans ((congrArg (·.find? c.id) h).trans (hrow link'))
  exact Option.some.inj (congrArg CertificateRow.replacedBy (Option.some.inj hsame))

theorem markReplaced_of_not_free (link : String)
    (hfree : ¬ ∃ c ∈ db.certificates.rows, c.id = predUuid ∧ c.replacedBy = none) :
    Certs.markReplaced db predUuid link = (db, false) := by
  have hcount : db.certificates.countWhere
      (fun c ↦ c.id == predUuid && c.replacedBy.isNone) = 0 := by
    refine KeyedTable.countWhere_eq_zero_iff.mpr fun c hc hrow ↦ hfree ⟨c, hc, ?_⟩
    simpa using hrow
  rw [Certs.markReplaced, updateWhere_eq_self hcount, hcount]
  rfl

theorem exists_insert_iff : (∃ db₁, Certs.insert db cert = .ok db₁) ↔
    ∀ c ∈ db.certificates.rows, c.serialNumber ≠ cert.serialNumber ∧ c.id ≠ cert.id := by
  unfold Certs.insert
  split
  · rename_i hserial
    obtain ⟨c, hc, hsame⟩ := List.any_eq_true.mp hserial
    simp only [reduceCtorEq, exists_false, false_iff]
    exact fun hfresh ↦ (hfresh c hc).1 (beq_iff_eq.mp hsame)
  · rename_i hserial
    have hunused : ∀ c ∈ db.certificates.rows, c.serialNumber ≠ cert.serialNumber := by
      simpa using hserial
    cases hinsert : db.certificates.insert? { cert with replacedBy := none } with
    | none =>
      simp only [reduceCtorEq, exists_false, false_iff]
      intro hfresh
      have hid : ¬ ∃ c ∈ db.certificates.rows, c.id = cert.id :=
        fun ⟨c, hc, hid⟩ ↦ (hfresh c hc).2 hid
      simp [KeyedTable.insert?, hid] at hinsert
    | some t =>
      simp only [Except.ok.injEq, exists_eq', true_iff]
      have hid := KeyedTable.find?_eq_none_iff.mp (insert?_eq_some_iff.mp hinsert).1
      exact fun c hc ↦ ⟨hunused c hc, hid c hc⟩

theorem orders_of_insert {db₁ : Db} (h : Certs.insert db cert = .ok db₁) :
    db₁.orders = db.orders := by
  obtain ⟨t, rfl, -⟩ := Certs.insert_eq_ok h
  rfl

theorem exists_setCertificate_iff :
    (∃ db₁, conflictToOrderNotReady (Orders.setCertificate db orderId cert.id now) = .ok db₁) ↔
      ∃ o ∈ db.orders.rows, o.id = orderId ∧ o.status = .ready := by
  constructor
  · rintro ⟨db₁, h⟩
    obtain ⟨⟨o, ho, hready⟩, -⟩ :=
      Orders.updateOrElse_eq_ok_iff.mp (conflictToOrderNotReady_eq_ok h)
    exact ⟨o, ho, by simpa using hready⟩
  · rintro ⟨o, ho, hready⟩
    have hset : Orders.setCertificate db orderId cert.id now = .ok _ :=
      Orders.updateOrElse_eq_ok_iff.mpr ⟨⟨o, ho, by simpa using hready⟩, rfl⟩
    rw [hset]
    exact ⟨_, rfl⟩

theorem exists_order_of_set {db₁ : Db}
    (h : conflictToOrderNotReady (Orders.setCertificate db orderId cert.id now) = .ok db₁) :
    ∃ o ∈ db₁.orders.rows, (o.id == orderId) = true := by
  obtain ⟨⟨o, ho, hready⟩, rfl⟩ :=
    Orders.updateOrElse_eq_ok_iff.mp (conflictToOrderNotReady_eq_ok h)
  refine ⟨_, List.mem_map_of_mem ho, ?_⟩
  rw [if_pos hready]
  exact (Bool.and_eq_true_iff.mp hready).1

theorem free_of_insert {db₁ db₂ : Db} (hinsert : Certs.insert db cert = .ok db₁)
    (hset : conflictToOrderNotReady (Orders.setCertificate db₁ orderId cert.id now) = .ok db₂) :
    (∃ c ∈ db₂.certificates.rows, c.id = predUuid ∧ c.replacedBy = none) ↔
      (predUuid = cert.id ∨
        ∃ c ∈ db.certificates.rows, c.id = predUuid ∧ c.replacedBy = none) := by
  obtain ⟨-, rfl⟩ := Orders.updateOrElse_eq_ok_iff.mp (conflictToOrderNotReady_eq_ok hset)
  obtain ⟨t, rfl, ht⟩ := Certs.insert_eq_ok hinsert
  simp only [mem_insert? ht]
  constructor
  · rintro ⟨c, hold | rfl, hid, hfree⟩
    · exact .inr ⟨c, hold, hid, hfree⟩
    · exact .inl hid.symm
  · rintro (rfl | ⟨c, hold, hid, hfree⟩)
    · exact ⟨_, .inr rfl, rfl, rfl⟩
    · exact ⟨c, .inl hold, hid, hfree⟩

/-- What is left of a finalization after its order is set: the link, and the CSR
of a recurring order. -/
theorem outcome_finalizeLinked {db₁ db₂ : Db} (hinsert : Certs.insert db cert = .ok db₁)
    (hset : conflictToOrderNotReady (Orders.setCertificate db₁ orderId cert.id now) = .ok db₂)
    (link : String) :
    (finalizeLinked cert orderId now predUuid starCsrDer link).outcome db =
      (match starCsrDer with
        | some csr => Orders.setStarCsr (Certs.markReplaced db₂ predUuid link).1 orderId csr
        | none => .ok (Certs.markReplaced db₂ predUuid link).1).map fun db' ↦
          (.flag !(Certs.markReplaced db₂ predUuid link).2, db') := by
  simp only [finalizeLinked, Script.outcome_bind, Script.outcome_exec, Script.outcome_ask, hinsert,
    hset, Except.map, Except.bind]
  cases starCsrDer with
  | none => rfl
  | some csr =>
    simp only [Script.outcome_bind, Script.outcome_exec, Prod.snd_swap]
    cases Orders.setStarCsr (Certs.markReplaced db₂ predUuid link).1 orderId csr <;> rfl

theorem exists_outcome_finalizeLinked {db₁ db₂ : Db} (hinsert : Certs.insert db cert = .ok db₁)
    (hset : conflictToOrderNotReady (Orders.setCertificate db₁ orderId cert.id now) = .ok db₂)
    (link : String) :
    ∃ a db', (finalizeLinked cert orderId now predUuid starCsrDer link).outcome db = .ok (a, db') ∧
      db'.certificates = (Certs.markReplaced db₂ predUuid link).1.certificates := by
  rw [outcome_finalizeLinked hinsert hset]
  cases starCsrDer with
  | none => exact ⟨_, _, rfl, rfl⟩
  | some csr =>
    have horder := exists_order_of_set hset
    have hstar : Orders.setStarCsr (Certs.markReplaced db₂ predUuid link).1 orderId csr = .ok _ :=
      Orders.updateOrElse_eq_ok_iff.mpr ⟨horder, rfl⟩
    dsimp only
    rw [hstar]
    exact ⟨_, _, rfl, rfl⟩

theorem outcome_finalizeLinked_eq_iff {link link' : String} :
    (finalizeLinked cert orderId now predUuid starCsrDer link).outcome db =
        (finalizeLinked cert orderId now predUuid starCsrDer link').outcome db ↔
      (LinksPredecessor db cert orderId predUuid → link = link') := by
  cases hinsert : Certs.insert db cert with
  | error e =>
    have hfails : ∀ link, (finalizeLinked cert orderId now predUuid starCsrDer link).outcome db =
        .error e := by
      intro link
      simp [finalizeLinked, Script.outcome_bind, Script.outcome_exec, hinsert, Except.map,
        Except.bind]
    simp only [hfails, true_iff]
    intro hlinks
    obtain ⟨db₁, hok⟩ := exists_insert_iff.mpr hlinks.fresh
    rw [hinsert] at hok
    cases hok
  | ok db₁ =>
    cases hset : conflictToOrderNotReady (Orders.setCertificate db₁ orderId cert.id now) with
    | error e =>
      have hfails : ∀ link, (finalizeLinked cert orderId now predUuid starCsrDer link).outcome db =
          .error e := by
        intro link
        simp [finalizeLinked, Script.outcome_bind, Script.outcome_exec, hinsert, hset, Except.map,
          Except.bind]
      simp only [hfails, true_iff]
      intro hlinks
      have hready := hlinks.ready
      rw [← orders_of_insert hinsert] at hready
      obtain ⟨db₂, hok⟩ := exists_setCertificate_iff.mpr hready
      rw [hset] at hok
      cases hok
    | ok db₂ =>
      have hfresh := exists_insert_iff.mp ⟨db₁, hinsert⟩
      have hready : ∃ o ∈ db.orders.rows, o.id = orderId ∧ o.status = .ready := by
        rw [← orders_of_insert hinsert]
        exact exists_setCertificate_iff.mp ⟨db₂, hset⟩
      have hlinks : LinksPredecessor db cert orderId predUuid ↔
          ∃ c ∈ db₂.certificates.rows, c.id = predUuid ∧ c.replacedBy = none :=
        ⟨fun hlinks ↦ (free_of_insert hinsert hset).mpr hlinks.free,
          fun hfree ↦ ⟨hfresh, hready, (free_of_insert hinsert hset).mp hfree⟩⟩
      rw [hlinks]
      constructor
      · intro h hfree
        obtain ⟨a, db', hout, hcerts⟩ := exists_outcome_finalizeLinked hinsert hset link
        obtain ⟨a', db'', hout', hcerts'⟩ := exists_outcome_finalizeLinked hinsert hset link'
        rw [hout, hout'] at h
        cases h
        exact link_eq_of_certificates (hcerts.symm.trans hcerts') hfree
      · intro h
        by_cases hfree : ∃ c ∈ db₂.certificates.rows, c.id = predUuid ∧ c.replacedBy = none
        · rw [h hfree]
        · rw [outcome_finalizeLinked hinsert hset, outcome_finalizeLinked hinsert hset,
            markReplaced_of_not_free link hfree, markReplaced_of_not_free link' hfree]

/-- The driver's text reaches the caller in two forms. -/
theorem coalesced_onInvalid_iff {challengeId authzId : String} {order : Option String}
    {errorJson : String} :
    coalesced decodeNull ⟨db, none⟩ (.onInvalid challengeId authzId order errorJson now) =
        direct decodeNull ⟨db, none⟩ (.onInvalid challengeId authzId order errorJson now) ↔
      ¬ ∃ text, (onInvalid decodeNull challengeId authzId order errorJson now).outcome db =
        .error text := by
  rw [direct, coalesced_eq_transact_iff, Coalescer.executeOp, execOnInvalid_eq,
    Script.outcome_relabel]
  cases (onInvalid decodeNull challengeId authzId order errorJson now).outcome db <;>
    simp [Except.mapError, replyError]

end

/-! ## A renewal -/

def sampleCert (id orderId : String) (replacedBy : Option String) : CertificateRow where
  id := id
  orderId := orderId
  accountId := "acct"
  serialNumber := id
  status := .valid
  notBefore := 0
  notAfter := 1000
  revokedAt := none
  revocationReason := none
  created := 0
  replacedBy := replacedBy
  caId := "ca"

def sampleAuthz : AuthorizationRow where
  id := "authz"
  orderId := none
  accountId := "acct"
  status := .pending
  identifier := ⟨.dns, "a.example"⟩
  expires := none
  wildcard := false
  subdomainAuthAllowed := false
  created := 0
  updated := 0
  caId := "ca"

def sampleDb (replacedBy : Option String) : Db :=
  { Db.empty with
    orders := ⟨[.plain "renewal" "acct" "ca" .ready [] 0 1000], by decide⟩
    authorizations := ⟨[sampleAuthz], by decide⟩
    challenges := ⟨[{ Challenges.pendingRow "authz" "token" 0 ("chall", .http01) with
      status := .processing }], by decide⟩
    certificates := ⟨[sampleCert "old" "first" replacedBy], List.nodup_singleton _⟩ }

/-- A renewal of `old`. -/
def sampleFinalize : WriteOp :=
  .finalize (sampleCert "new" "renewal" none) "renewal" 5 (some "old") none

end Akamu.DirectPath
