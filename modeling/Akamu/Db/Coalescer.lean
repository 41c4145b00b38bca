import Akamu.Db.Transactions
import Akamu.Lib.Script

/-!
# The write coalescer

`db/coalescer.rs`: writes queued by concurrent handlers are executed in one
`BEGIN IMMEDIATE … COMMIT`, each under a savepoint of its own, and answered only
after the commit.  What the environment decides (how the queue falls into
batches, which statements fail) is an input of the loop.
-/

namespace Akamu

open KeyedTable

def AcmeError.display : AcmeError → String
  | .unauthorized detail => "unauthorized: " ++ detail
  | .rejectedIdentifier detail => "rejected identifier: " ++ detail
  | .unsupportedIdentifier detail => "unsupported identifier: " ++ detail
  | .orderNotReady => "order not ready"
  | .certAlreadyReplaced => "certificate has already been replaced"
  | .badCsr detail => "bad CSR: " ++ detail
  | .badRevocationReason => "bad revocation reason"
  | .alreadyRevoked => "certificate revoked"
  | .caa detail => "CAA check failed: " ++ detail
  | .externalAccountRequired => "external account binding required"
  | .dns detail => "DNS error: " ++ detail
  | .incorrectResponse detail => "incorrect response during challenge: " ++ detail
  | .invalidProfile detail => "invalid profile: " ++ detail
  | .accountDoesNotExist => "account does not exist"
  | .builder detail => "certificate builder error: " ++ detail
  | .autoRenewalCanceled => "auto-renewal has been canceled"
  | .autoRenewalCancellationInvalid => "auto-renewal cancellation invalid: order not in valid state"
  | .autoRenewalRevocationNotSupported => "auto-renewal certificates cannot be revoked"
  | .unknownDelegation => "unknown delegation"
  | .notFound => "not found"
  | .badNonce _ => "bad nonce"
  | .conflict detail => "conflict: " ++ detail
  | .badRequest detail => "bad request: " ++ detail
  | .crypto detail => "crypto error: " ++ detail
  | .database detail => "database error: " ++ detail
  | .internal detail => "internal server error: " ++ detail
  | .mtc detail => "MTC error: " ++ detail
  | .connection detail => "connection error during challenge: " ++ detail
  | .tls detail => "TLS error: " ++ detail
  | .serviceUnavailable detail => "service unavailable: " ++ detail
  | .badSignatureAlgorithm detail => "bad signature algorithm: " ++ detail

namespace Coalescer

/-! ## The statements written out in `coalescer.rs` and `validation/mod.rs` -/

/-- `UPDATE challenges SET status = 'valid' … WHERE id = ? AND status = 'processing'`. -/
def setChallengeValid (challengeId : String) (now : Int) (db : Db) : ℕ × Db :=
  (db.challenges.countWhere (Challenges.inStatus challengeId .processing),
    { db with
      challenges := db.challenges.updateWhere (Challenges.inStatus challengeId .processing)
        (fun c ↦ { c with status := .valid, validated := some now, updated := now })
        (keeps_key ChallengeRow.id) })

/-- `UPDATE challenges SET status = 'invalid' … WHERE id = ? AND status = 'processing'`. -/
def setChallengeInvalid (challengeId errorJson : String) (now : Int) (db : Db) : ℕ × Db :=
  (db.challenges.countWhere (Challenges.inStatus challengeId .processing),
    { db with
      challenges := db.challenges.updateWhere (Challenges.inStatus challengeId .processing)
        (fun c ↦ { c with status := .invalid, error := some errorJson, updated := now })
        (keeps_key ChallengeRow.id) })

/-- `UPDATE authorizations SET status = … WHERE id = ?`. -/
def setAuthzStatus (authzId : String) (status : AuthzStatus) (now : Int) (db : Db) : Unit × Db :=
  ((), { db with
    authorizations := db.authorizations.updateWhere (fun a ↦ a.id == authzId)
      (fun a ↦ { a with status := status, updated := now }) fun _ ↦ rfl })

/-- `UPDATE orders SET status = 'ready' … WHERE id = ? AND NOT EXISTS (…)`. -/
def setOrderReady (orderId : String) (now : Int) (db : Db) : ℕ × Db :=
  if allAuthzValid db orderId then
    (db.orders.countWhere (fun o ↦ o.id == orderId), markReady db orderId now)
  else (0, db)

/-- `UPDATE orders SET status = 'invalid' … WHERE id = ?`. -/
def setOrderInvalid (orderId errorJson : String) (now : Int) (db : Db) : Unit × Db :=
  ((), markOrderInvalid db orderId errorJson now)

/-- `SELECT order_id FROM authorizations WHERE id = ?`, into a type without
`NULL`. -/
def selectOrderId {ε : Type} (decodeNull : Except ε String) (authzId : String) (db : Db) :
    Except ε (Option String) :=
  match db.authorizations.find? authzId with
  | none => .ok none
  | some a =>
    match a.orderId with
    | some orderId => .ok (some orderId)
    | none => decodeNull.map some

/-! ## Operations -/

inductive WriteOp where
  | newOrder (order : OrderRow) (authzPlans : List AuthzPlan)
  | setProcessing (challengeId : String) (now : Int)
  | onValid (challengeId authzId orderId : String) (now : Int)
  | onInvalid (challengeId authzId : String) (orderId : Option String) (errorJson : String)
      (now : Int)
  | finalize (cert : CertificateRow) (orderId : String) (now : Int) (predCertUuid : Option String)
      (starCsrDer : Option (List UInt8))
  | newAccount (account : AccountRow) (eabKid : Option String) (now : Int)

inductive Answer where
  | done
  | rows (affected : ℕ)
  | flag (b : Bool)
  | flags (validatedNow orderAdvanced : Bool)
  deriving DecidableEq, Repr

def execNewOrder (order : OrderRow) (authzPlans : List AuthzPlan) :
    Script AcmeError Db Answer := do
  Script.exec (Orders.insert · order)
  authzPlans.forM fun plan ↦ do
    Script.exec (Authz.insert · plan.authz)
    Script.exec (Challenges.insertBatch · plan.authz.id plan.challenges plan.token order.created)
  return .done

def execSetProcessing (challengeId : String) (now : Int) : Script AcmeError Db Answer := do
  let affected ← Script.ask fun db ↦ (Challenges.setProcessingIfPending db challengeId now).swap
  return .rows affected

def execOnValid (challengeId authzId orderId : String) (now : Int) :
    Script AcmeError Db Answer := do
  let challRows ← Script.ask (setChallengeValid challengeId now)
  if challRows = 0 then return .flags false false
  Script.ask (setAuthzStatus authzId .valid now)
  let rows ← Script.ask (setOrderReady orderId now)
  return .flags true (0 < rows)

def execOnInvalid (decodeNull : Except AcmeError String) (challengeId authzId : String)
    (orderId : Option String) (errorJson : String) (now : Int) : Script AcmeError Db Answer := do
  let challRows ← Script.ask (setChallengeInvalid challengeId errorJson now)
  if challRows = 0 then return .flag false
  Script.ask (setAuthzStatus authzId .invalid now)
  let oid ← match orderId with
    | some oid => pure (some oid)
    | none => Script.select (selectOrderId decodeNull authzId)
  match oid with
  | some oid => Script.ask (setOrderInvalid oid errorJson now)
  | none => pure ()
  return .flag true

def execFinalize (cert : CertificateRow) (orderId : String) (now : Int)
    (predCertUuid : Option String) (starCsrDer : Option (List UInt8)) :
    Script AcmeError Db Answer := do
  Script.exec (Certs.insert · cert)
  Script.exec fun db ↦ conflictToOrderNotReady (Orders.setCertificate db orderId cert.id now)
  let predAlreadyReplaced ← match predCertUuid with
    | some predUuid => do
        let replaced ← Script.ask fun db ↦ (Certs.markReplaced db predUuid cert.id).swap
        pure !replaced
    | none => pure false
  match starCsrDer with
  | some csrDer => Script.exec (Orders.setStarCsr · orderId csrDer)
  | none => pure ()
  return .flag predAlreadyReplaced

def execNewAccount (account : AccountRow) (eabKid : Option String) (now : Int) :
    Script AcmeError Db Answer := do
  Script.exec (Accounts.insert · account)
  match eabKid with
  | some kid => Script.exec (Eab.markUsed · kid now)
  | none => pure ()
  return .done

def executeOp (decodeNull : Except AcmeError String) : WriteOp → Script AcmeError Db Answer
  | .newOrder order authzPlans => execNewOrder order authzPlans
  | .setProcessing challengeId now => execSetProcessing challengeId now
  | .onValid challengeId authzId orderId now => execOnValid challengeId authzId orderId now
  | .onInvalid challengeId authzId orderId errorJson now =>
    execOnInvalid decodeNull challengeId authzId orderId errorJson now
  | .finalize cert orderId now predCertUuid starCsrDer =>
    execFinalize cert orderId now predCertUuid starCsrDer
  | .newAccount account eabKid now => execNewAccount account eabKid now

/-! ## The loop -/

abbrev Reply := Except AcmeError Answer

/-- An operation in the queue: which reply channel it carries, and what the
driver reports for each of its statements in turn. -/
structure Request where
  reply : ℕ
  op : WriteOp
  faults : List (Option AcmeError)

/-- What one round of the loop takes off the queue, and whether its `BEGIN`
and its `COMMIT` succeed. -/
structure Batch where
  requests : List Request
  beginOk : Bool
  commitOk : Bool

def sendError (err : AcmeError) (r : Request) : ℕ × Reply :=
  (r.reply, .error (.database err.display))

/-- The closure pushed on `deferred`, called with the outcome of the commit. -/
def answerDeferred (commitOk : Bool) (d : ℕ × Reply) : ℕ × Reply :=
  match d.2 with
  | .ok a => (d.1, if commitOk then .ok a else .error (.database "batch commit failed"))
  | .error e => (d.1, .error e)

/-- One pass through the body of the `for` loop, for the `i`-th operation. -/
def executeNext (decodeNull : Except AcmeError String)
    (acc : Connection Db × List (ℕ × Reply)) (next : Request × ℕ) :
    Connection Db × List (ℕ × Reply) :=
  let r := acc.1.isolated ("sp" ++ toString next.2) (executeOp decodeNull next.1.op) next.1.faults
  (r.1, acc.2 ++ [(next.1.reply, r.2)])

def coalesceBatch (decodeNull : Except AcmeError String) (conn : Connection Db) (batch : Batch) :
    Connection Db × List (ℕ × Reply) :=
  if batch.beginOk then
    let acc := batch.requests.zipIdx.foldl (executeNext decodeNull) (conn.start, [])
    (if batch.commitOk then acc.1.commit else acc.1.rollback,
      acc.2.map (answerDeferred batch.commitOk))
  else (conn, batch.requests.map (sendError (.database "BEGIN IMMEDIATE failed")))

def coalesceLoop (decodeNull : Except AcmeError String) :
    Connection Db → List Batch → Connection Db × List (List (ℕ × Reply))
  | conn, [] => (conn, [])
  | conn, batch :: batches =>
    let r := coalesceBatch decodeNull conn batch
    let rest := coalesceLoop decodeNull r.1 batches
    (rest.1, r.2 :: rest.2)

/-! ## The operations as transactions -/

section

open Except Script

variable (decodeNull : Except AcmeError String) (db : Db) {challengeId : String}

theorem setChallengeValid_of_zero {now : Int} {db : Db}
    (h : db.challenges.countWhere (Challenges.inStatus challengeId .processing) = 0) :
    setChallengeValid challengeId now db = (0, db) := by
  rw [setChallengeValid, updateWhere_eq_self h, h]

theorem setChallengeInvalid_of_zero {errorJson : String} {now : Int} {db : Db}
    (h : db.challenges.countWhere (Challenges.inStatus challengeId .processing) = 0) :
    setChallengeInvalid challengeId errorJson now db = (0, db) := by
  rw [setChallengeInvalid, updateWhere_eq_self h, h]

theorem outcome_execNewOrder (order : OrderRow) (authzPlans : List AuthzPlan) :
    (execNewOrder order authzPlans).outcome db =
      (Akamu.execNewOrder db order authzPlans).map fun db' ↦ (.done, db') := by
  have hplan : ∀ (plan : AuthzPlan) (db : Db), Script.outcome (do
      Script.exec (Authz.insert · plan.authz)
      Script.exec (Challenges.insertBatch · plan.authz.id plan.challenges plan.token
        order.created)) db = (execPlan order.created db plan).map fun db' ↦ ((), db') := by
    intro plan db
    simp only [outcome_exec_bind, outcome_exec, execPlan, map_eq_bind, bind_assoc]
  unfold execNewOrder Akamu.execNewOrder
  simp only [outcome_exec_bind, outcome_bind_of (outcome_forM hplan authzPlans), map_eq_bind,
    bind_assoc]
  rfl

theorem outcome_execOnValid (challengeId authzId orderId : String) (now : Int) :
    (execOnValid challengeId authzId orderId now).outcome db =
      .ok (.flags (Akamu.execOnValid db challengeId authzId orderId now).2.hit
          (Akamu.execOnValid db challengeId authzId orderId now).2.flag,
        (Akamu.execOnValid db challengeId authzId orderId now).1) := by
  by_cases hrows : db.challenges.countWhere (Challenges.inStatus challengeId .processing) = 0
  · simp [execOnValid, setChallengeValid_of_zero hrows, Akamu.execOnValid, hrows, Except.bind]
  · have hrows' : (setChallengeValid challengeId now db).1 ≠ 0 := hrows
    have hmark : (setAuthzStatus authzId .valid now (setChallengeValid challengeId now db).2).2 =
        markValid db challengeId authzId now := rfl
    simp only [execOnValid, outcome_ask_bind, hrows', if_false, hmark, Akamu.execOnValid, hrows,
      setOrderReady]
    split
    · simp [Nat.pos_iff_ne_zero, bne, beq_eq_decide]
    · rfl

theorem outcome_execOnInvalid (challengeId authzId : String) (orderId : Option String)
    (errorJson : String) (now : Int) :
    (execOnInvalid decodeNull challengeId authzId orderId errorJson now).outcome db =
      (Akamu.execOnInvalid decodeNull db challengeId authzId orderId errorJson now).map fun r ↦
        (.flag r.2.hit, r.1) := by
  by_cases hrows : db.challenges.countWhere (Challenges.inStatus challengeId .processing) = 0
  · simp [execOnInvalid, setChallengeInvalid_of_zero hrows, Akamu.execOnInvalid, hrows,
      Except.bind, Except.map]
  · have hrows' : (setChallengeInvalid challengeId errorJson now db).1 ≠ 0 := hrows
    have hmark : (setAuthzStatus authzId .invalid now
        (setChallengeInvalid challengeId errorJson now db).2).2 =
        markInvalid db challengeId authzId errorJson now := rfl
    simp only [execOnInvalid, outcome_ask_bind, hrows', if_false, hmark, Akamu.execOnInvalid, hrows]
    cases orderId with
    | some => rfl
    | none =>
      have hselect : onInvalidOrder decodeNull (markInvalid db challengeId authzId errorJson now)
          authzId none = selectOrderId decodeNull authzId
            (markInvalid db challengeId authzId errorJson now) := rfl
      simp only [hselect, outcome_bind, outcome_select]
      cases selectOrderId decodeNull authzId
          (markInvalid db challengeId authzId errorJson now) with
      | error => rfl
      | ok oid => cases oid <;> rfl

theorem outcome_execFinalize (cert : CertificateRow) (now : Int) (predCertUuid : Option String)
    (starCsrDer : Option (List UInt8)) :
    (execFinalize cert cert.orderId now predCertUuid starCsrDer).outcome db =
      (Akamu.execFinalize db cert now predCertUuid cert.id starCsrDer).map fun r ↦
        (.flag r.2.flag, r.1) := by
  unfold execFinalize Akamu.execFinalize
  cases predCertUuid <;> cases starCsrDer <;>
    simp only [outcome_exec_bind, outcome_ask_bind, outcome_pure_bind, map_eq_bind, bind_assoc] <;>
    rfl

theorem outcome_execNewAccount (account : AccountRow) (eabKid : Option String) (now : Int) :
    (execNewAccount account eabKid now).outcome db =
      (Akamu.execNewAccount db account eabKid now).map fun db' ↦ (.done, db') := by
  unfold execNewAccount Akamu.execNewAccount
  cases eabKid <;> simp only [outcome_exec_bind, map_eq_bind, bind_assoc] <;> rfl

end

/-! ## Serializability -/

section

variable (decodeNull : Except AcmeError String)

def scripts (requests : List Request) : List (Script AcmeError Db Answer) :=
  requests.map fun r ↦ executeOp decodeNull r.op

/-- The `for` loop: the transaction holds what the operations answered with a
result have made of it, and no savepoint stays behind. -/
theorem foldl_executeNext (requests : List (Request × ℕ)) (committed work : Db)
    (savepoints : List (String × Db)) (deferred : List (ℕ × Reply)) :
    ∃ (work' : Db) (replies : List (ℕ × Reply)),
      requests.foldl (executeNext decodeNull) (⟨committed, some ⟨work, savepoints⟩⟩, deferred) =
        (⟨committed, some ⟨work', savepoints⟩⟩, deferred ++ replies) ∧
      replies.map Prod.fst = requests.map (fun r ↦ r.1.reply) ∧
      Serial work (requests.map fun r ↦ executeOp decodeNull r.1.op) (replies.map Prod.snd)
        work' := by
  induction requests generalizing work deferred with
  | nil => exact ⟨work, [], by simp, rfl, .nil work⟩
  | cons next rest ih =>
    rw [List.foldl_cons]
    rcases Connection.isolated_eq (⟨committed, some ⟨work, savepoints⟩⟩ : Connection Db) rfl
        ("sp" ++ toString next.2) (executeOp decodeNull next.1.op) next.1.faults with
      ⟨a, s, hout, hnext⟩ | ⟨e, hnext⟩
    · obtain ⟨work', replies, hfold, hids, hserial⟩ := ih s (deferred ++ [(next.1.reply, .ok a)])
      refine ⟨work', (next.1.reply, .ok a) :: replies, ?_, ?_, .ok hout hserial⟩
      · rw [executeNext, hnext, hfold, List.append_assoc, List.singleton_append]
      · rw [List.map_cons, List.map_cons, hids]
    · obtain ⟨work', replies, hfold, hids, hserial⟩ :=
        ih work (deferred ++ [(next.1.reply, .error e)])
      refine ⟨work', (next.1.reply, .error e) :: replies, ?_, ?_, .error e hserial⟩
      · rw [executeNext, hnext, hfold, List.append_assoc, List.singleton_append]
      · rw [List.map_cons, List.map_cons, hids]

theorem fst_answerDeferred (commitOk : Bool) (d : ℕ × Reply) :
    (answerDeferred commitOk d).1 = d.1 := by
  unfold answerDeferred
  split <;> rfl

theorem answerDeferred_true : answerDeferred true = id := by
  funext d
  obtain ⟨i, a | a⟩ := d <;> rfl

theorem answerDeferred_false (d : ℕ × Reply) : ∃ e, (answerDeferred false d).2 = .error e := by
  obtain ⟨i, a | a⟩ := d
  · exact ⟨a, rfl⟩
  · exact ⟨_, rfl⟩

theorem coalesceBatch_spec (db : Db) (batch : Batch) :
    ∃ (db' : Db) (replies : List (ℕ × Reply)),
      coalesceBatch decodeNull ⟨db, none⟩ batch = (⟨db', none⟩, replies) ∧
      replies.map Prod.fst = batch.requests.map Request.reply ∧
      Serial db (scripts decodeNull batch.requests) (replies.map Prod.snd) db' ∧
      (batch.commitOk = false → ∀ r ∈ replies, ∃ e, r.2 = .error e) := by
  obtain ⟨requests, beginOk, commitOk⟩ := batch
  cases beginOk with
  | false =>
    refine ⟨db, requests.map (sendError (.database "BEGIN IMMEDIATE failed")), rfl, ?_, ?_, ?_⟩
    · simp [sendError]
    · refine Serial.refused db (by simp [scripts]) ?_
      simp [sendError]
    · simp [sendError]
  | true =>
    obtain ⟨work, replies, hfold, hids, hserial⟩ :=
      foldl_executeNext decodeNull requests.zipIdx db db [] []
    have hrequests : requests.zipIdx.map (fun r ↦ executeOp decodeNull r.1.op) =
        scripts decodeNull requests := by
      rw [← Function.comp_def (fun r : Request ↦ executeOp decodeNull r.op) Prod.fst,
        ← List.map_map, List.zipIdx_map_fst, scripts]
    have hreplies : requests.zipIdx.map (fun r ↦ r.1.reply) = requests.map Request.reply := by
      rw [← Function.comp_def Request.reply Prod.fst, ← List.map_map, List.zipIdx_map_fst]
    rw [hrequests] at hserial
    rw [hreplies] at hids
    cases commitOk with
    | true =>
      refine ⟨work, replies, ?_, hids, hserial, by simp⟩
      simp [coalesceBatch, Connection.start, hfold, Connection.commit,
        answerDeferred_true]
    | false =>
      have hids' : (replies.map (answerDeferred false)).map Prod.fst =
          requests.map Request.reply := by
        rw [List.map_map, ← hids]
        exact List.map_congr_left fun d _ ↦ fst_answerDeferred false d
      have hrefused : ∀ r ∈ replies.map (answerDeferred false), ∃ e, r.2 = .error e := by
        intro r hr
        obtain ⟨d, -, rfl⟩ := List.mem_map.mp hr
        exact answerDeferred_false d
      refine ⟨db, replies.map (answerDeferred false), ?_, hids', ?_, fun _ ↦ hrefused⟩
      · simp [coalesceBatch, Connection.start, hfold, Connection.rollback]
      · refine Serial.refused db ?_ ?_
        · simpa [scripts] using congrArg List.length hids
        · intro a ha
          obtain ⟨r, hr, rfl⟩ := List.mem_map.mp ha
          exact hrefused r hr

theorem coalesceBatch_single (db : Db) (reply : ℕ) (op : WriteOp) :
    coalesceBatch decodeNull ⟨db, none⟩ ⟨[⟨reply, op, []⟩], true, true⟩ =
      match (executeOp decodeNull op).outcome db with
      | .ok r => (⟨r.2, none⟩, [(reply, .ok r.1)])
      | .error e => (⟨db, none⟩, [(reply, .error e)]) := by
  have halone := Connection.isolated_nil (⟨db, some ⟨db, []⟩⟩ : Connection Db) rfl
    ("sp" ++ toString 0) (executeOp decodeNull op)
  cases hout : (executeOp decodeNull op).outcome db with
  | ok | error =>
    simp only [hout] at halone
    simp only [coalesceBatch, Connection.start, List.zipIdx_cons, List.zipIdx_nil,
      List.foldl_cons, List.foldl_nil, executeNext, halone, answerDeferred_true]
    rfl

/-- However the queue falls into batches and whatever fails: the replies go to
the operations in queue order, one to each; the database ends as if the
operations answered with a result had been executed alone, one after another, and
the others not at all; a batch whose commit fails has only errors among its
replies. -/
theorem batches_serializable (db : Db) (batches : List Batch) :
    ∃ (db' : Db) (replies : List (List (ℕ × Reply))),
      coalesceLoop decodeNull ⟨db, none⟩ batches = (⟨db', none⟩, replies) ∧
      replies.flatten.map Prod.fst = (batches.flatMap Batch.requests).map Request.reply ∧
      Serial db (scripts decodeNull (batches.flatMap Batch.requests))
        (replies.flatten.map Prod.snd) db' ∧
      List.Forall₂ (fun batch sent ↦ batch.commitOk = false → ∀ r ∈ sent, ∃ e, r.2 = .error e)
        batches replies := by
  induction batches generalizing db with
  | nil => exact ⟨db, [], rfl, rfl, .nil db, .nil⟩
  | cons batch batches ih =>
    obtain ⟨db₁, sent, hbatch, hids, hserial, hcommit⟩ := coalesceBatch_spec decodeNull db batch
    obtain ⟨db', replies, hloop, hids', hserial', hcommit'⟩ := ih db₁
    refine ⟨db', sent :: replies, ?_, ?_, ?_, .cons hcommit hcommit'⟩
    · simp only [coalesceLoop, hbatch, hloop]
    · simp [hids, hids']
    · simpa [scripts] using hserial.append hserial'

end

end Coalescer

end Akamu
