import Akamu.Db.Persist

/-!
# Transactions

Everything that changes the database, one constructor per transaction of the
handlers and background loops.  The write coalescer executes the same
statements; the only difference it makes is the text stored in `replaced_by`,
which is therefore a field of the transaction.
-/

namespace Akamu

/-- An authorization that `new_order` or `new_authz` is going to create. -/
structure AuthzPlan where
  authz : AuthorizationRow
  challenges : List (String × ChallengeType)
  token : String
  deriving DecidableEq, Repr

structure ValidationJob where
  challengeId : String
  authzId : String
  /-- The empty text for an authorization without an order. -/
  orderId : String
  type : ChallengeType
  identifier : Identifier
  accountId : String
  accountUri : String
  deriving DecidableEq, Repr

/-- Besides the values it binds, a transaction carries what its caller does
with the outcome: the rows read before, the job to start, the TXT records that
a validation rests on. -/
inductive Txn where
  | newAccount (account : AccountRow) (eabKid : Option String) (now : Int)
  | deactivateAccount (id : String) (now : Int) (byOperator : Bool)
  | updateContact (id : String) (contact : Option String) (now : Int)
  | updateKey (id : String) (publicKey : List UInt8) (jwkThumbprint : String) (now : Int)
  | setProfileGrants (id : String) (grants : Option String) (now : Int)
  | newOrder (order : OrderRow) (plans : List AuthzPlan) (covered : List (Identifier × String))
  | newAuthz (plan : AuthzPlan)
  | setProcessingIfPending (challenge : ChallengeRow) (job : Option ValidationJob) (now : Int)
  | setEmailToken (job : ValidationJob) (messageId : String) (now : Int)
  | insertJti (row : TkauthJtiRow) (job : ValidationJob) (now : Int)
  | purgeExpiredJti (now : Int)
  | onValid (job : ValidationJob) (evidence : List String) (now : Int)
  | onInvalid (challengeId authzId : String) (orderId : Option String) (error : String) (now : Int)
  | finalize (order : OrderRow) (cert : CertificateRow) (now : Int) (predCertUuid : Option String)
      (replacedBy : String) (starCsrDer : Option (List UInt8))
  | setProcessingWithCsrDer (orderId : String) (csrDer : List UInt8) (now : Int)
  | cancelStar (orderId : String) (now : Int)
  | starRenew (cert : CertificateRow) (now : Int)
  | orderInvalid (orderId error : String) (now : Int)
  | setUpstreamOrderUrl (orderId url : String) (now : Int)
  | completeOrder (cert : CertificateRow) (certUrl : String) (now : Int)
  | revoke (certId : String) (reason : Option Int) (now : Int) (caId : Option String)
  | insertEab (row : EabKeyRow)
  | insertEabIfAbsent (row : EabKeyRow) (byOperator : Bool)
  | deleteEab (kid : String)
  | persist (crdt : Crdt.AkaCrdt)
  deriving DecidableEq

/-- What a transaction reports: whether its guarded update hit, and the second
flag of `on_valid` (the order advanced) and of finalization (the predecessor
had been replaced already). -/
structure Outcome where
  hit : Bool
  flag : Bool := false
  deriving DecidableEq, Repr

def execNewAccount (db : Db) (account : AccountRow) (eabKid : Option String) (now : Int) :
    Except AcmeError Db := do
  let db ← Accounts.insert db account
  match eabKid with
  | some kid => Eab.markUsed db kid now
  | none => return db

def execPlan (now : Int) (db : Db) (plan : AuthzPlan) : Except AcmeError Db := do
  let db ← Authz.insert db plan.authz
  Challenges.insertBatch db plan.authz.id plan.challenges plan.token now

def execNewOrder (db : Db) (order : OrderRow) (plans : List AuthzPlan) : Except AcmeError Db := do
  let db ← Orders.insert db order
  plans.foldlM (execPlan order.created) db

/-- `UPDATE challenges SET status = 'valid'` and `UPDATE authorizations SET
status = 'valid'`, the first two statements of `on_valid`. -/
def markValid (db : Db) (challengeId authzId : String) (now : Int) : Db :=
  { db with
    challenges := db.challenges.updateWhere (Challenges.inStatus challengeId .processing)
      (fun c ↦ { c with status := .valid, validated := some now, updated := now }) fun _ ↦ rfl
    authorizations := db.authorizations.updateWhere (fun a ↦ a.id == authzId)
      (fun a ↦ { a with status := .valid, updated := now }) fun _ ↦ rfl }

/-- `NOT EXISTS (SELECT 1 FROM authorizations WHERE order_id = ? AND status != 'valid')`. -/
def allAuthzValid (db : Db) (orderId : String) : Bool :=
  db.authorizations.rows.all fun a ↦ !(a.orderId == some orderId && a.status != .valid)

/-- `UPDATE orders SET status = 'ready', error = NULL`: no test of the status
the order is in. -/
def markReady (db : Db) (orderId : String) (now : Int) : Db :=
  { db with
    orders := db.orders.updateWhere (fun o ↦ o.id == orderId)
      (fun o ↦ { o with status := .ready, error := none, updated := now }) fun _ ↦ rfl }

def execOnValid (db : Db) (challengeId authzId orderId : String) (now : Int) : Db × Outcome :=
  if db.challenges.countWhere (Challenges.inStatus challengeId .processing) = 0 then
    (db, { hit := false })
  else
    let db := markValid db challengeId authzId now
    if allAuthzValid db orderId then
      (markReady db orderId now,
        { hit := true, flag := db.orders.countWhere (fun o ↦ o.id == orderId) != 0 })
    else (db, { hit := true })

/-- The first two statements of `on_invalid`; neither looks at the status the
authorization is in. -/
def markInvalid (db : Db) (challengeId authzId error : String) (now : Int) : Db :=
  { db with
    challenges := db.challenges.updateWhere (Challenges.inStatus challengeId .processing)
      (fun c ↦ { c with status := .invalid, error := some error, updated := now }) fun _ ↦ rfl
    authorizations := db.authorizations.updateWhere (fun a ↦ a.id == authzId)
      (fun a ↦ { a with status := .invalid, updated := now }) fun _ ↦ rfl }

def markOrderInvalid (db : Db) (orderId error : String) (now : Int) : Db :=
  { db with
    orders := db.orders.updateWhere (fun o ↦ o.id == orderId)
      (fun o ↦ { o with status := .invalid, error := some error, updated := now }) fun _ ↦ rfl }

/-- The order that `on_invalid` takes down: the caller's, or the one the
authorization row names. -/
def onInvalidOrder (decodeNull : Except AcmeError String) (db : Db) (authzId : String) :
    Option String → Except AcmeError (Option String)
  | some orderId => .ok (some orderId)
  | none =>
    match db.authorizations.find? authzId with
    | none => .ok none
    | some a =>
      match a.orderId with
      | some orderId => .ok (some orderId)
      | none => decodeNull.map some

def execOnInvalid (decodeNull : Except AcmeError String) (db : Db) (challengeId authzId : String)
    (orderId : Option String) (error : String) (now : Int) : Except AcmeError (Db × Outcome) :=
  if db.challenges.countWhere (Challenges.inStatus challengeId .processing) = 0 then
    .ok (db, { hit := false })
  else do
    let db := markInvalid db challengeId authzId error now
    match ← onInvalidOrder decodeNull db authzId orderId with
    | some oid => return (markOrderInvalid db oid error now, { hit := true })
    | none => return (db, { hit := true })

/-- A lost finalization race is reported as `orderNotReady`. -/
def conflictToOrderNotReady : Except AcmeError Db → Except AcmeError Db
  | .error (.conflict _) => .error .orderNotReady
  | r => r

def execFinalize (db : Db) (cert : CertificateRow) (now : Int) (predCertUuid : Option String)
    (replacedBy : String) (starCsrDer : Option (List UInt8)) : Except AcmeError (Db × Outcome) := do
  let db ← Certs.insert db cert
  let db ← conflictToOrderNotReady (Orders.setCertificate db cert.orderId cert.id now)
  let (db, predAlreadyReplaced) := match predCertUuid with
    | some pred =>
      let r := Certs.markReplaced db pred replacedBy
      (r.1, !r.2)
    | none => (db, false)
  let db ← match starCsrDer with
    | some csrDer => Orders.setStarCsr db cert.orderId csrDer
    | none => pure db
  return (db, { hit := true, flag := predAlreadyReplaced })

def execStarRenew (db : Db) (cert : CertificateRow) (now : Int) :
    Except AcmeError (Db × Outcome) := do
  let inserted ← Certs.insert db cert
  let r := Orders.updateStarCertificate inserted cert.orderId cert.id now
  if r.2 then return (r.1, { hit := true }) else return (db, { hit := false })

def execCompleteOrder (db : Db) (cert : CertificateRow) (certUrl : String) (now : Int) :
    Except AcmeError Db := do
  let db ← Certs.insert db cert
  let db ← Orders.setValidWithCertificate db cert.orderId cert.id now
  Orders.setUpstreamCertUrl db cert.orderId certUrl now

def exec (decodeNull : Except AcmeError String) (db : Db) :
    Txn → Except AcmeError (Db × Outcome)
  | .newAccount account eabKid now =>
    (execNewAccount db account eabKid now).map fun db ↦ (db, { hit := true })
  | .deactivateAccount id now _ =>
    let r := Accounts.updateStatus db id .deactivated now
    .ok (r.1, { hit := r.2 })
  | .updateContact id contact now =>
    let r := Accounts.updateContact db id contact now
    .ok (r.1, { hit := r.2 })
  | .updateKey id publicKey jwkThumbprint now =>
    (Accounts.updateKey db id publicKey jwkThumbprint now).map fun r ↦ (r.1, { hit := r.2 })
  | .setProfileGrants id grants now =>
    let r := Accounts.setProfileGrants db id grants now
    .ok (r.1, { hit := r.2 })
  | .newOrder order plans _ =>
    (execNewOrder db order plans).map fun db ↦ (db, { hit := true })
  | .newAuthz plan =>
    (execPlan plan.authz.created db plan).map fun db ↦ (db, { hit := true })
  | .setProcessingIfPending challenge _ now =>
    let r := Challenges.setProcessingIfPending db challenge.id now
    .ok (r.1, { hit := r.2 != 0 })
  | .setEmailToken job messageId now =>
    (Challenges.setEmailToken db job.challengeId messageId now).map fun db ↦
      (db, { hit := true })
  | .insertJti row _ _ =>
    let r := Tkauth.insertJti db row
    .ok (r.1, { hit := r.2 })
  | .purgeExpiredJti now => .ok (Tkauth.purgeExpired db now, { hit := true })
  | .onValid job _ now => .ok (execOnValid db job.challengeId job.authzId job.orderId now)
  | .onInvalid challengeId authzId orderId error now =>
    execOnInvalid decodeNull db challengeId authzId orderId error now
  | .finalize _ cert now predCertUuid replacedBy starCsrDer =>
    execFinalize db cert now predCertUuid replacedBy starCsrDer
  | .setProcessingWithCsrDer orderId csrDer now =>
    (Orders.setProcessingWithCsrDer db orderId csrDer now).map fun db ↦ (db, { hit := true })
  | .cancelStar orderId now => .ok (Orders.cancelStar db orderId now, { hit := true })
  | .starRenew cert now => execStarRenew db cert now
  | .orderInvalid orderId error now =>
    (Orders.updateStatus db orderId .invalid (some error) now).map fun db ↦ (db, { hit := true })
  | .setUpstreamOrderUrl orderId url now =>
    (Orders.setUpstreamOrderUrl db orderId url now).map fun db ↦ (db, { hit := true })
  | .completeOrder cert certUrl now =>
    (execCompleteOrder db cert certUrl now).map fun db ↦ (db, { hit := true })
  | .revoke certId reason now caId =>
    let r := Certs.revoke db certId reason now caId
    .ok (r.1, { hit := r.2 })
  | .insertEab row => (Eab.insertWithGrants db row).map fun db ↦ (db, { hit := true })
  | .insertEabIfAbsent row _ =>
    let r := Eab.insertIfAbsent db row
    .ok (r.1, { hit := r.2 })
  | .deleteEab kid =>
    let r := Eab.delete db kid
    .ok (r.1, { hit := r.2 != 0 })
  | .persist crdt => (persistCrdtAcme db crdt).map fun db ↦ (db, { hit := true })

end Akamu
