import Akamu.Crdt.Hooks
import Akamu.Routes.Finalize
import Akamu.Routes.NewOrder
import Akamu.Validation.DnsPersist01

/-!
# Tasks

What a handler or background task is about to do next: run its transaction, run
the hooks that follow a commit, or go through a phase that only reads.  Between
two of these steps anything else may happen.
-/

namespace Akamu

open Crdt

inductive Phase where
  | rereadAccount (id : String)
  | eabCheck (row : EabKeyRow) (inserted : Bool)
  | cover (d : OrderDraft)
  | validate (job : ValidationJob)
  | sendEmail (job : ValidationJob)
  | checkCaa (job : FinalizeJob)
  | issue (job : FinalizeJob)
  | persistCert (job : FinalizeJob) (cert : IssuedCert)
  | renewStar (order : OrderRow)

inductive Task where
  | commit (t : Txn)
  | hooks (hs : List Hook) (spawn : Option ValidationJob)
  | phase (p : Phase)

structure TokenClaims where
  jti : String
  expires : Int
  tkvalue : Option String
  caFlag : Bool
  deriving DecidableEq, Repr

/-- What a step learns from outside: CAA and TXT answers, the result of the
validations that are not modelled, the token and message id of a challenge,
whether the replica's lock was obtained in time, and the clock when a renewal is
signed. -/
structure Input where
  lookup : Caa.Lookup
  txt : Except AcmeError (List String)
  outcome : Except AcmeError Unit
  token : TokenClaims
  messageId : String
  lockTimeout : Bool
  signedAt : Int

/-! ## After a commit -/

def authzHooks (now : Int) (plan : AuthzPlan) : List Hook :=
  .authzUpsert (authzEntryOfRow plan.authz) :: plan.challenges.map fun c ↦
    .challengeSet (challengeEntryOfRow (Challenges.pendingRow plan.authz.id plan.token now c))

def newOrderHooks (order : OrderRow) (plans : List AuthzPlan) : List Hook :=
  .orderUpsert (orderEntryOfRow order) :: plans.flatMap (authzHooks order.created)

def processingEntry (challenge : ChallengeRow) (now : Int) : ChallengeEntry :=
  challengeEntryOfRow { challenge with status := .processing, updated := now }

def finalizeHooks (order : OrderRow) (cert : CertificateRow) (now : Int) : List Hook :=
  [.certUpsert (certEntryOfRow cert),
    .orderUpsert (orderEntryOfRow
      { order with status := .valid, certificateId := some cert.id, updated := now })]

def replayError : AcmeError :=
  .incorrectResponse "tkauth-01: authority token already used (jti replay)"

def failChallenge (lib : Library) (job : ValidationJob) (e : AcmeError) (now : Int) : Txn :=
  .onInvalid job.challengeId job.authzId (some job.orderId) (lib.errorJson e) now

/-- What the caller of a transaction goes on to do.  The failed validation, the
renewal of a STAR certificate, the hand-over to an upstream CA and its later
steps end with their commit. -/
def followUp (lib : Library) (clock : Int) : Txn → Outcome → List Task
  | .newAccount account _ _, _ => [.hooks [.accountUpsert account] none]
  | .deactivateAccount id now byOperator, o =>
    if byOperator then if o.hit then [.hooks [.accountTombstone id now] none] else []
    else [.hooks [.accountTombstone id clock] none]
  | .updateContact id _ _, _ => [.phase (.rereadAccount id)]
  | .newOrder order plans _, _ => [.hooks (newOrderHooks order plans) none]
  | .setProcessingIfPending challenge job now, o =>
    if o.hit then [.hooks [.challengeSet (processingEntry challenge now)] job] else []
  | .setEmailToken job _ _, _ => [.phase (.sendEmail job)]
  | .insertJti _ job now, o =>
    if o.hit then [.commit (.onValid job [] now)]
    else [.commit (failChallenge lib job replayError now)]
  | .onValid job _ now, o =>
    if o.hit then
      [.hooks [.validated job.challengeId job.authzId job.orderId now o.flag] none]
    else []
  | .finalize order cert now _ _ _, o =>
    -- a predecessor that was replaced meanwhile is an error, after the commit
    if o.flag then [] else [.hooks (finalizeHooks order cert now) none]
  | .revoke certId _ now _, o =>
    if o.hit then [.hooks [.certTombstone certId now] none] else []
  | .insertEab row, _ => [.hooks [.eabKeySet (eabKeyEntryOfRow row)] none]
  | .insertEabIfAbsent row byOperator, o =>
    if byOperator then [.phase (.eabCheck row o.hit)] else []
  | .updateKey .., _ | .setProfileGrants .., _ | .newAuthz .., _ | .purgeExpiredJti .., _
  | .onInvalid .., _ | .setProcessingWithCsrDer .., _ | .cancelStar .., _ | .starRenew .., _
  | .orderInvalid .., _ | .setUpstreamOrderUrl .., _ | .completeOrder .., _ | .deleteEab .., _
  | .persist .., _ => []

/-! ## Phases -/

def validateChallenge (env : Env) (db : Db) (now : Int) (input : Input) (job : ValidationJob) :
    List Task :=
  let fail (e : AcmeError) : List Task := [.commit (failChallenge env.library job e now)]
  match job.type with
  | .dnsPersist01 =>
    match Accounts.getById db job.accountId with
    | none => fail (.internal "account status lookup: no rows returned")
    | some account =>
      if account.status ≠ .valid then
        fail (.unauthorized ("dns-persist-01: account " ++ job.accountId ++ " is " ++
          account.status.asStr))
      else if (env.library.parseIpAddr job.identifier.value).isSome then
        fail (.incorrectResponse "dns-persist-01 cannot validate IP address identifiers")
      else
        match input.txt with
        | .error e => fail e
        | .ok records =>
          if DnsPersist01.validate env.library.toLowercase job.identifier.value
              job.accountUri env.config.dnsPersistIssuerDomains records now then
            [.commit (.onValid job records now)]
          else fail (.incorrectResponse ("dns-persist-01: no TXT record at '" ++
            "_validation-persist." ++ bareName job.identifier.value ++ ".' matches"))
  | .tkauth01 =>
    match input.outcome with
    | .error e => fail e
    | .ok () => [.commit (.insertJti
        { jti := input.token.jti, authzId := job.authzId, expires := input.token.expires
          created := now, tkvalue := input.token.tkvalue, caFlag := input.token.caFlag }
        job now)]
  | .emailReply00 => [.commit (.setEmailToken job input.messageId now)]
  | .http01 | .dns01 | .tlsAlpn01 | .onionCsr01 =>
    match input.outcome with
    | .error e => fail e
    | .ok () => [.commit (.onValid job [] now)]

def certRow (order : OrderRow) (cert : IssuedCert) (now : Int) : CertificateRow where
  id := cert.id
  orderId := order.id
  accountId := order.accountId
  serialNumber := cert.serialHex
  status := .valid
  notBefore := cert.notBefore
  notAfter := cert.notAfter
  revokedAt := none
  revocationReason := none
  created := now
  replacedBy := none
  caId := order.caId

def predCertUuid (env : Env) (db : Db) (order : OrderRow) : Except AcmeError (Option String) :=
  match order.replaces with
  | none => .ok none
  | some certId =>
    (Certs.getByCertId env.library.certIdSerial db certId).map (Option.map CertificateRow.id)

/-- The coalescer marks the predecessor with the certificate's id, the direct
path with the order's. -/
def finalizeTxn (env : Env) (job : FinalizeJob) (cert : IssuedCert) (pred : Option String)
    (now : Int) : Txn :=
  .finalize job.order (certRow job.order cert now) now pred
    (if env.config.writeCoalescer then cert.id else job.order.id)
    (if job.order.isStar then some job.csrDer else none)

def renewalStart (order : OrderRow) (latest : CertificateRow) (now : Int) : Int :=
  if 0 < order.starLifetimeAdjustSecs then latest.notAfter - order.starLifetimeAdjustSecs else now

/-- The renewal of one STAR order, or nothing when it is not due.  The signing
thread reads the clock again. -/
def starRunOnce (env : Env) (db : Db) (now signedAt : Int) (order : OrderRow) :
    Except AcmeError (List Task) :=
  match order.starEndDate, order.starCsrDer, order.starLifetimeSecs,
      Certs.getLatestForOrder db order.id, env.config.getCa order.caId with
  | some endDate, some csrDer, some lifetime, some cert, some ca =>
    if endDate ≤ now || decide (now < cert.notAfter - lifetime.tdiv 2) || ca.dogtag then .ok []
    else do
      let csr ← validateCsr env.library csrDer order.identifiers
      let notBefore := if 0 < order.starLifetimeAdjustSecs then
        cert.notAfter - order.starLifetimeAdjustSecs else now
      let issued ← issueCertificate env.library ca signedAt csr (some notBefore)
        (some (min (addI64 notBefore lifetime) endDate))
      return [.commit (.starRenew (certRow order issued now) now)]
  | _, _, _, _, _ => .ok []

theorem starRunOnce_cases {env : Env} {db : Db} {now signedAt : Int} {order : OrderRow}
    {ts : List Task} (h : starRunOnce env db now signedAt order = .ok ts) :
    ts = [] ∨ ∃ endDate lifetime latest ca csr issued, order.starEndDate = some endDate ∧
      order.starLifetimeSecs = some lifetime ∧
      Certs.getLatestForOrder db order.id = some latest ∧
      (now < endDate ∧ latest.notAfter - lifetime.tdiv 2 ≤ now ∧
        env.config.getCa order.caId = some ca) ∧
      issueCertificate env.library ca signedAt csr (some (renewalStart order latest now))
        (some (min (addI64 (renewalStart order latest now) lifetime) endDate)) = .ok issued ∧
      ts = [.commit (.starRenew (certRow order issued now) now)] := by
  unfold starRunOnce at h
  split at h
  · rename_i endDate csrDer lifetime latest ca hend _ hlife hlatest hca
    split at h
    · cases h
      exact .inl rfl
    · rename_i hdue
      simp only [Bool.or_eq_true, decide_eq_true_eq, not_or, not_le, not_lt] at hdue
      obtain ⟨csr, -, h⟩ := Except.bind_eq_ok h
      obtain ⟨issued, hissued, h⟩ := Except.bind_eq_ok h
      cases h
      exact .inr ⟨endDate, lifetime, latest, ca, csr, issued, hend, hlife, hlatest,
        ⟨hdue.1.1, hdue.1.2, hca⟩, hissued, rfl⟩
  · cases h
    exact .inl rfl

def Phase.proceed (env : Env) (db : Db) (now : Int) (input : Input) :
    Phase → Except AcmeError (List Task)
  | .rereadAccount id =>
    match Accounts.getById db id with
    | none => .error .accountDoesNotExist
    | some account => .ok [.hooks [.accountUpsert account] none]
  | .eabCheck row inserted =>
    match Eab.getByKid db row.kid with
    | none => .error (.internal ("post_eab: EAB key '" ++ row.kid ++ "' vanished after insert"))
    | some key =>
      if key.usedAt.isSome then
        .error (.conflict ("EAB credentials for principal '" ++
          row.boundPrincipal.getD "unknown" ++ "' have already been consumed"))
      else .ok (if inserted then [.hooks [.eabKeySet (eabKeyEntryOfRow row)] none] else [])
  | .cover d =>
    match d.remaining with
    | [] => .ok [.commit (.newOrder (draftOrderRow env d) d.plans d.covered)]
    | r :: rs => (coverIdentifier env db d r).map fun d' ↦
      [.phase (.cover { d' with remaining := rs })]
  | .validate job => .ok (validateChallenge env db now input job)
  | .sendEmail job =>
    match input.outcome with
    | .error e => .ok [.commit (failChallenge env.library job e now)]
    | .ok () => .ok []
  | .checkCaa job => (checkCaaForOrder env db input.lookup job).map fun _ ↦ [.phase (.issue job)]
  | .issue job => do
      let inj ← injectTemplateAndTkauthSans env db job
      let cert ← issueLeafCertificate env now job inj
      return [.phase (.persistCert job cert)]
  | .persistCert job cert => (predCertUuid env db job.order).map fun pred ↦
    [.commit (finalizeTxn env job cert pred now)]
  | .renewStar order => starRunOnce env db now input.signedAt order

end Akamu
