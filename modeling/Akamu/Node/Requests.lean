import Akamu.Node.Task

/-!
# Request handlers

The part of each handler before its first write.  Requests arrive
authenticated and parsed; the ACME account is the one whose key signed.
-/

namespace Akamu

/-- An external account binding: its kid, and the verdict on its MAC under the
key that is stored for the kid. -/
structure EabBinding where
  kid : String
  verify : List UInt8 → Except AcmeError Unit

inductive Request where
  | newAccount (id jwkThumbprint : String) (publicKey : List UInt8) (contact : Option String)
      (onlyReturnExisting : Bool) (eab : Option EabBinding)
  | updateAccount (id : String) (deactivate : Bool) (contact : Option String)
  | keyChange (accountId : String) (publicKey : List UInt8) (jwkThumbprint : String)
  | newOrder (accountId caId : String) (payload : NewOrderPayload) (fresh : Fresh)
  | newAuthz (accountId caId : String) (identifier : Identifier) (subdomainAuthAllowed : Bool)
      (fresh : Fresh)
  | respondChallenge (accountId caId authzId : String) (type : ChallengeType)
      (payload : Except AcmeError Unit)
  | finalize (req : FinalizeRequest)
  | cancelOrder (accountId caId orderId : String)
  | revokeCert (accountId : Option String) (keyMatches : Bool) (caId serial : String)
      (reason : Option ℕ)
  | emailReply (inReplyTo : String) (verified : Except AcmeError Unit)
  | postRevoke (certId : String) (reason : ℕ) (caScope : Option String)
  | postAccountDeactivate (id : String)
  | putProfileGrants (id : String) (grants : Option String)
  | postEab (kid hmacKeyB64u : String) (grants principal : Option String) (derived : Bool)
  | getEabIdentity (kid hmacKeyB64u principal : String)
  | deleteEab (kid : String)

/-! ## Accounts -/

def verifyEab (lib : Library) (db : Db) (eab : EabBinding) :
    Except AcmeError EabKeyRow :=
  match Eab.getByKid db eab.kid with
  | none => .error (.unauthorized ("EAB: unknown kid '" ++ eab.kid ++ "'"))
  | some key =>
    if key.usedAt.isSome then
      .error (.unauthorized ("EAB: kid '" ++ eab.kid ++ "' has already been used"))
    else
      match lib.decodeUrlSafe key.hmacKeyB64u with
      | .error e => .error (.badRequest ("EAB: invalid HMAC key encoding: " ++ e))
      | .ok hmacKey => (eab.verify hmacKey).map fun _ ↦ key

def checkEab (env : Env) (db : Db) (eab : Option EabBinding) :
    Except AcmeError (Option EabKeyRow) :=
  if env.config.externalAccountRequired then
    match eab with
    | none => .error .externalAccountRequired
    | some eab => (verifyEab env.library db eab).map some
  else .ok none

def newAccountRow (id jwkThumbprint : String) (publicKey : List UInt8) (contact : Option String)
    (key : Option EabKeyRow) (now : Int) : AccountRow where
  id := id
  status := .valid
  contact := contact
  publicKey := publicKey
  jwkThumbprint := jwkThumbprint
  created := now
  updated := now
  profileGrants := key.bind EabKeyRow.profileGrants
  caId := ""
  kerberosPrincipal := key.bind EabKeyRow.boundPrincipal

def beginNewAccount (env : Env) (db : Db) (now : Int) (id jwkThumbprint : String)
    (publicKey : List UInt8) (contact : Option String) (onlyReturnExisting : Bool)
    (eab : Option EabBinding) : Except AcmeError (List Task) :=
  if (Accounts.getByThumbprint db jwkThumbprint).isSome then .ok []
  else if onlyReturnExisting then .error .accountDoesNotExist
  else (checkEab env db eab).map fun key ↦
    [.commit (.newAccount (newAccountRow id jwkThumbprint publicKey contact key now)
      (key.map EabKeyRow.kid) now)]

def beginUpdateAccount (db : Db) (now : Int) (id : String) (deactivate : Bool)
    (contact : Option String) : Except AcmeError (List Task) :=
  match Accounts.getById db id with
  | none => .error .accountDoesNotExist
  | some _ =>
    if deactivate then .ok [.commit (.deactivateAccount id now false)]
    else
      match contact with
      | some c => .ok [.commit (.updateContact id (some c) now)]
      | none => .ok [.phase (.rereadAccount id)]

def beginKeyChange (db : Db) (now : Int) (accountId : String) (publicKey : List UInt8)
    (jwkThumbprint : String) : Except AcmeError (List Task) :=
  if (Accounts.getByThumbprint db jwkThumbprint).isSome then
    .error (.conflict "new key already in use by another account")
  else .ok [.commit (.updateKey accountId publicKey jwkThumbprint now)]

/-! ## Authorizations and challenges -/

def checkNewAuthz (env : Env) (identifier : Identifier) (subdomainAuthAllowed : Bool) :
    Except AcmeError Unit := do
  match identifier.type with
  | .dns | .ip => pure ()
  | .email =>
    if !env.config.emailChallengeEnabled then throw (.unsupportedIdentifier "email")
    if !isValidEmail identifier.value then
      throw (.badRequest ("invalid email identifier: '" ++ identifier.value ++ "'"))
  | t => throw (.unsupportedIdentifier t.asStr)
  if isWildcard identifier.value then
    throw (.rejectedIdentifier "wildcard identifiers are not allowed in pre-authorization")
  if subdomainAuthAllowed && !env.config.allowSubdomainAuth then
    throw (.badRequest "server does not support subdomainAuthAllowed pre-authorization")

def preAuthzPlan (env : Env) (accountId caId : String) (identifier : Identifier)
    (subdomainAuthAllowed : Bool) (fresh : Fresh) (now : Int) : AuthzPlan where
  authz :=
    { id := fresh.authzId 0
      orderId := none
      accountId := accountId
      status := .pending
      identifier := identifier
      expires := some (addSecs now env.config.authzExpirySecs.toNat)
      wildcard := false
      subdomainAuthAllowed := subdomainAuthAllowed
      created := now
      updated := now
      caId := caId }
  challenges := (eligibleChallengeTypes env.config identifier).zipIdx.map fun t ↦
    (fresh.challengeId 0 t.2, t.1)
  token := fresh.token 0

def beginNewAuthz (env : Env) (db : Db) (now : Int) (accountId caId : String)
    (identifier : Identifier) (subdomainAuthAllowed : Bool) (fresh : Fresh) :
    Except AcmeError (List Task) := do
  checkNewAuthz env identifier subdomainAuthAllowed
  match ← Authz.findValidByAccountAndIdentifier env.decodeNull db accountId identifier caId now with
  | some _ => return []
  | none =>
    if rejectsOnion identifier then
      .error (.rejectedIdentifier
        ("only v3 .onion addresses are supported (56-char base32 label); got: " ++
          identifier.value))
    else return [.commit (.newAuthz
      (preAuthzPlan env accountId caId identifier subdomainAuthAllowed fresh now))]

def acmePrefix (cfg : Config) (caId : String) : String :=
  if caId = cfg.defaultCaId then cfg.baseUrl ++ "/acme" else cfg.baseUrl ++ "/acme/" ++ caId

def accountUri (cfg : Config) (caId accountId : String) : String :=
  acmePrefix cfg caId ++ "/account/" ++ accountId

def validationJob (cfg : Config) (accountId caId : String) (authz : AuthorizationRow)
    (challenge : ChallengeRow) : ValidationJob where
  challengeId := challenge.id
  authzId := authz.id
  orderId := authz.orderId.getD ""
  type := challenge.type
  identifier := authz.identifier
  accountId := accountId
  accountUri := accountUri cfg caId accountId

/-- A malformed payload is answered with an error after the challenge has been
set to processing, and no validation is started. -/
def spawnedJob (job : ValidationJob) (payload : Except AcmeError Unit) : Option ValidationJob :=
  match job.type, payload with
  | .onionCsr01, .error _ | .tkauth01, .error _ => none
  | _, _ => some job

def beginRespondChallenge (env : Env) (db : Db) (now : Int) (accountId caId authzId : String)
    (type : ChallengeType) (payload : Except AcmeError Unit) : Except AcmeError (List Task) :=
  match Authz.getWithChallenges db authzId with
  | none => .error .notFound
  | some (authz, challenges) =>
    if authz.accountId ≠ accountId then
      .error (.unauthorized "authorization belongs to different account")
    else if !caScope authz.caId caId then .error .notFound
    else
      match challenges.find? fun c ↦ c.type == type with
      | none => .error .notFound
      | some challenge =>
        if authz.status = .pending ∧ challenge.status = .pending then
          .ok [.commit (.setProcessingIfPending challenge
            (spawnedJob (validationJob env.config accountId caId authz challenge) payload)
            now)]
        else .ok []

def beginEmailReply (env : Env) (db : Db) (now : Int) (inReplyTo : String)
    (verified : Except AcmeError Unit) : Except AcmeError (List Task) :=
  match Challenges.getByEmailMessageId db inReplyTo with
  | none => .error (.incorrectResponse
      ("no email-reply-00 challenge found for In-Reply-To '" ++ inReplyTo ++ "'"))
  | some c =>
    let fail (e : AcmeError) : Except AcmeError (List Task) :=
      .ok [.commit (.onInvalid c.id c.authzId none (env.library.errorJson e) now)]
    match Authz.getById env.decodeNull db c.authzId with
    | .error _ => fail (.internal "authorization lookup failed")
    | .ok none => fail (.internal "authorization missing for email challenge")
    | .ok (some authz) =>
      if authz.expires.any fun e ↦ decide (e < now) then
        fail (.incorrectResponse "authorization has expired")
      else
        match verified with
        | .error e => fail e
        | .ok () => .ok [.commit (.onValid
            { challengeId := c.id, authzId := c.authzId, orderId := authz.orderId.getD ""
              type := c.type, identifier := authz.identifier, accountId := authz.accountId
              accountUri := "" } [] now)]

/-! ## Orders and certificates -/

def beginNewOrder (env : Env) (db : Db) (now : Int) (accountId caId : String)
    (payload : NewOrderPayload) (fresh : Fresh) : Except AcmeError (List Task) :=
  (newOrderChecks env db accountId caId payload fresh now).map fun d ↦ [.phase (.cover d)]

def beginFinalize (env : Env) (db : Db) (now : Int) (req : FinalizeRequest) :
    Except AcmeError (List Task) :=
  (finalizeChecks env db req).map fun job ↦
    if handsOff env job.order then
      [.commit (.setProcessingWithCsrDer job.order.id job.csrDer now)]
    else [.phase (.checkCaa job)]

def beginCancelOrder (db : Db) (now : Int) (accountId caId orderId : String) :
    Except AcmeError (List Task) :=
  match Orders.getById db orderId with
  | none => .error .notFound
  | some order =>
    if order.caId ≠ caId then .error .notFound
    else if order.accountId ≠ accountId then
      .error (.unauthorized "order belongs to different account")
    else if !order.isStar then
      .error (.badRequest "cancellation is only valid for STAR (auto-renewal) orders")
    else if order.status ≠ .valid then .error .autoRenewalCancellationInvalid
    else .ok [.commit (.cancelStar orderId now)]

def beginRevokeCert (db : Db) (now : Int) (accountId : Option String) (keyMatches : Bool)
    (caId serial : String) (reason : Option ℕ) : Except AcmeError (List Task) :=
  if reason.any fun r ↦ decide (10 < r) || r == 7 then .error .badRevocationReason
  else
    match Certs.getBySerial db serial with
    | none => .error .notFound
    | some cert =>
      if cert.caId ≠ caId then .error .notFound
      else if cert.status = .revoked then .error .alreadyRevoked
      else if (Orders.getById db cert.orderId).any OrderRow.isStar then
        .error .autoRenewalRevocationNotSupported
      else
        match accountId with
        | some id =>
          if cert.accountId = id then
            .ok [.commit (.revoke cert.id (reason.map Int.ofNat) now none)]
          else .error (.unauthorized "certificate belongs to a different account")
        | none =>
          if keyMatches then
            .ok [.commit (.revoke cert.id (reason.map Int.ofNat) now none)]
          else .error (.unauthorized "signing key does not match certificate public key")

def beginPostRevoke (now : Int) (certId : String) (reason : ℕ) (caScope : Option String) :
    Except AcmeError (List Task) :=
  if reason == 7 || decide (10 < reason) then
    .error (.badRequest "revocation reason must be 0–10 excluding 7 (RFC 5280 §5.3.1)")
  else .ok [.commit (.revoke certId (some reason) now caScope)]

/-! ## External account binding keys -/

def eabRow (kid hmacKeyB64u : String) (grants principal : Option String) (now : Int) :
    EabKeyRow where
  kid := kid
  hmacKeyB64u := hmacKeyB64u
  created := now
  usedAt := none
  profileGrants := grants
  boundPrincipal := principal

def beginPostEab (now : Int) (kid hmacKeyB64u : String) (grants principal : Option String)
    (derived : Bool) : List Task :=
  let row := eabRow kid hmacKeyB64u grants principal now
  [.commit (if derived then .insertEabIfAbsent row true else .insertEab row)]

def Request.begin (env : Env) (db : Db) (now : Int) : Request → Except AcmeError (List Task)
  | .newAccount id jwkThumbprint publicKey contact onlyReturnExisting eab =>
    beginNewAccount env db now id jwkThumbprint publicKey contact onlyReturnExisting eab
  | .updateAccount id deactivate contact => beginUpdateAccount db now id deactivate contact
  | .keyChange accountId publicKey jwkThumbprint =>
    beginKeyChange db now accountId publicKey jwkThumbprint
  | .newOrder accountId caId payload fresh =>
    beginNewOrder env db now accountId caId payload fresh
  | .newAuthz accountId caId identifier subdomainAuthAllowed fresh =>
    beginNewAuthz env db now accountId caId identifier subdomainAuthAllowed fresh
  | .respondChallenge accountId caId authzId type payload =>
    beginRespondChallenge env db now accountId caId authzId type payload
  | .finalize req => beginFinalize env db now req
  | .cancelOrder accountId caId orderId => beginCancelOrder db now accountId caId orderId
  | .revokeCert accountId keyMatches caId serial reason =>
    beginRevokeCert db now accountId keyMatches caId serial reason
  | .emailReply inReplyTo verified => beginEmailReply env db now inReplyTo verified
  | .postRevoke certId reason caScope => beginPostRevoke now certId reason caScope
  | .postAccountDeactivate id => .ok [.commit (.deactivateAccount id now true)]
  | .putProfileGrants id grants => .ok [.commit (.setProfileGrants id grants now)]
  | .postEab kid hmacKeyB64u grants principal derived =>
    .ok (beginPostEab now kid hmacKeyB64u grants principal derived)
  | .getEabIdentity kid hmacKeyB64u principal =>
    .ok [.commit (.insertEabIfAbsent (eabRow kid hmacKeyB64u none (some principal) now) false)]
  | .deleteEab kid => .ok [.commit (.deleteEab kid)]

end Akamu
