import Akamu.Arith
import Akamu.Config
import Akamu.Db.Transactions

/-!
# The new-order handler

`routes/order.rs`.  The checks come first; then each identifier either reuses a
subdomain authorization that is already valid or gets an authorization of its
own, planned but not yet written; at the end one transaction writes the order
and all planned rows.  The database is read once per identifier, so a draft is
the state of a handler between two reads.  Dates arrive parsed.
-/

namespace Akamu

open Except (bind_eq_ok)

structure RequestedIdentifier where
  type : IdType
  value : String
  ancestorDomain : Option String
  deriving DecidableEq, Repr

def RequestedIdentifier.identifier (r : RequestedIdentifier) : Identifier := ⟨r.type, r.value⟩

structure AutoRenewal where
  startDate : Option Int
  endDate : Int
  lifetime : ℕ
  lifetimeAdjust : Int
  deriving DecidableEq, Repr

structure DelegationRef where
  id : String
  owner : Option String
  deriving DecidableEq, Repr

structure NewOrderPayload where
  identifiers : List RequestedIdentifier
  notBefore : Option Int
  notAfter : Option Int
  replaces : Option String
  profile : Option String
  autoRenewal : Option AutoRenewal
  delegation : Option DelegationRef
  deriving DecidableEq, Repr

/-! ## Checks on the payload -/

def checkTokenIdentifier (env : Env) (r : RequestedIdentifier) : Except AcmeError Unit :=
  if !env.config.tkauthEnabled then .error (.unsupportedIdentifier r.type.asStr)
  else if r.value = "" then
    .error (.badRequest (r.type.asStr ++ " identifier value must not be empty"))
  else if !(env.library.decodeUrlSafe r.value).isOk then
    .error (.badRequest (r.type.asStr ++ " value is not valid base64url: '" ++ r.value ++ "'"))
  else .ok ()

def checkIdentifierType (env : Env) (star : Bool) (r : RequestedIdentifier) :
    Except AcmeError Unit :=
  match r.type with
  | .dns => .ok ()
  | .ip =>
    if (env.library.parseIpAddr r.value).isSome then .ok ()
    else .error (.badRequest ("invalid IP address identifier: '" ++ r.value ++ "'"))
  | .email =>
    if !env.config.emailChallengeEnabled then .error (.unsupportedIdentifier "email")
    else if star then
      .error (.rejectedIdentifier "email identifiers are not supported in STAR orders")
    else if isWildcard r.value then
      .error (.rejectedIdentifier "wildcard email identifiers are not permitted")
    else if !isValidEmail r.value then
      .error (.badRequest ("invalid email identifier: '" ++ r.value ++ "'"))
    else .ok ()
  | .tnAuthList | .jwtClaimConstraints | .enhancedJwtClaimConstraints =>
    checkTokenIdentifier env r
  | .other name => .error (.unsupportedIdentifier name)

/-- The value ends with a dot and the ancestor, compared without case.  Neither
the identifier type nor `allow_subdomain_auth` is looked at. -/
def checkAncestorDomain (r : RequestedIdentifier) : Except AcmeError Unit :=
  match r.ancestorDomain with
  | none => .ok ()
  | some ancestor =>
    if Text.endsWith (Text.toAsciiLowercase r.value) ("." ++ Text.toAsciiLowercase ancestor) then
      .ok ()
    else .error (.badRequest "ancestorDomain is not an ancestor of the identifier")

def checkIdentifier (env : Env) (star : Bool) (r : RequestedIdentifier) :
    Except AcmeError Unit := do
  checkIdentifierType env star r
  checkAncestorDomain r

def checkReplaces (env : Env) (db : Db) (accountId : String) (payload : NewOrderPayload) :
    Except AcmeError Unit :=
  match payload.replaces with
  | none => .ok ()
  | some certId => do
      let serial ← env.library.certIdSerial certId
      match Certs.getBySerial db serial with
      | none => .error .notFound
      | some pred =>
        if pred.accountId ≠ accountId then
          .error (.unauthorized "replaces certificate belongs to different account")
        else if pred.replacedBy.isSome then .error .certAlreadyReplaced
        else
          match Orders.getById db pred.orderId with
          | none => .ok ()
          | some po =>
            if payload.identifiers.any fun r ↦ po.identifiers.contains r.identifier then .ok ()
            else .error (.badRequest
              "replaces: new order identifiers do not overlap with predecessor certificate")

def selectProfile (env : Env) (caId : String) (profile : Option String) :
    Except AcmeError (Option String) :=
  match profile with
  | some p =>
    if !env.library.profilesEmpty && !env.library.profileResolves p caId then
      .error (.invalidProfile ("profile '" ++ p ++ "' is not available for CA '" ++ caId ++ "'"))
    else .ok (some p)
  | none =>
    if !env.library.profilesEmpty && env.library.profileResolves "default" caId then
      .ok (some "default")
    else .ok none

def checkDelegation (env : Env) (accountId : String) (payload : NewOrderPayload) :
    Except AcmeError (Option String) :=
  match payload.delegation with
  | none => .ok none
  | some d =>
    if !env.config.delegationEnabled then .error .unknownDelegation
    else if d.owner ≠ some accountId then .error .unknownDelegation
    else if payload.notBefore.isSome || payload.notAfter.isSome then
      .error (.badRequest "notBefore and notAfter MUST NOT be present in a delegation order")
    else .ok (some d.id)

def checkStarLimits (env : Env) (ar : AutoRenewal) (now : Int) : Except AcmeError Unit := do
  if ar.lifetime = 0 then throw (.badRequest "auto-renewal lifetime must be > 0")
  if let some min := env.config.starMinLifetimeSecs then
    if ar.lifetime < min then
      throw (.badRequest ("STAR lifetime " ++ toString ar.lifetime ++
        "s is below server minimum " ++ toString min ++ "s"))
  if let some max := env.config.starMaxDurationSecs then
    let total := (ar.endDate - ar.startDate.getD now).toNat
    if max < total then
      throw (.badRequest ("STAR renewal period " ++ toString total ++
        "s exceeds server maximum " ++ toString max ++ "s"))
  if 2 ^ 63 ≤ ar.lifetime then throw (.badRequest "auto-renewal lifetime out of range")

def checkAutoRenewal (env : Env) (payload : NewOrderPayload) (now : Int) :
    Except AcmeError Unit :=
  match payload.autoRenewal with
  | none => .ok ()
  | some ar =>
    if payload.notBefore.isSome || payload.notAfter.isSome then
      .error (.badRequest "notBefore and notAfter MUST NOT be present in a STAR order")
    else checkStarLimits env ar now

/-! ## Covering the identifiers -/

structure Fresh where
  orderId : String
  authzId : ℕ → String
  token : ℕ → String
  challengeId : ℕ → ℕ → String

structure OrderDraft where
  accountId : String
  caId : String
  now : Int
  fresh : Fresh
  payload : NewOrderPayload
  profile : Option String
  delegationId : Option String
  remaining : List RequestedIdentifier
  plans : List AuthzPlan
  /-- The authorization listed for each identifier handled so far. -/
  covered : List (Identifier × String)

def authzIdentifier (r : RequestedIdentifier) : Identifier :=
  ⟨r.type, r.ancestorDomain.getD r.value⟩

def rejectsOnion (id : Identifier) : Bool :=
  id.type == .dns && isOnionDomain id.value && !validateOnionV3 id.value

/-- Only a plain dns identifier looks for an ancestor that is valid already. -/
def mayReuse (env : Env) (r : RequestedIdentifier) : Bool :=
  r.type == .dns && r.ancestorDomain.isNone && !isOnionDomain r.value &&
    env.config.allowSubdomainAuth

def plannedChallenges (env : Env) (d : OrderDraft) (r : RequestedIdentifier) :
    List (String × ChallengeType) :=
  (eligibleChallengeTypes env.config (authzIdentifier r)).zipIdx.map fun t ↦
    (d.fresh.challengeId d.covered.length t.2, t.1)

def planAuthz (env : Env) (d : OrderDraft) (r : RequestedIdentifier) : AuthzPlan where
  authz :=
    { id := d.fresh.authzId d.covered.length
      orderId := some d.fresh.orderId
      accountId := d.accountId
      status := .pending
      identifier := authzIdentifier r
      expires := some (addSecs d.now env.config.authzExpirySecs.toNat)
      wildcard := isWildcard (authzIdentifier r).value
      subdomainAuthAllowed := r.ancestorDomain.isSome
      created := d.now
      updated := d.now
      caId := d.caId }
  challenges := plannedChallenges env d r
  token := d.fresh.token d.covered.length

def findReusable (env : Env) (db : Db) (d : OrderDraft) (r : RequestedIdentifier) :
    Except AcmeError (Option AuthorizationRow) :=
  if mayReuse env r then
    Authz.findValidSubdomainAncestor env.decodeNull db d.accountId r.value d.caId d.now
  else .ok none

def coverIdentifier (env : Env) (db : Db) (d : OrderDraft) (r : RequestedIdentifier) :
    Except AcmeError OrderDraft :=
  if rejectsOnion (authzIdentifier r) then
    .error (.rejectedIdentifier
      ("only v3 .onion addresses are supported (56-char base32 label); got: " ++
        (authzIdentifier r).value))
  else do
    match ← findReusable env db d r with
    | some ancestor => return { d with covered := d.covered ++ [(r.identifier, ancestor.id)] }
    | none =>
      let plan := planAuthz env d r
      return { d with
        plans := d.plans ++ [plan], covered := d.covered ++ [(r.identifier, plan.authz.id)] }

/-- Delegation orders skip authorizations and start ready; so does an order all
of whose identifiers reuse a valid authorization. -/
def initialStatus (d : OrderDraft) : OrderStatus :=
  if d.delegationId.isSome then .ready
  else if d.plans.isEmpty && !d.covered.isEmpty then .ready
  else .pending

def draftOrderRow (env : Env) (d : OrderDraft) : OrderRow where
  id := d.fresh.orderId
  accountId := d.accountId
  status := initialStatus d
  expires := some (addSecs d.now env.config.orderExpirySecs.toNat)
  identifiers := d.payload.identifiers.map RequestedIdentifier.identifier
  notBefore := d.payload.notBefore
  notAfter := d.payload.notAfter
  error := none
  certificateId := none
  replaces := d.payload.replaces
  created := d.now
  updated := d.now
  starStartDate := d.payload.autoRenewal.bind AutoRenewal.startDate
  starEndDate := d.payload.autoRenewal.map AutoRenewal.endDate
  starLifetimeSecs := d.payload.autoRenewal.map fun ar ↦ (ar.lifetime : Int)
  starLifetimeAdjustSecs := (d.payload.autoRenewal.map AutoRenewal.lifetimeAdjust).getD 0
  starCanceledAt := none
  starCsrDer := none
  profile := d.profile
  caId := d.caId
  delegationId := d.delegationId
  upstreamOrderUrl := none
  upstreamCertUrl := none

/-- The part of `new_order` before the loop. -/
def newOrderChecks (env : Env) (db : Db) (accountId caId : String) (payload : NewOrderPayload)
    (fresh : Fresh) (now : Int) : Except AcmeError OrderDraft := do
  if payload.identifiers.isEmpty then
    throw (.badRequest "identifiers must not be empty")
  payload.identifiers.forM (checkIdentifier env payload.autoRenewal.isSome)
  checkReplaces env db accountId payload
  let profile ← selectProfile env caId payload.profile
  let delegationId ← checkDelegation env accountId payload
  checkAutoRenewal env payload now
  return {
    accountId := accountId, caId := caId, now := now, fresh := fresh, payload := payload,
    profile := profile, delegationId := delegationId,
    remaining := if delegationId.isNone then payload.identifiers else [],
    plans := [], covered := [] }

/-! ## What the handler has checked -/

structure NewOrderChecked (env : Env) (p : NewOrderPayload) (now : Int) (d : OrderDraft) :
    Prop where
  ancestors : ∀ r ∈ p.identifiers, checkAncestorDomain r = .ok ()
  autoRenewal : checkAutoRenewal env p now = .ok ()
  payload : d.payload = p
  plans : d.plans = []
  covered : d.covered = []
  remaining : d.remaining = if d.delegationId.isNone then p.identifiers else []

variable {env : Env} {db : Db} {d : OrderDraft} {r : RequestedIdentifier}

theorem newOrderChecks_eq_ok {accountId caId : String} {payload : NewOrderPayload} {fresh : Fresh}
    {now : Int} (h : newOrderChecks env db accountId caId payload fresh now = .ok d) :
    NewOrderChecked env payload now d := by
  unfold newOrderChecks at h
  split at h
  · cases h
  · obtain ⟨⟨⟩, hforM, h⟩ := bind_eq_ok h
    obtain ⟨⟨⟩, -, h⟩ := bind_eq_ok h
    obtain ⟨profile, -, h⟩ := bind_eq_ok h
    obtain ⟨delegationId, -, h⟩ := bind_eq_ok h
    obtain ⟨⟨⟩, hrenewal, h⟩ := bind_eq_ok h
    cases h
    refine ⟨fun r hr ↦ ?_, hrenewal, rfl, rfl, rfl, rfl⟩
    obtain ⟨⟨⟩, -, hancestor⟩ := bind_eq_ok (Except.forM_eq_ok_iff.mp hforM r hr)
    exact hancestor

theorem coverIdentifier_eq_ok {d' : OrderDraft} (h : coverIdentifier env db d r = .ok d') :
    (∃ a, findReusable env db d r = .ok (some a) ∧
        d' = { d with covered := d.covered ++ [(r.identifier, a.id)] }) ∨
      d' = { d with
        plans := d.plans ++ [planAuthz env d r]
        covered := d.covered ++ [(r.identifier, (planAuthz env d r).authz.id)] } := by
  unfold coverIdentifier at h
  split at h
  · cases h
  · obtain ⟨found, hfound, h⟩ := bind_eq_ok h
    cases found with
    | some a =>
      cases h
      exact .inl ⟨a, hfound, rfl⟩
    | none =>
      cases h
      exact .inr rfl

theorem mayReuse_iff : mayReuse env r = true ↔ r.type = .dns ∧ r.ancestorDomain = none ∧
      isOnionDomain r.value = false ∧ env.config.allowSubdomainAuth = true := by
  simp [mayReuse, and_assoc]

theorem findReusable_eq_some {row : AuthorizationRow} (h : findReusable env db d r = .ok (some row))
    : mayReuse env r = true ∧
      ∃ a ∈ db.authorizations.rows, a.id = row.id ∧ a.accountId = d.accountId ∧
        a.subdomainAuthAllowed = true ∧ caScope a.caId d.caId = true ∧ a.status = .valid ∧
        Authz.unexpired d.now a = true ∧
        ∃ remaining ∈ Text.ancestorDomains r.value, a.identifier = ⟨.dns, remaining⟩ := by
  unfold findReusable at h
  split at h
  · exact ⟨‹_›, Authz.findValidSubdomainAncestor_eq_some h⟩
  · cases h

end Akamu
