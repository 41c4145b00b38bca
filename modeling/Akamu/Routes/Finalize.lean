import Akamu.Ca.Csr
import Akamu.Db.Transactions
import Akamu.Validation.Caa

/-!
# Finalization

The phases of `finalize_order` up to the persisting transaction.  Each phase
reads the database on its own, so each takes its own snapshot; the CAA phase
also takes the resolver's answers.
-/

namespace Akamu

open Except (bind_eq_ok)

structure FinalizeRequest where
  accountId : String
  caId : String
  orderId : String
  csr : String
  deriving DecidableEq, Repr

structure FinalizeJob where
  order : OrderRow
  csrDer : List UInt8
  certParams : CertificateParameters
  csr : ValidatedCsr
  profileOtherNames : List (List UInt8)
  deriving DecidableEq, Repr

def FinalizeJob.allowed (job : FinalizeJob) : List Identifier := job.order.identifiers

/-! ## Resolving the order -/

/-- Neither the order's nor any authorization's expiry is looked at. -/
def resolveOrderAndAuthorize (env : Env) (db : Db) (req : FinalizeRequest) :
    Except AcmeError (OrderRow × List UInt8) :=
  match Orders.getById db req.orderId with
  | none => .error .notFound
  | some order =>
    if order.caId ≠ req.caId then .error .notFound
    else if order.accountId ≠ req.accountId then
      .error (.unauthorized "order belongs to different account")
    else if order.status ≠ .ready then .error .orderNotReady
    else
      match env.library.decodeUrlSafe req.csr with
      | .error e => .error (.badCsr ("base64url decode: " ++ e))
      | .ok csrDer => .ok (order, csrDer)

/-- The parameters and whether the `default` profile was applied silently. -/
def resolveCertParams (env : Env) (order : OrderRow) :
    Except AcmeError (CertificateParameters × Bool) :=
  if env.library.profilesEmpty then .ok (env.library.defaultParams order.caId, false)
  else
    match order.profile with
    | some p =>
      match env.library.profileParams p order.caId with
      | some params => .ok (params, false)
      | none => .error (.invalidProfile
          ("profile '" ++ p ++ "' is not available for CA '" ++ order.caId ++ "'"))
    | none =>
      match env.library.profileParams "default" order.caId with
      | some params => .ok (params, true)
      | none => .ok (env.library.defaultParams order.caId, false)

def effectiveProfile (order : OrderRow) (defaultApplied : Bool) : Option String :=
  order.profile.or (if defaultApplied then some "default" else none)

/-! ## Issuance policy -/

def policyDenied : AcmeError :=
  .unauthorized "certificate issuance denied by issuance policy"

/-- The account's groups, and whether its stored grants could not be parsed. -/
def accountGroups (lib : Library) (db : Db) (accountId : String) : List String × Bool :=
  match Accounts.getById db accountId with
  | none => ([], false)
  | some a =>
    let principal := a.kerberosPrincipal.toList
    match a.profileGrants with
    | none => (principal, false)
    | some grants =>
      match lib.parseStringArray grants with
      | some groups => (groups ++ principal, false)
      | none => (principal, true)

/-- `evaluate_explained_identifiers`: one decision per identifier, or one for
the request as such when there is none. -/
def policyDecisions (lib : Library) (base : PolicyRequest) (identifiers : List Identifier) :
    Except String (List Bool) :=
  if identifiers.isEmpty then (lib.policyAllows base).map fun b ↦ [b]
  else identifiers.mapM fun id ↦ lib.policyAllows { base with identifier := some id }

def policyBase (lib : Library) (db : Db) (accountId caId : String)
    (profile keyType : Option String) : PolicyRequest where
  accountId := accountId
  accountGroups := (accountGroups lib db accountId).1
  caId := caId
  profile := profile
  keyType := keyType
  identifier := none

def evaluateIssuancePolicy (env : Env) (db : Db) (accountId caId : String)
    (profile keyType : Option String) (allowed : List Identifier) : Except AcmeError Unit :=
  if env.config.policyMode = .shadow then .ok ()
  else if (accountGroups env.library db accountId).2 then .error policyDenied
  else
    match policyDecisions env.library
        (policyBase env.library db accountId caId profile keyType) allowed with
    | .error _ => .error policyDenied
    | .ok decisions => if decisions.all id then .ok () else .error policyDenied

/-- The profile's authorization check, which may add names of its own. -/
def profileAuthNames (lib : Library) (accountId : String) (allowed : List Identifier) :
    Option String → Except AcmeError (List (List UInt8))
  | some profile => lib.profileAuth accountId profile allowed
  | none => .ok []

def checkDelegationTemplate (lib : Library) (order : OrderRow) (csrDer : List UInt8) :
    Except AcmeError Unit :=
  match order.delegationId with
  | some delegationId => lib.checkCsrTemplate delegationId csrDer
  | none => .ok ()

def runProfileAndCsrChecks (env : Env) (db : Db) (accountId : String) (order : OrderRow)
    (defaultApplied : Bool) (csrDer : List UInt8) :
    Except AcmeError (ValidatedCsr × List (List UInt8)) := do
  let profile := effectiveProfile order defaultApplied
  let extraOtherNames ← profileAuthNames env.library accountId order.identifiers profile
  let csr ← validateCsr env.library csrDer order.identifiers
  evaluateIssuancePolicy env db accountId order.caId profile csr.keyType order.identifiers
  checkDelegationTemplate env.library order csrDer
  return (csr, extraOtherNames)

/-- Everything before the order is handed to an upstream CA or to CAA checking. -/
def finalizeChecks (env : Env) (db : Db) (req : FinalizeRequest) : Except AcmeError FinalizeJob := do
  let (order, csrDer) ← resolveOrderAndAuthorize env db req
  if (env.config.getCa order.caId).isNone then
    throw (.internal ("order references unknown CA '" ++ order.caId ++ "'"))
  let (certParams, defaultApplied) ← resolveCertParams env order
  let (csr, names) ← runProfileAndCsrChecks env db req.accountId order defaultApplied csrDer
  return {
    order := order, csrDer := csrDer, certParams := certParams, csr := csr,
    profileOtherNames := names }

/-- Orders of a configured upstream delegation are not issued locally. -/
def handsOff (env : Env) (order : OrderRow) : Bool :=
  env.config.delegationUpstream && order.delegationId.isSome

/-! ## CAA -/

def effectiveCaa (env : Env) (caId : String) : List String :=
  match env.config.getCa caId with
  | some ca => if ca.caaIdentities.isEmpty then env.config.caaIdentities else ca.caaIdentities
  | none => env.config.caaIdentities

abbrev IdentifierMap := KeyedTable (Identifier × String) Prod.fst

/-- `entry(..).or_insert(..)`. -/
def orInsert (m : IdentifierMap) (id : Identifier) (authzId : String) : IdentifierMap :=
  m.upsert (id, authzId) (fun r ↦ r) fun _ ↦ rfl

def bareName (value : String) : String := (Text.stripPrefix value "*.").getD value

/-- An order identifier below an ancestor authorization: the comparison is on
the text, with its case and after dropping a wildcard label. -/
def isBelow (ancestor : String) (id : Identifier) : Bool :=
  id.type == .dns && id.value != ancestor && Text.endsWith (bareName id.value) ("." ++ ancestor)

def recordAuthz (allowed : List Identifier) (m : IdentifierMap) (a : AuthorizationRow) :
    IdentifierMap :=
  let m := m.put (a.identifier, a.id)
  if a.subdomainAuthAllowed && a.identifier.type == .dns then
    allowed.foldl (fun m id ↦ if isBelow a.identifier.value id then orInsert m id a.id else m) m
  else m

def identifierToAuthz (allowed : List Identifier) (rows : List AuthorizationRow) : IdentifierMap :=
  rows.foldl (recordAuthz allowed) .empty

/-- The method passed to the CAA check: empty when the identifier is not tied to
an authorization of the order. -/
def caaChallengeType (m : IdentifierMap) (validated : String → Option ChallengeType)
    (id : Identifier) : Except AcmeError String :=
  match m.find? id with
  | none => .ok ""
  | some (_, authzId) =>
    match validated authzId with
    | some t => .ok t.asStr
    | none => .error (.internal ("no validated challenge type found for authz " ++ authzId))

def caaQuery (env : Env) (job : FinalizeJob) (id : Identifier) (challengeType : String) :
    Caa.Params where
  domain := bareName id.value
  caIdentities := effectiveCaa env job.order.caId
  isWildcard := isWildcard id.value
  challengeType := challengeType
  accountUrl := some (env.config.baseUrl ++ "/acme/account/" ++ job.order.accountId)

def caaParams (env : Env) (job : FinalizeJob) (m : IdentifierMap)
    (validated : String → Option ChallengeType) (id : Identifier) : Except AcmeError Caa.Params :=
  (caaChallengeType m validated id).map (caaQuery env job id)

def dnsIdentifiers (allowed : List Identifier) : List Identifier :=
  allowed.filter fun id ↦ id.type == .dns

def validatedTypes (db : Db) (m : IdentifierMap) : String → Option ChallengeType :=
  Challenges.getValidatedTypesForAuthzs db (m.rows.map Prod.snd)

def caaInputs (env : Env) (db : Db) (job : FinalizeJob) : Except AcmeError (List Caa.Params) :=
  let m := identifierToAuthz job.allowed (Authz.listByOrder db job.order.id)
  (dnsIdentifiers job.allowed).mapM (caaParams env job m (validatedTypes db m))

def checkCaaForOrder (env : Env) (db : Db) (lookup : Caa.Lookup) (job : FinalizeJob) :
    Except AcmeError Unit :=
  if (effectiveCaa env job.order.caId).isEmpty then .ok ()
  else do
    let inputs ← caaInputs env db job
    inputs.forM (Caa.checkCaa env.library lookup)

/-! ## Names beyond the CSR -/

inductive EncodedSan where
  | otherName (der : List UInt8)
  | dnsName (name : String)
  deriving DecidableEq, Repr

def liftBuilder {α : Type} (r : Except String α) : Except AcmeError α :=
  match r with
  | .ok a => .ok a
  | .error e => .error (.builder e)

def ClaimEncoder.encode (lib : Library) (value : String) : ClaimEncoder → Except String EncodedSan
  | .krb5Kpn defaultRealm =>
    if Text.contains value '@' then (lib.encodePrincipal value).map .otherName
    else
      match defaultRealm with
      | some realm => (lib.encodePrincipal (value ++ "@" ++ realm)).map .otherName
      | none => .error ("krb5-kpn: '" ++ value ++
          "' contains no '@' and no default_realm is configured")
  | .msUpn => (lib.encodeMsUpn value).map .otherName
  | .dnsSan =>
    if value = "" then .error "dns-san: empty DNS name"
    else if isWildcard value then
      .error ("dns-san: wildcard '" ++ value ++ "' is not permitted in claim constraints")
    else .ok (.dnsName (lib.toLowercase value))

def isClaimConstraints (t : IdType) : Bool :=
  t == .jwtClaimConstraints || t == .enhancedJwtClaimConstraints

/-- The constraints blob behind an authorization: the identifier value itself,
or the value stored when its authority token was accepted. -/
def tokenBlob (db : Db) (a : AuthorizationRow) : Option String :=
  if isClaimConstraints a.identifier.type then some a.identifier.value
  else Tkauth.getTkvalueForAuthz db a.id

/-- The claims of a blob; text that does not parse contributes none. -/
def blobEntries (lib : Library) (blob : String) : List (String × List String) :=
  ((lib.decodeUrlSafe blob).toOption.bind lib.constraintEntries).getD []

/-- A claim with a registered encoder is encoded when it has exactly one value. -/
def encodeEntry (lib : Library) (registry : List (String × ClaimEncoder))
    (entry : String × List String) : Except AcmeError (Option EncodedSan) :=
  match registry.find? fun e ↦ e.1 == entry.1 with
  | none => .ok none
  | some e =>
    match entry.2 with
    | [value] => (liftBuilder (e.2.encode lib value)).map some
    | _ => .ok none

def attestedSans (lib : Library) (registry : List (String × ClaimEncoder)) (db : Db)
    (a : AuthorizationRow) : Except AcmeError (List EncodedSan) :=
  match tokenBlob db a with
  | none => .ok []
  | some blob => do
      let sans ← (blobEntries lib blob).mapM (encodeEntry lib registry)
      return sans.filterMap id

/-- A dns name that is in the order already is not added again, except under an
`EnhancedJWTClaimConstraints` authorization. -/
def injectedDnsNames (allowed : List Identifier) (a : AuthorizationRow) (sans : List EncodedSan) :
    List String :=
  sans.filterMap fun s ↦
    match s with
    | .otherName _ => none
    | .dnsName name =>
      if a.identifier.type != .enhancedJwtClaimConstraints && allowed.contains ⟨.dns, name⟩ then
        none
      else some name

def injectedOtherNames (sans : List EncodedSan) : List (List UInt8) :=
  sans.filterMap fun s ↦
    match s with
    | .otherName der => some der
    | .dnsName _ => none

def validAuthz (db : Db) (orderId : String) : List AuthorizationRow :=
  (Authz.listByOrder db orderId).filter fun a ↦ a.status == .valid

def contributions (env : Env) (db : Db) (orderId : String) :
    Except AcmeError (List (AuthorizationRow × List EncodedSan)) :=
  match env.config.claimEncoderRegistry with
  | none => .ok []
  | some registry => (validAuthz db orderId).mapM fun a ↦
    (attestedSans env.library registry db a).map fun sans ↦ (a, sans)

def tkauthAuthzIds (env : Env) (db : Db) (orderId : String) : List String :=
  ((validAuthz db orderId).filter fun a ↦
    (env.config.claimEncoderRegistry.isSome && (tokenBlob db a).isSome) ||
      isClaimConstraints a.identifier.type).map AuthorizationRow.id

def csrDnsNames (csr : ValidatedCsr) : List String :=
  (csr.sans.filter fun s ↦ s.type == .dns).map Identifier.value

def templateNames (env : Env) (job : FinalizeJob) : Except AcmeError (List (List UInt8)) := do
  let dnsSans := csrDnsNames job.csr
  let kpn ← job.certParams.kpnSanTemplates.mapM fun tmpl ↦
    liftBuilder (env.library.expandKpnTemplate tmpl dnsSans)
  let upn ← match job.certParams.msUpnSanTemplate with
    | some tmpl => liftBuilder (env.library.expandMsUpnTemplate tmpl dnsSans)
    | none => pure none
  return kpn.flatten ++ upn.toList

def principalNames (env : Env) (db : Db) (job : FinalizeJob) :
    Except AcmeError (List (List UInt8)) :=
  if job.certParams.injectAccountKpn then
    match (Accounts.getById db job.order.accountId).bind AccountRow.kerberosPrincipal with
    | some principal => (liftBuilder (env.library.encodePrincipal principal)).map fun der ↦ [der]
    | none => .ok []
  else .ok []

structure SanInjection where
  extraOtherNames : List (List UInt8)
  extraDnsNames : List String
  notAfter : Option Int
  deriving DecidableEq, Repr

def checkCaFlag (csrCa tkauthCa : Bool) : Except AcmeError Unit :=
  if csrCa = tkauthCa then .ok ()
  else if csrCa then
    .error (.badCsr "CSR asserts cA=TRUE but no authority token permitted CA cert issuance")
  else .error (.badCsr "authority token asserts atc.ca=true but CSR does not assert cA=TRUE")

def capNotAfter (notAfter minExp : Option Int) : Option Int :=
  match minExp with
  | none => notAfter
  | some exp => some ((notAfter.map fun t ↦ min t exp).getD exp)

def injectTemplateAndTkauthSans (env : Env) (db : Db) (job : FinalizeJob) :
    Except AcmeError SanInjection := do
  let template ← templateNames env job
  let principal ← principalNames env db job
  let tokens ← contributions env db job.order.id
  let ids := tkauthAuthzIds env db job.order.id
  checkCaFlag job.csr.caCert (Tkauth.getAnyCaFlagForAuthzs db ids)
  return {
    extraOtherNames := job.profileOtherNames ++ template ++ principal ++
      tokens.flatMap fun c ↦ injectedOtherNames c.2
    extraDnsNames := tokens.flatMap fun c ↦ injectedDnsNames job.allowed c.1 c.2
    notAfter := capNotAfter job.order.notAfter (Tkauth.getMinExpForAuthzs db ids) }

/-! ## Issuance -/

def signsRemotely (env : Env) (order : OrderRow) : Bool :=
  (env.config.getCa order.caId).any CaState.dogtag

/-- Nothing of a STAR order but its columns `not_before` and `not_after`, which
are empty, enters the window. -/
def issueLeafCertificate (env : Env) (now : Int) (job : FinalizeJob) (inj : SanInjection) :
    Except AcmeError IssuedCert :=
  match env.config.getCa job.order.caId with
  | none => .error (.internal ("order references unknown CA '" ++ job.order.caId ++ "'"))
  | some ca =>
    if ca.dogtag then env.library.issueViaDogtag job.csrDer
    else
      issueWithParams env.library ca now job.csr job.certParams job.order.notBefore inj.notAfter
        inj.extraOtherNames inj.extraDnsNames

/-- The database snapshots that the phases of one call read, and the clock that
the issuance reads. -/
structure FinalizeReads where
  checks : Db
  caa : Db
  sans : Db
  issuedAt : Int := 0

/-- One finalize call up to the persisting transaction; `none` when the order is
handed to an upstream CA. -/
def finalizeOrder (env : Env) (reads : FinalizeReads) (lookup : Caa.Lookup)
    (req : FinalizeRequest) : Except AcmeError (FinalizeJob × Option IssuedCert) := do
  let job ← finalizeChecks env reads.checks req
  if handsOff env job.order then return (job, none)
  checkCaaForOrder env reads.caa lookup job
  let inj ← injectTemplateAndTkauthSans env reads.sans job
  let cert ← issueLeafCertificate env reads.issuedAt job inj
  return (job, some cert)

/-! ## What a successful call has gone through -/

variable {env : Env} {db : Db} {req : FinalizeRequest} {job : FinalizeJob} {csrDer : List UInt8}
  {cert : IssuedCert}

theorem resolveOrderAndAuthorize_eq_ok {order : OrderRow}
    (h : resolveOrderAndAuthorize env db req = .ok (order, csrDer)) :
    Orders.getById db req.orderId = some order ∧ order.caId = req.caId ∧
      order.accountId = req.accountId ∧ order.status = .ready := by
  unfold resolveOrderAndAuthorize at h
  split at h
  · cases h
  · rename_i row hrow
    split_ifs at h with hca hacct hstatus
    split at h
    · cases h
    · cases h
      exact ⟨hrow, not_not.mp hca, not_not.mp hacct, not_not.mp hstatus⟩

theorem runProfileAndCsrChecks_eq_ok {accountId : String} {order : OrderRow} {defaultApplied : Bool}
    {csr : ValidatedCsr} {names : List (List UInt8)}
    (h : runProfileAndCsrChecks env db accountId order defaultApplied csrDer = .ok (csr, names)) :
    validateCsr env.library csrDer order.identifiers = .ok csr ∧
      evaluateIssuancePolicy env db accountId order.caId (effectiveProfile order defaultApplied)
        csr.keyType order.identifiers = .ok () := by
  obtain ⟨extra, -, h⟩ := bind_eq_ok h
  obtain ⟨csr', hcsr, h⟩ := bind_eq_ok h
  obtain ⟨_, hpolicy, h⟩ := bind_eq_ok h
  obtain ⟨_, -, h⟩ := bind_eq_ok h
  cases h
  exact ⟨hcsr, hpolicy⟩

structure ChecksPassed (env : Env) (db : Db) (req : FinalizeRequest) (job : FinalizeJob) : Prop where
  order : Orders.getById db req.orderId = some job.order
  caId : job.order.caId = req.caId
  accountId : job.order.accountId = req.accountId
  ready : job.order.status = .ready
  csr : validateCsr env.library job.csrDer job.order.identifiers = .ok job.csr
  policy : ∃ profile, evaluateIssuancePolicy env db req.accountId job.order.caId profile
    job.csr.keyType job.order.identifiers = .ok ()

theorem checksPassed_of_finalizeChecks (h : finalizeChecks env db req = .ok job) :
    ChecksPassed env db req job := by
  obtain ⟨⟨order, csrDer⟩, horder, h⟩ := bind_eq_ok h
  dsimp only at h
  split at h
  · cases h
  · obtain ⟨⟨certParams, defaultApplied⟩, -, h⟩ := bind_eq_ok h
    obtain ⟨⟨csr, names⟩, hcsr, h⟩ := bind_eq_ok h
    cases h
    obtain ⟨hrow, hca, hacct, hready⟩ := resolveOrderAndAuthorize_eq_ok horder
    obtain ⟨hvalid, hpolicy⟩ := runProfileAndCsrChecks_eq_ok hcsr
    exact ⟨hrow, hca, hacct, hready, hvalid, _, hpolicy⟩

theorem issueLeafCertificate_eq_ok {now : Int} {inj : SanInjection}
    (h : issueLeafCertificate env now job inj = .ok cert) :
    (signsRemotely env job.order = true ∧ env.library.issueViaDogtag job.csrDer = .ok cert) ∨
      signsRemotely env job.order = false ∧ ∃ ca, env.config.getCa job.order.caId = some ca ∧
        issueWithParams env.library ca now job.csr job.certParams job.order.notBefore
          inj.notAfter inj.extraOtherNames inj.extraDnsNames = .ok cert := by
  unfold issueLeafCertificate at h
  split at h
  · cases h
  · rename_i ca hca
    split at h
    · rename_i hremote
      exact .inl ⟨by simp [signsRemotely, hca, hremote], h⟩
    · rename_i hlocal
      exact .inr ⟨by simp [signsRemotely, hca, hlocal], ca, hca, h⟩

theorem finalizeOrder_issued {reads : FinalizeReads} {lookup : Caa.Lookup}
    (h : finalizeOrder env reads lookup req = .ok (job, some cert)) :
    finalizeChecks env reads.checks req = .ok job ∧ handsOff env job.order = false ∧
      checkCaaForOrder env reads.caa lookup job = .ok () ∧
      ∃ inj, injectTemplateAndTkauthSans env reads.sans job = .ok inj ∧
        issueLeafCertificate env reads.issuedAt job inj = .ok cert := by
  obtain ⟨job', hchecks, h⟩ := bind_eq_ok h
  split at h
  · cases h
  · rename_i hlocal
    obtain ⟨_, hcaa, h⟩ := bind_eq_ok h
    obtain ⟨inj, hinj, h⟩ := bind_eq_ok h
    obtain ⟨cert', hcert, h⟩ := bind_eq_ok h
    cases h
    exact ⟨hchecks, Bool.eq_false_iff.mpr hlocal, hcaa, inj, hinj, hcert⟩

end Akamu
