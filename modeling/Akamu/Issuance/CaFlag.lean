import Akamu.Issuance.TokenLifetime

/-!
# CA certificates and the consent of tokens

A token says whether a CA certificate may be issued on its strength.  An order
may rest on several tokens; finalization asks whether any of the rows that are
remembered for them has the flag, and compares the answer with the CSR.
-/

namespace Akamu

open List TkAuth
open Except (bind_eq_ok)

def tokenCa (lib : TkLibrary) (token : String) : Bool :=
  ((atcOf lib token).bind fun atc ↦ (atc.get "ca").bind Json.asBool).getD false

def OfOrder (s : TokenLog) (order : OrderRow) (u : String × String) : Prop :=
  ∃ a ∈ validAuthz s.db order.id, u.1 = a.id

/-- Every token of the order consents to what the CSR asserts, and to a CA
certificate some token does. -/
def ConsentsTo (lib : TkLibrary) (s : TokenLog) (order : OrderRow) (ca : Bool) : Prop :=
  (ca = true → ∃ u ∈ s.used, OfOrder s order u) ∧
    ∀ u ∈ s.used, OfOrder s order u → tokenCa lib u.2 = ca

/-- The row of a token that consents to a CA certificate is there, and is among
those that are asked for. -/
def FlagVisible (lib : TkLibrary) (env : Env) (s : TokenLog) (order : OrderRow)
    (u : String × String) : Prop :=
  (∀ a ∈ validAuthz s.db order.id, u.1 = a.id → SeenAsToken env s.db a) ∧
    ∃ r ∈ s.db.tkauthJtiCache.rows, r.authzId = u.1 ∧ tokenJti lib u.2 = some r.jti ∧
      r.caFlag = true

/-- Where the CSR asserts a CA, the order's tokens agree, and one of them
consents if the order is handed to an upstream CA.  Where it does not, the order
of a token that consents to a CA is not handed off and the token's row is
visible. -/
structure FlagsConsulted (lib : TkLibrary) (env : Env) (s : TokenLog) (order : OrderRow)
    (csrCa : Bool) : Prop where
  agree : csrCa = true → ∀ u ∈ s.used, ∀ v ∈ s.used, OfOrder s order u → OfOrder s order v →
    tokenCa lib u.2 = tokenCa lib v.2
  consented : csrCa = true → handsOff env order = true →
    ∃ u ∈ s.used, OfOrder s order u ∧ tokenCa lib u.2 = true
  visible : csrCa = false → ∀ u ∈ s.used, OfOrder s order u → tokenCa lib u.2 = true →
    handsOff env order = false ∧ FlagVisible lib env s order u

section Consent

variable {lib : TkLibrary} {cfg : TkConfig} {env : Env} {s : TokenLog} {order : OrderRow}

theorem checkToken_caFlag {req : TkRequest} {thumbprint : String} {claims : Json} {now : Int}
    {t : AcceptedToken} (hclaims : lib.decodeClaims req.authorityToken = .ok claims)
    (h : checkToken lib cfg req thumbprint claims now = .ok t) :
    tokenCa lib req.authorityToken = t.caFlag := by
  obtain ⟨jti, -, h⟩ := bind_eq_ok h
  obtain ⟨atc, hatc, h⟩ := bind_eq_ok h
  obtain ⟨exp, -, h⟩ := bind_eq_ok h
  obtain ⟨tktype, -, h⟩ := bind_eq_ok h
  obtain ⟨tkvalue, -, h⟩ := bind_eq_ok h
  obtain ⟨stored, -, h⟩ := bind_eq_ok h
  obtain ⟨_, -, h⟩ := bind_eq_ok h
  obtain ⟨_, -, h⟩ := bind_eq_ok h
  obtain ⟨_, -, h⟩ := bind_eq_ok h
  cases h
  simp [tokenCa, atcOf, hclaims, Except.toOption, require_eq_ok hatc]

theorem flags_run (db : Db) (es : List TokenEvent) :
    ∀ r ∈ (tokenRun lib cfg db es).db.tkauthJtiCache.rows,
      ∃ token, (r.authzId, token) ∈ (tokenRun lib cfg db es).used ∧
        tokenCa lib token = r.caFlag :=
  rows_run (fun _ hclaims hcheck ↦ checkToken_caFlag hclaims hcheck) db es

theorem exists_token_of_flag
    (hrows : ∀ r ∈ s.db.tkauthJtiCache.rows, ∃ token, (r.authzId, token) ∈ s.used ∧
      tokenCa lib token = r.caFlag)
    (h : Tkauth.getAnyCaFlagForAuthzs s.db (tkauthAuthzIds env s.db order.id) = true) :
    ∃ u ∈ s.used, OfOrder s order u ∧ tokenCa lib u.2 = true := by
  obtain ⟨r, hr, hflag⟩ := any_eq_true.mp h
  obtain ⟨hca, hcontains⟩ := Bool.and_eq_true_iff.mp hflag
  obtain ⟨a, ha, hid⟩ := exists_of_mem_tkauthAuthzIds (contains_iff_mem.mp hcontains)
  obtain ⟨token, hused, htoken⟩ := hrows r hr
  exact ⟨_, hused, ⟨a, ha, hid.symm⟩, htoken.trans hca⟩

theorem flag_of_visible {u : String × String} (hu : OfOrder s order u)
    (h : FlagVisible lib env s order u) :
    Tkauth.getAnyCaFlagForAuthzs s.db (tkauthAuthzIds env s.db order.id) = true := by
  obtain ⟨hseen, r, hr, hauthz, -, hflag⟩ := h
  obtain ⟨a, ha, hid⟩ := hu
  have hmem : r.authzId ∈ tkauthAuthzIds env s.db order.id := by
    rw [hauthz, hid]
    exact mem_tkauthAuthzIds ha (hseen a ha hid)
  refine any_eq_true.mpr ⟨r, hr, ?_⟩
  rw [hflag, contains_iff_mem.mpr hmem]
  rfl

variable {result : Option IssuedCert} {job : FinalizeJob} {reads : FinalizeReads}
  {req : FinalizeRequest} {lookup : Caa.Lookup}

theorem caCert_of_inject {db : Db} {inj : SanInjection}
    (h : injectTemplateAndTkauthSans env db job = .ok inj) :
    job.csr.caCert = Tkauth.getAnyCaFlagForAuthzs db (tkauthAuthzIds env db job.order.id) := by
  obtain ⟨template, -, h⟩ := bind_eq_ok h
  obtain ⟨principal, -, h⟩ := bind_eq_ok h
  obtain ⟨tokens, -, h⟩ := bind_eq_ok h
  obtain ⟨_, hflag, -⟩ := bind_eq_ok h
  unfold checkCaFlag at hflag
  split_ifs at hflag with heq
  exact heq

theorem exists_cert_of_finalizeOrder (h : finalizeOrder env reads lookup req = .ok (job, result))
    (hhere : handsOff env job.order = false) : ∃ cert, result = some cert := by
  obtain ⟨job', -, h⟩ := bind_eq_ok h
  split at h
  · rename_i haway
    cases h
    rw [haway] at hhere
    cases hhere
  · obtain ⟨_, -, h⟩ := bind_eq_ok h
    obtain ⟨inj, -, h⟩ := bind_eq_ok h
    obtain ⟨cert, -, h⟩ := bind_eq_ok h
    cases h
    exact ⟨cert, rfl⟩

theorem finalizeChecks_of_finalizeOrder
    (h : finalizeOrder env reads lookup req = .ok (job, result)) :
    finalizeChecks env reads.checks req = .ok job := by
  obtain ⟨job', hchecks, h⟩ := bind_eq_ok h
  split at h
  · cases h
    exact hchecks
  · obtain ⟨_, -, h⟩ := bind_eq_ok h
    obtain ⟨inj, -, h⟩ := bind_eq_ok h
    obtain ⟨cert, -, h⟩ := bind_eq_ok h
    cases h
    exact hchecks

end Consent

theorem FlagsConsulted.of_consentsTo {lib : TkLibrary} {env : Env} {s : TokenLog}
    {order : OrderRow} {csrCa : Bool} (h : ConsentsTo lib s order csrCa) :
    FlagsConsulted lib env s order csrCa where
  agree _ u hu v hv hofu hofv := (h.2 u hu hofu).trans (h.2 v hv hofv).symm
  consented hca _ := by
    obtain ⟨u, hu, hof⟩ := h.1 hca
    exact ⟨u, hu, hof, (h.2 u hu hof).trans hca⟩
  visible hca u hu hof hconsent := by
    have hflag := (h.2 u hu hof).symm.trans hconsent
    rw [hca] at hflag
    cases hflag

/-- What finalization compares with the CSR, unless it hands the order off. -/
theorem caCert_of_finalizeOrder {env : Env} {reads : FinalizeReads} {lookup : Caa.Lookup}
    {req : FinalizeRequest} {job : FinalizeJob} {result : Option IssuedCert}
    (h : finalizeOrder env reads lookup req = .ok (job, result))
    (hhere : handsOff env job.order = false) :
    job.csr.caCert =
      Tkauth.getAnyCaFlagForAuthzs reads.sans (tkauthAuthzIds env reads.sans job.order.id) := by
  obtain ⟨cert, rfl⟩ := exists_cert_of_finalizeOrder h hhere
  obtain ⟨-, -, -, inj, hinj, -⟩ := finalizeOrder_issued h
  exact caCert_of_inject hinj

/-- After any history of validations and purges, an order that is finalized is
finalized as all its tokens consent, just when its flags are consulted. -/
theorem finalized_as_tokens_consent (lib : TkLibrary) (cfg : TkConfig) (db : Db)
    (es : List TokenEvent) {env : Env} {reads : FinalizeReads} {lookup : Caa.Lookup}
    {req : FinalizeRequest} {order : OrderRow} {job : FinalizeJob} {result : Option IssuedCert}
    (hreads : reads.sans = (tokenRun lib cfg db es).db)
    (horder : Orders.getById reads.checks req.orderId = some order)
    (h : finalizeOrder env reads lookup req = .ok (job, result)) :
    ConsentsTo lib (tokenRun lib cfg db es) order job.csr.caCert ↔
      FlagsConsulted lib env (tokenRun lib cfg db es) order job.csr.caCert := by
  refine ⟨.of_consentsTo, fun hflags ↦ ?_⟩
  have hsame : order = job.order := Option.some.inj (horder.symm.trans
    (checksPassed_of_finalizeChecks (finalizeChecks_of_finalizeOrder h)).order)
  subst hsame
  cases hca : job.csr.caCert with
  | true =>
    have hconsent : ∃ u ∈ (tokenRun lib cfg db es).used,
        OfOrder (tokenRun lib cfg db es) job.order u ∧ tokenCa lib u.2 = true := by
      cases hhere : handsOff env job.order with
      | true => exact hflags.consented hca hhere
      | false =>
        have hflag := caCert_of_finalizeOrder h hhere
        rw [hreads, hca] at hflag
        exact exists_token_of_flag (flags_run db es) hflag.symm
    obtain ⟨u, hu, hof, hconsent⟩ := hconsent
    refine ⟨fun _ ↦ ⟨u, hu, hof⟩, ?_⟩
    intro v hv hofv
    rw [← hconsent]
    exact hflags.agree hca v hv u hu hofv hof
  | false =>
    refine ⟨fun hfalse ↦ (nomatch hfalse), ?_⟩
    intro u hu hof
    by_contra hconsent
    obtain ⟨hhere, hvisible⟩ :=
      hflags.visible hca u hu hof (Bool.eq_true_of_not_eq_false hconsent)
    have hflag := caCert_of_finalizeOrder h hhere
    rw [hreads, hca, flag_of_visible hof hvisible] at hflag
    cases hflag

instance (s : TokenLog) (order : OrderRow) (u : String × String) : Decidable (OfOrder s order u) :=
  inferInstanceAs (Decidable (∃ a ∈ validAuthz s.db order.id, u.1 = a.id))

instance (lib : TkLibrary) (s : TokenLog) (order : OrderRow) (ca : Bool) :
    Decidable (ConsentsTo lib s order ca) :=
  inferInstanceAs (Decidable ((ca = true → ∃ u ∈ s.used, OfOrder s order u) ∧
    ∀ u ∈ s.used, OfOrder s order u → tokenCa lib u.2 = ca))

def Disregards (lib : TkLibrary) (env : Env) (s : TokenLog) (now : Int) (req : FinalizeRequest) :
    Prop :=
  ∃ r ∈ (finalizeOrder env ⟨s.db, s.db, s.db, now⟩ (fun _ ↦ .ok []) req).toOption,
    ¬ ConsentsTo lib s r.1.order r.1.csr.caCert

instance (lib : TkLibrary) (env : Env) (s : TokenLog) (now : Int) (req : FinalizeRequest) :
    Decidable (Disregards lib env s now req) :=
  inferInstanceAs (Decidable (∃ r ∈ (finalizeOrder env ⟨s.db, s.db, s.db, now⟩ (fun _ ↦ .ok [])
    req).toOption, ¬ ConsentsTo lib s r.1.order r.1.csr.caCert))

namespace SplitConsent

def claims (jti tktype : String) (ca : Bool) : Json :=
  .obj [("jti", .str jti), ("exp", .int 100), ("atc", .obj [("tktype", .str tktype),
    ("tkvalue", .str "MAA"), ("ca", .bool ca), ("fingerprint", .str "SHA256 AB")])]

def lib : TkLibrary where
  decodeClaims
    | "consents" => .ok (claims "1" "JWTClaimConstraints" true)
    | "refuses" => .ok (claims "2" "JWTClaimConstraints" false)
    | "numbers" => .ok (claims "3" "TNAuthList" true)
    | _ => .error "bad request: authority token: expected 3 '.' separated parts, got 1"
  verifyWithSpki _ _ := .ok ()
  decodeUrlSafe := DnsTokens.der
  parseJson _ := none
  constraintsFromDer := DnsTokens.constraints

/-- The CSR asserts a CA or not; delegated orders may go upstream. -/
def env (csrCa upstream : Bool) : Env where
  config :=
    { (ExpiringTokens.env false).config with delegationUpstream := upstream }
  library :=
    { Library.plain with
      parseCsr := fun _ ↦ .ok
        { subject := ⟨[], []⟩, sans := [], caCert := csrCa, keyType := none }
      checkCsrTemplate := fun _ _ ↦ .ok () }

def order (type : IdType) (delegationId : Option String) : OrderRow :=
  { ExpiringTokens.order type none with delegationId := delegationId }

def authz (id : String) (type : IdType) : AuthorizationRow where
  id := id
  orderId := some "order-1"
  accountId := "acct-1"
  status := .valid
  identifier := ⟨type, "MAA"⟩
  expires := some 100
  wildcard := false
  subdomainAuthAllowed := false
  created := 0
  updated := 0
  caId := "ca"

def db (type : IdType) (delegationId : Option String) : Db :=
  { Db.empty with
    orders := { rows := [order type delegationId], nodup := by simp }
    authorizations :=
      { rows := [authz "authz-1" type, authz "authz-2" type], nodup := by simp [authz] } }

def presented (type : IdType) (authzId token : String) : TokenEvent :=
  .validate ⟨type.asStr, "MAA", "tok.qw", token, authzId⟩ ⟨.ok [], 10, 10, 10⟩

def after (type : IdType) (delegationId : Option String) (es : List TokenEvent) : TokenLog :=
  tokenRun lib ExpiringTokens.cfg (db type delegationId) es

/-- One of two tokens consents to a CA certificate and it is issued.  A
certificate without CA is issued against a token for a TNAuthList, and against
one whose row has been purged.  A CSR for a CA goes upstream without any
token. -/
theorem flags_disregarded :
    Disregards lib (env true false) (after .jwtClaimConstraints none
        [presented .jwtClaimConstraints "authz-1" "consents",
          presented .jwtClaimConstraints "authz-2" "refuses"]) 20 ExpiringTokens.request ∧
      Disregards lib (env false false) (after .tnAuthList none
        [presented .tnAuthList "authz-1" "numbers"]) 20 ExpiringTokens.request ∧
      Disregards lib (env false false) (after .jwtClaimConstraints none
        [presented .jwtClaimConstraints "authz-1" "consents", .purge 101]) 101
        ExpiringTokens.request ∧
      Disregards lib (env true true) (after .jwtClaimConstraints (some "d") []) 20
        ExpiringTokens.request := by
  decide +kernel

def consenting : List TokenEvent := [presented .jwtClaimConstraints "authz-1" "consents"]

theorem consenting_consulted : FlagsConsulted lib (env true false)
    (after .jwtClaimConstraints none consenting) (order .jwtClaimConstraints none) true where
  agree := by decide +kernel
  consented := by decide +kernel
  visible h := nomatch h

theorem issued_with_consent :
    ∃ job result, finalizeOrder (env true false)
        ⟨(after .jwtClaimConstraints none consenting).db,
          (after .jwtClaimConstraints none consenting).db,
          (after .jwtClaimConstraints none consenting).db, 20⟩
        (fun _ ↦ .ok []) ExpiringTokens.request = .ok (job, result) ∧ job.csr.caCert = true ∧
      ConsentsTo lib (after .jwtClaimConstraints none consenting)
        (order .jwtClaimConstraints none) job.csr.caCert := by
  obtain ⟨job, result, hcsr, hissued⟩ : ∃ job result, job.csr.caCert = true ∧
      finalizeOrder (env true false)
        ⟨(after .jwtClaimConstraints none consenting).db,
          (after .jwtClaimConstraints none consenting).db,
          (after .jwtClaimConstraints none consenting).db, 20⟩
        (fun _ ↦ .ok []) ExpiringTokens.request = .ok (job, result) := ⟨_, _, rfl, rfl⟩
  exact ⟨job, result, hissued, hcsr, (finalized_as_tokens_consent lib ExpiringTokens.cfg
    (db .jwtClaimConstraints none) consenting rfl rfl hissued).mpr
      (hcsr ▸ consenting_consulted)⟩

end SplitConsent

end Akamu
