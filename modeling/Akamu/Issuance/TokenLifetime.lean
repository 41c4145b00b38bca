import Akamu.Lib.Machine
import Akamu.Routes.Finalize
import Akamu.Validation.Binding

/-!
# Certificates and the lifetime of tokens

A certificate should not outlive the authority tokens behind it.  The cap is
taken from the rows that remember the ids of the tokens, for the
authorizations that are found to rest on tokens, and it passes through the
resolution of the validity window.
-/

namespace Akamu

open Except List TkAuth

/-! ## The tokens that were used -/

structure TokenLog where
  db : Db
  used : List (String × String)

inductive TokenEvent where
  | validate (req : TkRequest) (obs : Observed)
  | purge (now : Int)
  | other (db : Db)

def tokenStep (lib : TkLibrary) (cfg : TkConfig) (s : TokenLog) : TokenEvent → TokenLog × Unit
  | .validate req obs =>
    match validate lib cfg req obs s.db with
    | .ok db => (⟨db, s.used ++ [(req.authzId, req.authorityToken)]⟩, ())
    | .error _ => (s, ())
  | .purge now => ({ s with db := Tkauth.purgeExpired s.db now }, ())
  | .other db => ({ s with db := { db with tkauthJtiCache := s.db.tkauthJtiCache } }, ())

def TokenLog.start (db : Db) : TokenLog := ⟨{ db with tkauthJtiCache := .empty }, []⟩

abbrev tokenRun (lib : TkLibrary) (cfg : TkConfig) (db : Db) (es : List TokenEvent) : TokenLog :=
  Machine.run (tokenStep lib cfg) (.start db) es

def RowsUsed (lib : TkLibrary) (s : TokenLog) : Prop :=
  ∀ r ∈ s.db.tkauthJtiCache.rows, ∃ token, (r.authzId, token) ∈ s.used ∧
    tokenExp lib token = some r.expires

section Rows

variable {lib : TkLibrary} {cfg : TkConfig}

/-- What holds of the row that an accepted token leaves holds of every row that
is remembered, for a token that was used. -/
theorem rows_run {P : TkauthJtiRow → String → Prop}
    (hnew : ∀ {req : TkRequest} {thumbprint : String} {claims : Json} {now : Int}
      {t : AcceptedToken} (created : Int), lib.decodeClaims req.authorityToken = .ok claims →
      checkToken lib cfg req thumbprint claims now = .ok t →
      P (t.row req.authzId created) req.authorityToken)
    (db : Db) (es : List TokenEvent) :
    ∀ r ∈ (tokenRun lib cfg db es).db.tkauthJtiCache.rows,
      ∃ token, (r.authzId, token) ∈ (tokenRun lib cfg db es).used ∧ P r token := by
  refine (Machine.meets_true _ es).invariant (fun s : TokenLog ↦
    ∀ r ∈ s.db.tkauthJtiCache.rows, ∃ token, (r.authzId, token) ∈ s.used ∧ P r token)
    (fun _ hr ↦ nomatch hr) ?_
  intro s e h _
  cases e with
  | purge => exact fun r hr ↦ h r (KeyedTable.mem_retain.mp hr).1
  | other => exact h
  | validate req obs =>
    rw [tokenStep]
    cases hvalidate : validate lib cfg req obs s.db with
    | error => exact h
    | ok =>
      obtain ⟨thumbprint, spki, claims, t, -, -, hverify, hcheck, hrecord⟩ :=
        validate_eq_ok hvalidate
      intro r hr
      rw [(recordJti_eq_ok hrecord).2] at hr
      rcases mem_append.mp hr with hold | hrow
      · obtain ⟨token, hused, hP⟩ := h r hold
        exact ⟨token, mem_append_left _ hused, hP⟩
      · cases mem_singleton.mp hrow
        exact ⟨req.authorityToken, mem_append_right _ (mem_singleton_self _),
          hnew _ (verifyToken_eq_ok hverify).1 hcheck⟩

theorem rowsUsed_run (db : Db) (es : List TokenEvent) : RowsUsed lib (tokenRun lib cfg db es) := by
  refine rows_run ?_ db es
  intro req thumbprint claims now t created hclaims hcheck
  rw [tokenExp_of_claims hclaims]
  exact (checkToken_eq_ok hcheck).2.1

end Rows

/-! ## The end of a certificate -/

theorem resolveClampedValidity_of_lt {now last : Int} {notBefore : Option Int} (days : UInt32)
    (h : certStart now notBefore < last) :
    resolveClampedValidity now notBefore (some last) days = (certStart now notBefore, last) := by
  have hstart : (if notBefore.getD now < now - 300 then now - 300 else notBefore.getD now) =
      certStart now notBefore := by
    unfold certStart
    split <;> omega
  simp only [resolveClampedValidity, Option.getD_some, hstart, if_neg (not_le.mpr h)]

theorem capNotAfter_some (notAfter : Option Int) (cap : Int) :
    ∃ last, capNotAfter notAfter (some cap) = some last ∧ last ≤ cap ∧
      (last = cap ∨ last ∈ notAfter) := by
  cases notAfter with
  | none => exact ⟨cap, rfl, le_refl cap, .inl rfl⟩
  | some t =>
    refine ⟨min t cap, rfl, min_le_right t cap, ?_⟩
    rcases le_total t cap with hle | hle
    · exact .inr (congrArg some (min_eq_left hle).symm)
    · exact .inl (min_eq_right hle)

/-- The certificate ends by the time that the tokens of the order's
authorizations expire. -/
def WithinTokens (lib : TkLibrary) (s : TokenLog) (order : OrderRow) (cert : IssuedCert) : Prop :=
  ∀ a ∈ validAuthz s.db order.id, ∀ u ∈ s.used, u.1 = a.id →
    ∀ exp ∈ tokenExp lib u.2, cert.notAfter ≤ exp

instance (lib : TkLibrary) (s : TokenLog) (order : OrderRow) (cert : IssuedCert) :
    Decidable (WithinTokens lib s order cert) :=
  inferInstanceAs (Decidable (∀ a ∈ validAuthz s.db order.id, ∀ u ∈ s.used, u.1 = a.id →
    ∀ exp ∈ tokenExp lib u.2, cert.notAfter ≤ exp))

/-- The authorization is seen to rest on a token: it is for claim constraints,
or there are claim encoders and constraints are stored for it. -/
def SeenAsToken (env : Env) (db : Db) (a : AuthorizationRow) : Prop :=
  isClaimConstraints a.identifier.type = true ∨
    (env.config.claimEncoderRegistry.isSome = true ∧
      (Tkauth.getTkvalueForAuthz db a.id).isSome = true)

instance (env : Env) (db : Db) (a : AuthorizationRow) : Decidable (SeenAsToken env db a) :=
  inferInstanceAs (Decidable (_ ∨ _ ∧ _))

def Remembered (lib : TkLibrary) (db : Db) (u : String × String) : Prop :=
  ∃ r ∈ db.tkauthJtiCache.rows, r.authzId = u.1 ∧ tokenJti lib u.2 = some r.jti ∧
    tokenExp lib u.2 = some r.expires

instance (lib : TkLibrary) (db : Db) (u : String × String) : Decidable (Remembered lib db u) :=
  inferInstanceAs (Decidable (∃ r ∈ db.tkauthJtiCache.rows, _))

/-- When an order is finalized, the certificate is signed locally, what was
requested as its end is after its start, and of every token behind it the
authorization is seen to rest on a token, the row is still there and the
expiry is after the start. -/
structure Cappable (lib : TkLibrary) (env : Env) (s : TokenLog) (now : Int) (order : OrderRow) :
    Prop where
  locally : signsRemotely env order = false
  notAfter : ∀ last ∈ order.notAfter, certStart now order.notBefore < last
  seen : ∀ a ∈ validAuthz s.db order.id, ∀ u ∈ s.used, u.1 = a.id → SeenAsToken env s.db a
  remembered : ∀ a ∈ validAuthz s.db order.id, ∀ u ∈ s.used, u.1 = a.id → Remembered lib s.db u
  later : ∀ a ∈ validAuthz s.db order.id, ∀ u ∈ s.used, u.1 = a.id →
    ∀ exp ∈ tokenExp lib u.2, certStart now order.notBefore < exp

section Cap

variable {lib : TkLibrary} {env : Env} {s : TokenLog} {now : Int} {order : OrderRow}
  {a : AuthorizationRow} {db : Db}

theorem mem_tkauthAuthzIds {orderId : String} (ha : a ∈ validAuthz db orderId)
    (hseen : SeenAsToken env db a) : a.id ∈ tkauthAuthzIds env db orderId := by
  refine mem_map_of_mem (mem_filter.mpr ⟨ha, ?_⟩)
  rcases hseen with htype | ⟨hregistry, hstored⟩
  · simp [htype]
  · by_cases htype : isClaimConstraints a.identifier.type = true
    · simp [htype]
    · simp [tokenBlob, htype, hregistry, hstored]

theorem exists_of_mem_tkauthAuthzIds {orderId id : String}
    (h : id ∈ tkauthAuthzIds env db orderId) : ∃ a ∈ validAuthz db orderId, a.id = id := by
  obtain ⟨a, ha, hid⟩ := mem_map.mp h
  exact ⟨a, (mem_filter.mp ha).1, hid⟩

theorem exists_cap (hrows : RowsUsed lib s) (hcap : Cappable lib env s now order)
    (ha : a ∈ validAuthz s.db order.id) {u : String × String} (hu : u ∈ s.used) (hid : u.1 = a.id)
    {exp : Int} (hexp : tokenExp lib u.2 = some exp) :
    ∃ cap, Tkauth.getMinExpForAuthzs s.db (tkauthAuthzIds env s.db order.id) = some cap ∧
      certStart now order.notBefore < cap ∧ cap ≤ exp := by
  obtain ⟨r, hr, hrauthz, -, hrexp⟩ := hcap.remembered a ha u hu hid
  have hexpires : r.expires = exp := Option.some.inj (hrexp.symm.trans hexp)
  have hcovered : r.authzId ∈ tkauthAuthzIds env s.db order.id := by
    rw [hrauthz, hid]
    exact mem_tkauthAuthzIds ha (hcap.seen a ha u hu hid)
  have hmem : exp ∈ (s.db.tkauthJtiCache.rows.filter fun r ↦
      (tkauthAuthzIds env s.db order.id).contains r.authzId).map TkauthJtiRow.expires :=
    mem_map.mpr ⟨r, mem_filter.mpr ⟨hr, contains_iff_mem.mpr hcovered⟩, hexpires⟩
  cases hmin : Tkauth.getMinExpForAuthzs s.db (tkauthAuthzIds env s.db order.id) with
  | none =>
    rw [Tkauth.getMinExpForAuthzs, min?_eq_none_iff] at hmin
    exact absurd hmem (hmin ▸ not_mem_nil)
  | some cap =>
    obtain ⟨hcapmem, hle⟩ := min?_eq_some_iff.mp hmin
    refine ⟨cap, rfl, ?_, hle exp hmem⟩
    -- the cap comes from a row, the row from a token that was used
    obtain ⟨r', hr', rfl⟩ := mem_map.mp hcapmem
    obtain ⟨hr', hcontains⟩ := mem_filter.mp hr'
    obtain ⟨a', ha', hid'⟩ := exists_of_mem_tkauthAuthzIds (contains_iff_mem.mp hcontains)
    obtain ⟨token, hused, hexp'⟩ := hrows r' hr'
    exact hcap.later a' ha' _ hused hid'.symm _ hexp'

theorem notAfter_of_inject {job : FinalizeJob} {inj : SanInjection}
    (h : injectTemplateAndTkauthSans env db job = .ok inj) :
    inj.notAfter = capNotAfter job.order.notAfter
      (Tkauth.getMinExpForAuthzs db (tkauthAuthzIds env db job.order.id)) := by
  obtain ⟨template, -, h⟩ := bind_eq_ok h
  obtain ⟨principal, -, h⟩ := bind_eq_ok h
  obtain ⟨tokens, -, h⟩ := bind_eq_ok h
  obtain ⟨_, -, h⟩ := bind_eq_ok h
  cases h
  rfl

end Cap

/-- After any history of validations and purges, an order that can be capped
gets a certificate that ends by the time its tokens expire. -/
theorem certificate_within_tokens (lib : TkLibrary) (cfg : TkConfig) (db : Db)
    (es : List TokenEvent) {env : Env} {reads : FinalizeReads} {lookup : Caa.Lookup}
    {req : FinalizeRequest} {order : OrderRow} {job : FinalizeJob} {cert : IssuedCert}
    (hreads : reads.sans = (tokenRun lib cfg db es).db)
    (horder : Orders.getById reads.checks req.orderId = some order)
    (hcap : Cappable lib env (tokenRun lib cfg db es) reads.issuedAt order)
    (h : finalizeOrder env reads lookup req = .ok (job, some cert)) :
    WithinTokens lib (tokenRun lib cfg db es) order cert := by
  obtain ⟨hchecks, -, -, inj, hinj, hissue⟩ := finalizeOrder_issued h
  have hsame : order = job.order :=
    Option.some.inj (horder.symm.trans (checksPassed_of_finalizeChecks hchecks).order)
  subst hsame
  intro a ha u hu hid exp hexp
  obtain ⟨cap, hmin, hstart, hle⟩ := exists_cap (rowsUsed_run db es) hcap ha hu hid hexp
  obtain ⟨last, hlast, hlastle, hwhich⟩ := capNotAfter_some job.order.notAfter cap
  have hinjected : inj.notAfter = some last := by
    rw [notAfter_of_inject hinj, hreads, hmin, hlast]
  have hafter : certStart reads.issuedAt job.order.notBefore < last := by
    rcases hwhich with rfl | hrequested
    · exact hstart
    · exact hcap.notAfter last hrequested
  rcases issueLeafCertificate_eq_ok hissue with ⟨hremote, -⟩ | ⟨-, ca, -, hissued⟩
  · exact absurd hremote (Bool.eq_false_iff.mp hcap.locally)
  · have hwindow := (issueWithParams_eq_ok hissued).1
    rw [hinjected, resolveClampedValidity_of_lt _ hafter] at hwindow
    calc
      cert.notAfter = last := congrArg Prod.snd hwindow
      _ ≤ cap := hlastle
      _ ≤ exp := hle

def Outlives (lib : TkLibrary) (env : Env) (s : TokenLog) (now : Int) (req : FinalizeRequest) :
    Prop :=
  ∃ r ∈ (finalizeOrder env ⟨s.db, s.db, s.db, now⟩ (fun _ ↦ .ok []) req).toOption,
    ∃ cert ∈ r.2, ¬ WithinTokens lib s r.1.order cert

instance (lib : TkLibrary) (env : Env) (s : TokenLog) (now : Int) (req : FinalizeRequest) :
    Decidable (Outlives lib env s now req) :=
  inferInstanceAs (Decidable (∃ r ∈ (finalizeOrder env ⟨s.db, s.db, s.db, now⟩ (fun _ ↦ .ok [])
    req).toOption, ∃ cert ∈ r.2, ¬ WithinTokens lib s r.1.order cert))

namespace ExpiringTokens

/-- Two tokens that expire at 100, for a TNAuthList and for constraints that
are empty. -/
def lib : TkLibrary where
  decodeClaims
    | "numbers" => .ok (DnsTokens.claims "1" "TNAuthList" "MAA" "")
    | "constraints" => .ok (DnsTokens.claims "2" "JWTClaimConstraints" "MAA" "")
    | _ => .error "bad request: authority token: expected 3 '.' separated parts, got 1"
  verifyWithSpki _ _ := .ok ()
  decodeUrlSafe := DnsTokens.der
  parseJson _ := none
  constraintsFromDer := DnsTokens.constraints

def cfg : TkConfig := ⟨none, some 3600⟩

/-- One CA, which issues for 90 days and may sign remotely. -/
def env (dogtag : Bool) : Env where
  config :=
    { Config.plain with
      tkauthEnabled := true
      cas := [("ca",
        { caaIdentities := [], dogtag := dogtag, validityDays := 90,
          enforceValidityCap := false })] }
  library :=
    { Library.plain with
      parseCsr := fun _ ↦ .ok
        { subject := ⟨[], []⟩, sans := [], caCert := false, keyType := none }
      issueViaDogtag := fun _ ↦ .ok
        { id := "cert-9", serialHex := "09", notBefore := 0, notAfter := 1000
          subject := ⟨[], []⟩, san := [] } }

def order (type : IdType) (notAfter : Option Int) : OrderRow :=
  { OrderRow.plain "order-1" "acct-1" "ca" .ready [⟨type, "MAA"⟩] 0 100 with notAfter := notAfter }

def db (type : IdType) (notAfter : Option Int) : Db :=
  { Db.empty with
    orders := { rows := [order type notAfter], nodup := by simp }
    authorizations :=
      { rows :=
          [{ id := "authz-1", orderId := some "order-1", accountId := "acct-1", status := .valid
             identifier := ⟨type, "MAA"⟩, expires := some 100, wildcard := false
             subdomainAuthAllowed := false, created := 0, updated := 0, caId := "ca" }]
        nodup := by simp } }

def presented (type : IdType) (token : String) : TokenEvent :=
  .validate ⟨type.asStr, "MAA", "tok.qw", token, "authz-1"⟩ ⟨.ok [], 10, 10, 10⟩

def request : FinalizeRequest where
  accountId := "acct-1"
  caId := "ca"
  orderId := "order-1"
  csr := "csr"

def numbers : TokenLog :=
  tokenRun lib cfg (db .tnAuthList none) [presented .tnAuthList "numbers"]

def constraints (notAfter : Option Int) (later : List TokenEvent) : TokenLog :=
  tokenRun lib cfg (db .jwtClaimConstraints notAfter)
    (presented .jwtClaimConstraints "constraints" :: later)

/-- A token for a TNAuthList does not bound the certificate; neither does one
whose row has been purged, one that has expired, one next to an end that was
requested too early, and one where a remote CA signs. -/
theorem certificate_outlives_token :
    Outlives lib (env false) numbers 20 request ∧
      Outlives lib (env false) (constraints none [.purge 101]) 101 request ∧
      Outlives lib (env false) (constraints none []) 100 request ∧
      Outlives lib (env false) (constraints (some 15) []) 20 request ∧
      Outlives lib (env true) (constraints none []) 20 request := by
  decide +kernel

theorem constraints_cappable :
    Cappable lib (env false) (constraints none []) 20 (order .jwtClaimConstraints none) where
  locally := by decide
  notAfter := by decide
  seen := by decide +kernel
  remembered := by decide +kernel
  later := by decide +kernel

theorem certificate_ends_in_time :
    ∃ job cert, finalizeOrder (env false)
        ⟨(constraints none []).db, (constraints none []).db, (constraints none []).db, 20⟩
        (fun _ ↦ .ok []) request = .ok (job, some cert) ∧
      WithinTokens lib (constraints none []) (order .jwtClaimConstraints none) cert := by
  obtain ⟨job, cert, hissued⟩ : ∃ job cert, finalizeOrder (env false)
      ⟨(constraints none []).db, (constraints none []).db, (constraints none []).db, 20⟩
      (fun _ ↦ .ok []) request = .ok (job, some cert) := ⟨_, _, rfl⟩
  exact ⟨job, cert, hissued, certificate_within_tokens lib cfg (db .jwtClaimConstraints none)
    [presented .jwtClaimConstraints "constraints"] rfl rfl constraints_cappable hissued⟩

end ExpiringTokens

end Akamu
