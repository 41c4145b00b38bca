import Akamu.Db.Coalescer
import Akamu.Lib.Traced
import Akamu.Text

/-!
# Connections made by validation

The fetches of http-01 and tkauth-01 go to hosts that an attacker names.  Two
guards keep them from internal addresses: the host is checked before each
request, which settles IP literals, and the client resolves names through a
resolver of its own that refuses them, which settles names however their
addresses change between lookups.
-/

namespace Akamu.Validation

open List Text

/-! ## Addresses -/

inductive IpAddr where
  | v4 (a b c d : UInt8)
  | v6 (s₀ s₁ s₂ s₃ s₄ s₅ s₆ s₇ : UInt16)
  deriving DecidableEq, Repr

def isBlockedV4 (a b c d : UInt8) : Bool :=
  -- loopback
  a == 127 ||
  -- private
  (a == 10 || a == 172 && b &&& 0xf0 == 16 || a == 192 && b == 168) ||
  -- link-local
  (a == 169 && b == 254) ||
  -- unspecified
  (a == 0 && b == 0 && c == 0 && d == 0) ||
  -- broadcast
  (a == 255 && b == 255 && c == 255 && d == 255)

def isBlockedIp : IpAddr → Bool
  | .v4 a b c d => isBlockedV4 a b c d
  | .v6 s₀ s₁ s₂ s₃ s₄ s₅ s₆ s₇ =>
    if [s₀, s₁, s₂, s₃, s₄, s₅, s₆].all (· == 0) && (s₇ == 1 || s₇ == 0) then true
    else if s₀ &&& 0xffc0 == 0xfe80 then true
    else if s₀ &&& 0xfe00 == 0xfc00 then true
    else if [s₀, s₁, s₂, s₃, s₄].all (· == 0) && s₅ == 0xffff then
      isBlockedV4 (s₆ >>> 8).toUInt8 s₆.toUInt8 (s₇ >>> 8).toUInt8 s₇.toUInt8
    else false

/-! ## The network -/

structure Uri where
  text : String
  scheme : Option String
  authority : Option String
  host : Option String
  deriving DecidableEq, Repr

inductive Body where
  | tooLong
  | broken (detail : String)
  | bytes (content : List UInt8)

structure Response where
  status : ℕ
  /-- The `Location` header, if there is one and it is text. -/
  location : Option String
  body : Body

inductive Event where
  | lookedUp (name : String)
  | opened (ip : IpAddr)
  | requested (uri : Uri)
  deriving DecidableEq, Repr

/-- Name servers, hosts and the scheduling of the client.  Each decision may
depend on everything so far, so a name may have another address at every
lookup. -/
structure Network where
  lookup : List Event → String → Except String (List IpAddr)
  /-- How often the client connects for a request: not at all over a pooled
  connection, more than once when it tries again. -/
  connects : List Event → Uri → ℕ
  /-- Whether the client tries an address that it may connect to. -/
  tries : List Event → IpAddr → Bool
  respond : List Event → Uri → Except String Response
  unixSocket : List Event → String → Except AcmeError (List UInt8)

structure UriLibrary where
  parse : String → Except String Uri
  parseIp : String → Option IpAddr
  displayIp : IpAddr → String
  displayStatus : ℕ → String
  fromUtf8 : List UInt8 → Option String
  pemToDer : List UInt8 → List (List UInt8)
  isCertificate : List UInt8 → Bool

/-- A host as it stands in a URI, without the brackets of an IPv6 literal. -/
def cleanHost (host : String) : String :=
  trimEndMatches (trimStartMatches host (· == '[')) (· == ']')

structure HttpClient (lib : UriLibrary) where
  /-- The text of its error when it cannot connect. -/
  displayError : String → String
  literal : String → Option IpAddr
  parseIp_of_literal : ∀ host ip, literal host = some ip → lib.parseIp (cleanHost host) = some ip

structure Fetcher where
  lib : UriLibrary
  client : HttpClient lib
  /-- `http_validation_allow_private_ips` -/
  allowPrivateIps : Bool

abbrev Fetch := Traced Event

variable (f : Fetcher) (net : Network)

def lookupHost (name : String) : Fetch String (List IpAddr) := do
  .emit (.lookedUp name)
  let answer ← .decision fun past ↦ net.lookup past name
  .ofExcept answer

/-! ## The guards -/

def checkAddresses (clean fromUrl : String) : List IpAddr → Except AcmeError Unit
  | [] => .ok ()
  | ip :: ips =>
    if isBlockedIp ip then
      .error (.incorrectResponse ("http-01: redirect from '" ++ fromUrl ++
        "' resolves to blocked address " ++ f.lib.displayIp ip ++ " ('" ++ clean ++ "')"))
    else checkAddresses clean fromUrl ips

def checkRedirectHost (host fromUrl : String) : Fetch AcmeError Unit :=
  if f.allowPrivateIps then pure ()
  else
    match f.lib.parseIp (cleanHost host) with
    | some ip =>
      if isBlockedIp ip then
        .fail (.incorrectResponse ("http-01: redirect from '" ++ fromUrl ++
          "' targets blocked IP address " ++ f.lib.displayIp ip))
      else pure ()
    | none => do
        let addrs ← (lookupHost net (cleanHost host)).mapError
          fun e ↦ .connection ("http-01: DNS lookup for '" ++ cleanHost host ++ "': " ++ e)
        .ofExcept (checkAddresses f (cleanHost host) fromUrl addrs)

/-- `SsrfGuardedResolver::call` -/
def guardedResolve (host : String) : Fetch String (List IpAddr) :=
  match f.lib.parseIp host with
  | some ip =>
    if !f.allowPrivateIps && isBlockedIp ip then
      .fail ("SSRF guard: '" ++ host ++ "' is a blocked IP address")
    else pure [ip]
  | none => do
      let addrs ← lookupHost net host
      match if f.allowPrivateIps then none else addrs.find? isBlockedIp with
      | some ip =>
        .fail ("SSRF guard: '" ++ host ++ "' resolves to blocked address " ++
          f.lib.displayIp ip)
      | none => pure addrs

/-! ## The client -/

def openIf (ip : IpAddr) (tried : Bool) : Fetch String Unit :=
  if tried then .emit (.opened ip) else pure ()

def openAny : List IpAddr → Fetch String Unit
  | [] => pure ()
  | ip :: ips => do
      let tried ← .decision fun past ↦ net.tries past ip
      openIf ip tried
      openAny ips

def connect (uri : Uri) : Fetch String Unit :=
  match uri.host with
  | none => .fail "client requires absolute-form URIs"
  | some host =>
    match f.client.literal host with
    | some ip => openAny net [ip]
    | none => do
        let addrs ← guardedResolve f net (cleanHost host)
        openAny net addrs

def connectTimes (uri : Uri) : ℕ → Fetch String Unit
  | 0 => pure ()
  | n + 1 => do
      connect f net uri
      connectTimes uri n

/-- `Client::get` -/
def get (uri : Uri) : Fetch String Response := do
  .emit (.requested uri)
  let n ← .decision fun past ↦ net.connects past uri
  (connectTimes f net uri n).mapError f.client.displayError
  let answer ← .decision fun past ↦ net.respond past uri
  .ofExcept answer

/-! ## http-01 -/

def maxRedirects : ℕ := 10

def isRedirection (status : ℕ) : Bool := 300 ≤ status && status < 400

def isSuccess (status : ℕ) : Bool := 200 ≤ status && status < 300

def redirectTarget (uri : Uri) (location : String) : Except AcmeError Uri :=
  if startsWith location "http://" || startsWith location "https://" then
    (f.lib.parse location).mapError fun e ↦
      .incorrectResponse ("http-01: invalid Location '" ++ location ++ "': " ++ e)
  else
    (f.lib.parse (uri.scheme.getD "http" ++ "://" ++ uri.authority.getD "" ++ location)).mapError
      fun e ↦ .incorrectResponse ("http-01: invalid relative Location '" ++ location ++ "': " ++ e)

def checkUri (uri : Uri) (fromUrl : String) : Fetch AcmeError Unit :=
  match uri.host with
  | none => pure ()
  | some host => checkRedirectHost f net host fromUrl

def redirectLocation (uri : Uri) (response : Response) : Except AcmeError String :=
  match response.location with
  | none => .error (.incorrectResponse ("http-01: redirect from '" ++ uri.text ++
      "' has no valid Location header"))
  | some location => .ok location

def followRedirect (uri : Uri) (response : Response) : Fetch AcmeError Uri := do
  let location ← .ofExcept (redirectLocation uri response)
  let next ← .ofExcept (redirectTarget f uri location)
  let scheme := next.scheme.getD ""
  if scheme != "http" && scheme != "https" then
    .fail (.incorrectResponse ("http-01: redirect target '" ++ next.text ++
      "' uses unsupported scheme '" ++ scheme ++ "'"))
  else do
    checkUri f net next uri.text
    pure next

def checkKeyAuth (keyAuth : String) (uri : Uri) (response : Response) : Except AcmeError Unit :=
  if !isSuccess response.status then
    .error (.incorrectResponse ("http-01: server returned HTTP " ++
      f.lib.displayStatus response.status ++ " for '" ++ uri.text ++ "'"))
  else
    match response.body with
    | .tooLong => .error (.incorrectResponse
        ("http-01: response body exceeds 1048576 bytes for '" ++ uri.text ++ "'"))
    | .broken e => .error (.connection ("http-01 body read from '" ++ uri.text ++ "': " ++ e))
    | .bytes content =>
      match f.lib.fromUtf8 content with
      | none => .error (.incorrectResponse "http-01: body is not valid UTF-8")
      | some body =>
        if trim body != keyAuth then
          .error (.incorrectResponse
            ("http-01: key authorization mismatch for '" ++ uri.text ++ "'"))
        else .ok ()

def requestLoop (url keyAuth : String) : ℕ → Uri → Fetch AcmeError Unit
  | 0, _ => .fail (.incorrectResponse
      ("http-01: exceeded 10 redirects starting from '" ++ url ++ "'"))
  | n + 1, uri => do
      let response ← (get f net uri).mapError
        fun e ↦ .connection ("http-01 GET '" ++ uri.text ++ "': " ++ e)
      if isRedirection response.status then do
        let next ← followRedirect f net uri response
        requestLoop url keyAuth n next
      else .ofExcept (checkKeyAuth f keyAuth uri response)

def challengeUrl (domain token : String) (port : ℕ) : String :=
  let host := if contains domain ':' then "[" ++ domain ++ "]" else domain
  if port = 80 then "http://" ++ host ++ "/.well-known/acme-challenge/" ++ token
  else "http://" ++ host ++ ":" ++ toString port ++ "/.well-known/acme-challenge/" ++ token

/-- `http01::validate` -/
def validateHttp01 (domain token keyAuth : String) (port : ℕ) : Fetch AcmeError Unit := do
  let url := challengeUrl domain token port
  let uri ← .ofExcept ((f.lib.parse url).mapError
    fun e ↦ AcmeError.connection ("invalid http-01 URL '" ++ url ++ "': " ++ e))
  checkUri f net uri url
  requestLoop f net url keyAuth (maxRedirects + 1) uri

/-! ## tkauth-01 -/

def hostOf (what : String) (uri : Uri) : Except AcmeError String :=
  match uri.host with
  | none => .error (.incorrectResponse ("tkauth-01: " ++ what ++ " URL has no host"))
  | some host => .ok host

/-- One guarded request.  Both fetches of tkauth-01 are this with their own
texts; `slow` says that the request timed out. -/
def guardedGet (what url : String) (uri : Uri) (slow : Bool) : Fetch AcmeError (List UInt8) := do
  let host ← .ofExcept (hostOf what uri)
  (checkRedirectHost f net host url).mapError
    fun e ↦ .incorrectResponse ("tkauth-01: " ++ what ++ " host blocked: " ++ e.display)
  let timedOut : AcmeError := .connection ("tkauth-01: " ++ what ++ " GET '" ++ url ++ "' timed out")
  let response ← (get f net uri).mapError fun e ↦
    if slow then timedOut
    else .connection ("tkauth-01: " ++ what ++ " GET '" ++ url ++ "': " ++ e)
  if slow then .fail timedOut
  else if !isSuccess response.status then
    .fail (.connection ("tkauth-01: " ++ what ++ " '" ++ url ++ "' returned HTTP " ++
      f.lib.displayStatus response.status))
  else
    match response.body with
    | .tooLong => .fail (.connection ("tkauth-01: " ++ what ++
        " body read: length limit exceeded"))
    | .broken e => .fail (.connection ("tkauth-01: " ++ what ++ " body read: " ++ e))
    | .bytes content => pure content

/-- `fetch_cert_via_x5u` -/
def fetchCertViaX5u (url : String) (slow : Bool) : Fetch AcmeError (List UInt8) := do
  let uri ← .ofExcept ((f.lib.parse url).mapError
    fun e ↦ AcmeError.incorrectResponse ("tkauth-01: x5u URL parse: " ++ e))
  if uri.scheme != some "https" then
    .fail (.incorrectResponse "tkauth-01: x5u must use https://")
  else do
    let body ← guardedGet f net "x5u" url uri slow
    -- PEM first, then raw DER
    match if (utf8Bytes "-----BEGIN").isPrefixOf body then (f.lib.pemToDer body).head? else none with
    | some der => pure der
    | none =>
      if f.lib.isCertificate body then pure body
      else .fail (.incorrectResponse ("tkauth-01: x5u '" ++ url ++
        "' response is not a valid certificate (PEM or DER)"))
where
  utf8Bytes (s : String) : List UInt8 := s.toList.map fun c ↦ c.toNat.toUInt8

/-- `fetch_jwks_https` -/
def fetchJwksHttps (url : String) (slow : Bool) : Fetch AcmeError (List UInt8) := do
  let uri ← .ofExcept ((f.lib.parse url).mapError
    fun e ↦ AcmeError.incorrectResponse ("tkauth-01: JWKS URL parse: " ++ e))
  if uri.scheme != some "https" && !(uri.scheme == some "http" && f.allowPrivateIps) then
    .fail (.incorrectResponse ("tkauth-01: JWKS URL must use https:// " ++
      "(or http:// with http_validation_allow_private_ips)"))
  else guardedGet f net "JWKS" url uri slow

/-- `fetch_jwks`.  A Unix socket is no TCP connection. -/
def fetchJwks (url : String) (slow : Bool) : Fetch AcmeError (List UInt8) :=
  if startsWith url "http+unix://" then do
    let answer ← .decision fun past ↦ net.unixSocket past url
    .ofExcept answer
  else fetchJwksHttps f net url slow

/-! ## What is opened -/

/-- No connection to a blocked address. -/
def Event.Allowed : Event → Prop
  | .opened ip => isBlockedIp ip = false
  | _ => True

/-- The host is no literal of a blocked address. -/
def LiteralAllowed (host : String) : Prop :=
  ∀ ip, f.lib.parseIp (cleanHost host) = some ip → isBlockedIp ip = false

def UriAllowed (uri : Uri) : Prop := ∀ host, uri.host = some host → LiteralAllowed f host

section Guards

variable {f net}

theorem only_lookupHost (name : String) : Traced.Only Event.Allowed (lookupHost net name) :=
  .bind (.emit trivial) fun _ _ ↦ .bind (.decision _) fun answer _ ↦ .ofExcept answer

theorem only_checkRedirectHost (host fromUrl : String) :
    Traced.Only Event.Allowed (checkRedirectHost f net host fromUrl) := by
  unfold checkRedirectHost
  split
  · exact .pure ()
  · split
    · split
      · exact .fail _
      · exact .pure ()
    · exact .bind (.mapError (only_lookupHost _)) fun addrs _ ↦ .ofExcept _

theorem only_checkUri (uri : Uri) (fromUrl : String) :
    Traced.Only Event.Allowed (checkUri f net uri fromUrl) := by
  unfold checkUri
  split
  · exact .pure ()
  · exact only_checkRedirectHost _ fromUrl

theorem only_guardedResolve (host : String) :
    Traced.Only Event.Allowed (guardedResolve f net host) := by
  unfold guardedResolve
  split
  · split
    · exact .fail _
    · exact .pure _
  · refine .bind (only_lookupHost host) fun addrs _ ↦ ?_
    split
    · exact .fail _
    · exact .pure addrs

theorem only_openAny {ips : List IpAddr} (h : ∀ ip ∈ ips, isBlockedIp ip = false) :
    Traced.Only Event.Allowed (openAny net ips) := by
  induction ips with
  | nil => exact .pure ()
  | cons ip ips ih =>
    refine .bind (.decision _) fun tried _ ↦ .bind ?_ fun _ _ ↦ ?_
    · unfold openIf
      split
      · exact .emit (h ip mem_cons_self)
      · exact .pure ()
    · exact ih fun ip' hip' ↦ h ip' (mem_cons_of_mem ip hip')

theorem only_followRedirect (uri : Uri) (response : Response) :
    Traced.Only Event.Allowed (followRedirect f net uri response) := by
  refine .bind (.ofExcept _) fun location _ ↦ .bind (.ofExcept _) fun next _ ↦ ?_
  dsimp only
  split
  · exact .fail _
  · exact .bind (only_checkUri next uri.text) fun _ _ ↦ .pure next

end Guards

section PublicOnly

variable {f net} (hprivate : f.allowPrivateIps = false)

include hprivate

theorem literalAllowed_of_check {host fromUrl : String}
    (h : Traced.Returns (checkRedirectHost f net host fromUrl) ()) : LiteralAllowed f host := by
  intro ip hip
  unfold checkRedirectHost at h
  rw [hprivate, if_neg Bool.false_ne_true, hip] at h
  dsimp only at h
  cases hblocked : isBlockedIp ip with
  | false => rfl
  | true =>
    rw [if_pos hblocked] at h
    exact absurd h Traced.not_returns_fail

variable {uri : Uri}

theorem uriAllowed_of_check {fromUrl : String}
    (h : Traced.Returns (checkUri f net uri fromUrl) ()) : UriAllowed f uri := by
  intro host hhost
  unfold checkUri at h
  rw [hhost] at h
  exact literalAllowed_of_check hprivate h

theorem allowed_of_guardedResolve {host : String} {addrs : List IpAddr}
    (h : Traced.Returns (guardedResolve f net host) addrs) :
    ∀ ip ∈ addrs, isBlockedIp ip = false := by
  intro ip hip
  unfold guardedResolve at h
  split at h
  · next literal _ =>
      split at h
      · exact absurd h Traced.not_returns_fail
      · next hallowed =>
          rw [← Traced.returns_pure h, mem_singleton] at hip
          subst hip
          simpa [hprivate] using hallowed
  · obtain ⟨found, -, h⟩ := Traced.returns_bind h
    rw [hprivate, if_neg Bool.false_ne_true] at h
    split at h
    · exact absurd h Traced.not_returns_fail
    · next hnone =>
        rw [← Traced.returns_pure h] at hip
        simpa using find?_eq_none.mp hnone ip hip

theorem only_connect (huri : UriAllowed f uri) : Traced.Only Event.Allowed (connect f net uri) := by
  unfold connect
  split
  · exact .fail _
  · next host hhost =>
      split
      · next ip hliteral =>
          have hparsed := f.client.parseIp_of_literal host ip hliteral
          refine only_openAny fun ip' hip' ↦ ?_
          rw [mem_singleton.mp hip']
          exact huri host hhost ip hparsed
      · exact .bind (only_guardedResolve _) fun addrs haddrs ↦
          only_openAny (allowed_of_guardedResolve hprivate haddrs)

theorem only_connectTimes (huri : UriAllowed f uri) (n : ℕ) :
    Traced.Only Event.Allowed (connectTimes f net uri n) := by
  induction n with
  | zero => exact .pure ()
  | succ n ih => exact .bind (only_connect hprivate huri) fun _ _ ↦ ih

theorem only_get (huri : UriAllowed f uri) : Traced.Only Event.Allowed (get f net uri) := by
  refine .bind (.emit trivial) fun _ _ ↦ .bind (.decision _) fun n _ ↦ ?_
  refine .bind (.mapError (only_connectTimes hprivate huri n)) fun _ _ ↦ ?_
  exact .bind (.decision _) fun answer _ ↦ .ofExcept answer

theorem uriAllowed_of_followRedirect {next : Uri} {response : Response}
    (h : Traced.Returns (followRedirect f net uri response) next) : UriAllowed f next := by
  obtain ⟨location, -, h⟩ := Traced.returns_bind h
  obtain ⟨target, -, h⟩ := Traced.returns_bind h
  dsimp only at h
  split at h
  · exact absurd h Traced.not_returns_fail
  · obtain ⟨⟨⟩, hcheck, h⟩ := Traced.returns_bind h
    rw [← Traced.returns_pure h]
    exact uriAllowed_of_check hprivate hcheck

theorem only_requestLoop (url keyAuth : String) (huri : UriAllowed f uri) (n : ℕ) :
    Traced.Only Event.Allowed (requestLoop f net url keyAuth n uri) := by
  induction n generalizing uri with
  | zero => exact .fail _
  | succ n ih =>
    refine .bind (.mapError (only_get hprivate huri)) fun response _ ↦ ?_
    split
    · exact .bind (only_followRedirect uri response) fun next hnext ↦
        ih (uriAllowed_of_followRedirect hprivate hnext)
    · exact .ofExcept _

theorem only_validateHttp01 (domain token keyAuth : String) (port : ℕ) :
    Traced.Only Event.Allowed (validateHttp01 f net domain token keyAuth port) := by
  refine .bind (.ofExcept _) fun uri _ ↦ .bind (only_checkUri uri _) fun _ hcheck ↦ ?_
  exact only_requestLoop hprivate _ keyAuth (uriAllowed_of_check hprivate hcheck) _

theorem only_guardedGet (what url : String) (uri : Uri) (slow : Bool) :
    Traced.Only Event.Allowed (guardedGet f net what url uri slow) := by
  refine .bind (.ofExcept _) fun host hhost ↦ ?_
  refine .bind (.mapError (only_checkRedirectHost host url)) fun _ hcheck ↦ ?_
  have huri : UriAllowed f uri := by
    intro host' hhost'
    obtain ⟨_, hhost⟩ := hhost
    rw [hostOf, hhost'] at hhost
    cases hhost
    exact literalAllowed_of_check hprivate (Traced.returns_mapError hcheck)
  refine .bind (.mapError (only_get hprivate huri)) fun response _ ↦ ?_
  split
  · exact .fail _
  · split
    · exact .fail _
    · split
      · exact .fail _
      · exact .fail _
      · exact .pure _

theorem only_fetchCertViaX5u (url : String) (slow : Bool) :
    Traced.Only Event.Allowed (fetchCertViaX5u f net url slow) := by
  refine .bind (.ofExcept _) fun uri _ ↦ ?_
  split
  · exact .fail _
  · refine .bind (only_guardedGet hprivate "x5u" url uri slow) fun body _ ↦ ?_
    split
    · exact .pure _
    · split
      · exact .pure body
      · exact .fail _

theorem only_fetchJwks (url : String) (slow : Bool) :
    Traced.Only Event.Allowed (fetchJwks f net url slow) := by
  unfold fetchJwks
  split
  · exact .bind (.decision _) fun answer _ ↦ .ofExcept answer
  · refine .bind (.ofExcept _) fun uri _ ↦ ?_
    split
    · exact .fail _
    · exact only_guardedGet hprivate "JWKS" url uri slow

end PublicOnly

/-! ## Any number of validations -/

inductive Request where
  | http01 (domain token keyAuth : String) (port : ℕ)
  | x5u (url : String) (slow : Bool)
  | jwks (url : String) (slow : Bool)

def perform (past : List Event) : Request → List Event
  | .http01 domain token keyAuth port => (validateHttp01 f net domain token keyAuth port past).1
  | .x5u url slow => (fetchCertViaX5u f net url slow past).1
  | .jwks url slow => (fetchJwks f net url slow past).1

def performAll (past : List Event) : List Request → List Event
  | [] => past
  | r :: rs => performAll (past ++ perform f net past r) rs

theorem allowed_perform {f : Fetcher} {net : Network} (hprivate : f.allowPrivateIps = false)
    (past : List Event) (r : Request) : ∀ e ∈ perform f net past r, e.Allowed := by
  cases r with
  | http01 domain token keyAuth port =>
    exact only_validateHttp01 hprivate domain token keyAuth port past
  | x5u url slow => exact only_fetchCertViaX5u hprivate url slow past
  | jwks url slow => exact only_fetchJwks hprivate url slow past

theorem allowed_performAll {f : Fetcher} {net : Network} (hprivate : f.allowPrivateIps = false)
    {past : List Event} (hpast : ∀ e ∈ past, e.Allowed) (rs : List Request) :
    ∀ e ∈ performAll f net past rs, e.Allowed := by
  induction rs generalizing past with
  | nil => exact hpast
  | cons r rs ih =>
    refine ih fun e he ↦ ?_
    rcases mem_append.mp he with hold | hnew
    · exact hpast e hold
    · exact allowed_perform hprivate past r e hnew

/-- Whatever the network answers, and whatever the requests name, no connection
is opened to a blocked address. -/
theorem no_blocked_connection (f : Fetcher) (net : Network) (hprivate : f.allowPrivateIps = false)
    (requests : List Request) (ip : IpAddr)
    (hopened : Event.opened ip ∈ performAll f net [] requests) : isBlockedIp ip = false :=
  allowed_performAll hprivate (fun _ he ↦ absurd he List.not_mem_nil) requests _ hopened

namespace OutboundExample

def parse (text : String) : Except String Uri :=
  match stripPrefix text "http://" with
  | none => .error "unknown scheme"
  | some rest =>
    let authority := String.ofList (rest.toList.takeWhile (· != '/'))
    .ok ⟨text, some "http", some authority, some authority⟩

def parseIp (s : String) : Option IpAddr := if s == "127.0.0.1" then some (.v4 127 0 0 1) else none

def library : UriLibrary where
  parse := parse
  parseIp := parseIp
  displayIp _ := "address"
  displayStatus _ := "status"
  fromUtf8 _ := none
  pemToDer _ := []
  isCertificate _ := false

def fetcher : Fetcher where
  lib := library
  client := {
    displayError := fun _ ↦ "client error (Connect)"
    literal := fun host ↦ library.parseIp (cleanHost host)
    parseIp_of_literal := fun _ _ h ↦ h }
  allowPrivateIps := false

def isLookup : Event → Bool
  | .lookedUp _ => true
  | _ => false

/-- The second lookup of a name gives the loopback address, every other one a
public address; every request is answered with a redirect to loopback. -/
def rebinding : Network where
  lookup past _ :=
    if (past.filter isLookup).length = 2 then .ok [.v4 127 0 0 1] else .ok [.v4 203 0 113 5]
  connects _ _ := 1
  tries _ _ := true
  respond _ _ := .ok ⟨302, some "http://127.0.0.1/", .bytes []⟩
  unixSocket _ _ := .ok []

def twice : List Request := [.http01 "victim" "t" "k" 80, .http01 "victim" "t" "k" 80]

def openedIp : Event → Option IpAddr
  | .opened ip => some ip
  | _ => none

/-- The first validation is stopped by the resolver, the second one opens the
public address and is stopped at the redirect. -/
theorem public_address_only :
    (performAll fetcher rebinding [] twice).filterMap openedIp = [.v4 203 0 113 5] ∧
      isBlockedIp (.v4 203 0 113 5) = false :=
  ⟨by decide +kernel, no_blocked_connection fetcher rebinding rfl twice _ (by decide +kernel)⟩

end OutboundExample

end Akamu.Validation
