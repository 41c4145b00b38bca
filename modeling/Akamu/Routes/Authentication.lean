import Akamu.Lib.ReadThrough
import Akamu.Node.Requests

/-!
# Authentication

`parse_jws` of `routes/mod.rs`, and the handlers that end an account or change its
key.  A request that names its account by `kid` takes the account's key from a
cache, or reads the row and puts the key into the cache; a deactivation or a key
change commits and then evicts.  Between any two of these steps other requests
may take theirs.
-/

namespace Akamu

open Machine Tasks

/-! ## Requests -/

structure JwsFlattened where
  protected_ : String
  payload : String
  signature : String
  deriving DecidableEq, Repr

inductive JwsKeyRef where
  | jwk (jwk : String)
  | kid (kid : String)
  deriving DecidableEq, Repr

structure JwsProtectedHeader where
  alg : String
  nonce : String
  url : String
  keyRef : JwsKeyRef
  deriving DecidableEq, Repr

structure UpdatePayload where
  contact : Option String
  status : Option String
  deriving DecidableEq, Repr

/-- The verified inner JWS of a key change: the new key, the account it names and
the key it calls the old one, which is not looked at before the account. -/
structure KeyChangeInner where
  publicKey : List UInt8
  jwkThumbprint : String
  account : String
  oldKey : Except AcmeError (List UInt8)

structure JoseLibrary where
  decodeHeader : JwsFlattened → Except AcmeError JwsProtectedHeader
  decodePayload : JwsFlattened → Except AcmeError (List UInt8)
  toSpkiDer : String → Except AcmeError (List UInt8)
  verify : JwsFlattened → List UInt8 → Except AcmeError Unit
  parseUpdate : List UInt8 → Except AcmeError UpdatePayload
  parseKeyChange : List UInt8 → Except AcmeError KeyChangeInner

/-- What `parse_jws` hands to the handler. -/
structure JwsContext where
  payload : List UInt8
  spkiDer : List UInt8
  accountId : Option String
  jwkThumbprint : Option String
  nextNonce : String
  deriving DecidableEq, Repr

/-- The handler that a request is for.  All other handlers leave the accounts
table as it is. -/
inductive Route where
  | updateAccount (id : String)
  | keyChange (caId : String)
  | other
  deriving DecidableEq, Repr

def accountIdFromKid (cfg : Config) (kid : String) : Except AcmeError String :=
  match Text.stripPrefix kid (cfg.baseUrl ++ "/acme/account/") with
  | some id =>
    if id = "" then .error (.unauthorized "kid account ID is empty") else .ok id
  | none => .error (.unauthorized ("kid '" ++ kid ++ "' does not match server base URL"))

/-! ## Nonces -/

structure NonceBucket where
  prefixDot : String
  inner : KeyedTable (String × Int) Prod.fst

namespace NonceBucket

def hasLocalPrefix (b : NonceBucket) (nonce : String) : Bool :=
  b.prefixDot = "" || Text.startsWith nonce b.prefixDot

def insert (b : NonceBucket) (nonce : String) (now : Int) : NonceBucket :=
  { b with inner := b.inner.put (nonce, now) }

def consumeAndInsert (b : NonceBucket) (old new : String) (now : Int) : NonceBucket × Bool :=
  if (b.inner.find? old).isSome then
    ({ b with inner := (b.inner.retain fun e ↦ e.1 != old).put (new, now) }, true)
  else (b, false)

end NonceBucket

/-! ## The server -/

inductive AccountWrite where
  | deactivate (id : String) (now : Int) (byOperator : Bool)
  | updateContact (id : String) (contact : Option String) (now : Int)
  | updateKey (id : String) (publicKey : List UInt8) (jwkThumbprint : String) (now : Int)
  deriving DecidableEq, Repr

def Task.accountWrite? : Task → Option AccountWrite
  | .commit (.deactivateAccount id now byOperator) => some (.deactivate id now byOperator)
  | .commit (.updateContact id contact now) => some (.updateContact id contact now)
  | .commit (.updateKey id publicKey jwkThumbprint now) =>
    some (.updateKey id publicKey jwkThumbprint now)
  | _ => none

namespace AuthServer

structure CachedAccount where
  spkiDer : List UInt8
  jwkThumbprint : String
  status : AccountStatus
  cachedAt : ℕ
  deriving DecidableEq, Repr

def spkiCacheTtl : ℕ := 60

/-- One call of `parse_jws`, numbered in the order in which the calls begin. -/
structure Call where
  number : ℕ
  jws : JwsFlattened
  route : Route
  nextNonce : String
  deriving DecidableEq, Repr

inductive Done where
  | deactivated
  /-- The key that signed the request, and the one that was in the row. -/
  | keyChanged (replaced : List (List UInt8))
  deriving DecidableEq, Repr

inductive Task where
  | lookup (call : Call) (id : String)
  | load (call : Call) (id : String)
  | insert (call : Call) (id : String) (entry : CachedAccount)
  | verify (call : Call) (id : Option String) (spkiDer : List UInt8)
      (jwkThumbprint : Option String)
  | handle (call : Call) (ctx : JwsContext)
  | write (w : AccountWrite) (signedWith : Option (List UInt8))
  | evict (id : String) (done : Done)
  deriving DecidableEq, Repr

inductive Output where
  | accepted (call : Call) (ctx : JwsContext)
  | rejected (number : ℕ) (e : AcmeError)
  | done (id : String) (done : Done)
  | refused (e : AcmeError)
  deriving DecidableEq

inductive Arrival where
  | newNonce (nonce : String) (now : Int)
  | request (jws : JwsFlattened) (expectedUrl : String) (route : Route) (nextNonce : String)
      (now : Int)
  | postAccountDeactivate (id : String) (now : Int)
  | elapse (secs : ℕ)

/-- The last two fields are for the statements only: how many calls have begun,
and which keys key changes have replaced. -/
structure State where
  db : Db
  clock : ℕ
  nonces : NonceBucket
  spkiCache : String → Option CachedAccount
  calls : ℕ
  replaced : List (String × List UInt8)

/-- The synchronous start of `parse_jws`, up to the account. -/
def beginJws (cfg : Config) (lib : JoseLibrary) (sh : State) (call : Call) (expectedUrl : String)
    (now : Int) : NonceBucket × Except AcmeError Task :=
  match lib.decodeHeader call.jws with
  | .error e => (sh.nonces, .error e)
  | .ok header =>
    if header.url ≠ expectedUrl then
      (sh.nonces, .error (.unauthorized ("JWS url mismatch: got '" ++ header.url ++
        "', expected '" ++ expectedUrl ++ "'")))
    else
      let consumed := sh.nonces.consumeAndInsert header.nonce call.nextNonce now
      if sh.nonces.hasLocalPrefix header.nonce && consumed.2 then
        (consumed.1,
          match header.keyRef with
          | .jwk jwk => (lib.toSpkiDer jwk).map fun spki ↦ .verify call none spki none
          | .kid kid => (accountIdFromKid cfg kid).map fun id ↦ .lookup call id)
      else (sh.nonces.insert call.nextNonce now, .error (.badNonce call.nextNonce))

def arrive (cfg : Config) (lib : JoseLibrary) (sh : State) : Arrival → Result State Task Output
  | .newNonce nonce now => .idle { sh with nonces := sh.nonces.insert nonce now }
  | .request jws expectedUrl route nextNonce now =>
    let begun := beginJws cfg lib sh ⟨sh.calls, jws, route, nextNonce⟩ expectedUrl now
    let sh' := { sh with nonces := begun.1, calls := sh.calls + 1 }
    match begun.2 with
    | .error e => .answer sh' (.rejected sh.calls e)
    | .ok task => .goOn sh' task
  | .postAccountDeactivate id now => .goOn sh (.write (.deactivate id now true) none)
  | .elapse secs => .idle { sh with clock := sh.clock + secs }

def statusError (status : AccountStatus) : AcmeError :=
  .unauthorized ("account status is '" ++ status.asStr ++ "'")

def begun (sh : State) (signedWith : List UInt8) :
    Except AcmeError (List Akamu.Task) → Result State Task Output
  | .error e => .answer sh (.refused e)
  | .ok ts => ⟨sh, (ts.filterMap Task.accountWrite?).map fun w ↦ .write w (some signedWith), none⟩

def handleUpdateAccount (lib : JoseLibrary) (db : Db) (now : Int) (id : String)
    (ctx : JwsContext) : Except AcmeError (List Akamu.Task) :=
  match ctx.accountId with
  | none => .error (.unauthorized "kid required")
  | some accountId =>
    if accountId ≠ id then .error (.unauthorized "kid does not match account ID")
    else if (Accounts.getById db id).isNone then .error .accountDoesNotExist
    else if ctx.payload.isEmpty then .ok []
    else
      match lib.parseUpdate ctx.payload with
      | .error e => .error e
      | .ok payload =>
        beginUpdateAccount db now id (payload.status == some "deactivated") payload.contact

def handleKeyChange (cfg : Config) (lib : JoseLibrary) (db : Db) (now : Int) (caId : String)
    (ctx : JwsContext) : Except AcmeError (List Akamu.Task) :=
  match ctx.accountId with
  | none => .error (.unauthorized "kid required")
  | some accountId =>
    if ctx.payload.isEmpty then .error (.badRequest "key-change payload is required")
    else
      match lib.parseKeyChange ctx.payload with
      | .error e => .error e
      | .ok inner =>
        if inner.account ≠ accountUri cfg caId accountId then
          .error (.badRequest "inner payload account URL does not match")
        else
          match inner.oldKey with
          | .error e => .error e
          | .ok oldKey =>
            if oldKey ≠ ctx.spkiDer then
              .error (.unauthorized "inner payload oldKey does not match current account key")
            else beginKeyChange db now accountId inner.publicKey inner.jwkThumbprint

def replacedKey (db : Db) (id : String) : Option (List UInt8) :=
  ((db.accounts.find? id).filter fun row ↦ row.status == .valid).map AccountRow.publicKey

/-- `update_account` and `key_change` do not look at the number of rows. -/
def runWrite (sh : State) (signedWith : Option (List UInt8)) :
    AccountWrite → Result State Task Output
  | .deactivate id now byOperator =>
    let done := Accounts.updateStatus sh.db id .deactivated now
    if byOperator && !done.2 then .answer { sh with db := done.1 } (.refused .notFound)
    else .goOn { sh with db := done.1 } (.evict id .deactivated)
  | .updateContact id contact now =>
    .idle { sh with db := (Accounts.updateContact sh.db id contact now).1 }
  | .updateKey id publicKey jwkThumbprint now =>
    match Accounts.updateKey sh.db id publicKey jwkThumbprint now with
    | .error e => .answer sh (.refused e)
    | .ok done =>
      let old := (replacedKey sh.db id).toList
      .goOn { sh with db := done.1, replaced := old.map (id, ·) ++ sh.replaced }
        (.evict id (.keyChanged (signedWith.toList ++ old)))

def Task.act (cfg : Config) (lib : JoseLibrary) (sh : State) (now : Int) :
    Task → Result State Task Output
  | .lookup call id =>
    match (sh.spkiCache id).filter fun entry ↦
        decide (sh.clock - entry.cachedAt ≤ spkiCacheTtl) with
    | some entry =>
      if entry.status ≠ .valid then
        .answer sh (.rejected call.number (statusError entry.status))
      else .goOn sh (.verify call (some id) entry.spkiDer (some entry.jwkThumbprint))
    | none => .goOn sh (.load call id)
  | .load call id =>
    match Accounts.getById sh.db id with
    | none => .answer sh (.rejected call.number (.unauthorized "account not found"))
    | some account =>
      if account.status ≠ .valid then
        .answer sh (.rejected call.number (statusError account.status))
      else
        .goOn sh (.insert call id
          ⟨account.publicKey, account.jwkThumbprint, account.status, sh.clock⟩)
  | .insert call id entry =>
    -- whatever has been evicted since the row was read
    .goOn { sh with spkiCache := Function.update sh.spkiCache id (some entry) }
      (.verify call (some id) entry.spkiDer (some entry.jwkThumbprint))
  | .verify call id spkiDer jwkThumbprint =>
    match lib.verify call.jws spkiDer, lib.decodePayload call.jws with
    | .error e, _ => .answer sh (.rejected call.number e)
    | .ok _, .error e => .answer sh (.rejected call.number e)
    | .ok _, .ok payload =>
      let ctx : JwsContext := ⟨payload, spkiDer, id, jwkThumbprint, call.nextNonce⟩
      ⟨sh, [.handle call ctx], some (.accepted call ctx)⟩
  | .handle call ctx =>
    match call.route with
    | .updateAccount id => begun sh ctx.spkiDer (handleUpdateAccount lib sh.db now id ctx)
    | .keyChange caId => begun sh ctx.spkiDer (handleKeyChange cfg lib sh.db now caId ctx)
    | .other => .idle sh
  | .write w signedWith => runWrite sh signedWith w
  | .evict id done =>
    .answer { sh with spkiCache := Function.update sh.spkiCache id none } (.done id done)

def system (cfg : Config) (lib : JoseLibrary) : System State Task Arrival Int Output where
  arrive := arrive cfg lib
  act sh task now := task.act cfg lib sh now

def boot (db : Db) (prefixDot : String) : Pool State Task :=
  ⟨⟨db, 0, ⟨prefixDot, .empty⟩, fun _ ↦ none, 0, []⟩, []⟩

end AuthServer

end Akamu
