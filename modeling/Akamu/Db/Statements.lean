import Akamu.Lib.ExceptOps
import Akamu.Schema
import Akamu.Text

/-!
# SQL statements

The functions of `db/*.rs` that the modelled handlers call.  A function that
reports the number of affected rows returns it (or the Boolean made from it)
next to the new database; one that can fail returns `Except`.  `LIMIT 1` picks
the first row in table order.
-/

namespace Akamu

/-- The driver's report of a violated `PRIMARY KEY`, `UNIQUE` or `CHECK`. -/
def constraintFailed : AcmeError := .database "constraint failed"

variable {db' db : Db}

namespace Accounts

def insert (db : Db) (row : AccountRow) : Except AcmeError Db :=
  if db.accounts.rows.any fun a ↦ a.jwkThumbprint == row.jwkThumbprint then
    .error constraintFailed
  else
    match db.accounts.insert? row with
    | some accounts => .ok { db with accounts := accounts }
    | none => .error constraintFailed

theorem insert_eq_ok {row : AccountRow} (h : insert db row = .ok db') :
    ∃ t, db' = { db with accounts := t } ∧ db.accounts.insert? row = some t := by
  unfold insert at h
  split at h
  · cases h
  · split at h
    · rename_i t ht
      cases h
      exact ⟨t, rfl, ht⟩
    · cases h

def getById (db : Db) (id : String) : Option AccountRow := db.accounts.find? id

def getByThumbprint (db : Db) (thumbprint : String) : Option AccountRow :=
  db.accounts.rows.find? fun a ↦ a.jwkThumbprint == thumbprint

/-- `WHERE id = ? AND status = 'valid'`. -/
def isValid (id : String) (a : AccountRow) : Bool := a.id == id && a.status == .valid

def updateContact (db : Db) (id : String) (contact : Option String) (now : Int) : Db × Bool :=
  ({ db with
      accounts := db.accounts.updateWhere (isValid id)
        (fun a ↦ { a with contact := contact, updated := now }) fun _ ↦ rfl },
    db.accounts.countWhere (isValid id) != 0)

def updateStatus (db : Db) (id : String) (status : AccountStatus) (now : Int) : Db × Bool :=
  ({ db with
      accounts := db.accounts.updateWhere (fun a ↦ a.id == id)
        (fun a ↦ { a with status := status, updated := now }) fun _ ↦ rfl },
    db.accounts.countWhere (fun a ↦ a.id == id) != 0)

def updateKey (db : Db) (id : String) (publicKey : List UInt8) (jwkThumbprint : String)
    (now : Int) : Except AcmeError (Db × Bool) :=
  if db.accounts.rows.any (isValid id) &&
      db.accounts.rows.any (fun a ↦ a.id != id && a.jwkThumbprint == jwkThumbprint) then
    .error constraintFailed
  else .ok
    ({ db with
        accounts := db.accounts.updateWhere (isValid id)
          (fun a ↦ { a with publicKey := publicKey, jwkThumbprint := jwkThumbprint,
                            updated := now }) fun _ ↦ rfl },
      db.accounts.countWhere (isValid id) != 0)

def setProfileGrants (db : Db) (id : String) (grants : Option String) (now : Int) : Db × Bool :=
  ({ db with
      accounts := db.accounts.updateWhere (isValid id)
        (fun a ↦ { a with profileGrants := grants, updated := now }) fun _ ↦ rfl },
    db.accounts.countWhere (isValid id) != 0)

end Accounts

namespace Orders

def insert (db : Db) (row : OrderRow) : Except AcmeError Db :=
  match db.orders.insert? row with
  | some orders => .ok { db with orders := orders }
  | none => .error constraintFailed

theorem insert_eq_ok {row : OrderRow} (h : insert db row = .ok db') :
    ∃ t, db' = { db with orders := t } ∧ db.orders.insert? row = some t := by
  unfold insert at h
  split at h
  · rename_i t ht
    cases h
    exact ⟨t, rfl, ht⟩
  · cases h

def getById (db : Db) (id : String) : Option OrderRow := db.orders.find? id

/-- An `UPDATE orders` whose caller turns zero affected rows into an error. -/
def updateOrElse (db : Db) (p : OrderRow → Bool) (f : OrderRow → OrderRow)
    (hf : ∀ o, (f o).id = o.id) (err : AcmeError) : Except AcmeError Db :=
  if db.orders.countWhere p = 0 then .error err
  else .ok { db with orders := db.orders.updateWhere p f hf }

def cancelStar (db : Db) (id : String) (now : Int) : Db :=
  { db with
    orders := db.orders.updateWhere (fun o ↦ o.id == id && o.starCanceledAt.isNone)
      (fun o ↦ { o with starCanceledAt := some now, updated := now }) fun _ ↦ rfl }

def listActiveStar (db : Db) : List OrderRow :=
  db.orders.rows.filter fun o ↦
    o.starEndDate.isSome && o.starCanceledAt.isNone && o.status == .valid

def setStarCsr (db : Db) (id : String) (csrDer : List UInt8) : Except AcmeError Db :=
  updateOrElse db (fun o ↦ o.id == id) (fun o ↦ { o with starCsrDer := some csrDer })
    (fun _ ↦ rfl) .notFound

def updateStatus (db : Db) (id : String) (status : OrderStatus) (error : Option String)
    (now : Int) : Except AcmeError Db :=
  updateOrElse db (fun o ↦ o.id == id)
    (fun o ↦ { o with status := status, error := error, updated := now }) (fun _ ↦ rfl) .notFound

/-- The guard `status = 'ready'` makes finalization happen once. -/
def setCertificate (db : Db) (id certificateId : String) (now : Int) : Except AcmeError Db :=
  updateOrElse db (fun o ↦ o.id == id && o.status == .ready)
    (fun o ↦ { o with status := .valid, certificateId := some certificateId, updated := now })
    (fun _ ↦ rfl) (.conflict "order already finalized")

def setProcessingWithCsrDer (db : Db) (id : String) (csrDer : List UInt8) (now : Int) :
    Except AcmeError Db :=
  updateOrElse db (fun o ↦ o.id == id && o.status == .ready)
    (fun o ↦ { o with status := .processing, starCsrDer := some csrDer, updated := now })
    (fun _ ↦ rfl) (.conflict "order already advanced past ready")

def setValidWithCertificate (db : Db) (id certificateId : String) (now : Int) :
    Except AcmeError Db :=
  updateOrElse db (fun o ↦ o.id == id && o.status == .processing)
    (fun o ↦ { o with status := .valid, certificateId := some certificateId, updated := now })
    (fun _ ↦ rfl) (.conflict "order not in processing state")

def updateStarCertificate (db : Db) (id certificateId : String) (now : Int) : Db × Bool :=
  ({ db with
      orders := db.orders.updateWhere (fun o ↦ o.id == id && o.starCanceledAt.isNone)
        (fun o ↦ { o with certificateId := some certificateId, updated := now }) fun _ ↦ rfl },
    db.orders.countWhere (fun o ↦ o.id == id && o.starCanceledAt.isNone) != 0)

def setUpstreamOrderUrl (db : Db) (id url : String) (now : Int) : Except AcmeError Db :=
  updateOrElse db (fun o ↦ o.id == id)
    (fun o ↦ { o with upstreamOrderUrl := some url, updated := now }) (fun _ ↦ rfl) .notFound

def setUpstreamCertUrl (db : Db) (id url : String) (now : Int) : Except AcmeError Db :=
  updateOrElse db (fun o ↦ o.id == id)
    (fun o ↦ { o with upstreamCertUrl := some url, updated := now }) (fun _ ↦ rfl) .notFound

def listPendingDelegationOrders (db : Db) : List OrderRow :=
  db.orders.rows.filter fun o ↦
    o.delegationId.isSome && o.status == .processing && o.upstreamCertUrl.isNone

theorem updateOrElse_eq_ok_iff {p : OrderRow → Bool} {f : OrderRow → OrderRow}
    {hf : ∀ o, (f o).id = o.id} {err : AcmeError} :
    updateOrElse db p f hf err = .ok db' ↔
      (∃ o ∈ db.orders.rows, p o) ∧ db' = { db with orders := db.orders.updateWhere p f hf } := by
  unfold updateOrElse
  split
  · rename_i h
    rw [KeyedTable.countWhere_eq_zero_iff] at h
    simp only [reduceCtorEq, false_iff, not_and]
    rintro ⟨o, ho, hp⟩
    exact (h o ho hp).elim
  · rename_i h
    rw [← ne_eq, KeyedTable.countWhere_ne_zero_iff] at h
    simp only [Except.ok.injEq, h, true_and]
    exact eq_comm

end Orders

/-- The CA scope test of the authorization queries: rows written before CA ids
existed carry the empty or the `default` id. -/
def caScope (rowCa caId : String) : Bool := rowCa == caId || rowCa == "default" || rowCa == ""

namespace Authz

def insert (db : Db) (row : AuthorizationRow) : Except AcmeError Db :=
  match db.authorizations.insert? row with
  | some authorizations => .ok { db with authorizations := authorizations }
  | none => .error constraintFailed

variable {decodeNull : Except AcmeError String} {row : AuthorizationRow}

theorem insert_eq_ok (h : insert db row = .ok db') :
    ∃ t, db' = { db with authorizations := t } ∧ db.authorizations.insert? row = some t := by
  unfold insert at h
  split at h
  · rename_i t ht
    cases h
    exact ⟨t, rfl, ht⟩
  · cases h

/-- Decoding a row into the Rust `AuthorizationRow`, whose `order_id` is not
optional; what the driver makes of `NULL` there is a parameter. -/
def decode (decodeNull : Except AcmeError String) (row : AuthorizationRow) :
    Except AcmeError AuthorizationRow :=
  match row.orderId with
  | some _ => .ok row
  | none => decodeNull.map fun s ↦ { row with orderId := some s }

def decodeOpt (decodeNull : Except AcmeError String) :
    Option AuthorizationRow → Except AcmeError (Option AuthorizationRow)
  | none => .ok none
  | some row => (decode decodeNull row).map some

def getById (decodeNull : Except AcmeError String) (db : Db) (id : String) :
    Except AcmeError (Option AuthorizationRow) :=
  decodeOpt decodeNull (db.authorizations.find? id)

def listByOrder (db : Db) (orderId : String) : List AuthorizationRow :=
  db.authorizations.rows.filter fun a ↦ a.orderId == some orderId

/-- The authorization with its challenges; here a `NULL` order id is read as
the empty text. -/
def getWithChallenges (db : Db) (authzId : String) :
    Option (AuthorizationRow × List ChallengeRow) :=
  (db.authorizations.find? authzId).map fun a ↦
    ({ a with orderId := some (a.orderId.getD "") },
      db.challenges.rows.filter fun c ↦ c.authzId == authzId)

def unexpired (now : Int) (a : AuthorizationRow) : Bool :=
  a.expires.all fun e ↦ decide (now < e)

def findValidByAccountAndIdentifier (decodeNull : Except AcmeError String) (db : Db)
    (accountId : String) (identifier : Identifier) (caId : String) (now : Int) :
    Except AcmeError (Option AuthorizationRow) :=
  decodeOpt decodeNull (db.authorizations.rows.find? fun a ↦
    a.accountId == accountId && a.identifier == identifier && caScope a.caId caId &&
      (a.status == .pending || a.status == .valid) && unexpired now a)

/-- The `WHERE` clause of one query of the ancestor search. -/
def isSubdomainAncestor (accountId remaining caId : String) (now : Int)
    (a : AuthorizationRow) : Bool :=
  a.accountId == accountId && a.identifier == ⟨.dns, remaining⟩ && a.subdomainAuthAllowed &&
    caScope a.caId caId && a.status == .valid && unexpired now a

def findValidSubdomainAncestor (decodeNull : Except AcmeError String) (db : Db)
    (accountId domain caId : String) (now : Int) : Except AcmeError (Option AuthorizationRow) :=
  decodeOpt decodeNull ((Text.ancestorDomains domain).findSome? fun remaining ↦
    db.authorizations.rows.find? (isSubdomainAncestor accountId remaining caId now))

theorem decodeOpt_eq_ok {found : Option AuthorizationRow}
    (h : decodeOpt decodeNull found = .ok (some row)) :
    ∃ a, found = some a ∧ row = { a with orderId := row.orderId } ∧
      ∀ oid, a.orderId = some oid → row.orderId = some oid := by
  cases found with
  | none => cases h
  | some a =>
    obtain ⟨_, hdecode, heq⟩ := Except.map_eq_ok h
    cases heq
    refine ⟨a, rfl, ?_⟩
    unfold decode at hdecode
    split at hdecode
    · cases hdecode
      exact ⟨rfl, fun _ hoid ↦ hoid⟩
    · rename_i hnone
      obtain ⟨s, -, rfl⟩ := Except.map_eq_ok hdecode
      exact ⟨rfl, by simp [hnone]⟩

theorem findValidSubdomainAncestor_eq_some {accountId domain caId : String} {now : Int}
    (h : findValidSubdomainAncestor decodeNull db accountId domain caId now = .ok (some row)) :
    ∃ a ∈ db.authorizations.rows, a.id = row.id ∧ a.accountId = accountId ∧
      a.subdomainAuthAllowed = true ∧ caScope a.caId caId = true ∧ a.status = .valid ∧
      unexpired now a = true ∧
      ∃ remaining ∈ Text.ancestorDomains domain, a.identifier = ⟨.dns, remaining⟩ := by
  obtain ⟨a, hfind, hdecoded, -⟩ := decodeOpt_eq_ok h
  obtain ⟨remaining, hmem, hrow⟩ := List.exists_of_findSome?_eq_some hfind
  have hwhere := List.find?_some hrow
  simp only [isSubdomainAncestor, Bool.and_eq_true, beq_iff_eq] at hwhere
  obtain ⟨⟨⟨⟨⟨hacct, hident⟩, hflag⟩, hca⟩, hvalid⟩, hexp⟩ := hwhere
  exact ⟨a, List.mem_of_find?_eq_some hrow, (congrArg AuthorizationRow.id hdecoded :).symm, hacct,
    hflag, hca, hvalid, hexp, remaining, hmem, hident⟩

end Authz

namespace Challenges

def pendingRow (authzId token : String) (now : Int) (c : String × ChallengeType) : ChallengeRow where
  id := c.1
  authzId := authzId
  type := c.2
  status := .pending
  token := token
  validated := none
  error := none
  created := now
  updated := now
  emailMessageId := none

def insert (db : Db) (row : ChallengeRow) : Except AcmeError Db :=
  match db.challenges.insert? row with
  | some challenges => .ok { db with challenges := challenges }
  | none => .error constraintFailed

theorem insert_eq_ok {row : ChallengeRow} (h : insert db row = .ok db') :
    ∃ t, db' = { db with challenges := t } ∧ db.challenges.insert? row = some t := by
  unfold insert at h
  split at h
  · rename_i t ht
    cases h
    exact ⟨t, rfl, ht⟩
  · cases h

def insertBatch (db : Db) (authzId : String) (challenges : List (String × ChallengeType))
    (token : String) (now : Int) : Except AcmeError Db :=
  challenges.foldlM (fun db c ↦ insert db (pendingRow authzId token now c)) db

theorem insertBatch_eq_ok {authzId token : String} {now : Int}
    {challenges : List (String × ChallengeType)}
    (h : insertBatch db authzId challenges token now = .ok db') :
    ∃ t, db' = { db with challenges := t } ∧
      t.rows = db.challenges.rows ++ challenges.map (pendingRow authzId token now) := by
  induction challenges generalizing db with
  | nil =>
    cases h
    exact ⟨_, rfl, by simp⟩
  | cons c cs ih =>
    obtain ⟨mid, hinsert, h⟩ := Except.bind_eq_ok h
    obtain ⟨t, rfl, ht⟩ := insert_eq_ok hinsert
    obtain ⟨t', rfl, hrows⟩ := ih h
    refine ⟨t', rfl, ?_⟩
    rw [hrows, (KeyedTable.insert?_eq_some_iff.mp ht).2]
    simp

/-- `WHERE id = ? AND status = ?`. -/
def inStatus (id : String) (status : ChallengeStatus) (c : ChallengeRow) : Bool :=
  c.id == id && c.status == status

def setProcessingIfPending (db : Db) (id : String) (now : Int) : Db × ℕ :=
  ({ db with
      challenges := db.challenges.updateWhere (inStatus id .pending)
        (fun c ↦ { c with status := .processing, updated := now }) fun _ ↦ rfl },
    db.challenges.countWhere (inStatus id .pending))

/-- The challenge type recorded for each authorization; with several valid
challenges the last row wins, as when collecting pairs into a hash map. -/
def getValidatedTypesForAuthzs (db : Db) (authzIds : List String) (authzId : String) :
    Option ChallengeType :=
  (db.challenges.rows.reverse.find? fun c ↦
    c.status == .valid && authzIds.contains c.authzId && c.authzId == authzId).map
      ChallengeRow.type

def setEmailToken (db : Db) (id messageId : String) (now : Int) : Except AcmeError Db :=
  if db.challenges.rows.any (fun c ↦ c.id == id) &&
      db.challenges.rows.any (fun c ↦ c.id != id && c.emailMessageId == some messageId) then
    .error constraintFailed
  else if db.challenges.countWhere (fun c ↦ c.id == id) = 0 then
    .error (.internal ("set_email_token: challenge " ++ id ++ " not found"))
  else .ok
    { db with
      challenges := db.challenges.updateWhere (fun c ↦ c.id == id)
        (fun c ↦ { c with emailMessageId := some messageId, updated := now }) fun _ ↦ rfl }

def getByEmailMessageId (db : Db) (messageId : String) : Option ChallengeRow :=
  db.challenges.rows.find? fun c ↦
    c.emailMessageId == some messageId && c.type == .emailReply00 && c.status == .processing

end Challenges

namespace Certs

/-- `INSERT INTO certificates`, which always stores `replaced_by` as `NULL`. -/
def insert (db : Db) (row : CertificateRow) : Except AcmeError Db :=
  if db.certificates.rows.any fun c ↦ c.serialNumber == row.serialNumber then
    .error constraintFailed
  else
    match db.certificates.insert? { row with replacedBy := none } with
    | some certificates => .ok { db with certificates := certificates }
    | none => .error constraintFailed

theorem insert_eq_ok {row : CertificateRow} (h : insert db row = .ok db') :
    ∃ t, db' = { db with certificates := t } ∧
      db.certificates.insert? { row with replacedBy := none } = some t := by
  unfold insert at h
  split at h
  · cases h
  · split at h
    · rename_i t ht
      cases h
      exact ⟨t, rfl, ht⟩
    · cases h

def getBySerial (db : Db) (serial : String) : Option CertificateRow :=
  db.certificates.rows.find? fun c ↦ c.serialNumber == serial

/-- `ORDER BY created DESC LIMIT 1`. -/
def getLatestForOrder (db : Db) (orderId : String) : Option CertificateRow :=
  (db.certificates.rows.filter fun c ↦ c.orderId == orderId).foldl (fun best c ↦
    match best with
    | none => some c
    | some b => if b.created < c.created then some c else some b) none

def getByCertId (certIdSerial : String → Except AcmeError String) (db : Db) (certId : String) :
    Except AcmeError (Option CertificateRow) :=
  (certIdSerial certId).map (getBySerial db)

def markReplaced (db : Db) (certUuid replacingOrderId : String) : Db × Bool :=
  ({ db with
      certificates := db.certificates.updateWhere (fun c ↦ c.id == certUuid && c.replacedBy.isNone)
        (fun c ↦ { c with replacedBy := some replacingOrderId }) fun _ ↦ rfl },
    db.certificates.countWhere (fun c ↦ c.id == certUuid && c.replacedBy.isNone) != 0)

/-- The `WHERE` clause of `revoke`, with the optional CA scope. -/
def revocable (id : String) (caId : Option String) (c : CertificateRow) : Bool :=
  c.id == id && c.status == .valid && caId.all (c.caId == ·)

def revoke (db : Db) (id : String) (reason : Option Int) (now : Int) (caId : Option String) :
    Db × Bool :=
  ({ db with
      certificates := db.certificates.updateWhere (revocable id caId)
        (fun c ↦ { c with status := .revoked, revokedAt := some now,
                          revocationReason := reason }) fun _ ↦ rfl },
    db.certificates.countWhere (revocable id caId) != 0)

end Certs

namespace Eab

def insertIfAbsent (db : Db) (row : EabKeyRow) : Db × Bool :=
  match db.eabKeys.insert? row with
  | some eabKeys => ({ db with eabKeys := eabKeys }, true)
  | none => (db, false)

def insertWithGrants (db : Db) (row : EabKeyRow) : Except AcmeError Db :=
  match db.eabKeys.insert? row with
  | some eabKeys => .ok { db with eabKeys := eabKeys }
  | none => .error constraintFailed

def getByKid (db : Db) (kid : String) : Option EabKeyRow := db.eabKeys.find? kid

/-- `WHERE kid = ? AND used_at IS NULL`. -/
def isUnused (kid : String) (k : EabKeyRow) : Bool := k.kid == kid && k.usedAt.isNone

def markUsed (db : Db) (kid : String) (now : Int) : Except AcmeError Db :=
  if db.eabKeys.countWhere (isUnused kid) = 0 then
    .error (.conflict "EAB key already consumed by a concurrent request")
  else .ok
    { db with
      eabKeys := db.eabKeys.updateWhere (isUnused kid)
        (fun k ↦ { k with usedAt := some now }) fun _ ↦ rfl }

def delete (db : Db) (kid : String) : Db × ℕ :=
  ({ db with eabKeys := db.eabKeys.retain fun k ↦ k.kid != kid },
    db.eabKeys.countWhere fun k ↦ k.kid == kid)

end Eab

namespace Tkauth

/-- Remember a token id; `false` when it has been seen before. -/
def insertJti (db : Db) (row : TkauthJtiRow) : Db × Bool :=
  match db.tkauthJtiCache.insert? row with
  | some cache => ({ db with tkauthJtiCache := cache }, true)
  | none => (db, false)

def getAnyCaFlagForAuthzs (db : Db) (authzIds : List String) : Bool :=
  db.tkauthJtiCache.rows.any fun r ↦ r.caFlag && authzIds.contains r.authzId

def getTkvalueForAuthz (db : Db) (authzId : String) : Option String :=
  db.tkauthJtiCache.rows.findSome? fun r ↦ if r.authzId == authzId then r.tkvalue else none

def getMinExpForAuthzs (db : Db) (authzIds : List String) : Option Int :=
  ((db.tkauthJtiCache.rows.filter fun r ↦ authzIds.contains r.authzId).map
    TkauthJtiRow.expires).min?

def purgeExpired (db : Db) (now : Int) : Db :=
  { db with tkauthJtiCache := db.tkauthJtiCache.retain fun r ↦ decide (now ≤ r.expires) }

end Tkauth

end Akamu
