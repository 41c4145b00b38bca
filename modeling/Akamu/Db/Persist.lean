import Akamu.Crdt.AkaCrdt
import Akamu.Db.Statements

/-!
# Writing the replica back to the database

`persist_crdt_acme` and the ACME part of `load_from_db`.  The write-back is one
transaction over all entries of the replica, tombstoned ones included; a status
text outside the column's enumeration violates its `CHECK` and aborts the whole
transaction, and so does a new row whose parent row is missing at the end.  The
theorems `…_of_persist` say what one row looks like afterwards.
-/

namespace Akamu

open Crdt KeyedTable
open Except (bind_eq_ok)

/-! ## Statements

For each table: the row that `INSERT` stores, with the column defaults for what
the entry does not carry, and the assignment of `ON CONFLICT (id) DO UPDATE`. -/

def accountRowOfEntry (id : String) (status : AccountStatus) (v : AccountEntry) : AccountRow where
  id := id
  status := status
  contact := v.contact
  publicKey := v.publicKeyDer
  jwkThumbprint := v.jwkThumbprint
  created := v.created
  updated := v.updated
  profileGrants := v.profileGrants
  caId := v.caId
  kerberosPrincipal := none

def assignAccount (status : AccountStatus) (v : AccountEntry) (a : AccountRow) : AccountRow :=
  { a with status := status, contact := v.contact, updated := v.updated, caId := v.caId,
           profileGrants := v.profileGrants }

@[simp] theorem assignAccount_id (status : AccountStatus) (v : AccountEntry) (r : AccountRow) :
    (assignAccount status v r).id = r.id := rfl

def persistAccount (t : KeyedTable AccountRow AccountRow.id)
    (e : String × OrMapEntry AccountEntry) :
    Except AcmeError (KeyedTable AccountRow AccountRow.id) :=
  match AccountStatus.fromStr e.2.value.status with
  | none => .error constraintFailed
  | some status =>
    -- the conflict target is the id alone, so a foreign thumbprint fails the insert
    if (t.find? e.1).isNone &&
        t.rows.any (fun a ↦ a.jwkThumbprint == e.2.value.jwkThumbprint) then
      .error constraintFailed
    else .ok (t.upsert (accountRowOfEntry e.1 status e.2.value)
      (assignAccount status e.2.value) (assignAccount_id status e.2.value))

def orderRowOfEntry (id : String) (status : OrderStatus) (v : OrderEntry) : OrderRow where
  id := id
  accountId := v.accountId
  status := status
  expires := v.expires
  identifiers := v.identifiers
  notBefore := v.notBefore
  notAfter := v.notAfter
  error := v.error
  certificateId := v.certificateId
  replaces := none
  created := v.created
  updated := v.updated
  starStartDate := none
  starEndDate := none
  starLifetimeSecs := none
  starLifetimeAdjustSecs := 0
  starCanceledAt := none
  starCsrDer := none
  profile := none
  caId := v.caId
  delegationId := none
  upstreamOrderUrl := none
  upstreamCertUrl := none

def assignOrder (status : OrderStatus) (v : OrderEntry) (o : OrderRow) : OrderRow :=
  { o with status := status, expires := v.expires, error := v.error,
           certificateId := v.certificateId, updated := v.updated }

@[simp] theorem assignOrder_id (status : OrderStatus) (v : OrderEntry) (r : OrderRow) :
    (assignOrder status v r).id = r.id := rfl

def persistOrder (t : KeyedTable OrderRow OrderRow.id) (e : String × OrMapEntry OrderEntry) :
    Except AcmeError (KeyedTable OrderRow OrderRow.id) :=
  match OrderStatus.fromStr e.2.value.status with
  | none => .error constraintFailed
  | some status => .ok (t.upsert (orderRowOfEntry e.1 status e.2.value)
      (assignOrder status e.2.value) (assignOrder_id status e.2.value))

def authzRowOfEntry (id : String) (status : AuthzStatus) (v : AuthzEntry) :
    AuthorizationRow where
  id := id
  orderId := some v.orderId
  accountId := v.accountId
  status := status
  identifier := v.identifier
  expires := v.expires
  wildcard := v.wildcard
  subdomainAuthAllowed := false
  created := v.created
  updated := v.updated
  caId := v.caId

def assignAuthz (status : AuthzStatus) (v : AuthzEntry) (a : AuthorizationRow) :
    AuthorizationRow :=
  { a with status := status, expires := v.expires, updated := v.updated }

@[simp] theorem assignAuthz_id (status : AuthzStatus) (v : AuthzEntry) (r : AuthorizationRow) :
    (assignAuthz status v r).id = r.id := rfl

def persistAuthz (t : KeyedTable AuthorizationRow AuthorizationRow.id)
    (e : String × OrMapEntry AuthzEntry) :
    Except AcmeError (KeyedTable AuthorizationRow AuthorizationRow.id) :=
  match AuthzStatus.fromStr e.2.value.status with
  | none => .error constraintFailed
  | some status => .ok (t.upsert (authzRowOfEntry e.1 status e.2.value)
      (assignAuthz status e.2.value) (assignAuthz_id status e.2.value))

def challengeRowOfEntry (id : String) (status : ChallengeStatus) (v : ChallengeEntry) :
    ChallengeRow where
  id := id
  authzId := v.authzId
  type := v.challengeType
  status := status
  token := v.token
  validated := v.validated
  error := v.error
  created := v.created
  updated := v.updated
  emailMessageId := none

def assignChallenge (status : ChallengeStatus) (v : ChallengeEntry) (c : ChallengeRow) :
    ChallengeRow :=
  { c with status := status, validated := v.validated, error := v.error, updated := v.updated }

@[simp] theorem assignChallenge_id (status : ChallengeStatus) (v : ChallengeEntry) (r : ChallengeRow) :
    (assignChallenge status v r).id = r.id := rfl

def persistChallenge (t : KeyedTable ChallengeRow ChallengeRow.id)
    (e : String × LwwRegister ChallengeEntry) :
    Except AcmeError (KeyedTable ChallengeRow ChallengeRow.id) :=
  match e.2.value with
  | none => .ok t
  | some v =>
    match ChallengeStatus.fromStr v.status with
    | none => .error constraintFailed
    | some status => .ok (t.upsert (challengeRowOfEntry e.1 status v)
        (assignChallenge status v) (assignChallenge_id status v))

def assignCert (status : CertStatus) (v : CertEntry) (c : CertificateRow) : CertificateRow :=
  { c with status := status, revokedAt := v.revokedAt, revocationReason := v.revocationReason }

@[simp] theorem assignCert_id (status : CertStatus) (v : CertEntry) (r : CertificateRow) :
    (assignCert status v r).id = r.id := rfl

/-- Certificates are updated only: the entry does not carry the DER. -/
def persistCert (t : KeyedTable CertificateRow CertificateRow.id)
    (e : String × OrMapEntry CertEntry) :
    Except AcmeError (KeyedTable CertificateRow CertificateRow.id) :=
  if (t.find? e.1).isNone then .ok t
  else
    match CertStatus.fromStr e.2.value.status with
    | none => .error constraintFailed
    | some status => .ok (t.updateWhere (fun c ↦ c.id == e.1)
        (assignCert status e.2.value) (assignCert_id status e.2.value))

def assignEabKey (v : EabKeyEntry) (k : EabKeyRow) : EabKeyRow := { k with usedAt := v.usedAt }

@[simp] theorem assignEabKey_kid (v : EabKeyEntry) (r : EabKeyRow) :
    (assignEabKey v r).kid = r.kid := rfl

def persistEabKey (t : KeyedTable EabKeyRow EabKeyRow.kid)
    (e : String × LwwRegister EabKeyEntry) : Except AcmeError (KeyedTable EabKeyRow EabKeyRow.kid) :=
  match e.2.value with
  | none => .ok t
  | some v => .ok (t.updateWhere (fun k ↦ k.kid == e.1)
      (assignEabKey v) (assignEabKey_kid v))

/-- The foreign keys of the rows that are in `db'` and not in `db`.  The upserts
change no such column and nothing is deleted, so the other rows keep theirs. -/
def foreignKeysHold (db db' : Db) : Bool :=
  (db'.orders.rows.all fun o ↦
    (db.orders.find? o.id).isSome || (db'.accounts.find? o.accountId).isSome) &&
  (db'.authorizations.rows.all fun a ↦
    (db.authorizations.find? a.id).isSome ||
      (a.orderId.all fun orderId ↦ (db'.orders.find? orderId).isSome) &&
        (db'.accounts.find? a.accountId).isSome) &&
  (db'.challenges.rows.all fun c ↦
    (db.challenges.find? c.id).isSome || (db'.authorizations.find? c.authzId).isSome)

/-- The foreign keys are deferred: they are checked when the transaction commits. -/
def commitForeignKeys (db db' : Db) : Except AcmeError Db :=
  if foreignKeysHold db db' then .ok db' else .error constraintFailed

def persistCrdtAcme (db : Db) (crdt : AkaCrdt) : Except AcmeError Db := do
  let accounts ← crdt.accounts.entries.rows.foldlM persistAccount db.accounts
  let orders ← crdt.orders.entries.rows.foldlM persistOrder db.orders
  let authorizations ← crdt.authorizations.entries.rows.foldlM persistAuthz db.authorizations
  let challenges ← crdt.challenges.entries.rows.foldlM persistChallenge db.challenges
  let certificates ← crdt.certificates.entries.rows.foldlM persistCert db.certificates
  let eabKeys ← crdt.eabKeys.entries.rows.foldlM persistEabKey db.eabKeys
  commitForeignKeys db { db with
    accounts := accounts, orders := orders, authorizations := authorizations,
    challenges := challenges, certificates := certificates, eabKeys := eabKeys }

/-! ## What the write-back does to one row -/

variable {db db' : Db} {crdt : AkaCrdt}

theorem persistCrdtAcme_eq_ok (h : persistCrdtAcme db crdt = .ok db') :
    crdt.accounts.entries.rows.foldlM persistAccount db.accounts = .ok db'.accounts ∧
    crdt.orders.entries.rows.foldlM persistOrder db.orders = .ok db'.orders ∧
    crdt.authorizations.entries.rows.foldlM persistAuthz db.authorizations =
      .ok db'.authorizations ∧
    crdt.challenges.entries.rows.foldlM persistChallenge db.challenges = .ok db'.challenges ∧
    crdt.certificates.entries.rows.foldlM persistCert db.certificates = .ok db'.certificates ∧
    crdt.eabKeys.entries.rows.foldlM persistEabKey db.eabKeys = .ok db'.eabKeys ∧
    db'.tkauthJtiCache = db.tkauthJtiCache := by
  obtain ⟨accounts, haccounts, h⟩ := bind_eq_ok h
  obtain ⟨orders, horders, h⟩ := bind_eq_ok h
  obtain ⟨authorizations, hauthz, h⟩ := bind_eq_ok h
  obtain ⟨challenges, hchallenges, h⟩ := bind_eq_ok h
  obtain ⟨certificates, hcerts, h⟩ := bind_eq_ok h
  obtain ⟨eabKeys, heab, h⟩ := bind_eq_ok h
  unfold commitForeignKeys at h
  split at h
  · cases h
    exact ⟨haccounts, horders, hauthz, hchallenges, hcerts, heab, rfl⟩
  · cases h

theorem find?_upsert_cases {ρ : Type} {key : ρ → String} (t : KeyedTable ρ key) (r : ρ)
    (f : ρ → ρ) (hf : ∀ s, key (f s) = key s) :
    (t.upsert r f hf).find? (key r) = some ((t.find? (key r)).elim r f) ∧
      ∀ k, key r ≠ k → (t.upsert r f hf).find? k = t.find? k := by
  refine ⟨?_, fun k hk ↦ ?_⟩
  · rw [find?_upsert, if_pos rfl]
  · rw [find?_upsert, if_neg hk]

def AccountWritten (k : String) (e : OrMapEntry AccountEntry) (old new : Option AccountRow) :
    Prop :=
  ∃ status, AccountStatus.fromStr e.value.status = some status ∧
    new = some (old.elim (accountRowOfEntry k status e.value) (assignAccount status e.value))

theorem account_of_persist (h : persistCrdtAcme db crdt = .ok db') (k : String) :
    (crdt.accounts.lookup k = none → db'.accounts.find? k = db.accounts.find? k) ∧
      ∀ e, crdt.accounts.lookup k = some e →
        AccountWritten k e (db.accounts.find? k) (db'.accounts.find? k) := by
  refine find?_foldlM_entries crdt.accounts.entries AccountWritten ?_
    (persistCrdtAcme_eq_ok h).1 k
  intro t e t' hstmt
  unfold persistAccount at hstmt
  split at hstmt
  · cases hstmt
  · rename_i status hstatus
    split at hstmt
    · cases hstmt
    · cases hstmt
      obtain ⟨hself, hother⟩ := find?_upsert_cases t (accountRowOfEntry e.1 status e.2.value)
        (assignAccount status e.2.value) (assignAccount_id status e.2.value)
      exact ⟨⟨status, hstatus, hself⟩, hother⟩

def OrderWritten (k : String) (e : OrMapEntry OrderEntry) (old new : Option OrderRow) : Prop :=
  ∃ status, OrderStatus.fromStr e.value.status = some status ∧
    new = some (old.elim (orderRowOfEntry k status e.value) (assignOrder status e.value))

theorem order_of_persist (h : persistCrdtAcme db crdt = .ok db') (k : String) :
    (crdt.orders.lookup k = none → db'.orders.find? k = db.orders.find? k) ∧
      ∀ e, crdt.orders.lookup k = some e →
        OrderWritten k e (db.orders.find? k) (db'.orders.find? k) := by
  refine find?_foldlM_entries crdt.orders.entries OrderWritten ?_
    (persistCrdtAcme_eq_ok h).2.1 k
  intro t e t' hstmt
  unfold persistOrder at hstmt
  split at hstmt
  · cases hstmt
  · rename_i status hstatus
    cases hstmt
    obtain ⟨hself, hother⟩ := find?_upsert_cases t (orderRowOfEntry e.1 status e.2.value)
      (assignOrder status e.2.value) (assignOrder_id status e.2.value)
    exact ⟨⟨status, hstatus, hself⟩, hother⟩

def AuthzWritten (k : String) (e : OrMapEntry AuthzEntry) (old new : Option AuthorizationRow) :
    Prop :=
  ∃ status, AuthzStatus.fromStr e.value.status = some status ∧
    new = some (old.elim (authzRowOfEntry k status e.value) (assignAuthz status e.value))

theorem authz_of_persist (h : persistCrdtAcme db crdt = .ok db') (k : String) :
    (crdt.authorizations.lookup k = none → db'.authorizations.find? k = db.authorizations.find? k) ∧
      ∀ e, crdt.authorizations.lookup k = some e →
        AuthzWritten k e (db.authorizations.find? k) (db'.authorizations.find? k) := by
  refine find?_foldlM_entries crdt.authorizations.entries AuthzWritten ?_
    (persistCrdtAcme_eq_ok h).2.2.1 k
  intro t e t' hstmt
  unfold persistAuthz at hstmt
  split at hstmt
  · cases hstmt
  · rename_i status hstatus
    cases hstmt
    obtain ⟨hself, hother⟩ := find?_upsert_cases t (authzRowOfEntry e.1 status e.2.value)
      (assignAuthz status e.2.value) (assignAuthz_id status e.2.value)
    exact ⟨⟨status, hstatus, hself⟩, hother⟩

def ChallengeWritten (k : String) (e : LwwRegister ChallengeEntry)
    (old new : Option ChallengeRow) : Prop :=
  match e.value with
  | none => new = old
  | some v => ∃ status, ChallengeStatus.fromStr v.status = some status ∧
      new = some (old.elim (challengeRowOfEntry k status v) (assignChallenge status v))

theorem challenge_of_persist (h : persistCrdtAcme db crdt = .ok db') (k : String) :
    (crdt.challenges.lookup k = none → db'.challenges.find? k = db.challenges.find? k) ∧
      ∀ e, crdt.challenges.lookup k = some e →
        ChallengeWritten k e (db.challenges.find? k) (db'.challenges.find? k) := by
  refine find?_foldlM_entries crdt.challenges.entries ChallengeWritten ?_
    (persistCrdtAcme_eq_ok h).2.2.2.1 k
  intro t e t' hstmt
  unfold persistChallenge at hstmt
  unfold ChallengeWritten
  split at hstmt
  · cases hstmt
    simp
  · rename_i v hvalue
    split at hstmt
    · cases hstmt
    · rename_i status hstatus
      cases hstmt
      obtain ⟨hself, hother⟩ := find?_upsert_cases t (challengeRowOfEntry e.1 status v)
        (assignChallenge status v) (assignChallenge_id status v)
      exact ⟨⟨status, hstatus, hself⟩, hother⟩

def CertWritten (e : OrMapEntry CertEntry) (old new : Option CertificateRow) : Prop :=
  match old with
  | none => new = none
  | some c => ∃ status, CertStatus.fromStr e.value.status = some status ∧
      new = some (assignCert status e.value c)

theorem cert_of_persist (h : persistCrdtAcme db crdt = .ok db') (k : String) :
    (crdt.certificates.lookup k = none → db'.certificates.find? k = db.certificates.find? k) ∧
      ∀ e, crdt.certificates.lookup k = some e →
        CertWritten e (db.certificates.find? k) (db'.certificates.find? k) := by
  refine find?_foldlM_entries crdt.certificates.entries (fun _ ↦ CertWritten) ?_
    (persistCrdtAcme_eq_ok h).2.2.2.2.1 k
  intro t e t' hstmt
  unfold persistCert at hstmt
  cases hfind : t.find? e.1 with
  | none =>
    simp only [hfind, Option.isNone_none, if_true, Except.ok.injEq] at hstmt
    subst hstmt
    exact ⟨hfind, fun _ _ ↦ rfl⟩
  | some c =>
    simp only [hfind, Option.isNone_some, Bool.false_eq_true, if_false] at hstmt
    split at hstmt
    · cases hstmt
    · rename_i status hstatus
      cases hstmt
      refine ⟨⟨status, hstatus, ?_⟩, fun k hk ↦ ?_⟩
      · simp [find?_updateWhere, hfind, key_of_find? hfind]
      · exact find?_updateWhere_of_ne (fun c hc ↦ by simpa using hc) hk

def EabKeyWritten (e : LwwRegister EabKeyEntry) (old new : Option EabKeyRow) : Prop :=
  match e.value with
  | none => new = old
  | some v => new = old.map (assignEabKey v)

theorem eabKey_of_persist (h : persistCrdtAcme db crdt = .ok db') (k : String) :
    (crdt.eabKeys.lookup k = none → db'.eabKeys.find? k = db.eabKeys.find? k) ∧
      ∀ e, crdt.eabKeys.lookup k = some e →
        EabKeyWritten e (db.eabKeys.find? k) (db'.eabKeys.find? k) := by
  refine find?_foldlM_entries crdt.eabKeys.entries (fun _ ↦ EabKeyWritten) ?_
    (persistCrdtAcme_eq_ok h).2.2.2.2.2.1 k
  intro t e t' hstmt
  unfold persistEabKey at hstmt
  unfold EabKeyWritten
  split at hstmt
  · cases hstmt
    simp
  · cases hstmt
    refine ⟨?_, fun k hk ↦
      find?_updateWhere_of_ne (fun r hr ↦ by simpa using hr) hk⟩
    rw [find?_updateWhere]
    cases hfind : t.find? e.1 with
    | none => rfl
    | some => simp [key_of_find? hfind]

/-! ## Loading the replica at startup -/

def accountEntryOfRow (a : AccountRow) : AccountEntry where
  accountId := a.id
  status := a.status.asStr
  contact := a.contact
  publicKeyDer := a.publicKey
  jwkThumbprint := a.jwkThumbprint
  created := a.created
  updated := a.updated
  profileGrants := a.profileGrants
  caId := a.caId

def orderEntryOfRow (o : OrderRow) : OrderEntry where
  orderId := o.id
  accountId := o.accountId
  status := o.status.asStr
  expires := o.expires
  identifiers := o.identifiers
  notBefore := o.notBefore
  notAfter := o.notAfter
  error := o.error
  certificateId := o.certificateId
  created := o.created
  updated := o.updated
  caId := o.caId

def authzEntryOfRow (a : AuthorizationRow) : AuthzEntry where
  authzId := a.id
  orderId := a.orderId.getD ""
  accountId := a.accountId
  status := a.status.asStr
  identifier := a.identifier
  expires := a.expires
  wildcard := a.wildcard
  created := a.created
  updated := a.updated
  caId := a.caId

def challengeEntryOfRow (c : ChallengeRow) : ChallengeEntry where
  challengeId := c.id
  authzId := c.authzId
  challengeType := c.type
  status := c.status.asStr
  token := c.token
  validated := c.validated
  error := c.error
  created := c.created
  updated := c.updated

def certEntryOfRow (c : CertificateRow) : CertEntry where
  certId := c.id
  orderId := c.orderId
  accountId := c.accountId
  serialNumber := c.serialNumber
  status := c.status.asStr
  notBefore := c.notBefore
  notAfter := c.notAfter
  revokedAt := c.revokedAt
  revocationReason := c.revocationReason
  created := c.created
  caId := c.caId

def eabKeyEntryOfRow (k : EabKeyRow) : EabKeyEntry where
  kid := k.kid
  hmacKeyB64u := k.hmacKeyB64u
  created := k.created
  usedAt := k.usedAt
  profileGrants := k.profileGrants

def loadRow {V : Type} (value : V) (created updated : Int) (tombstone : Bool) : OrMapEntry V where
  value := value
  addedAt := created
  tombstone := tombstone
  tombstoneAt := if tombstone then some updated else none
  localGen := 0

def loadAuthz (a : AuthorizationRow) : OrMapEntry AuthzEntry :=
  loadRow (authzEntryOfRow a) a.created a.updated
    (a.status == .invalid || a.status == .expired || a.status == .deactivated ||
      a.status == .revoked)

/-- The replica that a starting node builds from its database.  The order id of
an authorization is read as non-optional text here too. -/
def loadFromDb (decodeNull : Except AcmeError String) (nodeId : String) (db : Db) :
    Except AcmeError AkaCrdt := do
  let authzRows ← db.authorizations.rows.mapM (Authz.decode decodeNull)
  return {
    accounts := .load db.accounts.rows fun a ↦
      (a.id, loadRow (accountEntryOfRow a) a.created a.updated (a.status != .valid))
    orders := .load db.orders.rows fun o ↦
      (o.id, loadRow (orderEntryOfRow o) o.created o.updated (o.status == .invalid))
    authorizations := .load authzRows fun a ↦ (a.id, loadAuthz a)
    challenges := .load db.challenges.rows fun c ↦
      (c.id, ⟨some (challengeEntryOfRow c), c.updated, nodeId, 0⟩)
    certificates := .load db.certificates.rows fun c ↦
      (c.id, ⟨certEntryOfRow c, c.created, c.status == .revoked, c.revokedAt, 0⟩)
    eabKeys := .load db.eabKeys.rows fun k ↦
      (k.kid, ⟨some (eabKeyEntryOfRow k), k.created, nodeId, 0⟩) }

end Akamu
