import Akamu.Db.Transactions

/-!
# What a transaction does to the rows

For each table, the function that a committed transaction applies to the rows
that are there and the rows it adds.  Everything except the write-back of the
replica is of this form; the write-back is, too, when the replica agrees with
the database.
-/

namespace Akamu

open Crdt KeyedTable List
open Except (bind_eq_ok map_eq_ok)

def processing (db : Db) (challengeId : String) : Bool :=
  db.challenges.rows.any (Challenges.inStatus challengeId .processing)

def readies (db : Db) (job : ValidationJob) (now : Int) : Bool :=
  processing db job.challengeId &&
    allAuthzValid (markValid db job.challengeId job.authzId now) job.orderId

/-- A validation that fails now makes this order invalid. -/
def takesDown (decodeNull : Except AcmeError String) (db : Db) (challengeId authzId : String)
    (orderId : Option String) (id : String) : Bool :=
  processing db challengeId &&
    match onInvalidOrder decodeNull db authzId orderId with
    | .ok (some oid) => id == oid
    | _ => false

namespace Txn

def onAccount : Txn → AccountRow → AccountRow
  | .deactivateAccount id now _ => fun a ↦
    if a.id == id then { a with status := .deactivated, updated := now } else a
  | .updateContact id contact now => fun a ↦
    if Accounts.isValid id a then { a with contact := contact, updated := now } else a
  | .updateKey id publicKey jwkThumbprint now => fun a ↦
    if Accounts.isValid id a then
      { a with publicKey := publicKey, jwkThumbprint := jwkThumbprint, updated := now } else a
  | .setProfileGrants id grants now => fun a ↦
    if Accounts.isValid id a then { a with profileGrants := grants, updated := now } else a
  | _ => id

def newAccounts : Txn → List AccountRow
  | .newAccount account _ _ => [account]
  | _ => []

def onOrder (decodeNull : Except AcmeError String) (db : Db) : Txn → OrderRow → OrderRow
  | .onValid job _ now => fun o ↦
    if readies db job now && o.id == job.orderId then
      { o with status := .ready, error := none, updated := now } else o
  | .onInvalid challengeId authzId orderId error now => fun o ↦
    if takesDown decodeNull db challengeId authzId orderId o.id then
      { o with status := .invalid, error := some error, updated := now } else o
  | .finalize _ cert now _ _ starCsrDer => fun o ↦
    if o.id == cert.orderId && o.status == .ready then
      { o with status := .valid, certificateId := some cert.id, updated := now,
               starCsrDer := starCsrDer.or o.starCsrDer } else o
  | .setProcessingWithCsrDer id csrDer now => fun o ↦
    if o.id == id && o.status == .ready then
      { o with status := .processing, starCsrDer := some csrDer, updated := now } else o
  | .cancelStar id now => fun o ↦
    if o.id == id && o.starCanceledAt.isNone then
      { o with starCanceledAt := some now, updated := now } else o
  | .starRenew cert now => fun o ↦
    if o.id == cert.orderId && o.starCanceledAt.isNone then
      { o with certificateId := some cert.id, updated := now } else o
  | .orderInvalid id error now => fun o ↦
    if o.id == id then { o with status := .invalid, error := some error, updated := now } else o
  | .setUpstreamOrderUrl id url now => fun o ↦
    if o.id == id then { o with upstreamOrderUrl := some url, updated := now } else o
  | .completeOrder cert certUrl now => fun o ↦
    if o.id == cert.orderId && o.status == .processing then
      { o with status := .valid, certificateId := some cert.id, updated := now,
               upstreamCertUrl := some certUrl } else o
  | _ => id

def newOrders : Txn → List OrderRow
  | .newOrder order _ _ => [order]
  | _ => []

def onAuthz (db : Db) : Txn → AuthorizationRow → AuthorizationRow
  | .onValid job _ now => fun a ↦
    if processing db job.challengeId && a.id == job.authzId then
      { a with status := .valid, updated := now } else a
  | .onInvalid challengeId authzId _ _ now => fun a ↦
    if processing db challengeId && a.id == authzId then
      { a with status := .invalid, updated := now } else a
  | _ => id

def newAuthzs : Txn → List AuthorizationRow
  | .newOrder _ plans _ => plans.map AuthzPlan.authz
  | .newAuthz plan => [plan.authz]
  | _ => []

def onChallenge : Txn → ChallengeRow → ChallengeRow
  | .setProcessingIfPending challenge _ now => fun c ↦
    if Challenges.inStatus challenge.id .pending c then
      { c with status := .processing, updated := now } else c
  | .setEmailToken job messageId now => fun c ↦
    if c.id == job.challengeId then
      { c with emailMessageId := some messageId, updated := now } else c
  | .onValid job _ now => fun c ↦
    if Challenges.inStatus job.challengeId .processing c then
      { c with status := .valid, validated := some now, updated := now } else c
  | .onInvalid challengeId _ _ error now => fun c ↦
    if Challenges.inStatus challengeId .processing c then
      { c with status := .invalid, error := some error, updated := now } else c
  | _ => id

end Txn

def AuthzPlan.challengeRows (now : Int) (plan : AuthzPlan) : List ChallengeRow :=
  plan.challenges.map (Challenges.pendingRow plan.authz.id plan.token now)

namespace Txn

def newChallenges : Txn → List ChallengeRow
  | .newOrder order plans _ => plans.flatMap (AuthzPlan.challengeRows order.created)
  | .newAuthz plan => plan.challengeRows plan.authz.created
  | _ => []

def onCert : Txn → CertificateRow → CertificateRow
  | .finalize _ _ _ (some pred) replacedBy _ => fun c ↦
    if c.id == pred && c.replacedBy.isNone then { c with replacedBy := some replacedBy } else c
  | .revoke certId reason now caId => fun c ↦
    if Certs.revocable certId caId c then
      { c with status := .revoked, revokedAt := some now, revocationReason := reason } else c
  | _ => id

/-- A certificate is stored without a successor; a renewal that finds its order
canceled stores nothing. -/
def newCerts (t : Txn) (o : Outcome) : List CertificateRow :=
  match t with
  | .finalize _ cert _ _ _ _ => [t.onCert { cert with replacedBy := none }]
  | .completeOrder cert _ _ => [{ cert with replacedBy := none }]
  | .starRenew cert _ => if o.hit then [{ cert with replacedBy := none }] else []
  | _ => []

def onEabKey : Txn → EabKeyRow → EabKeyRow
  | .newAccount _ (some kid) now => fun k ↦
    if Eab.isUnused kid k then { k with usedAt := some now } else k
  | _ => id

def keepsEabKey : Txn → EabKeyRow → Bool
  | .deleteEab kid => fun k ↦ k.kid != kid
  | _ => fun _ ↦ true

def newEabKeys : Txn → Outcome → List EabKeyRow
  | .insertEab row, _ => [row]
  | .insertEabIfAbsent row _, o => if o.hit then [row] else []
  | _, _ => []

end Txn

/-! ## One transaction at a time -/

variable {job : ValidationJob} {orderId : Option String}

section Inversion

variable {decodeNull : Except AcmeError String} {db db' : Db} {now : Int} {o : Outcome}

variable {challengeId : String}

theorem processing_iff {db : Db} : processing db challengeId = true ↔
      ∃ c ∈ db.challenges.rows, c.id = challengeId ∧ c.status = .processing := by
  simp [processing, Challenges.inStatus]

theorem countWhere_processing_eq_zero {db : Db} :
    db.challenges.countWhere (Challenges.inStatus challengeId .processing) = 0 ↔
      processing db challengeId = false := by
  rw [countWhere_eq_zero_iff]
  simp [processing]

theorem execPlan_eq_ok {plan : AuthzPlan} (h : execPlan now db plan = .ok db') :
    ∃ az ch, db' = { db with authorizations := az, challenges := ch } ∧
      az.rows = db.authorizations.rows ++ [plan.authz] ∧
      ch.rows = db.challenges.rows ++ plan.challengeRows now := by
  obtain ⟨mid, hinsert, h⟩ := bind_eq_ok h
  obtain ⟨az, rfl, haz⟩ := Authz.insert_eq_ok hinsert
  obtain ⟨ch, rfl, hch⟩ := Challenges.insertBatch_eq_ok h
  exact ⟨az, ch, rfl, (KeyedTable.insert?_eq_some_iff.mp haz).2, hch⟩

variable {plans : List AuthzPlan}

theorem foldlM_execPlan_eq_ok (h : plans.foldlM (execPlan now) db = .ok db') :
    ∃ az ch, db' = { db with authorizations := az, challenges := ch } ∧
      az.rows = db.authorizations.rows ++ plans.map AuthzPlan.authz ∧
      ch.rows = db.challenges.rows ++ plans.flatMap (AuthzPlan.challengeRows now) := by
  induction plans generalizing db with
  | nil =>
    cases h
    exact ⟨_, _, rfl, by simp, by simp⟩
  | cons plan plans ih =>
    obtain ⟨mid, hplan, h⟩ := bind_eq_ok h
    obtain ⟨az, ch, rfl, haz, hch⟩ := execPlan_eq_ok hplan
    obtain ⟨az', ch', rfl, haz', hch'⟩ := ih h
    exact ⟨az', ch', rfl, by simp [haz', haz], by simp [hch', hch]⟩

theorem execNewOrder_eq_ok {order : OrderRow} (h : execNewOrder db order plans = .ok db') :
    ∃ os az ch, db' = { db with orders := os, authorizations := az, challenges := ch } ∧
      db.orders.insert? order = some os ∧
      az.rows = db.authorizations.rows ++ plans.map AuthzPlan.authz ∧
      ch.rows = db.challenges.rows ++ plans.flatMap (AuthzPlan.challengeRows order.created) := by
  obtain ⟨mid, hinsert, h⟩ := bind_eq_ok h
  obtain ⟨os, rfl, hos⟩ := Orders.insert_eq_ok hinsert
  obtain ⟨az, ch, rfl, haz, hch⟩ := foldlM_execPlan_eq_ok h
  exact ⟨os, az, ch, rfl, hos, haz, hch⟩

theorem allAuthzValid_iff {db : Db} {orderId : String} :
    allAuthzValid db orderId = true ↔
      ∀ a ∈ db.authorizations.rows, a.orderId = some orderId → a.status = .valid := by
  simp [allAuthzValid, imp_iff_not_or]

theorem onInvalidOrder_markInvalid (db : Db) (challengeId authzId error : String) (now : Int)
    (orderId : Option String) :
    onInvalidOrder decodeNull (markInvalid db challengeId authzId error now) authzId orderId =
      onInvalidOrder decodeNull db authzId orderId := by
  cases orderId with
  | some => rfl
  | none =>
    simp only [onInvalidOrder, markInvalid, find?_updateWhere]
    cases db.authorizations.find? authzId with
    | none => rfl
    | some a =>
      by_cases ha : a.id = authzId <;> simp [ha]

theorem execOnValid_of_processing (h : processing db job.challengeId = true) :
    execOnValid db job.challengeId job.authzId job.orderId now =
      if readies db job now then
        (markReady (markValid db job.challengeId job.authzId now) job.orderId now,
          { hit := true, flag := db.orders.countWhere (fun o ↦ o.id == job.orderId) != 0 })
      else (markValid db job.challengeId job.authzId now, { hit := true }) := by
  have hcount : db.challenges.countWhere (Challenges.inStatus job.challengeId .processing) ≠ 0 := by
    simp [countWhere_processing_eq_zero, h]
  rw [execOnValid, if_neg hcount]
  simp only [readies, h, Bool.true_and]
  rfl

theorem execOnValid_of_not_processing (h : processing db job.challengeId = false) :
    execOnValid db job.challengeId job.authzId job.orderId now = (db, { hit := false }) := by
  rw [execOnValid, if_pos (countWhere_processing_eq_zero.mpr h)]

theorem execOnInvalid_eq_ok {authzId error : String}
    (h : execOnInvalid decodeNull db challengeId authzId orderId error now = .ok (db', o)) :
    (processing db challengeId = false ∧ db' = db ∧ o = { hit := false }) ∨
      processing db challengeId = true ∧ o = { hit := true } ∧
        ∃ oid, onInvalidOrder decodeNull db authzId orderId = .ok oid ∧
          db' = oid.elim (markInvalid db challengeId authzId error now)
            fun id ↦ markOrderInvalid (markInvalid db challengeId authzId error now) id error now := by
  unfold execOnInvalid at h
  split at h
  · rename_i hcount
    cases h
    exact .inl ⟨countWhere_processing_eq_zero.mp hcount, rfl, rfl⟩
  · rename_i hcount
    have hproc : processing db challengeId = true := by
      simpa [countWhere_processing_eq_zero] using hcount
    obtain ⟨oid, hoid, h⟩ := bind_eq_ok h
    rw [onInvalidOrder_markInvalid] at hoid
    cases oid with
    | none =>
      cases h
      exact .inr ⟨hproc, rfl, none, hoid, rfl⟩
    | some id =>
      cases h
      exact .inr ⟨hproc, rfl, some id, hoid, rfl⟩

theorem conflictToOrderNotReady_eq_ok {r : Except AcmeError Db} {db : Db}
    (h : conflictToOrderNotReady r = .ok db) : r = .ok db := by
  unfold conflictToOrderNotReady at h
  split at h
  · cases h
  · exact h

end Inversion

structure Effect (decodeNull : Except AcmeError String) (db : Db) (t : Txn) (o : Outcome)
    (db' : Db) : Prop where
  accounts : db'.accounts.rows = db.accounts.rows.map t.onAccount ++ t.newAccounts
  orders : db'.orders.rows = db.orders.rows.map (t.onOrder decodeNull db) ++ t.newOrders
  authorizations :
    db'.authorizations.rows = db.authorizations.rows.map (t.onAuthz db) ++ t.newAuthzs
  challenges : db'.challenges.rows = db.challenges.rows.map t.onChallenge ++ t.newChallenges
  certificates : db'.certificates.rows = db.certificates.rows.map t.onCert ++ t.newCerts o
  eabKeys : db'.eabKeys.rows =
    (db.eabKeys.rows.filter t.keepsEabKey).map t.onEabKey ++ t.newEabKeys o

section Effects

open Txn

variable {decodeNull : Except AcmeError String} {db db' : Db} {now : Int} {o : Outcome}

theorem mem_of_map_append {ρ : Type} {rows rows' new : List ρ} {f : ρ → ρ} {r : ρ}
    (h : rows' = rows.map f ++ new) (hr : r ∈ rows) : f r ∈ rows' :=
  h ▸ mem_append_left _ (mem_map_of_mem hr)

theorem map_ite_eq_self {ρ : Type} {p : ρ → Prop} [DecidablePred p] {f : ρ → ρ} {rows : List ρ}
    (h : ∀ r ∈ rows, ¬ p r) : (rows.map fun r ↦ if p r then f r else r) = rows :=
  (map_congr_left fun r hr ↦ if_neg (h r hr)).trans (map_id' rows)

attribute [local simp] onAccount newAccounts onOrder newOrders onAuthz newAuthzs onChallenge
  newChallenges onCert newCerts onEabKey keepsEabKey newEabKeys

variable {cert : CertificateRow} {csr : Option (List UInt8)} {pred : Option String}
  {replacedBy : String}

theorem effect_finalize {order : OrderRow}
    (h : execFinalize db cert now pred replacedBy csr = .ok (db', o)) :
    Effect decodeNull db (.finalize order cert now pred replacedBy csr) o db' ∧
      ∃ r ∈ db.orders.rows, r.id = cert.orderId ∧ r.status = .ready := by
  obtain ⟨db₁, hinsert, h⟩ := bind_eq_ok h
  obtain ⟨certs, rfl, hcerts⟩ := Certs.insert_eq_ok hinsert
  obtain ⟨db₂, hset, h⟩ := bind_eq_ok h
  obtain ⟨⟨r, hr, hready⟩, rfl⟩ :=
    Orders.updateOrElse_eq_ok_iff.mp (conflictToOrderNotReady_eq_ok hset)
  have hcertRows := (KeyedTable.insert?_eq_some_iff.mp hcerts).2
  simp only [Bool.and_eq_true, beq_iff_eq] at hready
  refine ⟨?_, r, hr, hready⟩
  -- the row under the certificate's order id is the one found ready
  have hall : ∀ x ∈ db.orders.rows, x.id = cert.orderId → x.status = .ready := by
    intro x hx hid
    rw [db.orders.eq_of_mem_of_key_eq hx hr (hid.trans hready.1.symm)]
    exact hready.2
  cases csr with
  | none =>
    cases pred <;> cases h <;> constructor <;>
      simp [hcertRows, KeyedTable.updateWhere, Certs.markReplaced]
  | some =>
    obtain ⟨db₃, hstar, h⟩ := bind_eq_ok h
    obtain ⟨-, rfl⟩ := Orders.updateOrElse_eq_ok_iff.mp hstar
    cases pred <;> cases h <;> constructor <;>
      simp [hcertRows, KeyedTable.updateWhere, Certs.markReplaced]
    all_goals
      intro x hx
      by_cases hid : x.id = cert.orderId
      · simp [hid, hall x hx hid]
      · simp [hid]

theorem flag_of_execFinalize (h : execFinalize db cert now pred replacedBy csr = .ok (db', o)) :
    o.flag = true ↔ ∃ p ∈ pred, p ≠ cert.id ∧
      ∀ c ∈ db.certificates.rows, c.id = p → c.replacedBy ≠ none := by
  obtain ⟨db₁, hinsert, h⟩ := bind_eq_ok h
  obtain ⟨certs, rfl, hcerts⟩ := Certs.insert_eq_ok hinsert
  obtain ⟨db₂, hset, h⟩ := bind_eq_ok h
  obtain ⟨-, rfl⟩ := Orders.updateOrElse_eq_ok_iff.mp (conflictToOrderNotReady_eq_ok hset)
  have hcount : ∀ p, certs.countWhere (fun c ↦ c.id == p && c.replacedBy.isNone) = 0 ↔
      p ≠ cert.id ∧ ∀ c ∈ db.certificates.rows, c.id = p → c.replacedBy ≠ none := by
    intro p
    simp only [countWhere_eq_zero_iff, mem_insert? hcerts]
    constructor
    · intro hnone
      refine ⟨fun hp ↦ ?_, fun c hc hid hfree ↦ ?_⟩
      · simpa [hp] using hnone _ (.inr rfl)
      · simpa [hid, hfree] using hnone c (.inl hc)
    · rintro ⟨hne, hreplaced⟩ c (hc | rfl)
      · by_cases hid : c.id = p
        · simp [hid, hreplaced c hc hid]
        · simp [hid]
      · simpa using fun hp ↦ hne hp.symm
  have hflag : o.flag = pred.any fun p ↦
      certs.countWhere (fun c ↦ c.id == p && c.replacedBy.isNone) == 0 := by
    cases csr with
    | none => cases pred <;> cases h <;> simp [Certs.markReplaced, bne]
    | some =>
      obtain ⟨db₃, -, h⟩ := bind_eq_ok h
      cases pred <;> cases h <;> simp [Certs.markReplaced, bne]
  rw [hflag]
  cases pred <;> simp [hcount]

theorem effect_completeOrder {certUrl : String}
    (h : execCompleteOrder db cert certUrl now = .ok db') :
    Effect decodeNull db (.completeOrder cert certUrl now) o db' ∧
      ∃ r ∈ db.orders.rows, r.id = cert.orderId ∧ r.status = .processing := by
  obtain ⟨db₁, hinsert, h⟩ := bind_eq_ok h
  obtain ⟨certs, rfl, hcerts⟩ := Certs.insert_eq_ok hinsert
  obtain ⟨db₂, hset, h⟩ := bind_eq_ok h
  obtain ⟨⟨r, hr, hproc⟩, rfl⟩ := Orders.updateOrElse_eq_ok_iff.mp hset
  obtain ⟨-, rfl⟩ := Orders.updateOrElse_eq_ok_iff.mp h
  have hcertRows := (KeyedTable.insert?_eq_some_iff.mp hcerts).2
  simp only [Bool.and_eq_true, beq_iff_eq] at hproc
  refine ⟨?_, r, hr, hproc⟩
  have hall : ∀ x ∈ db.orders.rows, x.id = cert.orderId → x.status = .processing := by
    intro x hx hid
    rw [db.orders.eq_of_mem_of_key_eq hx hr (hid.trans hproc.1.symm)]
    exact hproc.2
  constructor <;> simp [hcertRows, KeyedTable.updateWhere]
  intro x hx
  by_cases hid : x.id = cert.orderId
  · simp [hid, hall x hx hid]
  · simp [hid]

theorem effect_starRenew (h : execStarRenew db cert now = .ok (db', o)) :
    Effect decodeNull db (.starRenew cert now) o db' := by
  obtain ⟨db₁, hinsert, h⟩ := bind_eq_ok h
  obtain ⟨certs, rfl, hcerts⟩ := Certs.insert_eq_ok hinsert
  have hcertRows := (KeyedTable.insert?_eq_some_iff.mp hcerts).2
  dsimp only at h
  split at h
  · cases h
    constructor <;> simp [hcertRows, KeyedTable.updateWhere, Orders.updateStarCertificate]
  · rename_i hmiss
    cases h
    have hnone : ∀ x ∈ db.orders.rows, ¬ (x.id = cert.orderId ∧ x.starCanceledAt = none) := by
      simpa [Orders.updateStarCertificate, countWhere_eq_zero_iff] using hmiss
    constructor <;> simp
    exact (map_ite_eq_self hnone).symm

theorem effect_onValid {evidence : List String}
    (h : execOnValid db job.challengeId job.authzId job.orderId now = (db', o)) :
    Effect decodeNull db (.onValid job evidence now) o db' := by
  cases hproc : processing db job.challengeId with
  | false =>
    rw [execOnValid_of_not_processing hproc] at h
    cases h
    have hnone : ∀ c ∈ db.challenges.rows, ¬ Challenges.inStatus job.challengeId .processing c := by
      simpa [processing] using hproc
    constructor <;> simp [hproc, readies]
    exact (map_ite_eq_self hnone).symm
  | true =>
    rw [execOnValid_of_processing hproc] at h
    split at h
    · rename_i hready
      cases h
      constructor <;> simp [hproc, hready, markReady, markValid, KeyedTable.updateWhere]
    · rename_i hready
      cases h
      constructor <;> simp [hproc, hready, markValid, KeyedTable.updateWhere]

theorem effect_onInvalid {challengeId authzId error : String}
    (h : execOnInvalid decodeNull db challengeId authzId orderId error now = .ok (db', o)) :
    Effect decodeNull db (.onInvalid challengeId authzId orderId error now) o db' := by
  rcases execOnInvalid_eq_ok h with ⟨hproc, rfl, rfl⟩ | ⟨hproc, rfl, oid, hoid, rfl⟩
  · have hnone : ∀ c ∈ db'.challenges.rows, ¬ Challenges.inStatus challengeId .processing c := by
      simpa [processing] using hproc
    constructor <;> simp [hproc, takesDown]
    exact (map_ite_eq_self hnone).symm
  · cases oid with
    | none => constructor <;> simp [hproc, hoid, takesDown, markInvalid, KeyedTable.updateWhere]
    | some =>
      constructor <;>
        simp [hproc, hoid, takesDown, markOrderInvalid, markInvalid, KeyedTable.updateWhere]

theorem effect_newAccount {account : AccountRow} {eabKid : Option String}
    (h : execNewAccount db account eabKid now = .ok db') :
    Effect decodeNull db (.newAccount account eabKid now) o db' := by
  obtain ⟨db₁, hinsert, h⟩ := bind_eq_ok h
  obtain ⟨accounts, rfl, haccounts⟩ := Accounts.insert_eq_ok hinsert
  have hrows := (KeyedTable.insert?_eq_some_iff.mp haccounts).2
  cases eabKid with
  | none =>
    cases h
    constructor <;> simp [hrows]
  | some =>
    simp only [Eab.markUsed] at h
    split at h
    · cases h
    · cases h
      constructor <;> simp [hrows, KeyedTable.updateWhere]

theorem effect_of_exec {t : Txn} (h : exec decodeNull db t = .ok (db', o))
    (ht : ∀ crdt, t ≠ .persist crdt) : Effect decodeNull db t o db' := by
  cases t with
  | newAccount =>
    obtain ⟨db₁, hexec, heq⟩ := map_eq_ok h
    cases heq
    exact effect_newAccount hexec
  | newOrder =>
    obtain ⟨db₁, hexec, heq⟩ := map_eq_ok h
    obtain ⟨os, az, ch, rfl, hos, haz, hch⟩ := execNewOrder_eq_ok hexec
    cases heq
    constructor <;> simp [(KeyedTable.insert?_eq_some_iff.mp hos).2, haz, hch]
  | newAuthz =>
    obtain ⟨db₁, hexec, heq⟩ := map_eq_ok h
    obtain ⟨az, ch, rfl, haz, hch⟩ := execPlan_eq_ok hexec
    cases heq
    constructor <;> simp [haz, hch]
  | onValid => exact effect_onValid (Except.ok.inj h)
  | onInvalid => exact effect_onInvalid h
  | finalize => exact (effect_finalize h).1
  | starRenew => exact effect_starRenew h
  | completeOrder =>
    obtain ⟨db₁, hexec, heq⟩ := map_eq_ok h
    cases heq
    exact (effect_completeOrder hexec).1
  | updateKey =>
    simp only [exec, Accounts.updateKey] at h
    split at h
    · cases h
    · cases h
      constructor <;> simp [KeyedTable.updateWhere]
  | setEmailToken =>
    simp only [exec, Challenges.setEmailToken] at h
    split at h
    · cases h
    · split at h
      · cases h
      · cases h
        constructor <;> simp [KeyedTable.updateWhere]
  | setProcessingWithCsrDer id csrDer now | orderInvalid id error now
  | setUpstreamOrderUrl =>
    obtain ⟨db₁, hexec, heq⟩ := map_eq_ok h
    obtain ⟨-, rfl⟩ := Orders.updateOrElse_eq_ok_iff.mp hexec
    cases heq
    constructor <;> simp [KeyedTable.updateWhere]
  | insertJti =>
    simp only [exec, Tkauth.insertJti] at h
    split at h <;> cases h <;> constructor <;> simp
  | insertEab =>
    simp only [exec, Eab.insertWithGrants] at h
    split at h
    · rename_i keys hkeys
      cases h
      constructor <;> simp [(KeyedTable.insert?_eq_some_iff.mp hkeys).2]
    · cases h
  | insertEabIfAbsent =>
    simp only [exec, Eab.insertIfAbsent] at h
    split at h
    · rename_i keys hkeys
      cases h
      constructor <;> simp [(KeyedTable.insert?_eq_some_iff.mp hkeys).2]
    · cases h
      constructor <;> simp
  | deleteEab =>
    cases h
    constructor <;> simp [Eab.delete, KeyedTable.retain]
  | persist crdt => exact absurd rfl (ht crdt)
  | deactivateAccount =>
    cases h
    constructor <;> simp [Accounts.updateStatus, KeyedTable.updateWhere]
  | updateContact =>
    cases h
    constructor <;> simp [Accounts.updateContact, KeyedTable.updateWhere]
  | setProfileGrants =>
    cases h
    constructor <;> simp [Accounts.setProfileGrants, KeyedTable.updateWhere]
  | setProcessingIfPending =>
    cases h
    constructor <;> simp [Challenges.setProcessingIfPending, KeyedTable.updateWhere]
  | purgeExpiredJti =>
    cases h
    constructor <;> simp [Tkauth.purgeExpired]
  | cancelStar =>
    cases h
    constructor <;> simp [Orders.cancelStar, KeyedTable.updateWhere]
  | revoke =>
    cases h
    constructor <;> simp [Certs.revoke, KeyedTable.updateWhere]

theorem exec_cases {t : Txn} (h : exec decodeNull db t = .ok (db', o)) :
    (∃ crdt, t = .persist crdt ∧ persistCrdtAcme db crdt = .ok db') ∨
      Effect decodeNull db t o db' := by
  by_cases ht : ∃ crdt, t = .persist crdt
  · obtain ⟨crdt, rfl⟩ := ht
    obtain ⟨db₁, hpersist, heq⟩ := map_eq_ok h
    cases heq
    exact .inl ⟨crdt, rfl, hpersist⟩
  · exact .inr (effect_of_exec h fun crdt hcrdt ↦ ht ⟨crdt, hcrdt⟩)

end Effects

/-! ## The columns that stay -/

/-- The columns of an order that nothing but its creation writes. -/
def OrderRow.fixed (o : OrderRow) : OrderRow :=
  { o with
    status := .pending, error := none, certificateId := none, updated := 0
    starCanceledAt := none, starCsrDer := none, upstreamOrderUrl := none, upstreamCertUrl := none }

/-- The columns that not even a write-back changes. -/
def OrderRow.terms (o : OrderRow) : OrderRow := { o.fixed with expires := none }

def AuthorizationRow.fixed (a : AuthorizationRow) : AuthorizationRow :=
  { a with status := .pending, updated := 0 }

def ChallengeRow.fixed (c : ChallengeRow) : ChallengeRow :=
  { c with
    status := .pending, validated := none, error := none, updated := 0, emailMessageId := none }

/-- The columns of a certificate that nothing but its insertion writes. -/
def CertificateRow.fixed (c : CertificateRow) : CertificateRow :=
  { c with status := .valid, revokedAt := none, revocationReason := none, replacedBy := none }

@[simp] theorem Txn.fixed_onOrder (t : Txn) (decodeNull : Except AcmeError String) (db : Db)
    (o : OrderRow) : (t.onOrder decodeNull db o).fixed = o.fixed := by
  cases t <;> simp only [Txn.onOrder, id] <;> first | rfl | (split <;> rfl)

@[simp] theorem Txn.fixed_onAuthz (t : Txn) (db : Db) (a : AuthorizationRow) :
    (t.onAuthz db a).fixed = a.fixed := by
  cases t <;> simp only [Txn.onAuthz, id] <;> first | rfl | (split <;> rfl)

@[simp] theorem Txn.fixed_onChallenge (t : Txn) (c : ChallengeRow) :
    (t.onChallenge c).fixed = c.fixed := by
  cases t <;> simp only [Txn.onChallenge, id] <;> first | rfl | (split <;> rfl)

@[simp] theorem Txn.fixed_onCert (t : Txn) (c : CertificateRow) : (t.onCert c).fixed = c.fixed := by
  cases t with
  | finalize order cert now pred =>
    cases pred with
    | none => rfl
    | some =>
      simp only [Txn.onCert]
      split <;> rfl
  | revoke =>
    simp only [Txn.onCert]
    split <;> rfl
  | _ => rfl

theorem Txn.onCert_id (t : Txn) (c : CertificateRow) : (t.onCert c).id = c.id :=
  (congrArg CertificateRow.id (t.fixed_onCert c) :)

theorem Txn.orderId_onCert (t : Txn) (c : CertificateRow) : (t.onCert c).orderId = c.orderId :=
  (congrArg CertificateRow.orderId (t.fixed_onCert c) :)

theorem Txn.accountId_onCert (t : Txn) (c : CertificateRow) :
    (t.onCert c).accountId = c.accountId :=
  (congrArg CertificateRow.accountId (t.fixed_onCert c) :)

theorem Txn.id_onOrder (t : Txn) (decodeNull : Except AcmeError String) (db : Db) (o : OrderRow) :
    (t.onOrder decodeNull db o).id = o.id :=
  (congrArg OrderRow.id (t.fixed_onOrder decodeNull db o) :)

variable {t : Txn} {out : Outcome} {decodeNull : Except AcmeError String}

theorem Effect.fresh_order {db db' : Db} (h : Effect decodeNull db t out db') {o n : OrderRow}
    (ho : o ∈ db.orders.rows) (hn : n ∈ t.newOrders) : o.id ≠ n.id := by
  have hnodup := db'.orders.nodup
  rw [h.orders, map_append, nodup_append] at hnodup
  have hne := hnodup.2.2 (t.onOrder decodeNull db o).id
    (mem_map_of_mem (mem_map_of_mem ho)) n.id (mem_map_of_mem hn)
  rwa [t.id_onOrder] at hne

theorem order_of_exec {db db' : Db} (hexec : exec decodeNull db t = .ok (db', out)) {o : OrderRow}
    (ho : o ∈ db.orders.rows) : ∃ o' ∈ db'.orders.rows, o'.terms = o.terms := by
  rcases exec_cases hexec with ⟨crdt, rfl, hpersist⟩ | heffect
  · have hfind := find?_of_mem ho
    obtain ⟨habsent, hwritten⟩ := order_of_persist hpersist o.id
    cases hlookup : crdt.orders.lookup o.id with
    | none => exact ⟨o, mem_of_find? ((habsent hlookup).trans hfind), rfl⟩
    | some e =>
      obtain ⟨status, -, hnew⟩ := hwritten e hlookup
      rw [hfind] at hnew
      exact ⟨_, mem_of_find? hnew, rfl⟩
  · refine ⟨t.onOrder decodeNull db o, mem_of_map_append heffect.orders ho, ?_⟩
    rw [OrderRow.terms, OrderRow.terms, t.fixed_onOrder]

theorem terms_of_exec {db db' : Db} (hexec : exec decodeNull db t = .ok (db', out)) {r : OrderRow}
    (hr : r ∈ db'.orders.rows) :
    (∃ o ∈ db.orders.rows, r.terms = o.terms) ∨ r ∈ t.newOrders ∨
      ∃ status v, r = orderRowOfEntry r.id status v := by
  rcases exec_cases hexec with ⟨crdt, rfl, hpersist⟩ | heffect
  · have hfind := find?_of_mem hr
    obtain ⟨habsent, hwritten⟩ := order_of_persist hpersist r.id
    cases hlookup : crdt.orders.lookup r.id with
    | none =>
      rw [habsent hlookup] at hfind
      exact .inl ⟨r, mem_of_find? hfind, rfl⟩
    | some e =>
      obtain ⟨status, -, hnew⟩ := hwritten e hlookup
      rw [hfind] at hnew
      cases hold : db.orders.find? r.id with
      | none =>
        rw [hold] at hnew
        exact .inr (.inr ⟨status, e.value, Option.some.inj hnew⟩)
      | some o =>
        rw [hold] at hnew
        obtain rfl : r = assignOrder status e.value o := Option.some.inj hnew
        exact .inl ⟨o, mem_of_find? hold, rfl⟩
  · rw [heffect.orders] at hr
    rcases mem_append.mp hr with hr | hr
    · obtain ⟨o, ho, rfl⟩ := mem_map.mp hr
      exact .inl ⟨o, ho, by rw [OrderRow.terms, OrderRow.terms, t.fixed_onOrder]⟩
    · exact .inr (.inl hr)

/-- A certificate that was not there before is one that the transaction adds; a
write-back adds none. -/
theorem newCert_of_exec {db db' : Db} (hexec : exec decodeNull db t = .ok (db', out))
    {c : CertificateRow} (hc : c ∈ db'.certificates.rows)
    (hnew : ∀ c' ∈ db.certificates.rows, c'.id ≠ c.id) : c ∈ t.newCerts out := by
  rcases exec_cases hexec with ⟨crdt, rfl, hpersist⟩ | heffect
  · have hfind := find?_of_mem hc
    have hold : db.certificates.find? c.id = none := by
      cases h : db.certificates.find? c.id with
      | none => rfl
      | some c' => exact absurd (key_of_find? h) (hnew c' (mem_of_find? h))
    obtain ⟨habsent, hwritten⟩ := cert_of_persist hpersist c.id
    cases hlookup : crdt.certificates.lookup c.id with
    | none => simp [habsent hlookup, hold] at hfind
    | some e =>
      have hnone := hwritten e hlookup
      rw [hold] at hnone
      exact absurd (hfind.symm.trans hnone) (Option.some_ne_none c)
  · rw [heffect.certificates] at hc
    rcases mem_append.mp hc with hc | hc
    · obtain ⟨c', hc', rfl⟩ := mem_map.mp hc
      exact absurd (t.onCert_id c').symm (hnew c' hc')
    · exact hc

/-! ## Writing back a replica that agrees -/

/-- The orders, authorizations and challenges of the replica are those of the
database, as the hooks would write them now. -/
structure Agrees (db : Db) (crdt : AkaCrdt) : Prop where
  orders : ∀ k e, crdt.orders.lookup k = some e →
    ∃ o, db.orders.find? k = some o ∧ e.value = orderEntryOfRow o
  authorizations : ∀ k e, crdt.authorizations.lookup k = some e →
    ∃ a, db.authorizations.find? k = some a ∧ e.value = authzEntryOfRow a
  challenges : ∀ k e, crdt.challenges.lookup k = some e →
    ∃ c, db.challenges.find? k = some c ∧ ∀ v, e.value = some v → v = challengeEntryOfRow c

instance (db : Db) (crdt : AkaCrdt) : Decidable (Agrees db crdt) :=
  decidable_of_iff
    ((∀ p ∈ crdt.orders.entries.rows, ∃ o ∈ db.orders.find? p.1, p.2.value = orderEntryOfRow o) ∧
      (∀ p ∈ crdt.authorizations.entries.rows,
        ∃ a ∈ db.authorizations.find? p.1, p.2.value = authzEntryOfRow a) ∧
      ∀ p ∈ crdt.challenges.entries.rows,
        ∃ c ∈ db.challenges.find? p.1, ∀ v ∈ p.2.value, v = challengeEntryOfRow c)
    ⟨fun ⟨horders, hauthzs, hchallenges⟩ ↦
      ⟨fun k e h ↦ horders (k, e) (OrMap.lookup_eq_some_iff.mp h),
        fun k e h ↦ hauthzs (k, e) (OrMap.lookup_eq_some_iff.mp h),
        fun k e h ↦ hchallenges (k, e) (LwwMap.lookup_eq_some_iff.mp h)⟩,
      fun h ↦ ⟨fun p hp ↦ h.orders p.1 p.2 (OrMap.lookup_eq_some_iff.mpr hp),
        fun p hp ↦ h.authorizations p.1 p.2 (OrMap.lookup_eq_some_iff.mpr hp),
        fun p hp ↦ h.challenges p.1 p.2 (LwwMap.lookup_eq_some_iff.mpr hp)⟩⟩

section WriteBack

variable {db db' : Db} {crdt : AkaCrdt}

variable (h : Agrees db crdt) (hpersist : persistCrdtAcme db crdt = .ok db')

include h hpersist

theorem Agrees.find?_orders (k : String) : db'.orders.find? k = db.orders.find? k := by
  obtain ⟨habsent, hwritten⟩ := order_of_persist hpersist k
  cases hlookup : crdt.orders.lookup k with
  | none => exact habsent hlookup
  | some e =>
    obtain ⟨o, ho, he⟩ := h.orders k e hlookup
    obtain ⟨status, hstatus, hnew⟩ := hwritten e hlookup
    rw [he] at hstatus hnew
    obtain rfl : o.status = status := by simpa [orderEntryOfRow] using hstatus
    rw [hnew, ho]
    rfl

theorem Agrees.find?_authorizations (k : String) :
    db'.authorizations.find? k = db.authorizations.find? k := by
  obtain ⟨habsent, hwritten⟩ := authz_of_persist hpersist k
  cases hlookup : crdt.authorizations.lookup k with
  | none => exact habsent hlookup
  | some e =>
    obtain ⟨a, ha, he⟩ := h.authorizations k e hlookup
    obtain ⟨status, hstatus, hnew⟩ := hwritten e hlookup
    rw [he] at hstatus hnew
    obtain rfl : a.status = status := by simpa [authzEntryOfRow] using hstatus
    rw [hnew, ha]
    rfl

theorem Agrees.find?_challenges (k : String) : db'.challenges.find? k = db.challenges.find? k := by
  obtain ⟨habsent, hwritten⟩ := challenge_of_persist hpersist k
  cases hlookup : crdt.challenges.lookup k with
  | none => exact habsent hlookup
  | some e =>
    obtain ⟨c, hc, he⟩ := h.challenges k e hlookup
    have hnew := hwritten e hlookup
    unfold ChallengeWritten at hnew
    cases hvalue : e.value with
    | none =>
      rw [hvalue] at hnew
      exact hnew
    | some v =>
      rw [hvalue] at hnew
      obtain ⟨status, hstatus, hnew⟩ := hnew
      rw [he v hvalue] at hstatus hnew
      obtain rfl : c.status = status := by simpa [challengeEntryOfRow] using hstatus
      rw [hnew, hc]
      rfl

end WriteBack

/-- If the transaction is a write-back, the replica agrees with the database. -/
def Quiet (db : Db) (t : Txn) : Prop := ∀ crdt, t = .persist crdt → Agrees db crdt

theorem quiet_of_ne_persist {db : Db} (h : ∀ crdt, t ≠ .persist crdt) : Quiet db t :=
  fun crdt ht ↦ absurd ht (h crdt)

/-- The part of `Effect` that holds for an agreeing write-back as well. -/
structure Writes (decodeNull : Except AcmeError String) (db : Db) (t : Txn) (db' : Db) :
    Prop where
  orders : ∀ r, r ∈ db'.orders.rows ↔
    (∃ o ∈ db.orders.rows, t.onOrder decodeNull db o = r) ∨ r ∈ t.newOrders
  authorizations : ∀ r, r ∈ db'.authorizations.rows ↔
    (∃ a ∈ db.authorizations.rows, t.onAuthz db a = r) ∨ r ∈ t.newAuthzs
  challenges : ∀ r, r ∈ db'.challenges.rows ↔
    (∃ c ∈ db.challenges.rows, t.onChallenge c = r) ∨ r ∈ t.newChallenges

theorem writes_of_exec {db db' : Db} {o : Outcome} (h : exec decodeNull db t = .ok (db', o))
    (hquiet : Quiet db t) : Writes decodeNull db t db' := by
  rcases exec_cases h with ⟨crdt, rfl, hpersist⟩ | heffect
  · have hagrees := hquiet crdt rfl
    constructor <;> intro r
    · simp [Txn.onOrder, Txn.newOrders, mem_rows_iff, hagrees.find?_orders hpersist]
    · simp [Txn.onAuthz, Txn.newAuthzs, mem_rows_iff,
        hagrees.find?_authorizations hpersist]
    · simp [Txn.onChallenge, Txn.newChallenges, mem_rows_iff,
        hagrees.find?_challenges hpersist]
  · constructor <;> intro r
    · simp [heffect.orders]
    · simp [heffect.authorizations]
    · simp [heffect.challenges]

end Akamu
