import Akamu.Db.ClusterTables

/-!
# Restarting from the database

A node that has written its replica back and loads it again.  The tables keep
the values but few of the timestamps, node ids and tombstones that merges
compare: those are recomputed from `created`, `updated` and the status on
loading.  `Restartable` says when the recomputed ones are the old ones, table by
table; exactly then no peer can tell the reloaded replica from the old one.
-/

namespace Akamu.Restart

open Crdt KeyedTable List Option OrMapEntry
open Except (bind_eq_ok)

/-! ## Entries that read back as they were -/

/-- No row is without an entry, and each entry fits the row it is written over. -/
@[mk_iff]
structure Paired {ρ ε : Type} (rows : List ρ) (name : ρ → String)
    (entries : KeyedTable (String × ε) Prod.fst) (Kept : String → ε → Option ρ → Prop) : Prop where
  entry : ∀ r ∈ rows, (entries.find? (name r)).isSome
  kept : ∀ e ∈ entries.rows, Kept e.1 e.2 (rows.find? fun r ↦ decide (name r = e.1))

/-- Tombstoned exactly when the status is final; a live account is stamped with
its creation time, and its row is of the same key. -/
def AccountKept (k : String) (e : OrMapEntry AccountEntry) (old : Option AccountRow) : Prop :=
  e.tombstone = (e.value.status == "deactivated" || e.value.status == "revoked") ∧
  (e.tombstone = false → e.value.accountId = k ∧ e.addedAt = e.value.created ∧
    ∀ r ∈ old, r.publicKey = e.value.publicKeyDer ∧ r.jwkThumbprint = e.value.jwkThumbprint ∧
      r.created = e.value.created)

def OrderKept (k : String) (e : OrMapEntry OrderEntry) (old : Option OrderRow) : Prop :=
  e.tombstone = (e.value.status == "invalid") ∧
  (e.tombstone = false → e.value.orderId = k ∧ e.addedAt = e.value.created ∧
    ∀ r ∈ old, r.accountId = e.value.accountId ∧ r.identifiers = e.value.identifiers ∧
      r.notBefore = e.value.notBefore ∧ r.notAfter = e.value.notAfter ∧
      r.created = e.value.created ∧ r.caId = e.value.caId)

/-- The order id that is loaded, where the row loads at all. -/
def orderIdRead (decodeNull : Except AcmeError String) (r : AuthorizationRow) : String :=
  r.orderId.getD (decodeNull.toOption.getD "")

def AuthzKept (decodeNull : Except AcmeError String) (k : String) (e : OrMapEntry AuthzEntry)
    (old : Option AuthorizationRow) : Prop :=
  e.tombstone = (e.value.status == "invalid" || e.value.status == "expired" ||
    e.value.status == "deactivated" || e.value.status == "revoked") ∧
  (e.tombstone = false → e.value.authzId = k ∧ e.addedAt = e.value.created ∧
    ∀ r ∈ old, orderIdRead decodeNull r = e.value.orderId ∧ r.accountId = e.value.accountId ∧
      r.identifier = e.value.identifier ∧ r.wildcard = e.value.wildcard ∧
      r.created = e.value.created ∧ r.caId = e.value.caId)

/-- A register without a value is not written, so it has to be as good as absent. -/
def ChallengeKept (nodeId : String) (k : String) (e : LwwRegister ChallengeEntry)
    (old : Option ChallengeRow) : Prop :=
  (e.value = none → e.timestamp = 0 ∧ e.nodeId = "" ∧ old.isNone) ∧
  ∀ v ∈ e.value, e.nodeId = nodeId ∧ v.challengeId = k ∧ e.timestamp = v.updated ∧
    ∀ r ∈ old, r.authzId = v.authzId ∧ r.type = v.challengeType ∧ r.token = v.token ∧
      r.created = v.created

/-- Certificates are not inserted, so the row has to be there. -/
def CertKept (k : String) (e : OrMapEntry CertEntry) (old : Option CertificateRow) : Prop :=
  e.tombstone = (e.value.status == "revoked") ∧
  ∃ r ∈ old, e.tombstone = false → e.value.certId = k ∧ e.addedAt = e.value.created ∧
    r.orderId = e.value.orderId ∧ r.accountId = e.value.accountId ∧
    r.serialNumber = e.value.serialNumber ∧ r.notBefore = e.value.notBefore ∧
    r.notAfter = e.value.notAfter ∧ r.created = e.value.created ∧ r.caId = e.value.caId

/-- Only `used_at` is written, so the row has to be there and of the same key. -/
def EabKeyKept (nodeId : String) (k : String) (e : LwwRegister EabKeyEntry)
    (old : Option EabKeyRow) : Prop :=
  (e.value = none → e.timestamp = 0 ∧ e.nodeId = "" ∧ old.isNone) ∧
  ∀ v ∈ e.value, e.nodeId = nodeId ∧ v.kid = k ∧ e.timestamp = v.created ∧
    ∃ r ∈ old, r.hmacKeyB64u = v.hmacKeyB64u ∧ r.created = v.created ∧
      r.profileGrants = v.profileGrants

def OperatorKept (_k : String) (e : OrMapEntry OperatorEntry) (old : Option OperatorRow) : Prop :=
  ∃ r ∈ old, e.tombstone = false →
    e.value = ⟨r.id, r.name, r.role, r.caId, rfc3339UtcToUnix r.createdAt⟩ ∧
      e.addedAt = rfc3339UtcToUnix r.createdAt

/-- Removals of delegations are not stored. -/
def DelegationKept (_k : String) (e : OrMapEntry DelegationEntry) (old : Option DelegationRow) :
    Prop :=
  e.tombstone = false ∧ ∃ r ∈ old,
    e.value = ⟨r.id, r.accountId, r.csrTemplate, r.created, r.caId⟩ ∧ e.addedAt = r.created

def PolicyRuleKept (k : String) (e : OrMapEntry PolicyRuleEntry) (old : Option PolicyRuleRow) :
    Prop :=
  e.tombstone = false → e.value.id = k ∧ e.addedAt = rfc3339UtcToUnix e.value.createdAt ∧
    ∀ r ∈ old, r.createdAt = e.value.createdAt ∧ r.createdBy = e.value.createdBy

/-- Here the entries delete each other's rows.  A row without an entry has to be
deleted by one; no entry's row may be deleted by a later entry, and it has to fit
the old row unless an earlier entry has deleted that. -/
structure RulesPaired (t : KeyedTable PolicyRuleRow PolicyRuleRow.id)
    (m : OrMap String PolicyRuleEntry) : Prop where
  entry : ∀ r ∈ t.rows, (m.lookup r.id).isSome ∨ m.entries.rows.any (evicts r)
  kept : ∀ pre k e post, m.entries.rows = pre ++ (k, e) :: post →
    post.any (evicts (policyRuleRowOfEntry (k, e))) = false ∧
      PolicyRuleKept k e ((t.find? k).filter fun r ↦ !pre.any (evicts r))

def ClusterNodeKept (e : String × OrMapEntry AkaNodeEntry) : Prop :=
  e.2.tombstone = false → e.2.value.nodeId = e.1 ∧ e.2.addedAt = e.2.value.registeredAt

/-- Authorizations without an order, which have `NULL` as their order id, may
not load at all. -/
@[mk_iff]
structure Restartable (decodeNull : Except AcmeError String) (nodeId : String) (db : ClusterDb)
    (crdt : ClusterCrdt) : Prop where
  orderIds : ∀ r ∈ db.authorizations.rows, r.orderId.isSome ∨ decodeNull.isOk
  accounts : Paired db.accounts.rows AccountRow.id crdt.accounts.entries AccountKept
  orders : Paired db.orders.rows OrderRow.id crdt.orders.entries OrderKept
  authorizations : Paired db.authorizations.rows AuthorizationRow.id
    crdt.authorizations.entries (AuthzKept decodeNull)
  challenges : Paired db.challenges.rows ChallengeRow.id crdt.challenges.entries
    (ChallengeKept nodeId)
  certificates : Paired db.certificates.rows CertificateRow.id crdt.certificates.entries CertKept
  eabKeys : Paired db.eabKeys.rows EabKeyRow.kid crdt.eabKeys.entries (EabKeyKept nodeId)
  operators : Paired db.operators.rows (fun r ↦ toString r.id) crdt.operators.entries OperatorKept
  delegations : Paired db.delegations.rows DelegationRow.id crdt.delegations.entries
    DelegationKept
  policyRules : RulesPaired db.policyRules crdt.policyRules
  clusterNodes : ∀ e ∈ crdt.clusterNodes.entries.rows, ClusterNodeKept e

/-! ## Reading a written row -/

section Read

variable {k : String}

/-- What is read under a key, where `none` stands for a missing row. -/
def readOr {ρ V : Type} (entry : ρ → OrMapEntry V) (r : Option ρ) : Content V :=
  (r.map fun r ↦ (entry r).content).getD ⟨⊥, none⟩

def readLww {ρ V : Type} (register : ρ → LwwRegister V) (r : Option ρ) : Content V :=
  (r.map fun r ↦ (register r).content).getD (default : LwwRegister V).content

theorem account_read_iff {e : OrMapEntry AccountEntry} {old new : Option AccountRow}
    (hwritten : AccountWritten k e old new) (hid : ∀ r ∈ old, r.id = k) :
    readOr (fun r ↦ loadRow (accountEntryOfRow r) r.created r.updated (r.status != .valid)) new =
      e.content ↔ AccountKept k e old := by
  obtain ⟨status, hstatus, rfl⟩ := hwritten
  have htext := AccountStatus.asStr_of_fromStr hstatus
  rw [readOr, map_some, getD_some, content_eq_iff]
  refine and_congr ?_ (imp_congr_right fun _ ↦ ?_)
  · rw [← htext]
    cases old <;> cases status <;> exact eq_comm
  · obtain ⟨⟨⟩, addedAt⟩ := e
    cases old with
    | none =>
      simp only [loadRow, accountEntryOfRow, accountRowOfEntry, elim_none, AccountEntry.mk.injEq]
      grind
    | some r =>
      have hr := hid r rfl
      simp only [loadRow, accountEntryOfRow, assignAccount, elim_some, AccountEntry.mk.injEq]
      grind

theorem order_read_iff {e : OrMapEntry OrderEntry} {old new : Option OrderRow}
    (hwritten : OrderWritten k e old new) (hid : ∀ r ∈ old, r.id = k) :
    readOr (fun r ↦ loadRow (orderEntryOfRow r) r.created r.updated (r.status == .invalid)) new =
      e.content ↔ OrderKept k e old := by
  obtain ⟨status, hstatus, rfl⟩ := hwritten
  have htext := OrderStatus.asStr_of_fromStr hstatus
  rw [readOr, map_some, getD_some, content_eq_iff]
  refine and_congr ?_ (imp_congr_right fun _ ↦ ?_)
  · rw [← htext]
    cases old <;> cases status <;> exact eq_comm
  · obtain ⟨⟨⟩, addedAt⟩ := e
    cases old with
    | none =>
      simp only [loadRow, orderEntryOfRow, orderRowOfEntry, elim_none, OrderEntry.mk.injEq]
      grind
    | some r =>
      have hr := hid r rfl
      simp only [loadRow, orderEntryOfRow, assignOrder, elim_some, OrderEntry.mk.injEq]
      grind

/-- The row as it is decoded. -/
def decoded (decodeNull : Except AcmeError String) (r : AuthorizationRow) : AuthorizationRow :=
  { r with orderId := some (orderIdRead decodeNull r) }

theorem authz_read_iff {decodeNull : Except AcmeError String} {e : OrMapEntry AuthzEntry}
    {old new : Option AuthorizationRow} (hwritten : AuthzWritten k e old new)
    (hid : ∀ r ∈ old, r.id = k) :
    readOr (fun r ↦ loadAuthz (decoded decodeNull r)) new = e.content ↔
      AuthzKept decodeNull k e old := by
  obtain ⟨status, hstatus, rfl⟩ := hwritten
  have htext := AuthzStatus.asStr_of_fromStr hstatus
  rw [readOr, map_some, getD_some, content_eq_iff]
  refine and_congr ?_ (imp_congr_right fun _ ↦ ?_)
  · rw [← htext]
    cases old <;> cases status <;> exact eq_comm
  · obtain ⟨⟨⟩, addedAt⟩ := e
    cases old with
    | none =>
      simp only [loadAuthz, loadRow, authzEntryOfRow, decoded, orderIdRead, authzRowOfEntry,
        elim_none, getD_some, AuthzEntry.mk.injEq]
      grind
    | some r =>
      have hr := hid r rfl
      simp only [loadAuthz, loadRow, authzEntryOfRow, decoded, orderIdRead, assignAuthz,
        elim_some, getD_some, AuthzEntry.mk.injEq]
      grind

theorem content_eq_content_iff {T : Type} {r s : LwwRegister T} :
    r.content = s.content ↔
      r.timestamp = s.timestamp ∧ r.nodeId = s.nodeId ∧ r.value = s.value := by
  rw [LwwRegister.content, LwwRegister.content, Stamped.mk.injEq, Stamp.at_inj, and_assoc]

/-- Nothing is written for a register without a value. -/
theorem readLww_eq_unset_iff {ρ V : Type} {register : ρ → LwwRegister V} {e : LwwRegister V}
    {r : Option ρ} (he : e.value = none) (hregister : ∀ r, (register r).value ≠ none) :
    readLww register r = e.content ↔ e.timestamp = 0 ∧ e.nodeId = "" ∧ r.isNone := by
  cases r with
  | none =>
    rw [readLww, map_none, getD_none, content_eq_content_iff, he]
    exact ⟨fun ⟨ht, hn, _⟩ ↦ ⟨ht.symm, hn.symm, rfl⟩, fun ⟨ht, hn, _⟩ ↦ ⟨ht.symm, hn.symm, rfl⟩⟩
  | some r =>
    rw [readLww, map_some, getD_some, content_eq_content_iff, he]
    exact ⟨fun h ↦ absurd h.2.2 (hregister r), fun h ↦ absurd h.2.2 Bool.false_ne_true⟩

theorem challenge_read_iff {nodeId : String} {e : LwwRegister ChallengeEntry}
    {old new : Option ChallengeRow} (hwritten : ChallengeWritten k e old new)
    (hid : ∀ r ∈ old, r.id = k) :
    readLww (fun r ↦ ⟨some (challengeEntryOfRow r), r.updated, nodeId, 0⟩) new = e.content ↔
      ChallengeKept nodeId k e old := by
  unfold ChallengeKept
  cases hv : e.value with
  | none =>
    simp only [ChallengeWritten, hv] at hwritten
    rw [hwritten, readLww_eq_unset_iff hv fun r ↦ some_ne_none _]
    simp
  | some v =>
    simp only [ChallengeWritten, hv] at hwritten
    simp only [reduceCtorEq, false_imp_iff, true_and, mem_some_iff, forall_eq']
    obtain ⟨status, hstatus, rfl⟩ := hwritten
    have htext := ChallengeStatus.asStr_of_fromStr hstatus
    rw [readLww, map_some, getD_some, content_eq_content_iff, hv, some_inj]
    obtain ⟨⟩ := v
    cases old with
    | none =>
      simp only [challengeEntryOfRow, challengeRowOfEntry, elim_none, ChallengeEntry.mk.injEq]
      grind
    | some r =>
      have hr := hid r rfl
      simp only [challengeEntryOfRow, assignChallenge, elim_some, ChallengeEntry.mk.injEq]
      grind

theorem cert_read_iff {e : OrMapEntry CertEntry} {old new : Option CertificateRow}
    (hwritten : CertWritten e old new) (hid : ∀ r ∈ old, r.id = k) :
    readOr (fun r ↦ ⟨certEntryOfRow r, r.created, r.status == .revoked, r.revokedAt, 0⟩) new =
      e.content ↔ CertKept k e old := by
  cases old with
  | none =>
    obtain rfl : new = none := hwritten
    refine ⟨fun h ↦ absurd (congrArg Stamped.stamp h) e.bot_lt_stamp.ne, fun ⟨_, r, hr, _⟩ ↦ ?_⟩
    cases hr
  | some r =>
    obtain ⟨status, hstatus, rfl⟩ := hwritten
    have htext := CertStatus.asStr_of_fromStr hstatus
    have hr := hid r rfl
    rw [readOr, map_some, getD_some, content_eq_iff, CertKept]
    refine and_congr ?_ ?_
    · rw [← htext]
      cases status <;> exact eq_comm
    · obtain ⟨⟨⟩, addedAt⟩ := e
      simp only [certEntryOfRow, assignCert, CertEntry.mk.injEq, mem_some_iff, exists_eq_left']
      grind

theorem eabKey_read_iff {nodeId : String} {e : LwwRegister EabKeyEntry}
    {old new : Option EabKeyRow} (hwritten : EabKeyWritten e old new)
    (hid : ∀ r ∈ old, r.kid = k) :
    readLww (fun r ↦ ⟨some (eabKeyEntryOfRow r), r.created, nodeId, 0⟩) new = e.content ↔
      EabKeyKept nodeId k e old := by
  unfold EabKeyKept
  cases hv : e.value with
  | none =>
    simp only [EabKeyWritten, hv] at hwritten
    rw [hwritten, readLww_eq_unset_iff hv fun r ↦ some_ne_none _]
    simp
  | some v =>
    simp only [EabKeyWritten, hv] at hwritten
    simp only [reduceCtorEq, false_imp_iff, true_and, mem_some_iff, forall_eq']
    subst hwritten
    cases old with
    | none =>
      rw [readLww, map_none, map_none, getD_none, content_eq_content_iff, hv]
      refine ⟨fun h ↦ absurd h.2.2.symm (some_ne_none v), fun ⟨_, _, _, r, hr, _⟩ ↦ ?_⟩
      cases hr
    | some r =>
      have hr := hid r rfl
      rw [readLww, map_some, map_some, getD_some, content_eq_content_iff, hv, some_inj]
      obtain ⟨⟩ := v
      simp only [eabKeyEntryOfRow, assignEabKey, EabKeyEntry.mk.injEq, mem_some_iff,
        exists_eq_left']
      grind

theorem delegation_read_iff {e : OrMapEntry DelegationEntry} {old : Option DelegationRow} :
    readOr loadDelegation old = e.content ↔ DelegationKept k e old := by
  cases old with
  | none =>
    refine ⟨fun h ↦ absurd (congrArg Stamped.stamp h) e.bot_lt_stamp.ne, fun ⟨_, r, hr, _⟩ ↦ ?_⟩
    cases hr
  | some r =>
    rw [readOr, map_some, getD_some, content_eq_iff]
    simp only [loadDelegation, DelegationKept, mem_some_iff, exists_eq_left']
    grind

theorem policyRule_read_iff {e : OrMapEntry PolicyRuleEntry} {old : Option PolicyRuleRow}
    (hid : ∀ r ∈ old, r.id = k) :
    (loadPolicyRule (rowWritten k e old)).content = e.content ↔ PolicyRuleKept k e old := by
  rw [content_eq_iff]
  obtain ⟨⟨⟩, addedAt⟩ := e
  cases old with
  | none =>
    simp only [loadPolicyRule, rowWritten, policyRuleRowOfEntry, elim_none,
      PolicyRuleEntry.mk.injEq, PolicyRuleKept]
    grind
  | some r =>
    have hr := hid r rfl
    simp only [loadPolicyRule, rowWritten, assignPolicyRule, elim_some, PolicyRuleEntry.mk.injEq,
      PolicyRuleKept]
    grind

end Read

/-! ## Reading a table back -/

section Reload

variable {ρ : Type} {key : ρ → String} {t t' : KeyedTable ρ key}

section Paired

variable {ε : Type} {entries : KeyedTable (String × ε) Prod.fst}
  {Kept : String → ε → Option ρ → Prop}

theorem Paired.find?_eq_none (h : Paired t.rows key entries Kept) {k : String}
    (hnone : (entries.find? k).map Prod.snd = none) : t.find? k = none := by
  refine KeyedTable.find?_eq_none_iff.mpr fun r hr hkey ↦ ?_
  have hsome := h.entry r hr
  rw [hkey, map_eq_none_iff.mp hnone] at hsome
  cases hsome

theorem Paired.kept_of_find? (h : Paired t.rows key entries Kept) {k : String} {e : ε}
    (hk : (entries.find? k).map Prod.snd = some e) : Kept k e (t.find? k) := by
  obtain ⟨p, hp, rfl⟩ := map_eq_some_iff.mp hk
  obtain ⟨hmem, rfl⟩ := KeyedTable.find?_eq_some_iff.mp hp
  exact h.kept p hmem

/-- `t` goes through the write-back and is `t'` then. -/
def WrittenBack (Written : String → ε → Option ρ → Option ρ → Prop) (t t' : KeyedTable ρ key)
    (entries : KeyedTable (String × ε) Prod.fst) : Prop :=
  ∀ k, ((entries.find? k).map Prod.snd = none → t'.find? k = t.find? k) ∧
    ∀ e, (entries.find? k).map Prod.snd = some e → Written k e (t.find? k) (t'.find? k)

theorem read_iff_paired {β : Type} {read : Option ρ → β} {obs : ε → β}
    {Written : String → ε → Option ρ → Option ρ → Prop} (hback : WrittenBack Written t t' entries)
    (hread : ∀ k e old new, Written k e old new → (∀ r ∈ old, key r = k) →
      (read new = obs e ↔ Kept k e old))
    (hrow : ∀ r, read (some r) ≠ read none) :
    (∀ k, read (t'.find? k) = (((entries.find? k).map Prod.snd).map obs).getD (read none)) ↔
      Paired t.rows key entries Kept := by
  constructor
  · intro h
    refine ⟨fun r hr ↦ isSome_iff_ne_none.mpr fun hnone ↦ ?_, fun e he ↦ ?_⟩
    · have hk := h (key r)
      rw [(hback _).1 (map_eq_none_iff.mpr hnone), find?_of_mem hr, hnone] at hk
      exact hrow r hk
    · have hk := h e.1
      have hfind : (entries.find? e.1).map Prod.snd = some e.2 := by rw [find?_of_mem he]; rfl
      rw [hfind, map_some, getD_some] at hk
      exact (hread e.1 e.2 _ _ ((hback e.1).2 e.2 hfind) fun r hr ↦ key_of_find? hr).mp hk
  · intro h k
    cases hk : (entries.find? k).map Prod.snd with
    | none => rw [(hback k).1 hk, h.find?_eq_none hk, map_none, getD_none]
    | some e =>
      rw [map_some, getD_some]
      exact (hread k e _ _ ((hback k).2 e hk) fun r hr ↦ key_of_find? hr).mpr (h.kept_of_find? hk)

end Paired

variable {V : Type}

theorem orMap_reloaded_iff {m : OrMap String V} {entry : ρ → OrMapEntry V}
    {Written : String → OrMapEntry V → Option ρ → Option ρ → Prop}
    {Kept : String → OrMapEntry V → Option ρ → Prop} (hback : WrittenBack Written t t' m.entries)
    (hread : ∀ k e old new, Written k e old new → (∀ r ∈ old, key r = k) →
      (readOr entry new = e.content ↔ Kept k e old)) :
    (∀ k, ((OrMap.load t'.rows fun r ↦ (key r, entry r)).slot k).content = (m.slot k).content) ↔
      Paired t.rows key m.entries Kept := by
  refine Iff.trans (forall_congr' fun k ↦ ?_)
    (read_iff_paired hback hread fun r h ↦ (entry r).bot_lt_stamp.ne' (congrArg Stamped.stamp h))
  rw [OrMap.content_load t'.nodup, OrMap.content_slot]
  rfl

theorem lwwMap_reloaded_iff {m : LwwMap String V} {register : ρ → LwwRegister V}
    {Written : String → LwwRegister V → Option ρ → Option ρ → Prop}
    {Kept : String → LwwRegister V → Option ρ → Prop} (hback : WrittenBack Written t t' m.entries)
    (hread : ∀ k e old new, Written k e old new → (∀ r ∈ old, key r = k) →
      (readLww register new = e.content ↔ Kept k e old))
    (hregister : ∀ r, (register r).value ≠ none) :
    (∀ k, ((LwwMap.load t'.rows fun r ↦ (key r, register r)).slot k).content =
      (m.slot k).content) ↔ Paired t.rows key m.entries Kept := by
  refine Iff.trans (forall_congr' fun k ↦ ?_)
    (read_iff_paired hback hread fun r h ↦ hregister r (congrArg Stamped.value h))
  rw [LwwMap.content_load t'.nodup, LwwMap.content_slot]
  rfl

end Reload

/-! ### The tables that are written otherwise -/

section Tables

theorem nodup_operatorNames (t : KeyedTable OperatorRow OperatorRow.id) :
    (t.rows.map fun r ↦ toString r.id).Nodup := by
  refine List.Nodup.map_on (fun r hr r' hr' heq ↦ ?_) (List.Nodup.of_map _ t.nodup)
  exact eq_of_mem_of_key_eq _ hr hr' (OperatorRow.id_eq_of_toString heq)

/-- The operators under their names in the replica. -/
def named (t : KeyedTable OperatorRow OperatorRow.id) :
    KeyedTable OperatorRow fun r ↦ toString r.id :=
  ⟨t.rows, nodup_operatorNames t⟩

theorem operators_writtenBack (t : KeyedTable OperatorRow OperatorRow.id)
    {m : OrMap String OperatorEntry}
    (hkeys : ∀ e ∈ m.entries.rows, ∃ r : OperatorRow, toString r.id = e.1) :
    WrittenBack (fun _ e old new ↦ new = old.map fun r ↦ { r with active := !e.tombstone })
      (named t) (named (m.entries.rows.foldl persistOperator t)) m.entries := by
  intro k
  have hids := ids_persistOperators m.entries.rows t
  cases hfind : (named t).find? k with
  | none =>
    have hnone : (named (m.entries.rows.foldl persistOperator t)).find? k = none := by
      refine KeyedTable.find?_eq_none_iff.mpr fun r' hr' hname ↦ ?_
      obtain ⟨r, hr, hid⟩ := mem_map.mp (hids ▸ mem_map_of_mem hr')
      exact KeyedTable.find?_eq_none_iff.mp hfind r hr (by rw [hid, hname])
    exact ⟨fun _ ↦ hnone, fun _ _ ↦ hnone⟩
  | some r =>
    obtain ⟨hr, rfl⟩ := KeyedTable.find?_eq_some_iff.mp hfind
    refine ⟨fun hk ↦ ?_, fun e he ↦ ?_⟩
    · have hmem := mem_of_find? ((operator_of_persist_none hkeys hk).trans (find?_of_mem hr))
      exact KeyedTable.find?_eq_some_iff.mpr ⟨hmem, rfl⟩
    · have hmem := mem_of_find? (operator_of_persist hkeys hr he)
      exact KeyedTable.find?_eq_some_iff.mpr ⟨hmem, rfl⟩

theorem operator_read_iff {k : String} {e : OrMapEntry OperatorEntry}
    {old new : Option OperatorRow}
    (hwritten : new = old.map fun r ↦ { r with active := !e.tombstone }) :
    readOr loadOperator new = e.content ↔ OperatorKept k e old := by
  subst hwritten
  cases old with
  | none =>
    refine ⟨fun h ↦ absurd (congrArg Stamped.stamp h) e.bot_lt_stamp.ne, fun ⟨r, hr, _⟩ ↦ ?_⟩
    cases hr
  | some r =>
    rw [readOr, map_some, map_some, getD_some, content_eq_iff]
    simp only [loadOperator, OperatorKept, Bool.not_not, mem_some_iff, exists_eq_left']
    grind

/-- An entry under a key that is no number of a row, such as `01`, is not loaded
again, though its removal may be written to the row of another key. -/
theorem operators_reloaded_iff {t : KeyedTable OperatorRow OperatorRow.id}
    {m : OrMap String OperatorEntry} :
    (∀ k, ((OrMap.load (m.entries.rows.foldl persistOperator t).rows fun r ↦
      (toString r.id, loadOperator r)).slot k).content = (m.slot k).content) ↔
      Paired t.rows (fun r ↦ toString r.id) m.entries OperatorKept := by
  have hiff (hkeys : ∀ e ∈ m.entries.rows, ∃ r : OperatorRow, toString r.id = e.1) :=
    orMap_reloaded_iff (operators_writtenBack t hkeys) fun k _ _ _ hwritten _ ↦
      operator_read_iff (k := k) hwritten
  constructor
  · intro h
    refine (hiff fun e he ↦ ?_).mp h
    have hk := h e.1
    rw [OrMap.content_of_lookup (OrMap.lookup_eq_some_iff.mpr he)] at hk
    cases hload : (OrMap.load (m.entries.rows.foldl persistOperator t).rows fun r ↦
        (toString r.id, loadOperator r)).lookup e.1 with
    | none =>
      rw [OrMap.slot_of_none hload] at hk
      exact absurd (congrArg Stamped.stamp hk) e.2.bot_lt_stamp.ne
    | some e' =>
      obtain ⟨r, -, heq⟩ := OrMap.mem_of_lookup_load hload
      exact ⟨r, congrArg Prod.fst heq⟩
  · intro h
    refine (hiff fun e he ↦ ?_).mpr h
    obtain ⟨r, hr, -⟩ := h.kept e he
    exact ⟨r, of_decide_eq_true (find?_some hr :)⟩

theorem delegations_reloaded_iff {t : KeyedTable DelegationRow DelegationRow.id}
    {m : OrMap String DelegationEntry} :
    (∀ k, ((OrMap.load t.rows fun r ↦ (r.id, loadDelegation r)).slot k).content =
      (m.slot k).content) ↔ Paired t.rows DelegationRow.id m.entries DelegationKept := by
  refine orMap_reloaded_iff (fun _ ↦ ⟨fun _ ↦ rfl, fun _ _ ↦ rfl⟩) ?_
  rintro k e old new (rfl : old = new) -
  exact delegation_read_iff

theorem clusterNodes_reloaded_iff {t : KeyedTable ClusterNodeRow ClusterNodeRow.nodeId}
    {m : OrMap String AkaNodeEntry}
    (ht : ∀ k, t.find? k = (m.lookup k).map fun e ↦ clusterNodeRowOfEntry (k, e)) :
    (∀ k, ((OrMap.load t.rows fun r ↦ (r.nodeId, loadClusterNode r)).slot k).content =
      (m.slot k).content) ↔ ∀ e ∈ m.entries.rows, ClusterNodeKept e := by
  have hread (k : String) (e : OrMapEntry AkaNodeEntry) :
      (loadClusterNode (clusterNodeRowOfEntry (k, e))).content = e.content ↔
        ClusterNodeKept (k, e) := by
    rw [content_eq_iff]
    obtain ⟨⟨⟩, addedAt⟩ := e
    simp only [loadClusterNode, clusterNodeRowOfEntry, AkaNodeEntry.mk.injEq, ClusterNodeKept]
    grind
  have hkey (k : String) : ((OrMap.load t.rows fun r ↦ (r.nodeId, loadClusterNode r)).slot
      k).content = (m.slot k).content ↔ ∀ e, m.lookup k = some e → ClusterNodeKept (k, e) := by
    have hload : ((OrMap.load t.rows fun r ↦ (r.nodeId, loadClusterNode r)).slot k).content =
        readOr loadClusterNode (t.find? k) := OrMap.content_load t.nodup k
    rw [hload, OrMap.content_slot, ht]
    cases m.lookup k with
    | none => exact iff_of_true rfl fun _ h ↦ by cases h
    | some e =>
      refine (hread k e).trans ⟨fun h e' he' ↦ ?_, fun h ↦ h e rfl⟩
      cases he'
      exact h
  simp only [hkey]
  exact ⟨fun h e he ↦ h e.1 e.2 (OrMap.lookup_eq_some_iff.mpr he),
    fun h k e he ↦ h (k, e) (OrMap.lookup_eq_some_iff.mp he)⟩

section Rules

variable {t t' : KeyedTable PolicyRuleRow PolicyRuleRow.id} {m : OrMap String PolicyRuleEntry}
  {k : String}

/-- Under a key without an entry nothing is read if the old row has been evicted. -/
theorem rule_absent_iff (ht : m.entries.rows.foldlM persistPolicyRule t = .ok t')
    (hk : m.lookup k = none) : readOr loadPolicyRule (t'.find? k) = ⟨⊥, none⟩ ↔
      ∀ r, t.find? k = some r → m.entries.rows.any (evicts r) := by
  rw [find?_persistPolicyRules ht (KeyedTable.find?_eq_none_iff.mp (map_eq_none_iff.mp hk))]
  cases t.find? k with
  | none => exact iff_of_true rfl nofun
  | some r =>
    cases hev : m.entries.rows.any (evicts r) with
    | true =>
      rw [filter_some_neg (by simp [hev])]
      refine iff_of_true rfl fun r' hr' ↦ ?_
      cases hr'
      exact hev
    | false =>
      rw [filter_some_pos (by simp [hev])]
      refine iff_of_false (fun h ↦ ?_) fun h ↦ Bool.false_ne_true (hev.symm.trans (h r rfl))
      exact (loadPolicyRule r).bot_lt_stamp.ne' (congrArg Stamped.stamp h)

theorem rule_read_iff {pre post : List (String × OrMapEntry PolicyRuleEntry)}
    {e : OrMapEntry PolicyRuleEntry} (ht : m.entries.rows.foldlM persistPolicyRule t = .ok t')
    (hrows : m.entries.rows = pre ++ (k, e) :: post) :
    readOr loadPolicyRule (t'.find? k) = e.content ↔
      post.any (evicts (policyRuleRowOfEntry (k, e))) = false ∧
        PolicyRuleKept k e ((t.find? k).filter fun r ↦ !pre.any (evicts r)) := by
  rw [hrows] at ht
  rw [find?_persistPolicyRules_split ht (m.entries.key_ne_of_split hrows)]
  cases hev : post.any (evicts (policyRuleRowOfEntry (k, e))) with
  | true =>
    rw [if_pos rfl]
    refine iff_of_false (fun h ↦ ?_) fun h ↦ Bool.false_ne_true h.1.symm
    exact e.bot_lt_stamp.ne (congrArg Stamped.stamp h)
  | false =>
    rw [if_neg Bool.false_ne_true, readOr, map_some, getD_some, policyRule_read_iff]
    · exact (and_iff_right rfl).symm
    · exact fun r hr ↦ key_of_find? (filter_eq_some_iff.mp hr).1

theorem policyRules_reloaded_iff (ht : m.entries.rows.foldlM persistPolicyRule t = .ok t') :
    (∀ k, ((OrMap.load t'.rows fun r ↦ (r.id, loadPolicyRule r)).slot k).content =
      (m.slot k).content) ↔ RulesPaired t m := by
  have hload (k : String) : ((OrMap.load t'.rows fun r ↦ (r.id, loadPolicyRule r)).slot
      k).content = readOr loadPolicyRule (t'.find? k) := OrMap.content_load t'.nodup k
  simp only [hload, OrMap.content_slot]
  constructor
  · intro h
    refine ⟨fun r hr ↦ ?_, fun pre k e post hrows ↦ ?_⟩
    · cases hk : m.lookup r.id with
      | some e => exact .inl rfl
      | none =>
        have habsent := h r.id
        rw [hk] at habsent
        exact .inr ((rule_absent_iff ht hk).mp habsent r (find?_of_mem hr))
    · have hkept := h k
      rw [OrMap.lookup_eq_some_iff.mpr (hrows ▸ mem_append_right pre mem_cons_self)] at hkept
      exact (rule_read_iff ht hrows).mp hkept
  · intro h k
    cases hk : m.lookup k with
    | none =>
      refine (rule_absent_iff ht hk).mpr fun r hr ↦ (h.entry r (mem_of_find? hr)).resolve_left ?_
      rw [key_of_find? hr, hk]
      exact Bool.false_ne_true
    | some e =>
      obtain ⟨pre, post, hrows⟩ := append_of_mem (OrMap.lookup_eq_some_iff.mp hk)
      exact (rule_read_iff ht hrows).mpr (h.kept pre k e post hrows)

end Rules

/-! ### Order ids that are `NULL` -/

section OrderIds

variable {decodeNull : Except AcmeError String}

theorem eq_decoded {r r' : AuthorizationRow} (h : Authz.decode decodeNull r = .ok r') :
    id r' = decoded decodeNull r := by
  unfold Authz.decode at h
  split at h
  · rename_i orderId horder
    cases h
    simp only [decoded, orderIdRead, horder, getD_some, id_eq]
    rw [← horder]
  · rename_i horder
    obtain ⟨orderId, hnull, rfl⟩ := Except.map_eq_ok h
    simp [decoded, orderIdRead, horder, hnull, Except.toOption]

theorem exists_decode_iff {r : AuthorizationRow} :
    (∃ r', Authz.decode decodeNull r = .ok r') ↔ r.orderId.isSome ∨ decodeNull.isOk := by
  unfold Authz.decode
  cases r.orderId with
  | some => simp
  | none => cases decodeNull <;> simp [Except.map, Except.isOk, Except.toBool]

/-- A write-back changes no order id, and inserts none that is `NULL`. -/
theorem orderIds_written {db db' : Db} {crdt : AkaCrdt} (h : persistCrdtAcme db crdt = .ok db') :
    (∀ r ∈ db'.authorizations.rows, r.orderId.isSome ∨ decodeNull.isOk) ↔
      ∀ r ∈ db.authorizations.rows, r.orderId.isSome ∨ decodeNull.isOk := by
  have hkey (k : String) : (∀ r ∈ db'.authorizations.find? k, r.orderId.isSome ∨ decodeNull.isOk) ↔
      ∀ r ∈ db.authorizations.find? k, r.orderId.isSome ∨ decodeNull.isOk := by
    cases hk : crdt.authorizations.lookup k with
    | none => rw [(authz_of_persist h k).1 hk]
    | some e =>
      obtain ⟨status, -, hnew⟩ := (authz_of_persist h k).2 e hk
      rw [hnew]
      cases db.authorizations.find? k <;> simp [authzRowOfEntry, assignAuthz]
  constructor
  · exact fun h r hr ↦ (hkey r.id).mp
      (fun r' hr' ↦ h r' (mem_of_find? hr')) r (find?_of_mem hr)
  · exact fun h r hr ↦ (hkey r.id).mpr
      (fun r' hr' ↦ h r' (mem_of_find? hr')) r (find?_of_mem hr)

end OrderIds

end Tables

/-! ## The reloaded replica -/

/-- The components of the comparison; ownership claims and the transparency log
are left out. -/
def Compared : Cell → Prop
  | .or _ _ => True
  | .lww .challenges _ => True
  | .lww .eabKeys _ => True
  | _ => False

theorem forall_compared {P : Cell → Prop} : (∀ x, Compared x → P x) ↔
    (∀ k, P (.or .accounts k)) ∧ (∀ k, P (.or .orders k)) ∧ (∀ k, P (.or .authorizations k)) ∧
    (∀ k, P (.lww .challenges k)) ∧ (∀ k, P (.or .certificates k)) ∧ (∀ k, P (.lww .eabKeys k)) ∧
    (∀ k, P (.or .operators k)) ∧ (∀ k, P (.or .delegations k)) ∧ (∀ k, P (.or .policyRules k)) ∧
    ∀ k, P (.or .clusterNodes k) := by
  constructor
  · exact fun h ↦ ⟨fun _ ↦ h _ trivial, fun _ ↦ h _ trivial, fun _ ↦ h _ trivial,
      fun _ ↦ h _ trivial, fun _ ↦ h _ trivial, fun _ ↦ h _ trivial, fun _ ↦ h _ trivial,
      fun _ ↦ h _ trivial, fun _ ↦ h _ trivial, fun _ ↦ h _ trivial⟩
  · rintro ⟨haccounts, horders, hauthz, hchallenges, hcerts, heab, hoperators, hdelegations,
      hrules, hnodes⟩ x hx
    cases x with
    | or f k =>
      cases f with
      | accounts => exact haccounts k
      | orders => exact horders k
      | authorizations => exact hauthz k
      | certificates => exact hcerts k
      | operators => exact hoperators k
      | delegations => exact hdelegations k
      | policyRules => exact hrules k
      | clusterNodes => exact hnodes k
    | lww f k =>
      cases f with
      | challenges => exact hchallenges k
      | eabKeys => exact heab k
      | mtcCheckpoints | mtcCosignatures | orderOwners => exact hx.elim
    | writer => exact hx.elim

/-! ### Telling replicas apart -/

theorem nontrivial_of_text {V : Type} (text : V → String) (withText : String → V)
    (h : ∀ s, text (withText s) = s) : Nontrivial V := by
  refine ⟨withText "", withText "a", fun heq ↦ ?_⟩
  have htext : "" = "a" := by rw [← h "", ← h "a", heq]
  exact absurd htext (by decide)

theorem nontrivial_value {x : Cell} (hx : Compared x) : Nontrivial x.Value := by
  cases x with
  | or f =>
    cases f with
    | clusterNodes =>
      exact nontrivial_of_text AkaNodeEntry.nodeId
        (fun s ↦ { (default : AkaNodeEntry) with nodeId := s }) fun _ ↦ rfl
    | accounts =>
      exact nontrivial_of_text AccountEntry.accountId
        (fun s ↦ { (default : AccountEntry) with accountId := s }) fun _ ↦ rfl
    | orders =>
      exact nontrivial_of_text OrderEntry.orderId
        (fun s ↦ { (default : OrderEntry) with orderId := s }) fun _ ↦ rfl
    | authorizations =>
      exact nontrivial_of_text AuthzEntry.authzId
        (fun s ↦ { (default : AuthzEntry) with authzId := s }) fun _ ↦ rfl
    | certificates =>
      exact nontrivial_of_text CertEntry.certId
        (fun s ↦ { (default : CertEntry) with certId := s }) fun _ ↦ rfl
    | operators =>
      exact nontrivial_of_text OperatorEntry.name
        (fun s ↦ { (default : OperatorEntry) with name := s }) fun _ ↦ rfl
    | delegations =>
      exact nontrivial_of_text DelegationEntry.accountId
        (fun s ↦ { (default : DelegationEntry) with accountId := s }) fun _ ↦ rfl
    | policyRules =>
      exact nontrivial_of_text PolicyRuleEntry.id
        (fun s ↦ { (default : PolicyRuleEntry) with id := s }) fun _ ↦ rfl
  | lww f =>
    cases f with
    | challenges =>
      exact nontrivial_of_text ChallengeEntry.token
        (fun s ↦ ⟨"", "", .http01, "", s, none, none, 0, 0⟩) fun _ ↦ rfl
    | eabKeys =>
      exact nontrivial_of_text EabKeyEntry.kid
        (fun s ↦ { (default : EabKeyEntry) with kid := s }) fun _ ↦ rfl
    | mtcCheckpoints | mtcCosignatures | orderOwners => exact hx.elim
  | writer => exact hx.elim

/-- A peer whose only cell holds a live value. -/
theorem exists_peer_or (f : OrField) (key : String) (t : ℤ) (v : f.Value) :
    ∃ peer : ClusterCrdt, (peer.slot (.or f key)).content = ⟨.at t "", some v⟩ := by
  refine ⟨ClusterCrdt.empty.setOrMap f
    ⟨(ClusterCrdt.empty.orMap f).entries.put (key, ⟨v, t, false, none, 0⟩)⟩, ?_⟩
  rw [ClusterCrdt.slot, ClusterCrdt.orMap_setOrMap, OrMap.slot_put, if_pos rfl]
  rfl

theorem exists_peer_lww (f : LwwField) (key : f.Key) (t : ℤ) (n : String) (v : f.Value) :
    ∃ peer : ClusterCrdt, (peer.slot (.lww f key)).content = ⟨.at t n, some v⟩ := by
  refine ⟨ClusterCrdt.empty.setLwwMap f
    ⟨(ClusterCrdt.empty.lwwMap f).entries.put (key, ⟨some v, t, n, 0⟩)⟩, ?_⟩
  rw [ClusterCrdt.slot, ClusterCrdt.lwwMap_setLwwMap, LwwMap.slot_put, if_pos rfl]
  rfl

theorem view_merge {peer : ClusterCrdt} {x : Cell} {s : Stamp} {v : x.Value}
    (hpeer : (peer.slot x).content = ⟨s, some v⟩) (r : ClusterReplica) :
    (r.merge peer).crdt.view x = ((r.crdt.slot x).content.join ⟨s, some v⟩).value := by
  have hset : ¬ (peer.slot x).content.Unset := by
    rintro ⟨hvalue, -⟩
    rw [hpeer] at hvalue
    cases hvalue
  have hmerged := (r.crdt.slot_merge r.gen peer x).content_eq hset
  rw [ClusterCrdt.view_eq_value, ← hpeer]
  exact congrArg Stamped.value hmerged

theorem views_eq_iff {r r' : ClusterReplica} {x : Cell} (hx : Compared x) :
    (∀ peer, (r'.merge peer).crdt.view x = (r.merge peer).crdt.view x) ↔
      (r'.crdt.slot x).content = (r.crdt.slot x).content := by
  constructor
  · intro h
    by_contra hne
    have := nontrivial_value hx
    cases x with
    | or f key =>
      obtain ⟨t, v, hsep⟩ := OrMap.exists_separating hne
      obtain ⟨peer, hpeer⟩ := exists_peer_or f key t v
      have hview := h peer
      rw [view_merge hpeer, view_merge hpeer] at hview
      exact hsep hview
    | lww f key =>
      obtain ⟨t, n, v, hsep⟩ := LwwMap.exists_separating hne
      obtain ⟨peer, hpeer⟩ := exists_peer_lww f key t n v
      have hview := h peer
      rw [view_merge hpeer, view_merge hpeer] at hview
      exact hsep hview
    | writer => exact hx.elim
  · intro hcontent peer
    have hmerged : ((r'.merge peer).crdt.slot x).content = ((r.merge peer).crdt.slot x).content :=
      ((r'.crdt.merge_spec r'.gen peer).2 x).content_unique ((r.crdt.merge_spec r.gen peer).2 x)
        hcontent
    rw [ClusterCrdt.view_eq_value, ClusterCrdt.view_eq_value, hmerged]

section Replica

variable {decodeNull : Except AcmeError String} {nodeId : String} {db db₁ db₂ : ClusterDb}
  {crdt : ClusterCrdt} {r' : ClusterReplica}

theorem exists_load_iff : (∃ r', db.loadFromDb decodeNull nodeId = .ok r') ↔
    ∀ r ∈ db.authorizations.rows, r.orderId.isSome ∨ decodeNull.isOk := by
  constructor
  · rintro ⟨r', hload⟩ r hr
    obtain ⟨acme, hacme, -⟩ := bind_eq_ok hload
    obtain ⟨authzRows, hauthz, -⟩ := bind_eq_ok hacme
    obtain ⟨row, -, hrow⟩ := Except.exists_result_of_mem hauthz hr
    exact exists_decode_iff.mp ⟨row, hrow⟩
  · intro h
    obtain ⟨authzRows, hauthz⟩ := Except.exists_mapM fun r hr ↦
      exists_decode_iff.mpr (h r hr)
    unfold ClusterDb.loadFromDb loadFromDb
    rw [hauthz]
    exact ⟨_, rfl⟩

/-- The loaded replica is as it was, but for the order ids that decide whether it
loads. -/
theorem contents_eq_iff (hcluster : persistCrdtCluster db crdt = .ok db₁)
    (hacme : db₁.persistCrdtAcme crdt = .ok db₂) (hload : db₂.loadFromDb decodeNull nodeId = .ok r')
    (horderIds : ∀ r ∈ db.authorizations.rows, r.orderId.isSome ∨ decodeNull.isOk) :
    (∀ x, Compared x → (r'.crdt.slot x).content = (crdt.slot x).content) ↔
      Restartable decodeNull nodeId db crdt := by
  obtain ⟨h, hoperators, hrules, hdelegations, hnodes⟩ := tables_of_persist hcluster hacme
  obtain ⟨acme, hacme', hload⟩ := bind_eq_ok hload
  obtain ⟨authzRows, hauthz, hacme'⟩ := bind_eq_ok hacme'
  have hrows := Except.map_of_mapM (fun _ _ ↦ eq_decoded) hauthz
  rw [List.map_id] at hrows
  subst hrows
  cases hacme'
  cases hload
  rw [forall_compared, restartable_iff, and_iff_right horderIds]
  refine and_congr ?_ (and_congr ?_ (and_congr ?_ (and_congr ?_ (and_congr ?_ (and_congr ?_
    (and_congr ?_ (and_congr ?_ (and_congr ?_ ?_))))))))
  · exact orMap_reloaded_iff (account_of_persist h) fun _ _ _ _ ↦ account_read_iff
  · exact orMap_reloaded_iff (order_of_persist h) fun _ _ _ _ ↦ order_read_iff
  · have hloaded : OrMap.load (db₂.authorizations.rows.map (decoded decodeNull))
        (fun a ↦ (a.id, loadAuthz a)) = OrMap.load db₂.authorizations.rows
          fun r ↦ (r.id, loadAuthz (decoded decodeNull r)) := foldl_map
    refine Iff.trans (forall_congr' fun k ↦ ?_)
      (orMap_reloaded_iff (authz_of_persist h) fun _ _ _ _ ↦ authz_read_iff)
    rw [← hloaded]
    rfl
  · exact lwwMap_reloaded_iff (challenge_of_persist h) (fun _ _ _ _ ↦ challenge_read_iff)
      fun _ ↦ some_ne_none _
  · exact orMap_reloaded_iff (cert_of_persist h) fun _ _ _ _ ↦ cert_read_iff
  · exact lwwMap_reloaded_iff (eabKey_of_persist h) (fun _ _ _ _ ↦ eabKey_read_iff)
      fun _ ↦ some_ne_none _
  · rw [← operators_reloaded_iff, ← hoperators]
    rfl
  · rw [← hdelegations]
    exact delegations_reloaded_iff
  · exact policyRules_reloaded_iff hrules
  · exact clusterNodes_reloaded_iff hnodes

/-- After the two write-backs the replica loads, and whatever a peer sends next
it makes the same of it, exactly if the database and the replica were
`Restartable`. -/
theorem restart_keeps_view (decodeNull : Except AcmeError String) {r : ClusterReplica}
    (hcluster : persistCrdtCluster db r.crdt = .ok db₁)
    (hacme : db₁.persistCrdtAcme r.crdt = .ok db₂) :
    (∃ r', db₂.loadFromDb decodeNull nodeId = .ok r' ∧
      ∀ (peer : ClusterCrdt) (x : Cell), Compared x →
        (r'.merge peer).crdt.view x = (r.merge peer).crdt.view x) ↔
      Restartable decodeNull nodeId db r.crdt := by
  have hwritten : (∀ r ∈ db₂.authorizations.rows, r.orderId.isSome ∨ decodeNull.isOk) ↔
      ∀ r ∈ db.authorizations.rows, r.orderId.isSome ∨ decodeNull.isOk :=
    orderIds_written (tables_of_persist hcluster hacme).1
  constructor
  · rintro ⟨r', hload, hviews⟩
    refine (contents_eq_iff hcluster hacme hload
      (hwritten.mp (exists_load_iff.mp ⟨r', hload⟩))).mp fun x hx ↦ ?_
    exact (views_eq_iff hx).mp fun peer ↦ hviews peer x hx
  · intro hfit
    obtain ⟨r', hload⟩ := exists_load_iff.mpr (hwritten.mpr hfit.orderIds)
    have hcontents := (contents_eq_iff hcluster hacme hload hfit.orderIds).mpr hfit
    exact ⟨r', hload, fun peer x hx ↦ (views_eq_iff hx).mpr (hcontents x hx) peer⟩

end Replica

def restart (decodeNull : Except AcmeError String) (nodeId : String) (db : ClusterDb)
    (crdt : ClusterCrdt) : Except AcmeError ClusterReplica := do
  let db₁ ← persistCrdtCluster db crdt
  let db₂ ← db₁.persistCrdtAcme crdt
  db₂.loadFromDb decodeNull nodeId

/-- What the driver makes of `NULL` in a column of texts. -/
def unexpectedNull : Except AcmeError String := .error (.database "unexpected null")

/-- An account of second 1, with its contact as of `updated`. -/
def accountAt (contact : String) (updated : Int) : AccountEntry where
  accountId := "acct"
  status := "valid"
  contact := some contact
  publicKeyDer := []
  jwkThumbprint := "thumb"
  created := 1
  updated := updated
  profileGrants := none
  caId := "default"

def upsertAccount (nodeId contact : String) (updated : Int) : ClusterReplica :=
  (⟨.empty, 0⟩ : ClusterReplica).apply nodeId
    (.or .accounts (.upsert "acct" (accountAt contact updated) updated))

/-- After the contact update of second 7 a copy from second 3 is stale; after a
restart it wins, since the account is back at its creation time. -/
theorem stale_contact_after_restart :
    ((restart unexpectedNull "node-a" .empty
        (upsertAccount "node-a" "mailto:new@example.org" 7).crdt).map fun r ↦
        (r.merge (upsertAccount "node-b" "mailto:old@example.org" 3).crdt).crdt.accounts.get
          "acct").toOption =
      some (some (accountAt "mailto:old@example.org" 3)) ∧
    ((upsertAccount "node-a" "mailto:new@example.org" 7).merge
        (upsertAccount "node-b" "mailto:old@example.org" 3).crdt).crdt.accounts.get "acct" =
      some (accountAt "mailto:new@example.org" 7) := by
  decide +kernel

/-- Among others a live policy rule and, after it, a removed one of the same scope
and name. -/
def settledReplica : ClusterReplica :=
  [.or .accounts (.upsert "acct" (accountAt "mailto:new@example.org" 7) 1),
   .or .orders (.upsert "order" ⟨"order", "acct", "invalid", none, [], none, none, none, none, 1, 5,
      "default"⟩ 5),
   .or .orders (.remove "order" 5),
   .or .authorizations (.upsert "authz" ⟨"authz", "order", "acct", "pending",
      ⟨.dns, "a.example"⟩, none, false, 1, 1, "default"⟩ 1),
   .lww .challenges
      (.set "chall" ⟨"chall", "authz", .http01, "pending", "token", none, none, 1, 4⟩ 4),
   .or .operators (.upsert "1" ⟨1, "root", "administrator", "", 0⟩ 0),
   .or .policyRules (.upsert "rule" ⟨"rule", "default", "no-wildcards", "null", true,
      "1970-01-01T00:00:07Z", "1970-01-01T00:00:07Z", none⟩ 7),
   .or .policyRules (.upsert "former" ⟨"former", "default", "no-wildcards", "null", true,
      "1970-01-01T00:00:05Z", "1970-01-01T00:00:05Z", none⟩ 5),
   .or .policyRules (.remove "former" 6),
   .or .clusterNodes (.upsert "node-a" ⟨"node-a", "https://a", [], [], [], ["default"], 2⟩ 2)].foldl
    (fun r op ↦ r.apply "node-a" op) ⟨.empty, 0⟩

def rootOperator : OperatorRow :=
  ⟨1, "root", "administrator", "1970-01-01T00:00:00Z", true, "", by decide⟩

def settledDb : ClusterDb := { ClusterDb.empty with operators := KeyedTable.empty.put rootOperator }

instance {ρ ε : Type} {rows : List ρ} {name : ρ → String}
    {entries : KeyedTable (String × ε) Prod.fst} {Kept : String → ε → Option ρ → Prop}
    [∀ k e old, Decidable (Kept k e old)] : Decidable (Paired rows name entries Kept) :=
  decidable_of_iff' _ (paired_iff ..)

theorem settled_rules : RulesPaired settledDb.policyRules settledReplica.crdt.policyRules where
  entry := forall_mem_nil _
  kept pre k e post hrows := by
    have hlength : settledReplica.crdt.policyRules.entries.rows.length = 2 := by decide +kernel
    have hall : ∀ n < 2, ∀ e ∈ settledReplica.crdt.policyRules.entries.rows[n]?,
        (settledReplica.crdt.policyRules.entries.rows.drop (n + 1)).any
          (evicts (policyRuleRowOfEntry e)) = false ∧ PolicyRuleKept e.1 e.2 none := by
      unfold PolicyRuleKept
      decide +kernel
    rw [hrows] at hlength hall
    have hsplit := hall pre.length (by simp at hlength; omega) (k, e) (by simp)
    have hdrop : (pre ++ (k, e) :: post).drop (pre.length + 1) = post := by
      rw [← drop_drop, drop_left, drop_one, tail_cons]
    rw [hdrop] at hsplit
    exact hsplit

theorem settled_restartable :
    Restartable unexpectedNull "node-a" settledDb settledReplica.crdt where
  orderIds := forall_mem_nil _
  accounts := by unfold AccountKept; decide +kernel
  orders := by unfold OrderKept; decide +kernel
  authorizations := by unfold AuthzKept; decide +kernel
  challenges := by unfold ChallengeKept; decide +kernel
  certificates := ⟨forall_mem_nil _, forall_mem_nil _⟩
  eabKeys := ⟨forall_mem_nil _, forall_mem_nil _⟩
  operators := by unfold OperatorKept; decide +kernel
  delegations := ⟨forall_mem_nil _, forall_mem_nil _⟩
  policyRules := settled_rules
  clusterNodes := by unfold ClusterNodeKept; decide +kernel

theorem settled_restart :
    ∃ r', restart unexpectedNull "node-a" settledDb settledReplica.crdt = .ok r' ∧
      ∀ (peer : ClusterCrdt) (x : Cell), Compared x →
        (r'.merge peer).crdt.view x = (settledReplica.merge peer).crdt.view x := by
  have hok : (restart unexpectedNull "node-a" settledDb settledReplica.crdt).isOk = true := by
    decide +kernel
  cases hcluster : persistCrdtCluster settledDb settledReplica.crdt with
  | error =>
    rw [restart, hcluster] at hok
    cases hok
  | ok db₁ =>
    cases hacme : db₁.persistCrdtAcme settledReplica.crdt with
    | error =>
      simp [restart, hcluster, hacme, bind, Except.bind, Except.isOk, Except.toBool] at hok
    | ok db₂ =>
      have hrestart : restart unexpectedNull "node-a" settledDb settledReplica.crdt =
          db₂.loadFromDb unexpectedNull "node-a" := by
        simp only [restart, hcluster, hacme, bind, Except.bind]
      rw [hrestart]
      exact (restart_keeps_view unexpectedNull hcluster hacme).mpr settled_restartable

end Akamu.Restart
