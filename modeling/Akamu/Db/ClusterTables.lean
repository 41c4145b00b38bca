import Akamu.Crdt.LocalOps
import Akamu.Db.Persist

/-!
# All tables behind the replica

`persist_crdt_cluster`, `persist_crdt_acme` and `load_from_db` over the whole
replicated state.  The ACME tables are those of `Db`; here come the tables of
operators, delegations, policy rules and checkpoints, and the three tables that
belong to the replica alone.  The generation number of an entry is stored for
all of them but read back only for policy rules and for the replica's own tables.
-/

namespace Akamu

open Crdt KeyedTable List Option OrMap
open Except (bind_eq_ok)

structure OperatorRow where
  id : Int
  name : String
  role : String
  createdAt : String
  active : Bool
  caId : String
  /-- An `INTEGER` column. -/
  id_range : -(2 ^ 63) ≤ id ∧ id < 2 ^ 63

structure DelegationRow where
  id : String
  accountId : String
  csrTemplate : String
  created : Int
  caId : String

structure PolicyRuleRow where
  id : String
  scope : String
  name : String
  ruleJson : String
  enabled : Bool
  createdAt : String
  updatedAt : String
  createdBy : Option String
  localGen : ℕ
  tombstone : Bool
  tombstoneAt : Option Int

structure MtcCheckpointRow where
  treeSize : UInt64
  rootHex : String
  signature : List UInt8
  created : Int

structure ClusterNodeRow where
  nodeId : String
  gossipUrl : String
  kemPublicKeyDer : List UInt8
  signingPublicKeyDer : List UInt8
  signingCertificateDer : List UInt8
  caIds : List String
  registeredAt : Int
  tombstone : Bool
  tombstoneAt : Option Int
  localGen : ℕ

structure OrderOwnerRow where
  orderId : String
  nodeId : String
  claimedAt : Int
  localGen : ℕ

structure MtcWriterRow where
  nodeId : String
  claimedAt : Int
  localGen : ℕ

structure ClusterDb extends Db where
  operators : KeyedTable OperatorRow OperatorRow.id
  delegations : KeyedTable DelegationRow DelegationRow.id
  policyRules : KeyedTable PolicyRuleRow PolicyRuleRow.id
  mtcCheckpoints : List MtcCheckpointRow
  clusterNodes : KeyedTable ClusterNodeRow ClusterNodeRow.nodeId
  orderOwners : KeyedTable OrderOwnerRow OrderOwnerRow.orderId
  mtcWriter : Option MtcWriterRow

def ClusterDb.empty : ClusterDb where
  toDb := .empty
  operators := .empty
  delegations := .empty
  policyRules := .empty
  mtcCheckpoints := []
  clusterNodes := .empty
  orderOwners := .empty
  mtcWriter := none

/-! ## Writing back -/

/-- The `CHECK` of the two tables that store tombstones. -/
def tombstoneConsistent {V : Type} (e : OrMapEntry V) : Bool := e.tombstone == e.tombstoneAt.isSome

def clusterNodeRowOfEntry (e : String × OrMapEntry AkaNodeEntry) : ClusterNodeRow where
  nodeId := e.1
  gossipUrl := e.2.value.gossipUrl
  kemPublicKeyDer := e.2.value.kemPublicKeyDer
  signingPublicKeyDer := e.2.value.gossipSigningPubKeyDer
  signingCertificateDer := e.2.value.gossipSigningCertDer
  caIds := e.2.value.caIds
  registeredAt := e.2.value.registeredAt
  tombstone := e.2.tombstone
  tombstoneAt := e.2.tombstoneAt
  localGen := e.2.localGen

def orderOwnerRowOfEntry (e : String × LwwRegister OrderOwner) : Option OrderOwnerRow :=
  e.2.value.map fun owner ↦ ⟨e.1, owner.nodeId, owner.claimedAt, e.2.localGen⟩

theorem orderId_of_orderOwnerRowOfEntry (e : String × LwwRegister OrderOwner) (r : OrderOwnerRow)
    (h : orderOwnerRowOfEntry e = some r) : r.orderId = e.1 := by
  obtain ⟨owner, -, rfl⟩ := map_eq_some_iff.mp h
  rfl

def persistCrdtCluster (db : ClusterDb) (crdt : ClusterCrdt) : Except AcmeError ClusterDb :=
  if crdt.clusterNodes.entries.rows.all fun e ↦ tombstoneConsistent e.2 then
    .ok { db with
      clusterNodes := crdt.clusterNodes.entries.filterMapRows
        (fun e ↦ some (clusterNodeRowOfEntry e)) (by
          rintro e r h
          cases h
          rfl)
      orderOwners := crdt.orderOwners.entries.filterMapRows orderOwnerRowOfEntry
        orderId_of_orderOwnerRowOfEntry
      mtcWriter := crdt.mtcWriter.value.map fun w ↦
        ⟨w.nodeId, w.claimedAt, crdt.mtcWriter.localGen⟩ }
  else .error constraintFailed

/-- Operators are updated only, and only under keys that are numbers. -/
def persistOperator (t : KeyedTable OperatorRow OperatorRow.id)
    (e : String × OrMapEntry OperatorEntry) : KeyedTable OperatorRow OperatorRow.id :=
  match Text.parseI64 e.1 with
  | none => t
  | some id => t.updateWhere (fun r ↦ r.id == id) (fun r ↦ { r with active := !e.2.tombstone })
      fun _ ↦ rfl

def policyRuleRowOfEntry (e : String × OrMapEntry PolicyRuleEntry) : PolicyRuleRow where
  id := e.1
  scope := e.2.value.scope
  name := e.2.value.name
  ruleJson := e.2.value.ruleJson
  enabled := e.2.value.enabled
  createdAt := e.2.value.createdAt
  updatedAt := e.2.value.updatedAt
  createdBy := e.2.value.createdBy
  localGen := e.2.localGen
  tombstone := e.2.tombstone
  tombstoneAt := e.2.tombstoneAt

def assignPolicyRule (e : OrMapEntry PolicyRuleEntry) (r : PolicyRuleRow) : PolicyRuleRow :=
  { r with scope := e.value.scope, name := e.value.name, ruleJson := e.value.ruleJson,
           enabled := e.value.enabled, updatedAt := e.value.updatedAt, localGen := e.localGen,
           tombstone := e.tombstone, tombstoneAt := e.tombstoneAt }

/-- A live rule evicts every other row of its scope and name, tombstoned ones
included; so the unique index on live rows cannot fail. -/
def evictRivals (t : KeyedTable PolicyRuleRow PolicyRuleRow.id)
    (e : String × OrMapEntry PolicyRuleEntry) : KeyedTable PolicyRuleRow PolicyRuleRow.id :=
  if e.2.tombstone then t
  else t.retain fun r ↦
    !(r.scope == e.2.value.scope && r.name == e.2.value.name && r.id != e.1)

/-- The entry is live, and of the scope and name of the row. -/
def evicts (r : PolicyRuleRow) (e : String × OrMapEntry PolicyRuleEntry) : Bool :=
  !e.2.tombstone && (r.scope == e.2.value.scope && r.name == e.2.value.name)

def persistPolicyRule (t : KeyedTable PolicyRuleRow PolicyRuleRow.id)
    (e : String × OrMapEntry PolicyRuleEntry) :
    Except AcmeError (KeyedTable PolicyRuleRow PolicyRuleRow.id) :=
  if tombstoneConsistent e.2 then
    .ok ((evictRivals t e).upsert (policyRuleRowOfEntry e) (assignPolicyRule e.2) fun _ ↦ rfl)
  else .error constraintFailed

/-- The updates of delegations and checkpoints touch their generation number
only, which nobody reads. -/
def ClusterDb.persistCrdtAcme (db : ClusterDb) (crdt : ClusterCrdt) :
    Except AcmeError ClusterDb := do
  let acme ← Akamu.persistCrdtAcme db.toDb crdt.toAkaCrdt
  let operators := crdt.operators.entries.rows.foldl persistOperator db.operators
  let policyRules ← crdt.policyRules.entries.rows.foldlM persistPolicyRule db.policyRules
  return { db with toDb := acme, operators := operators, policyRules := policyRules }

/-! ## What the write-backs do to one row -/

variable {db : ClusterDb} {r : OperatorRow} {e : String × OrMapEntry PolicyRuleEntry}
  {crdt : ClusterCrdt}

/-- What the two write-backs leave in the tables. -/
theorem tables_of_persist {db₁ db₂ : ClusterDb} (hcluster : persistCrdtCluster db crdt = .ok db₁)
    (hacme : db₁.persistCrdtAcme crdt = .ok db₂) :
    Akamu.persistCrdtAcme db.toDb crdt.toAkaCrdt = .ok db₂.toDb ∧
    db₂.operators = crdt.operators.entries.rows.foldl persistOperator db.operators ∧
    crdt.policyRules.entries.rows.foldlM persistPolicyRule db.policyRules = .ok db₂.policyRules ∧
    db₂.delegations = db.delegations ∧
    ∀ k, db₂.clusterNodes.find? k =
      (crdt.clusterNodes.lookup k).map fun e ↦ clusterNodeRowOfEntry (k, e) := by
  unfold persistCrdtCluster at hcluster
  split at hcluster
  · cases hcluster
    obtain ⟨acme, hwrite, h⟩ := bind_eq_ok hacme
    obtain ⟨policyRules, hrules, h⟩ := bind_eq_ok h
    cases h
    refine ⟨hwrite, rfl, hrules, rfl, fun k ↦ ?_⟩
    rw [find?_filterMapRows, OrMap.lookup]
    cases hfind : crdt.clusterNodes.entries.find? k with
    | none => rfl
    | some => rw [← key_of_find? hfind]; rfl
  · cases hcluster

theorem find?_persistOperator (t : KeyedTable OperatorRow OperatorRow.id)
    (e : String × OrMapEntry OperatorEntry) (hkey : e.1 = toString r.id) (id : Int) :
    (persistOperator t e).find? id =
      (t.find? id).map fun r' ↦
        if r'.id = r.id then { r' with active := !e.2.tombstone } else r' := by
  unfold persistOperator
  rw [hkey, Text.parseI64_toString r.id_range.1 r.id_range.2]
  simp [find?_updateWhere]

theorem ids_persistOperator (t : KeyedTable OperatorRow OperatorRow.id)
    (e : String × OrMapEntry OperatorEntry) :
    (persistOperator t e).rows.map OperatorRow.id = t.rows.map OperatorRow.id := by
  unfold persistOperator
  split
  · rfl
  · exact map_key_updateWhere t _ _ _

theorem ids_persistOperators (es : List (String × OrMapEntry OperatorEntry))
    (t : KeyedTable OperatorRow OperatorRow.id) :
    (es.foldl persistOperator t).rows.map OperatorRow.id = t.rows.map OperatorRow.id := by
  induction es generalizing t with
  | nil => rfl
  | cons e es ih => rw [foldl_cons, ih, ids_persistOperator]

theorem OperatorRow.id_eq_of_toString {r' : OperatorRow} (h : toString r.id = toString r'.id) :
    r.id = r'.id := by
  have hparse := congrArg Text.parseI64 h
  rw [Text.parseI64_toString r.id_range.1 r.id_range.2,
    Text.parseI64_toString r'.id_range.1 r'.id_range.2] at hparse
  exact some.inj hparse

theorem find?_persistOperator_of_ne (t : KeyedTable OperatorRow OperatorRow.id)
    {e : String × OrMapEntry OperatorEntry} (hkey : ∃ r' : OperatorRow, toString r'.id = e.1)
    (hne : e.1 ≠ toString r.id) : (persistOperator t e).find? r.id = t.find? r.id := by
  obtain ⟨r', hkey⟩ := hkey
  rw [find?_persistOperator t e hkey.symm]
  cases hfind : t.find? r.id with
  | none => rfl
  | some r'' =>
    have hid : r''.id = r.id := key_of_find? hfind
    have hne' : r''.id ≠ r'.id := fun heq ↦ hne (by rw [← hkey, ← heq, hid])
    rw [map_some, if_neg hne']

section OperatorLoop

variable {m : OrMap String OperatorEntry} {t : KeyedTable OperatorRow OperatorRow.id}

/-- When every key is written like the number of a row, of this table or of
another, an operator's row is written by its own entry alone. -/
theorem operator_of_persist
    (hkeys : ∀ e ∈ m.entries.rows, ∃ r : OperatorRow, toString r.id = e.1) (hr : r ∈ t.rows)
    {e : OrMapEntry OperatorEntry} (he : m.lookup (toString r.id) = some e) :
    (m.entries.rows.foldl persistOperator t).find? r.id =
      some { r with active := !e.tombstone } := by
  have hentry : m.entries.find? (toString r.id) = some (toString r.id, e) :=
    KeyedTable.find?_eq_some_iff.mpr ⟨lookup_eq_some_iff.mp he, rfl⟩
  obtain ⟨t', hsame, -, hall, -⟩ := foldl_rows_at (KeyedTable.find? · r.id)
    (fun _ _ ↦ Nat.le_refl 0)
    (fun e' he' hne s ↦ find?_persistOperator_of_ne s (hkeys e' he') hne) t hentry
  rw [hall, find?_persistOperator _ _ rfl, hsame, find?_of_mem hr, map_some, if_pos rfl]

theorem operator_of_persist_none
    (hkeys : ∀ e ∈ m.entries.rows, ∃ r : OperatorRow, toString r.id = e.1)
    (hnone : m.lookup (toString r.id) = none) :
    (m.entries.rows.foldl persistOperator t).find? r.id = t.find? r.id := by
  refine foldl_frame (KeyedTable.find? · r.id)
    (fun e he s ↦ find?_persistOperator_of_ne s (hkeys e he) fun hkey ↦ ?_) t
  exact KeyedTable.find?_eq_none_iff.mp (map_eq_none_iff.mp hnone) e he hkey

end OperatorLoop

theorem persistPolicyRule_eq_ok {t t' : KeyedTable PolicyRuleRow PolicyRuleRow.id}
    (h : persistPolicyRule t e = .ok t') (k : String) : t'.find? k =
      if e.1 = k then
        some (((evictRivals t e).find? k).elim (policyRuleRowOfEntry e) (assignPolicyRule e.2))
      else (evictRivals t e).find? k := by
  unfold persistPolicyRule at h
  split at h
  · cases h
    exact find?_upsert ..
  · cases h

theorem find?_evictRivals (t : KeyedTable PolicyRuleRow PolicyRuleRow.id) {k : String}
    (hk : e.1 ≠ k) : (evictRivals t e).find? k = (t.find? k).filter fun r ↦ !evicts r e := by
  unfold evictRivals evicts
  cases hfind : t.find? k with
  | none =>
    split
    · exact hfind
    · rw [find?_retain, hfind]
      rfl
  | some r =>
    have hid : r.id ≠ e.1 := fun heq ↦ hk (heq.symm.trans (key_of_find? hfind))
    split
    · rename_i htomb
      rw [hfind, filter_some_pos (by simp [htomb])]
    · rename_i hlive
      rw [find?_retain, hfind]
      simp [Option.filter, hlive, hid]

theorem find?_evictRivals_own (t : KeyedTable PolicyRuleRow PolicyRuleRow.id) :
    (evictRivals t e).find? e.1 = t.find? e.1 := by
  unfold evictRivals
  split
  · rfl
  · rw [find?_retain]
    cases hfind : t.find? e.1 with
    | none => rfl
    | some r =>
      have hid : r.id = e.1 := key_of_find? hfind
      rw [filter_some_pos (by simp [hid])]

section PolicyRuleLoop

variable {es : List (String × OrMapEntry PolicyRuleEntry)}
  {t t' : KeyedTable PolicyRuleRow PolicyRuleRow.id} {k : String}

/-- A row without an entry stays, unless an entry evicts it. -/
theorem find?_persistPolicyRules (h : es.foldlM persistPolicyRule t = .ok t')
    (hes : ∀ e ∈ es, e.1 ≠ k) : t'.find? k = (t.find? k).filter fun r ↦ !es.any (evicts r) := by
  induction es generalizing t with
  | nil =>
    cases h
    cases t'.find? k <;> rfl
  | cons e es ih =>
    obtain ⟨t₁, ht₁, h⟩ := bind_eq_ok h
    have hne : e.1 ≠ k := hes e mem_cons_self
    rw [ih h fun e' he' ↦ hes e' (mem_cons_of_mem e he'), persistPolicyRule_eq_ok ht₁, if_neg hne,
      find?_evictRivals t hne, Option.filter_filter]
    congr 1
    funext r
    rw [any_cons, Bool.not_or]

/-- The row that an entry leaves: over the old one, unless that was evicted
before. -/
def rowWritten (k : String) (e : OrMapEntry PolicyRuleEntry) (old : Option PolicyRuleRow) :
    PolicyRuleRow :=
  old.elim (policyRuleRowOfEntry (k, e)) (assignPolicyRule e)

theorem evicts_rowWritten (k : String) (e : OrMapEntry PolicyRuleEntry)
    (old : Option PolicyRuleRow) :
    evicts (rowWritten k e old) = evicts (policyRuleRowOfEntry (k, e)) := by
  cases old <;> rfl

theorem find?_persistPolicyRules_split {pre post : List (String × OrMapEntry PolicyRuleEntry)}
    {e : OrMapEntry PolicyRuleEntry}
    (h : (pre ++ (k, e) :: post).foldlM persistPolicyRule t = .ok t')
    (hother : ∀ e' ∈ pre ++ post, e'.1 ≠ k) :
    t'.find? k = if post.any (evicts (policyRuleRowOfEntry (k, e))) then none
      else some (rowWritten k e ((t.find? k).filter fun r ↦ !pre.any (evicts r))) := by
  rw [foldlM_append] at h
  obtain ⟨t₁, ht₁, h⟩ := bind_eq_ok h
  obtain ⟨t₂, ht₂, h⟩ := bind_eq_ok h
  have hpre := find?_persistPolicyRules ht₁ fun e' he' ↦ hother e' (mem_append_left post he')
  have hown : (evictRivals t₁ (k, e)).find? k = t₁.find? k := find?_evictRivals_own t₁
  rw [find?_persistPolicyRules h fun e' he' ↦ hother e' (mem_append_right pre he'),
    persistPolicyRule_eq_ok ht₂, if_pos rfl, hown, hpre, ← rowWritten]
  split
  · rename_i hevicted
    rw [filter_some_neg (by simpa [evicts_rowWritten] using hevicted)]
  · rename_i hkept
    rw [filter_some_pos (by simpa [evicts_rowWritten] using hkept)]

end PolicyRuleLoop

/-! ## Loading -/

/-- Two decimal digits, without a check that they are digits. -/
def twoDigits (b : List UInt8) (i : ℕ) : Int :=
  ((b.getD i 0 - 48).toNat : Int) * 10 + ((b.getD (i + 1) 0 - 48).toNat : Int)

/-- `YYYY-MM-DDTHH:MM:SSZ` as a Unix time, `0` for a text that is too short. -/
def rfc3339UtcToUnix (s : String) : Int :=
  let b := s.toList.flatMap String.utf8EncodeChar
  if b.length < 20 then 0
  else
    let year := twoDigits b 0 * 100 + twoDigits b 2
    let month := twoDigits b 5
    let day := twoDigits b 8
    let y := if month ≤ 2 then year - 1 else year
    let m := if month ≤ 2 then month + 9 else month - 3
    let era := y.tdiv 400
    let yoe := y - era * 400
    let doy := (153 * m + 2).tdiv 5 + day - 1
    let doe := yoe * 365 + yoe.tdiv 4 - yoe.tdiv 100 + doy
    let days := era * 146097 + doe - 719468
    days * 86400 + twoDigits b 11 * 3600 + twoDigits b 14 * 60 + twoDigits b 17

def loadOperator (r : OperatorRow) : OrMapEntry OperatorEntry where
  value := ⟨r.id, r.name, r.role, r.caId, rfc3339UtcToUnix r.createdAt⟩
  addedAt := rfc3339UtcToUnix r.createdAt
  tombstone := !r.active
  tombstoneAt := none
  localGen := 0

def loadDelegation (r : DelegationRow) : OrMapEntry DelegationEntry where
  value := ⟨r.id, r.accountId, r.csrTemplate, r.created, r.caId⟩
  addedAt := r.created
  tombstone := false
  tombstoneAt := none
  localGen := 0

def loadPolicyRule (r : PolicyRuleRow) : OrMapEntry PolicyRuleEntry where
  value := ⟨r.id, r.scope, r.name, r.ruleJson, r.enabled, r.createdAt, r.updatedAt, r.createdBy⟩
  addedAt := rfc3339UtcToUnix r.createdAt
  tombstone := r.tombstone
  tombstoneAt := r.tombstoneAt
  localGen := r.localGen

def loadClusterNode (r : ClusterNodeRow) : OrMapEntry AkaNodeEntry where
  value := ⟨r.nodeId, r.gossipUrl, r.kemPublicKeyDer, r.signingPublicKeyDer,
    r.signingCertificateDer, r.caIds, r.registeredAt⟩
  addedAt := r.registeredAt
  tombstone := r.tombstone
  tombstoneAt := r.tombstoneAt
  localGen := r.localGen

def ClusterDb.maxGen (db : ClusterDb) : ℕ :=
  (db.policyRules.rows.map PolicyRuleRow.localGen ++
    db.clusterNodes.rows.map ClusterNodeRow.localGen ++
    db.orderOwners.rows.map OrderOwnerRow.localGen ++
    db.mtcWriter.toList.map MtcWriterRow.localGen).foldl max 0

def ClusterDb.loadFromDb (decodeNull : Except AcmeError String) (nodeId : String) (db : ClusterDb) :
    Except AcmeError ClusterReplica := do
  let acme ← Akamu.loadFromDb decodeNull nodeId db.toDb
  return {
    crdt := {
      toAkaCrdt := acme
      operators := .load db.operators.rows fun r ↦ (toString r.id, loadOperator r)
      delegations := .load db.delegations.rows fun r ↦ (r.id, loadDelegation r)
      policyRules := .load db.policyRules.rows fun r ↦ (r.id, loadPolicyRule r)
      mtcCheckpoints := .load db.mtcCheckpoints fun r ↦
        (r.treeSize, ⟨some ⟨r.treeSize, r.rootHex, r.signature, r.created⟩, r.created, nodeId, 0⟩)
      mtcCosignatures := .empty
      clusterNodes := .load db.clusterNodes.rows fun r ↦ (r.nodeId, loadClusterNode r)
      orderOwners := .load db.orderOwners.rows fun r ↦
        (r.orderId, ⟨some ⟨r.nodeId, r.claimedAt⟩, r.claimedAt, r.nodeId, r.localGen⟩)
      mtcWriter := (db.mtcWriter.map fun r ↦
        ⟨some ⟨r.nodeId, r.claimedAt⟩, r.claimedAt, r.nodeId, r.localGen⟩).getD default }
    gen := db.maxGen }

theorem ClusterDb.le_maxGen {n : ℕ} (h : n ∈ db.policyRules.rows.map PolicyRuleRow.localGen ++
    db.clusterNodes.rows.map ClusterNodeRow.localGen ++
    db.orderOwners.rows.map OrderOwnerRow.localGen ++
    db.mtcWriter.toList.map MtcWriterRow.localGen) : n ≤ db.maxGen := by
  have hfold : ∀ (l : List ℕ) (m : ℕ), m ≤ l.foldl max m ∧ ∀ n ∈ l, n ≤ l.foldl max m := by
    intro l
    induction l with
    | nil => exact fun m ↦ ⟨le_rfl, fun n hn ↦ absurd hn not_mem_nil⟩
    | cons a l ih =>
      intro m
      obtain ⟨hm, hl⟩ := ih (max m a)
      refine ⟨(le_max_left m a).trans hm, fun n hn ↦ ?_⟩
      rcases mem_cons.mp hn with rfl | htail
      · exact (le_max_right m n).trans hm
      · exact hl n htail
  exact (hfold _ 0).2 n h

theorem ClusterDb.numbered_of_load {decodeNull : Except AcmeError String} {nodeId : String}
    {r : ClusterReplica} (h : db.loadFromDb decodeNull nodeId = .ok r) (x : Cell) :
    (r.crdt.slot x).gen ≤ r.gen := by
  obtain ⟨acme, hacme, h⟩ := bind_eq_ok h
  obtain ⟨authzRows, hauthz, hacme⟩ := bind_eq_ok hacme
  cases hacme
  cases h
  cases x with
  | or f key =>
    cases f with
    | accounts | orders | authorizations | certificates | operators | delegations =>
      exact gen_load_le (fun _ _ ↦ Nat.zero_le _) key
    | policyRules =>
      refine gen_load_le (fun row hrow ↦ le_maxGen ?_) key
      simp only [mem_append]
      exact .inl (.inl (.inl (mem_map_of_mem hrow)))
    | clusterNodes =>
      refine gen_load_le (fun row hrow ↦ le_maxGen ?_) key
      simp only [mem_append]
      exact .inl (.inl (.inr (mem_map_of_mem hrow)))
  | lww f key =>
    cases f with
    | challenges | eabKeys | mtcCheckpoints =>
      exact LwwMap.gen_load_le (fun _ _ ↦ Nat.zero_le _) key
    | mtcCosignatures => exact Nat.zero_le _
    | orderOwners =>
      refine LwwMap.gen_load_le (fun row hrow ↦ le_maxGen ?_) key
      simp only [mem_append]
      exact .inl (.inr (mem_map_of_mem hrow))
  | writer =>
    change LwwRegister.localGen (T := MtcWriter) ((db.mtcWriter.map _).getD default) ≤ _
    cases hwriter : db.mtcWriter with
    | none => exact Nat.zero_le _
    | some =>
      refine le_maxGen ?_
      rw [hwriter]
      simp

end Akamu
