import Akamu.Crdt.Delta
import Akamu.Lib.Machine
import Akamu.Replication.Restart

/-!
# Tombstones and their age

`purge_old_tombstones` goes by the deletion time that a tombstone carries.
Merges hand it on.  A restart takes it from the database: from `updated` or
`revoked_at` of the row for most tables, from a column of its own for two, and
from nowhere for operators.  `DatesKept` says when this is the time of the deletion.
-/

namespace Akamu.Tombstones

open Crdt KeyedTable List Machine Option OrMap Restart
open Except (bind_eq_ok)

inductive Event where
  | change (c : Change)
  /-- The replica is written back to the database, and loaded again. -/
  | restart (db : ClusterDb)

def step (decodeNull : Except AcmeError String) (nodeId : String) (r : ClusterReplica) :
    Event → ClusterReplica × Unit
  | .change c => (r.change nodeId c, ())
  | .restart db =>
    match restart decodeNull nodeId db r.crdt with
    | .ok r' => (r', ())
    | .error _ => (r, ())

variable {deleted : OrField → String → Int → Prop} {c other : ClusterCrdt} {r : ClusterReplica}
  {decodeNull : Except AcmeError String} {nodeId : String}

/-- A tombstone in `e` carries the time of a deletion. -/
def EntryDated (deleted : OrField → String → Int → Prop) : (x : Cell) → x.Entry → Prop
  | .or f key, e => ∀ e' : OrMapEntry f.Value, e = some e' → e'.tombstone = true →
      ∃ t, e'.tombstoneAt = some t ∧ deleted f key t
  | _, _ => True

def Dated (deleted : OrField → String → Int → Prop) (c : ClusterCrdt) : Prop :=
  ∀ x, EntryDated deleted x (c.entry x)

/-- Every entry satisfies its condition, and so does every row without an entry. -/
structure Covered {ρ ε : Type} {key : ρ → String} (t : KeyedTable ρ key)
    (entries : KeyedTable (String × ε) Prod.fst) (OfEntry : String → ε → Option ρ → Prop)
    (OfRow : ρ → Prop) : Prop where
  entry : ∀ e ∈ entries.rows, OfEntry e.1 e.2 (t.find? e.1)
  row : ∀ r ∈ t.rows, entries.find? (key r) = none → OfRow r

/-- Whether the operator is active after the entries have been written back: the
last entry under a spelling of its number decides. -/
def activeAfter (es : List (String × OrMapEntry OperatorEntry)) (r : OperatorRow) : Bool :=
  es.foldl (fun active e ↦ if Text.parseI64 e.1 = some r.id then !e.2.tombstone else active)
    r.active

section Conditions

variable (deleted : OrField → String → Int → Prop)

/-- An account with a final status is loaded as deleted at `updated`. -/
def AccountsDated (t : KeyedTable AccountRow AccountRow.id) (m : OrMap String AccountEntry) :
    Prop :=
  Covered t m.entries
    (fun k e _ ↦ e.value.status ≠ "valid" → deleted .accounts k e.value.updated)
    fun r ↦ r.status ≠ .valid → deleted .accounts r.id r.updated

def OrdersDated (t : KeyedTable OrderRow OrderRow.id) (m : OrMap String OrderEntry) : Prop :=
  Covered t m.entries
    (fun k e _ ↦ e.value.status = "invalid" → deleted .orders k e.value.updated)
    fun r ↦ r.status = .invalid → deleted .orders r.id r.updated

def AuthzDated (t : KeyedTable AuthorizationRow AuthorizationRow.id)
    (m : OrMap String AuthzEntry) : Prop :=
  Covered t m.entries
    (fun k e _ ↦ e.value.status ≠ "pending" → e.value.status ≠ "valid" →
      deleted .authorizations k e.value.updated)
    fun r ↦ r.status ≠ .pending → r.status ≠ .valid → deleted .authorizations r.id r.updated

/-- A revoked certificate is loaded as deleted at `revoked_at`, which may be `NULL`;
an entry without a row is lost. -/
def CertsDated (t : KeyedTable CertificateRow CertificateRow.id) (m : OrMap String CertEntry) :
    Prop :=
  Covered t m.entries
    (fun k e old ↦ old.isSome → e.value.status = "revoked" →
      ∃ time, e.value.revokedAt = some time ∧ deleted .certificates k time)
    fun r ↦ r.status = .revoked →
      ∃ time, r.revokedAt = some time ∧ deleted .certificates r.id time

/-- What the database and the replica have to be like before a restart, table by
table.  Removed delegations come back live; cluster nodes and policy rules are
stored with the times of their entries. -/
structure DatesKept (db : ClusterDb) (crdt : ClusterCrdt) : Prop where
  accounts : AccountsDated deleted db.accounts crdt.accounts
  orders : OrdersDated deleted db.orders crdt.orders
  authorizations : AuthzDated deleted db.authorizations crdt.authorizations
  certificates : CertsDated deleted db.certificates crdt.certificates
  /-- The time of a removal is not stored. -/
  operators : ∀ r ∈ db.operators.rows, activeAfter crdt.operators.entries.rows r
  policyRules : ∀ r ∈ db.policyRules.rows, crdt.policyRules.lookup r.id = none →
    crdt.policyRules.entries.rows.any (evicts r) = false → r.tombstone = true →
      ∃ time, r.tombstoneAt = some time ∧ deleted .policyRules r.id time

end Conditions

/-- Deletions are recorded, peers have dated tombstones, and the database has the
deletion times at a restart that succeeds. -/
def Recorded (decodeNull : Except AcmeError String) (deleted : OrField → String → Int → Prop)
    (nodeId : String) (r : ClusterReplica) : Event → Prop
  | .change (.write (.or f (.remove key timestamp))) => deleted f key timestamp
  | .change (.merge other) => Dated deleted other
  | .restart db => (restart decodeNull nodeId db r.crdt).isOk → DatesKept deleted db r.crdt
  | _ => True

variable {key : String} {f : OrField}

theorem EntryDated.put {m : OrMap String f.Value} {k : String} {e : OrMapEntry f.Value}
    (h : EntryDated deleted (.or f key) (m.lookup key))
    (he : EntryDated deleted (.or f k) (some e)) :
    EntryDated deleted (.or f key) ((OrMap.mk (m.entries.put (k, e))).lookup key) := by
  rw [lookup_put]
  by_cases hk : k = key
  · subst hk
    rw [if_pos rfl]
    exact he
  · rw [if_neg hk]
    exact h

theorem EntryDated.retain {m : OrMap String f.Value}
    (h : EntryDated deleted (.or f key) (m.lookup key)) (p : String × OrMapEntry f.Value → Bool) :
    EntryDated deleted (.or f key) ((OrMap.mk (m.entries.retain p)).lookup key) := by
  rw [lookup_mk_retain]
  exact fun e he ↦ h e (Option.filter_eq_some_iff.mp he).1

theorem entryDated_op {m : OrMap String f.Value} {op : OrMapOp f.Value} {gen : ℕ}
    (h : EntryDated deleted (.or f key) (m.lookup key))
    (hk : ∀ k, EntryDated deleted (.or f k) (m.lookup k))
    (hop : ∀ k timestamp, op = .remove k timestamp → deleted f k timestamp) :
    EntryDated deleted (.or f key) ((op.apply m gen).1.lookup key) := by
  have hlive (k : String) (value : f.Value) (timestamp : Int) :
      EntryDated deleted (.or f k) (some ⟨value, timestamp, false, none, gen + 1⟩) := by
    intro e he htomb
    cases he
    cases htomb
  cases op with
  | upsert k value timestamp => exact h.put (hlive k value timestamp)
  | insert k value timestamp =>
    simp only [OrMapOp.apply, OrMap.insert]
    split
    · exact h
    · exact h.put (hlive k value timestamp)
  | remove k timestamp =>
    simp only [OrMapOp.apply, OrMap.remove]
    split
    · refine h.put fun e he _ ↦ ?_
      cases he
      exact ⟨timestamp, rfl, hop k timestamp rfl⟩
    · rename_i hold
      refine h.put fun e he htomb ↦ ?_
      cases he
      cases hlookup : m.lookup k with
      | none => simp [hlookup] at hold
      | some e => exact hk k e hlookup (by simpa [hlookup] using htomb)
  | retain => exact h.retain _

theorem dated_apply {op : LocalOp} (h : Dated deleted r.crdt)
    (hop : Recorded decodeNull deleted nodeId r (.change (.write op))) :
    Dated deleted (r.apply nodeId op).crdt := by
  obtain heq | ⟨f, op, rfl⟩ | ⟨f, op', -, heq⟩ | ⟨now, heq⟩ | ⟨cutoff, rfl⟩ :=
    r.apply_eq_cases nodeId op
  · rwa [heq]
  · refine fun x ↦ r.entry_setOrMap_cases
      (P := fun x e e' ↦ EntryDated deleted x e → EntryDated deleted x e') f _ (fun _ _ h ↦ h)
      (fun key hkey ↦ entryDated_op hkey (fun k ↦ h (.or f k)) ?_) x (h x)
    rintro k timestamp rfl
    exact hop
  · rw [heq]
    exact fun x ↦ r.entry_setLwwMap_cases (P := fun x e e' ↦ EntryDated deleted x e →
      EntryDated deleted x e') f _ (fun _ _ h ↦ h) (fun _ _ ↦ trivial) x (h x)
  · rw [heq]
    exact fun x ↦ r.entry_setWriter_cases (P := fun x e e' ↦ EntryDated deleted x e →
      EntryDated deleted x e') _ (fun _ _ h ↦ h) (fun _ ↦ trivial) x (h x)
  · intro x
    cases x with
    | or f key =>
      have hentry : (r.apply nodeId (.purge cutoff)).crdt.entry (.or f key) = _ :=
        congrArg (OrMap.lookup · key) (ClusterCrdt.orMap_purge r.crdt cutoff f)
      rw [hentry]
      exact EntryDated.retain (h (.or f key)) _
    | lww | writer => trivial

theorem EntryDated.joined {gen gen' : ℕ} {mine theirs new : Option (OrMapEntry f.Value)}
    (h : OrMapEntry.Joined gen gen' mine theirs new) (hmine : EntryDated deleted (.or f key) mine)
    (htheirs : EntryDated deleted (.or f key) theirs) : EntryDated deleted (.or f key) new := by
  cases h with
  | kept => exact hmine
  | @taken _ o =>
    rintro _ ⟨⟩ htomb
    exact htheirs o rfl htomb
  | @buried _ o _ _ ho =>
    rintro _ ⟨⟩ _
    exact htheirs o rfl ho

theorem dated_merge (h : Dated deleted c) (hother : Dated deleted other) (gen : ℕ) :
    Dated deleted (c.merge gen other).1 := by
  intro x
  cases x with
  | or f key =>
    exact EntryDated.joined ((c.merge_entries gen other).2.1 f key) (h (.or f key))
      (hother (.or f key))
  | lww | writer => trivial

/-! ## The round trip through the database -/

section RoundTrip

variable {ρ : Type} {name : ρ → String}

theorem covered_iff {ε : Type} {t t' : KeyedTable ρ name}
    {entries : KeyedTable (String × ε) Prod.fst}
    {Written : String → ε → Option ρ → Option ρ → Prop} {OfEntry : String → ε → Option ρ → Prop}
    {OfRow : ρ → Prop} (hback : WrittenBack Written t t' entries)
    (hentry : ∀ k e old new, Written k e old new → (∀ r ∈ new, name r = k) →
      ((∀ r ∈ new, OfRow r) ↔ OfEntry k e old)) :
    (∀ r ∈ t'.rows, OfRow r) ↔ Covered t entries OfEntry OfRow := by
  constructor
  · intro h
    refine ⟨fun e he ↦ ?_, fun r hr hnone ↦ ?_⟩
    · have hwritten := (hback e.1).2 e.2 (by rw [find?_of_mem he]; rfl)
      exact (hentry _ _ _ _ hwritten fun r hr ↦ key_of_find? hr).mp fun r hr ↦ h r (mem_of_find? hr)
    · have hsame := (hback (name r)).1 (map_eq_none_iff.mpr hnone)
      rw [find?_of_mem hr] at hsame
      exact h r (mem_of_find? hsame)
  · intro h r hr
    cases hk : (entries.find? (name r)).map Prod.snd with
    | none =>
      have hsame := (hback (name r)).1 hk
      rw [find?_of_mem hr] at hsame
      exact h.row r (mem_of_find? hsame.symm) (map_eq_none_iff.mp hk)
    | some e =>
      have hmem := map_snd_find?_eq_some_iff.mp hk
      exact (hentry _ _ _ _ ((hback _).2 e hk) fun r hr ↦ key_of_find? hr).mpr
        (h.entry _ hmem) r (find?_of_mem hr)

/-- The tombstones that are loaded from a table. -/
theorem dated_load_iff {rows : List ρ} {entry : ρ → OrMapEntry f.Value}
    (hnodup : (rows.map name).Nodup) :
    (∀ k, EntryDated deleted (.or f k) ((OrMap.load rows fun r ↦ (name r, entry r)).lookup k)) ↔
      ∀ r ∈ rows, (entry r).tombstone = true →
        ∃ t, (entry r).tombstoneAt = some t ∧ deleted f (name r) t := by
  constructor
  · exact fun h r hr htomb ↦ h (name r) (entry r) (lookup_load_of_mem hnodup hr) htomb
  · intro h k e he htomb
    obtain ⟨r, hr, heq⟩ := mem_of_lookup_load he
    obtain ⟨rfl, rfl⟩ := Prod.mk.inj heq
    exact h r hr htomb

theorem dated_loadRow_iff {rows : List ρ} {value : ρ → f.Value} {created updated : ρ → Int}
    {final : ρ → Bool} (hnodup : (rows.map name).Nodup) :
    (∀ k, EntryDated deleted (.or f k) ((OrMap.load rows fun r ↦
      (name r, loadRow (value r) (created r) (updated r) (final r))).lookup k)) ↔
      ∀ r ∈ rows, final r = true → deleted f (name r) (updated r) := by
  rw [dated_load_iff hnodup]
  refine forall₂_congr fun r _ ↦ imp_congr_right fun hfinal ↦ ?_
  have hfinal' : final r = true := hfinal
  simp [loadRow, hfinal']

end RoundTrip

/-! ### What a written row is loaded as -/

section Statuses

variable {k : String} {deletedAt : String → Int → Prop}

theorem account_dated_iff {e : OrMapEntry AccountEntry} {old new : Option AccountRow}
    (hwritten : AccountWritten k e old new) (hid : ∀ r ∈ new, r.id = k) :
    (∀ r ∈ new, r.status ≠ .valid → deletedAt r.id r.updated) ↔
      (e.value.status ≠ "valid" → deletedAt k e.value.updated) := by
  obtain ⟨status, hstatus, rfl⟩ := hwritten
  have hk := hid _ rfl
  rw [← AccountStatus.asStr_of_fromStr hstatus]
  simp only [mem_some_iff, forall_eq', hk]
  cases old <;> cases status <;> simp [accountRowOfEntry, assignAccount, AccountStatus.asStr]

theorem order_dated_iff {e : OrMapEntry OrderEntry} {old new : Option OrderRow}
    (hwritten : OrderWritten k e old new) (hid : ∀ r ∈ new, r.id = k) :
    (∀ r ∈ new, r.status = .invalid → deletedAt r.id r.updated) ↔
      (e.value.status = "invalid" → deletedAt k e.value.updated) := by
  obtain ⟨status, hstatus, rfl⟩ := hwritten
  have hk := hid _ rfl
  rw [← OrderStatus.asStr_of_fromStr hstatus]
  simp only [mem_some_iff, forall_eq', hk]
  cases old <;> cases status <;> simp [orderRowOfEntry, assignOrder, OrderStatus.asStr]

theorem authz_dated_iff {e : OrMapEntry AuthzEntry} {old new : Option AuthorizationRow}
    (hwritten : AuthzWritten k e old new) (hid : ∀ r ∈ new, r.id = k) :
    (∀ r ∈ new, r.status ≠ .pending → r.status ≠ .valid → deletedAt r.id r.updated) ↔
      (e.value.status ≠ "pending" → e.value.status ≠ "valid" → deletedAt k e.value.updated) := by
  obtain ⟨status, hstatus, rfl⟩ := hwritten
  have hk := hid _ rfl
  rw [← AuthzStatus.asStr_of_fromStr hstatus]
  simp only [mem_some_iff, forall_eq', hk]
  cases old <;> cases status <;> simp [authzRowOfEntry, assignAuthz, AuthzStatus.asStr]

theorem cert_dated_iff {e : OrMapEntry CertEntry} {old new : Option CertificateRow}
    (hwritten : CertWritten e old new) (hid : ∀ r ∈ new, r.id = k) :
    (∀ r ∈ new, r.status = .revoked → ∃ t, r.revokedAt = some t ∧ deletedAt r.id t) ↔
      (old.isSome → e.value.status = "revoked" →
        ∃ t, e.value.revokedAt = some t ∧ deletedAt k t) := by
  cases old with
  | none =>
    obtain rfl : new = none := hwritten
    exact iff_of_true nofun nofun
  | some r =>
    obtain ⟨status, hstatus, rfl⟩ := hwritten
    have hk := hid _ rfl
    rw [← CertStatus.asStr_of_fromStr hstatus]
    simp only [mem_some_iff, forall_eq', hk]
    cases status <;> simp [assignCert, CertStatus.asStr]

theorem find?_persistOperators (es : List (String × OrMapEntry OperatorEntry))
    (t : KeyedTable OperatorRow OperatorRow.id) (id : Int) :
    (es.foldl persistOperator t).find? id =
      (t.find? id).map fun r ↦ { r with active := activeAfter es r } := by
  induction es generalizing t with
  | nil =>
    rw [foldl_nil]
    cases t.find? id <;> rfl
  | cons e es ih =>
    rw [foldl_cons, ih]
    unfold persistOperator
    cases hparse : Text.parseI64 e.1 with
    | none => simp [activeAfter, hparse]
    | some id' =>
      rw [find?_updateWhere, Option.map_map]
      cases t.find? id with
      | none => rfl
      | some r =>
        by_cases hid : r.id = id'
        · simp [activeAfter, hparse, hid]
        · have hid' : id' ≠ r.id := fun h ↦ hid h.symm
          simp [activeAfter, hparse, hid, hid']

/-- A removed operator is loaded as a tombstone without a time. -/
theorem operators_dated_iff {t : KeyedTable OperatorRow OperatorRow.id}
    {es : List (String × OrMapEntry OperatorEntry)} :
    (∀ r ∈ (es.foldl persistOperator t).rows, (loadOperator r).tombstone = true →
      ∃ time, (loadOperator r).tombstoneAt = some time ∧ deletedAt (toString r.id) time) ↔
      ∀ r ∈ t.rows, activeAfter es r := by
  have hrow (r : OperatorRow) : ((loadOperator r).tombstone = true →
      ∃ time, (loadOperator r).tombstoneAt = some time ∧ deletedAt (toString r.id) time) ↔
        r.active = true := by
    simp [loadOperator]
  simp only [hrow]
  constructor
  · intro h r hr
    have hfind := find?_persistOperators es t r.id
    rw [find?_of_mem hr, map_some] at hfind
    exact h _ (mem_of_find? hfind)
  · intro h r' hr'
    have hfind := find?_persistOperators es t r'.id
    rw [find?_of_mem hr'] at hfind
    obtain ⟨r, hr, rfl⟩ := map_eq_some_iff.mp hfind.symm
    exact h r (mem_of_find? hr)

/-- A rule's row has the tombstone of its entry, so that only rows without an
entry matter, and of these only those that no entry evicts. -/
theorem rules_dated_iff {t t' : KeyedTable PolicyRuleRow PolicyRuleRow.id}
    {m : OrMap String PolicyRuleEntry} (ht : m.entries.rows.foldlM persistPolicyRule t = .ok t')
    (hm : ∀ k e, m.lookup k = some e → e.tombstone = true →
      ∃ time, e.tombstoneAt = some time ∧ deletedAt k time) :
    (∀ r ∈ t'.rows, r.tombstone = true → ∃ time, r.tombstoneAt = some time ∧ deletedAt r.id time) ↔
      ∀ r ∈ t.rows, m.lookup r.id = none → m.entries.rows.any (evicts r) = false →
        r.tombstone = true → ∃ time, r.tombstoneAt = some time ∧ deletedAt r.id time := by
  constructor
  · intro h r hr hnone hev
    refine h r (mem_of_find? (k := r.id) ?_)
    rw [find?_persistPolicyRules ht (KeyedTable.find?_eq_none_iff.mp (map_eq_none_iff.mp hnone)),
      find?_of_mem hr, filter_some_pos (by simp [hev])]
  · intro h r hr htomb
    have hfind := find?_of_mem hr
    cases hk : m.lookup r.id with
    | none =>
      rw [find?_persistPolicyRules ht
        (KeyedTable.find?_eq_none_iff.mp (map_eq_none_iff.mp hk))] at hfind
      obtain ⟨hold, hev⟩ := filter_eq_some_iff.mp hfind
      exact h r (mem_of_find? hold) hk (by simpa using hev) htomb
    | some e =>
      obtain ⟨pre, post, hrows⟩ := append_of_mem (OrMap.lookup_eq_some_iff.mp hk)
      rw [hrows] at ht
      rw [find?_persistPolicyRules_split ht (m.entries.key_ne_of_split hrows)] at hfind
      split at hfind
      · cases hfind
      · have hentry : r.tombstone = e.tombstone ∧ r.tombstoneAt = e.tombstoneAt := by
          rw [← some.inj hfind]
          unfold rowWritten
          cases (t.find? r.id).filter fun r ↦ !pre.any (evicts r) <;> exact ⟨rfl, rfl⟩
        rw [hentry.2]
        exact hm r.id e hk (hentry.1.symm.trans htomb)

end Statuses

section Tables

variable {db db' : Db} {crdt : AkaCrdt}

theorem accounts_dated_iff (h : persistCrdtAcme db crdt = .ok db') :
    (∀ k, EntryDated deleted (.or .accounts k) ((OrMap.load db'.accounts.rows fun r ↦
      (r.id, loadRow (accountEntryOfRow r) r.created r.updated (r.status != .valid))).lookup k)) ↔
      AccountsDated deleted db.accounts crdt.accounts := by
  refine (dated_loadRow_iff db'.accounts.nodup).trans ?_
  simp only [bne_iff_ne]
  exact covered_iff (account_of_persist h) fun _ _ _ _ ↦ account_dated_iff

theorem orders_dated_iff (h : persistCrdtAcme db crdt = .ok db') :
    (∀ k, EntryDated deleted (.or .orders k) ((OrMap.load db'.orders.rows fun r ↦
      (r.id, loadRow (orderEntryOfRow r) r.created r.updated (r.status == .invalid))).lookup k)) ↔
      OrdersDated deleted db.orders crdt.orders := by
  refine (dated_loadRow_iff db'.orders.nodup).trans ?_
  simp only [beq_iff_eq]
  exact covered_iff (order_of_persist h) fun _ _ _ _ ↦ order_dated_iff

theorem authorizations_dated_iff (h : persistCrdtAcme db crdt = .ok db') :
    (∀ k, EntryDated deleted (.or .authorizations k)
      ((OrMap.load (db'.authorizations.rows.map (decoded decodeNull)) fun r ↦
        (r.id, loadAuthz r)).lookup k)) ↔
      AuthzDated deleted db.authorizations crdt.authorizations := by
  have hloaded : OrMap.load (db'.authorizations.rows.map (decoded decodeNull))
      (fun r ↦ (r.id, loadAuthz r)) = OrMap.load db'.authorizations.rows
        fun r ↦ (r.id, loadAuthz (decoded decodeNull r)) := foldl_map
  rw [hloaded]
  refine (dated_loadRow_iff db'.authorizations.nodup).trans ?_
  have hfinal (r : AuthorizationRow) : ((r.status == .invalid || r.status == .expired ||
      r.status == .deactivated || r.status == .revoked) = true →
        deleted .authorizations r.id r.updated) ↔
      (r.status ≠ .pending → r.status ≠ .valid → deleted .authorizations r.id r.updated) := by
    cases r.status <;> simp
  refine (forall₂_congr fun r _ ↦ hfinal r).trans ?_
  exact covered_iff (authz_of_persist h) fun _ _ _ _ ↦ authz_dated_iff

theorem certificates_dated_iff (h : persistCrdtAcme db crdt = .ok db') :
    (∀ k, EntryDated deleted (.or .certificates k) ((OrMap.load db'.certificates.rows fun r ↦
      (r.id, ⟨certEntryOfRow r, r.created, r.status == .revoked, r.revokedAt, 0⟩)).lookup k)) ↔
      CertsDated deleted db.certificates crdt.certificates := by
  refine (dated_load_iff db'.certificates.nodup).trans ?_
  simp only [beq_iff_eq]
  exact covered_iff (cert_of_persist h) fun _ _ _ _ ↦ cert_dated_iff

end Tables

theorem dated_iff :
    Dated deleted c ↔ ∀ f key, EntryDated deleted (.or f key) ((c.orMap f).lookup key) := by
  constructor
  · exact fun h f key ↦ h (.or f key)
  · intro h x
    cases x with
    | or f key => exact h f key
    | lww | writer => trivial

/-- The tombstones of the reloaded replica carry the times of deletions exactly
if the database and the replica had them. -/
theorem dated_restart_iff {db : ClusterDb} {r' : ClusterReplica} (hc : Dated deleted c)
    (hrestart : restart decodeNull nodeId db c = .ok r') :
    Dated deleted r'.crdt ↔ DatesKept deleted db c := by
  obtain ⟨db₁, hcluster, hrestart⟩ := bind_eq_ok hrestart
  obtain ⟨db₂, hacme, hload⟩ := bind_eq_ok hrestart
  obtain ⟨h, hoperators, hrules, -, hnodes⟩ := tables_of_persist hcluster hacme
  obtain ⟨acme, hacme', hload⟩ := bind_eq_ok hload
  obtain ⟨authzRows, hauthz, hacme'⟩ := bind_eq_ok hacme'
  have hrows := Except.map_of_mapM (fun _ _ ↦ eq_decoded) hauthz
  rw [List.map_id] at hrows
  subst hrows
  cases hacme'
  cases hload
  have hoperators_iff : (∀ k, EntryDated deleted (.or .operators k)
      ((OrMap.load db₂.operators.rows fun r ↦ (toString r.id, loadOperator r)).lookup k)) ↔
        ∀ r ∈ db.operators.rows, activeAfter c.operators.entries.rows r := by
    refine (dated_load_iff (nodup_operatorNames db₂.operators)).trans ?_
    rw [hoperators]
    exact operators_dated_iff
  have hrules_iff : (∀ k, EntryDated deleted (.or .policyRules k)
      ((OrMap.load db₂.policyRules.rows fun r ↦ (r.id, loadPolicyRule r)).lookup k)) ↔ _ :=
    (dated_load_iff db₂.policyRules.nodup).trans
      (rules_dated_iff hrules fun k ↦ hc (.or .policyRules k))
  rw [dated_iff]
  constructor
  · exact fun hdated ↦ ⟨(accounts_dated_iff h).mp (hdated .accounts),
      (orders_dated_iff h).mp (hdated .orders),
      (authorizations_dated_iff h).mp (hdated .authorizations),
      (certificates_dated_iff h).mp (hdated .certificates), hoperators_iff.mp (hdated .operators),
      hrules_iff.mp (hdated .policyRules)⟩
  · intro hkept f
    cases f with
    | accounts => exact (accounts_dated_iff h).mpr hkept.accounts
    | orders => exact (orders_dated_iff h).mpr hkept.orders
    | authorizations => exact (authorizations_dated_iff h).mpr hkept.authorizations
    | certificates => exact (certificates_dated_iff h).mpr hkept.certificates
    | operators => exact hoperators_iff.mpr hkept.operators
    | policyRules => exact hrules_iff.mpr hkept.policyRules
    | delegations => exact (dated_load_iff db₂.delegations.nodup).mpr nofun
    | clusterNodes =>
      refine (dated_load_iff db₂.clusterNodes.nodup).mpr fun r hr htomb ↦ ?_
      have hfind := find?_of_mem hr
      rw [hnodes] at hfind
      obtain ⟨e, he, hrow⟩ := map_eq_some_iff.mp hfind
      rw [← hrow] at htomb ⊢
      exact hc (.or .clusterNodes _) e he htomb

theorem dated_run {es : List Event} (h : Dated deleted r.crdt)
    (hes : Meets (step decodeNull nodeId) (Recorded decodeNull deleted nodeId) r es) :
    Dated deleted (run (step decodeNull nodeId) r es).crdt := by
  refine hes.invariant (fun r ↦ Dated deleted r.crdt) h fun r e hr he ↦ ?_
  cases e with
  | restart db =>
    rw [step]
    split
    · rename_i r' hrestart
      exact (dated_restart_iff hr hrestart).mpr (he (by rw [hrestart]; rfl))
    · exact hr
  | change c =>
    cases c with
    | write => exact dated_apply hr he
    | merge => exact dated_merge hr he r.gen

theorem purged_lookup {e : OrMapEntry f.Value} {cutoff t : Int}
    (he : (c.orMap f).lookup key = some e) (ht : e.tombstoneAt = some t) (hle : cutoff ≤ t) :
    ((c.purgeOldTombstones cutoff).orMap f).lookup key = some e := by
  rw [ClusterCrdt.orMap_purge, OrMap.purgeOldTombstones, lookup_mk_retain, he]
  simp [Option.filter, ht, hle]

theorem dated_empty (deleted : OrField → String → Int → Prop) : Dated deleted .empty := by
  intro x
  cases x with
  | or f key =>
    have hnone : ClusterCrdt.empty.entry (.or f key) = none := by cases f <;> rfl
    rw [hnone]
    intro e he
    cases he
  | lww | writer => trivial

def root : OperatorEntry := ⟨1, "root", "administrator", "", 0⟩

/-- The operator is created at time 0 and deleted at 500. -/
def dismissal : List Event :=
  [.change (.write (.or .operators (.upsert "1" root 0))),
    .change (.write (.or .operators (.remove "1" 500)))]

def dismissed : ClusterReplica := run (step unexpectedNull "node-a") ⟨.empty, 0⟩ dismissal

def stale : ClusterCrdt :=
  ((⟨.empty, 0⟩ : ClusterReplica).apply "node-b"
    (.or .operators (.upsert "1" root 0))).crdt

/-- The account of second 1 is deactivated at 500, and the node restarts. -/
def deactivation : List Event :=
  [.change (.write (.or .accounts
      (.upsert "acct" { accountAt "mailto:a@example.org" 500 with status := "deactivated" } 1))),
    .change (.write (.or .accounts (.remove "acct" 500))),
    .restart .empty]

def deactivated : ClusterReplica := run (step unexpectedNull "node-a") ⟨.empty, 0⟩ deactivation

end Akamu.Tombstones
