import Akamu.Lib.Machine
import Akamu.Db.ClusterTables

/-!
# Activation of operators across a cluster

Each node has its own `operators` table, whose numbers the database assigns, and
a replica keyed by those numbers.  Creating an operator enters it as live,
deactivating it as dead; reactivating it changes the table alone.  The replicas
meet through gossip, and the write-back sets the `active` column from them.

A deactivation wins over everything else in a merge.  So the column follows the
decisions when a number means the same operator on every node and no operator
becomes active again.
-/

namespace Akamu.Operators

open Machine Crdt KeyedTable OrMap List Function

abbrev OperatorTable : Type := KeyedTable OperatorRow OperatorRow.id

abbrev OperatorMap : Type := OrMap String OperatorEntry

structure Node where
  table : OperatorTable
  map : OperatorMap
  gen : ℕ

/-- `network` is what has been sent; nothing is ever lost from it, so messages
may be late or arrive twice.  `log` lists the decisions, the last one first; the
program does not keep it. -/
structure Cluster (n : ℕ) where
  node : Fin n → Node
  network : List OperatorMap
  log : List (String × Bool)

inductive Event (n : ℕ) where
  /-- `POST /admin/operators`; the number is the one that the database assigns. -/
  | create (i : Fin n) (row : OperatorRow) (now : Int)
  /-- `PATCH /admin/operators/{id}`. -/
  | patch (i : Fin n) (id : Int) (active : Bool) (now : Int)
  | send (i : Fin n) (since : Option ℕ)
  | deliver (i : Fin n) (payload : ℕ)
  | persist (i : Fin n)

/-! ## The operations -/

def Node.setMap (nd : Node) (r : OperatorMap × ℕ) : Node := { nd with map := r.1, gen := r.2 }

def onOperatorUpsert (nd : Node) (row : OperatorRow) (created : Int) : Node :=
  nd.setMap (nd.map.upsert nd.gen (toString row.id)
    ⟨row.id, row.name, row.role, row.caId, created⟩ created)

def onOperatorTombstone (nd : Node) (id : Int) (now : Int) : Node :=
  nd.setMap (nd.map.remove nd.gen (toString id) now)

def insertOperator (t : OperatorTable) (row : OperatorRow) : Option OperatorTable :=
  if row.name ∈ t.rows.map OperatorRow.name then none else t.insert? { row with active := true }

def setActive (t : OperatorTable) (id : Int) (active : Bool) : OperatorTable :=
  t.updateWhere (fun r ↦ r.id == id) (fun r ↦ { r with active := active }) fun _ ↦ rfl

/-- The operators' part of `persist_crdt_acme`. -/
def persistOperators (nd : Node) : OperatorTable :=
  nd.map.entries.rows.foldl persistOperator nd.table

def Node.load (t : OperatorTable) : Node :=
  ⟨t, OrMap.load t.rows fun r ↦ (toString r.id, loadOperator r), 0⟩

section Step

variable {n : ℕ}

def Cluster.start (tables : Fin n → OperatorTable) : Cluster n where
  node i := .load (tables i)
  network := []
  log := (List.finRange n).flatMap fun i ↦ (tables i).rows.map fun r ↦ (r.name, r.active)

def Cluster.setNode (s : Cluster n) (i : Fin n) (nd : Node) : Cluster n :=
  { s with node := Function.update s.node i nd }

def step (s : Cluster n) : Event n → Cluster n × Unit
  | .create i row now =>
    match insertOperator (s.node i).table row with
    | none => (s, ())
    | some t =>
      ({ s.setNode i (onOperatorUpsert { s.node i with table := t } row now) with
        log := (row.name, true) :: s.log }, ())
  | .patch i id active now =>
    match (s.node i).table.find? id with
    | none => (s, ())
    | some row =>
      let nd := { s.node i with table := setActive (s.node i).table id active }
      ({ s.setNode i (if active then nd else onOperatorTombstone nd id now) with
        log := (row.name, active) :: s.log }, ())
  | .send i since =>
    ({ s with network := (match since with
      | some gen => (s.node i).map.deltaSince gen
      | none => (s.node i).map) :: s.network }, ())
  | .deliver i payload =>
    match s.network[payload]? with
    | none => (s, ())
    | some m =>
      (s.setNode i ((s.node i).setMap ((s.node i).map.merge (s.node i).gen m)), ())
  | .persist i => (s.setNode i { s.node i with table := persistOperators (s.node i) }, ())

end Step

/-! ## What is asked of the column -/

def decided (log : List (String × Bool)) (name : String) : Option Bool :=
  (log.find? fun d ↦ d.1 == name).map Prod.snd

/-- What the replica has of a number: nothing, a live entry or a dead one. -/
def flag (m : OperatorMap) (k : String) : Option Bool := (m.lookup k).map OrMapEntry.tombstone

section Properties

variable {n : ℕ}

/-- The column never shows what nobody decided about that operator. -/
def Cluster.Grounded (s : Cluster n) : Prop :=
  ∀ i, ∀ r ∈ (s.node i).table.rows, (r.name, r.active) ∈ s.log

def Cluster.Converged (s : Cluster n) : Prop :=
  ∀ i j k, flag (s.node i).map k = flag (s.node j).map k

def Cluster.Settles (s : Cluster n) : Prop :=
  s.Converged → ∀ i, ∀ r ∈ (persistOperators (s.node i)).rows, decided s.log r.name = some r.active

def Cluster.Named (s : Cluster n) (id : Int) (name : String) : Prop :=
  ∃ i, ∃ r ∈ (s.node i).table.rows, r.id = id ∧ r.name = name

/-- The tables that the nodes start with agree on numbers, names and activity. -/
def Agree (tables : Fin n → OperatorTable) : Prop :=
  ∀ i j, ∀ r ∈ (tables i).rows, ∀ r' ∈ (tables j).rows,
    (r.id = r'.id ↔ r.name = r'.name) ∧ (r.name = r'.name → r.active = r'.active)

/-- A new operator gets the number it has elsewhere, and one that nobody else
has if it is new everywhere; nobody becomes active who was deactivated. -/
def Orderly (s : Cluster n) : Event n → Prop
  | .create _ row _ =>
    (∀ j, ∀ r ∈ (s.node j).table.rows, row.id = r.id ↔ row.name = r.name) ∧
      decided s.log row.name ≠ some false
  | .patch i id active _ => active = true → ∀ row ∈ (s.node i).table.find? id,
      decided s.log row.name ≠ some false
  | _ => True

instance (s : Cluster n) (e : Event n) : Decidable (Orderly s e) := by
  cases e <;> unfold Orderly <;> infer_instance

end Properties

/-! ## Flags -/

section Flags

variable {m : OperatorMap} {k key : String}

theorem flag_upsert (m : OperatorMap) (gen : ℕ) (k : String) (v : OperatorEntry) (t : Int)
    (key : String) :
    flag (m.upsert gen k v t).1 key = if k = key then some false else flag m key := by
  rw [flag, lookup_upsert]
  split <;> rfl

theorem flag_remove (m : OperatorMap) (gen : ℕ) (k : String) (t : Int) (key : String) :
    flag (m.remove gen k t).1 key = if k = key then some true else flag m key := by
  by_cases hk : k = key
  · subst hk
    rw [if_pos rfl, flag]
    dsimp only [OrMap.remove]
    split
    · rw [lookup_put, if_pos rfl]
      rfl
    · rename_i hdead
      rw [lookup_put, if_pos rfl]
      simp only [Bool.or_eq_true, not_or, Bool.not_eq_true', Bool.not_eq_false] at hdead
      rw [Option.map_some, hdead.1]
  · rw [if_neg hk, flag, lookup_remove_of_ne m gen t hk, flag]

theorem flag_merge (m : OperatorMap) (gen : ℕ) (other : OperatorMap) (key : String) :
    flag (m.merge gen other).1 key = Option.merge or (flag m key) (flag other key) := by
  have hjoined := m.lookup_merge gen other key
  unfold flag
  generalize m.lookup key = mine, other.lookup key = theirs,
    (m.merge gen other).1.lookup key = new at hjoined
  cases hjoined with
  | kept h =>
    cases theirs with
    | none => simp
    | some o =>
      obtain ⟨s, rfl, hdead | ⟨hlive, -⟩⟩ := h o rfl
      · simp [Option.merge, hdead]
      · simp [Option.merge, hlive]
  | taken _ h =>
    cases mine with
    | none => simp
    | some s => simp [Option.merge, h s rfl]
  | buried _ hs ho => simp [Option.merge, ho]

theorem flag_of_merge {gen : ℕ} {other : OperatorMap} {b : Bool}
    (h : flag (m.merge gen other).1 key = some b) : flag m key = some b ∨ flag other key = some b := by
  rw [flag_merge] at h
  cases hm : flag m key with
  | none =>
    rw [hm, Option.merge_none_left] at h
    exact .inr h
  | some a =>
    cases ho : flag other key with
    | none =>
      rw [hm, ho, Option.merge_none_right] at h
      exact .inl h
    | some c =>
      cases a <;> cases c <;> simp_all [Option.merge]

theorem flag_deltaSince {gen : ℕ} {b : Bool} (h : flag (m.deltaSince gen) key = some b) :
    flag m key = some b := by
  rw [flag, OrMap.deltaSince, lookup_mk_retain] at h
  obtain ⟨e, he, hb⟩ := Option.map_eq_some_iff.mp h
  rw [flag, (Option.filter_eq_some_iff.mp he).1, Option.map_some, hb]

end Flags

/-! ## The log -/

section Log

variable {log : List (String × Bool)} {name name' : String} {b : Bool}

theorem decided_cons (log : List (String × Bool)) (name name' : String) (b : Bool) :
    decided ((name, b) :: log) name' = if name = name' then some b else decided log name' := by
  by_cases h : name = name' <;> simp [decided, h]

theorem mem_of_decided (h : decided log name = some b) : (name, b) ∈ log := by
  obtain ⟨d, hd, rfl⟩ := Option.map_eq_some_iff.mp h
  have hname : d.1 = name := by simpa using find?_some hd
  rw [← hname]
  exact mem_of_find?_eq_some hd

theorem exists_decided (h : (name, b) ∈ log) : ∃ b', decided log name = some b' := by
  cases hfind : log.find? fun d ↦ d.1 == name with
  | none => exact absurd (beq_self_eq_true name) (find?_eq_none.mp hfind _ h)
  | some d => exact ⟨d.2, by rw [decided, hfind, Option.map_some]⟩

def Final (log : List (String × Bool)) : Prop :=
  ∀ name, (name, false) ∈ log → decided log name = some false

theorem Final.cons (h : Final log) (hb : b = true → decided log name ≠ some false) :
    Final ((name, b) :: log) := by
  intro name' hmem
  rw [decided_cons]
  split
  · rename_i heq
    subst heq
    cases b with
    | false => rfl
    | true =>
      have hold := (mem_cons.mp hmem).resolve_left (by simp)
      exact absurd (h name hold) (hb rfl)
  · rename_i hne
    refine h name' ((mem_cons.mp hmem).resolve_left fun heq ↦ hne ?_)
    exact (Prod.mk.inj heq).1.symm

end Log

/-! ## The invariant -/

section Invariant

variable {n : ℕ} {s : Cluster n}

def Cluster.Known (s : Cluster n) (m : OperatorMap) : Prop :=
  (∃ i, m = (s.node i).map) ∨ m ∈ s.network

def Cluster.Faithful (s : Cluster n) (m : OperatorMap) : Prop :=
  ∀ k b, flag m k = some b → ∃ id name, s.Named id name ∧ toString id = k ∧ (name, !b) ∈ s.log

structure Inv (s : Cluster n) : Prop where
  ids : ∀ id name id' name', s.Named id name → s.Named id' name' → (id = id' ↔ name = name')
  grounded : s.Grounded
  final : Final s.log
  faithful : ∀ m, s.Known m → s.Faithful m
  /-- A deactivation has not been lost. -/
  marked : ∀ name, (name, false) ∈ s.log →
    ∃ i id, s.Named id name ∧ flag (s.node i).map (toString id) = some true
  own : ∀ i, ∀ r ∈ (s.node i).table.rows, (flag (s.node i).map (toString r.id)).isSome

variable {i : Fin n} {t : OperatorTable} {r : OperatorRow} {id : Int}

theorem named_of_mem (hr : r ∈ (s.node i).table.rows) : s.Named r.id r.name :=
  ⟨i, r, hr, rfl, rfl⟩

variable {tables : Fin n → OperatorTable} {m : OperatorMap} {name : String} {row : OperatorRow}

theorem Cluster.Named.id_eq {id' : Int} {name' : String} (h : s.Named id name)
    (h' : s.Named id' name') (heq : toString id = toString id') : id = id' := by
  obtain ⟨_, r, -, rfl, -⟩ := h
  obtain ⟨_, r', -, rfl, -⟩ := h'
  exact OperatorRow.id_eq_of_toString heq

theorem Inv.entry_of_row (h : Inv s) (hm : s.Known m) (hr : r ∈ (s.node i).table.rows) {b : Bool}
    (hb : flag m (toString r.id) = some b) : (r.name, !b) ∈ s.log := by
  obtain ⟨id, name, hnamed, hkey, hlog⟩ := h.faithful m hm _ b hb
  have hid := hnamed.id_eq (named_of_mem hr) hkey
  rwa [(h.ids _ _ _ _ hnamed (named_of_mem hr)).mp hid] at hlog

theorem Inv.mem_persistOperators (h : Inv s) (i : Fin n) {r' : OperatorRow}
    (hr' : r' ∈ (persistOperators (s.node i)).rows) :
    ∃ r ∈ (s.node i).table.rows, ∃ b, flag (s.node i).map (toString r.id) = some b ∧
      r' = { r with active := !b } := by
  have hid : r'.id ∈ (s.node i).table.rows.map OperatorRow.id := by
    rw [← ids_persistOperators (s.node i).map.entries.rows]
    exact mem_map_of_mem hr'
  obtain ⟨r, hr, hid⟩ := mem_map.mp hid
  obtain ⟨e, he⟩ : ∃ e, (s.node i).map.lookup (toString r.id) = some e := by
    have hown := h.own i r hr
    rw [flag, Option.isSome_map] at hown
    exact Option.isSome_iff_exists.mp hown
  have hkeys : ∀ e ∈ (s.node i).map.entries.rows, ∃ r : OperatorRow, toString r.id = e.1 := by
    intro e he
    have hflag : flag (s.node i).map e.1 = some e.2.tombstone := by
      rw [flag, OrMap.lookup_eq_some_iff.mpr he, Option.map_some]
    obtain ⟨_, _, ⟨_, r, -, rfl, -⟩, hkey, -⟩ := h.faithful _ (.inl ⟨i, rfl⟩) _ _ hflag
    exact ⟨r, hkey⟩
  have hfind := operator_of_persist hkeys hr he
  have hfind' : (persistOperators (s.node i)).find? r'.id = some r' := find?_of_mem hr'
  rw [← hid] at hfind'
  refine ⟨r, hr, e.tombstone, by rw [flag, he, Option.map_some], ?_⟩
  exact Option.some.inj (hfind'.symm.trans hfind)

theorem Inv.settles (h : Inv s) : s.Settles := by
  intro hconverged i r' hr'
  obtain ⟨r, hr, b, hb, rfl⟩ := h.mem_persistOperators i hr'
  have hlog : (r.name, !b) ∈ s.log := h.entry_of_row (.inl ⟨i, rfl⟩) hr hb
  cases b with
  | true => exact h.final r.name hlog
  | false =>
    obtain ⟨b', hb'⟩ := exists_decided hlog
    cases b' with
    | true => exact hb'
    | false =>
      -- the deactivation would be known here as well
      obtain ⟨j, id, hnamed, hdead⟩ := h.marked r.name (mem_of_decided hb')
      have hid := (h.ids _ _ _ _ hnamed (named_of_mem hr)).mpr rfl
      rw [hid, hconverged j i, hb] at hdead
      cases hdead

/-! ### The start -/

theorem flag_load {k : String} {b : Bool} (h : flag (Node.load t).map k = some b) :
    ∃ r ∈ t.rows, toString r.id = k ∧ b = !r.active := by
  obtain ⟨e, he, rfl⟩ := Option.map_eq_some_iff.mp h
  obtain ⟨r, hr, hentry⟩ := mem_of_lookup_load he
  cases hentry
  exact ⟨r, hr, rfl, rfl⟩

theorem flag_load_of_mem (hr : r ∈ t.rows) :
    flag (Node.load t).map (toString r.id) = some (!r.active) := by
  have hnodup : (t.rows.map fun r ↦ toString r.id).Nodup :=
    List.Nodup.map_on (fun r hr r' hr' heq ↦
      eq_of_mem_of_key_eq _ hr hr' (OperatorRow.id_eq_of_toString heq))
      (List.Nodup.of_map _ t.nodup)
  have hlookup : (OrMap.load t.rows fun r ↦ (toString r.id, loadOperator r)).lookup
      (toString r.id) = some (loadOperator r) := lookup_load_of_mem hnodup hr
  rw [flag, Node.load, hlookup]
  rfl

theorem mem_start_log {d : String × Bool} :
    d ∈ (Cluster.start tables).log ↔ ∃ i, ∃ r ∈ (tables i).rows, (r.name, r.active) = d := by
  simp [Cluster.start]

theorem inv_start (h : Agree tables) : Inv (Cluster.start tables) where
  ids := by
    rintro _ _ _ _ ⟨i, r, hr, rfl, rfl⟩ ⟨j, r', hr', rfl, rfl⟩
    exact (h i j r hr r' hr').1
  grounded i r hr := mem_start_log.mpr ⟨i, r, hr, rfl⟩
  final := by
    intro name hmem
    obtain ⟨b, hb⟩ := exists_decided hmem
    obtain ⟨i, r, hr, hd⟩ := mem_start_log.mp hmem
    obtain ⟨j, r', hr', hd'⟩ := mem_start_log.mp (mem_of_decided hb)
    cases hd'
    obtain ⟨hname, hactive⟩ := Prod.mk.inj hd
    rw [hb, ← (h i j r hr r' hr').2 hname, hactive]
  faithful := by
    rintro m (⟨i, rfl⟩ | hm) k b hb
    · obtain ⟨r, hr, rfl, rfl⟩ := flag_load hb
      exact ⟨r.id, r.name, ⟨i, r, hr, rfl, rfl⟩, rfl, mem_start_log.mpr
        ⟨i, r, hr, by rw [Bool.not_not]⟩⟩
    · exact absurd hm not_mem_nil
  marked := by
    intro name hmem
    obtain ⟨i, r, hr, hd⟩ := mem_start_log.mp hmem
    obtain ⟨rfl, hactive⟩ := Prod.mk.inj hd
    refine ⟨i, r.id, ⟨i, r, hr, rfl, rfl⟩, ?_⟩
    rw [Cluster.start, flag_load_of_mem hr, hactive]
    rfl
  own i r hr := Option.isSome_of_mem (flag_load_of_mem (t := tables i) hr)

/-! ### Steps -/

theorem named_setNode_iff {nd : Node} :
    (s.setNode i nd).Named id name ↔ (∃ r ∈ nd.table.rows, r.id = id ∧ r.name = name) ∨
      ∃ j ≠ i, ∃ r ∈ (s.node j).table.rows, r.id = id ∧ r.name = name :=
  exists_update_iff s.node fun _ nd ↦ ∃ r ∈ nd.table.rows, r.id = id ∧ r.name = name

theorem named_iff (i : Fin n) :
    s.Named id name ↔ (∃ r ∈ (s.node i).table.rows, r.id = id ∧ r.name = name) ∨
      ∃ j ≠ i, ∃ r ∈ (s.node j).table.rows, r.id = id ∧ r.name = name := by
  rw [← named_setNode_iff, Cluster.setNode, update_eq_self]

theorem Inv.replaceNode (h : Inv s) (i : Fin n) (nd : Node) (log : List (String × Bool))
    (hids : ∀ id name id' name', (s.setNode i nd).Named id name →
      (s.setNode i nd).Named id' name' → (id = id' ↔ name = name'))
    (hnamed : ∀ id name, s.Named id name → (s.setNode i nd).Named id name)
    (hlog : ∀ d ∈ s.log, d ∈ log) (hfinal : Final log)
    (hrows : ∀ r ∈ nd.table.rows, (r.name, r.active) ∈ log ∧
      (flag nd.map (toString r.id)).isSome)
    (hflags : ∀ k b, flag nd.map k = some b → (∃ m, s.Known m ∧ flag m k = some b) ∨
      ∃ id name, (s.setNode i nd).Named id name ∧ toString id = k ∧ (name, !b) ∈ log)
    (hmarked : ∀ name, (name, false) ∈ log → (name, false) ∈ s.log ∨
      ∃ id, (s.setNode i nd).Named id name ∧ flag nd.map (toString id) = some true)
    (hkeep : ∀ id name, (name, false) ∈ s.log → s.Named id name →
      flag (s.node i).map (toString id) = some true → flag nd.map (toString id) = some true) :
    Inv { s.setNode i nd with log := log } := by
  have hold : ∀ m, s.Known m → ∀ k b, flag m k = some b →
      ∃ id name, (s.setNode i nd).Named id name ∧ toString id = k ∧ (name, !b) ∈ log := by
    intro m hm k b hb
    obtain ⟨id, name, hn, hkey, hd⟩ := h.faithful m hm k b hb
    exact ⟨id, name, hnamed id name hn, hkey, hlog _ hd⟩
  refine ⟨hids, ?_, hfinal, ?_, fun name hmem ↦ ?_, ?_⟩
  · exact (forall_update_iff s.node fun _ nd ↦ ∀ r ∈ nd.table.rows,
      (r.name, r.active) ∈ log).mpr
      ⟨fun r hr ↦ (hrows r hr).1, fun j _ r hr ↦ hlog _ (h.grounded j r hr)⟩
  · rintro m (hm | hm) k b hb
    · rcases (exists_update_iff s.node fun _ nd ↦ m = nd.map).mp hm with
        rfl | ⟨j, -, rfl⟩
      · rcases hflags k b hb with ⟨m, hm, hmb⟩ | hnew
        · exact hold m hm k b hmb
        · exact hnew
      · exact hold _ (.inl ⟨j, rfl⟩) k b hb
    · exact hold m (.inr hm) k b hb
  · refine (exists_update_iff s.node fun _ nd' ↦ ∃ id,
      (s.setNode i nd).Named id name ∧ flag nd'.map (toString id) = some true).mpr ?_
    rcases hmarked name hmem with hmem' | hnew
    · obtain ⟨j, id, hn, hdead⟩ := h.marked name hmem'
      by_cases hj : j = i
      · exact .inl ⟨id, hnamed id name hn, hkeep id name hmem' hn (hj ▸ hdead)⟩
      · exact .inr ⟨j, hj, id, hnamed id name hn, hdead⟩
    · exact .inl hnew
  · exact (forall_update_iff s.node fun _ nd ↦ ∀ r ∈ nd.table.rows,
      (flag nd.map (toString r.id)).isSome).mpr ⟨fun r hr ↦ (hrows r hr).2, fun j _ ↦ h.own j⟩

def SameNames (t t' : OperatorTable) : Prop :=
  t'.rows.map (fun r ↦ (r.id, r.name)) = t.rows.map fun r ↦ (r.id, r.name)

theorem named_setNode {nd : Node} (h : SameNames (s.node i).table nd.table) (id : Int)
    (name : String) : (s.setNode i nd).Named id name ↔ s.Named id name := by
  have hrows := congrArg ((id, name) ∈ ·) h
  simp only [mem_map, Prod.mk.injEq] at hrows
  rw [named_setNode_iff, named_iff i, hrows]

theorem Inv.updateNode (h : Inv s) (i : Fin n) (nd : Node) (log : List (String × Bool))
    (hsame : SameNames (s.node i).table nd.table) (hlog : ∀ d ∈ s.log, d ∈ log)
    (hfinal : Final log)
    (hrows : ∀ r ∈ nd.table.rows, (r.name, r.active) ∈ log ∧
      (flag nd.map (toString r.id)).isSome)
    (hflags : ∀ k b, flag nd.map k = some b → (∃ m, s.Known m ∧ flag m k = some b) ∨
      ∃ id name, s.Named id name ∧ toString id = k ∧ (name, !b) ∈ log)
    (hmarked : ∀ name, (name, false) ∈ log → (name, false) ∈ s.log ∨
      ∃ id, s.Named id name ∧ flag nd.map (toString id) = some true)
    (hkeep : ∀ k, flag (s.node i).map k = some true → flag nd.map k = some true) :
    Inv { s.setNode i nd with log := log } := by
  have hnamed := named_setNode (s := s) hsame
  refine h.replaceNode i nd log (fun id name id' name' hn hn' ↦ ?_)
    (fun id name ↦ (hnamed id name).mpr) hlog hfinal hrows (fun k b hb ↦ ?_)
    (fun name hmem ↦ ?_) fun id _ _ _ ↦ hkeep (toString id)
  · exact h.ids _ _ _ _ ((hnamed id name).mp hn) ((hnamed id' name').mp hn')
  · simpa only [hnamed] using hflags k b hb
  · simpa only [hnamed] using hmarked name hmem

theorem inv_deliver (h : Inv s) (i : Fin n) (hm : m ∈ s.network) :
    Inv (s.setNode i ((s.node i).setMap ((s.node i).map.merge (s.node i).gen m))) := by
  have hdead : ∀ k, flag (s.node i).map k = some true →
      flag ((s.node i).map.merge (s.node i).gen m).1 k = some true := by
    intro k hk
    rw [flag_merge, hk]
    cases flag m k <;> simp [Option.merge]
  refine h.updateNode i _ s.log rfl (fun _ hd ↦ hd) h.final (fun r hr ↦ ⟨h.grounded i r hr, ?_⟩)
    (fun k b hb ↦ .inl ?_) (fun _ hmem ↦ .inl hmem) hdead
  · obtain ⟨b, hb⟩ := Option.isSome_iff_exists.mp (h.own i r hr)
    change (flag ((s.node i).map.merge (s.node i).gen m).1 (toString r.id)).isSome
    rw [flag_merge, hb]
    cases flag m (toString r.id) <;> rfl
  · rcases flag_of_merge hb with hself | hother
    · exact ⟨_, .inl ⟨i, rfl⟩, hself⟩
    · exact ⟨m, .inr hm, hother⟩

theorem inv_send (h : Inv s) (i : Fin n)
    (hm : ∀ k b, flag m k = some b → flag (s.node i).map k = some b) :
    Inv { s with network := m :: s.network } where
  ids := h.ids
  grounded := h.grounded
  final := h.final
  faithful := by
    rintro m' (hm' | hm') k b hb
    · exact h.faithful m' (.inl hm') k b hb
    · rcases mem_cons.mp hm' with rfl | htail
      · exact h.faithful _ (.inl ⟨i, rfl⟩) k b (hm k b hb)
      · exact h.faithful m' (.inr htail) k b hb
  marked := h.marked
  own := h.own

theorem names_persistOperator (t : OperatorTable) (e : String × OrMapEntry OperatorEntry) :
    SameNames t (persistOperator t e) := by
  unfold persistOperator
  split
  · rfl
  · simp only [SameNames, KeyedTable.updateWhere, map_map]
    apply map_congr_left
    intro r _
    simp only [comp_apply]
    split <;> rfl

theorem names_persistOperators (nd : Node) : SameNames nd.table (persistOperators nd) := by
  unfold persistOperators
  generalize nd.table = t
  induction nd.map.entries.rows generalizing t with
  | nil => rfl
  | cons e es ih => exact (ih (persistOperator t e)).trans (names_persistOperator t e)

theorem inv_persist (h : Inv s) (i : Fin n) :
    Inv (s.setNode i { s.node i with table := persistOperators (s.node i) }) := by
  refine h.updateNode i _ s.log (names_persistOperators (s.node i)) (fun _ hd ↦ hd) h.final
    (fun r' hr' ↦ ?_) (fun k b hb ↦ .inl ⟨_, .inl ⟨i, rfl⟩, hb⟩) (fun _ hmem ↦ .inl hmem)
    fun _ hk ↦ hk
  obtain ⟨r, hr, b, hb, rfl⟩ := h.mem_persistOperators i hr'
  exact ⟨h.entry_of_row (.inl ⟨i, rfl⟩) hr hb, Option.isSome_of_mem hb⟩

theorem names_setActive (t : OperatorTable) (id : Int) (active : Bool) :
    SameNames t (setActive t id active) := by
  simp only [SameNames, setActive, KeyedTable.updateWhere, map_map]
  apply map_congr_left
  intro r _
  simp only [comp_apply]
  split <;> rfl

theorem mem_setActive {active : Bool} {r' : OperatorRow} (hr' : r' ∈ (setActive t id active).rows) :
    ∃ r ∈ t.rows, r'.id = r.id ∧ r'.name = r.name ∧ (r' = r ∨ r.id = id ∧ r'.active = active) := by
  obtain ⟨r, hr, heq⟩ := KeyedTable.mem_updateWhere.mp hr'
  split at heq
  · rename_i hid
    subst heq
    exact ⟨r, hr, rfl, rfl, .inr ⟨by simpa using hid, rfl⟩⟩
  · subst heq
    exact ⟨r, hr, rfl, rfl, .inl rfl⟩

theorem inv_patch (h : Inv s) {active : Bool} (now : Int)
    (hrow : (s.node i).table.find? id = some row)
    (hactive : active = true → decided s.log row.name ≠ some false) : Inv { s.setNode i (if active
        then { s.node i with table := setActive (s.node i).table id active }
        else onOperatorTombstone
          { s.node i with table := setActive (s.node i).table id active } id now) with
      log := (row.name, active) :: s.log } := by
  obtain ⟨hmem, hid⟩ := KeyedTable.find?_eq_some_iff.mp hrow
  have hnamed : s.Named id row.name := hid ▸ named_of_mem hmem
  have hlog : ∀ d ∈ s.log, d ∈ (row.name, active) :: s.log := fun d ↦ mem_cons_of_mem _
  have hrows : ∀ r' ∈ (setActive (s.node i).table id active).rows,
      (r'.name, r'.active) ∈ (row.name, active) :: s.log ∧
        (flag (s.node i).map (toString r'.id)).isSome := by
    intro r' hr'
    obtain ⟨r, hr, hrid, hrname, hsame | ⟨hrid', hractive⟩⟩ := mem_setActive hr'
    · subst hsame
      exact ⟨hlog _ (h.grounded i r' hr), h.own i r' hr⟩
    · have hrow' := (find?_of_mem hr).symm.trans (hrid' ▸ hrow)
      cases hrow'
      rw [hrname, hractive, hrid]
      exact ⟨mem_cons_self, h.own i _ hr⟩
  cases active with
  | true =>
    refine h.updateNode i _ _ (names_setActive _ id true) hlog (h.final.cons hactive) hrows
      (fun k b hb ↦ .inl ⟨_, .inl ⟨i, rfl⟩, hb⟩) (fun name hmem ↦ .inl ?_) fun _ hk ↦ hk
    exact (mem_cons.mp hmem).resolve_left (by simp)
  | false =>
    have hflag : ∀ key, flag ((s.node i).map.remove (s.node i).gen (toString id) now).1 key =
        if toString id = key then some true else flag (s.node i).map key :=
      flag_remove _ _ _ _
    refine h.updateNode i _ _ (names_setActive _ id false) hlog (h.final.cons hactive)
      (fun r' hr' ↦ ⟨(hrows r' hr').1, ?_⟩) (fun k b hb ↦ ?_) (fun name hmem ↦ ?_) fun k hk ↦ ?_
    · change (flag ((s.node i).map.remove (s.node i).gen (toString id) now).1
        (toString r'.id)).isSome
      rw [hflag]
      split
      · rfl
      · exact (hrows r' hr').2
    · change flag ((s.node i).map.remove (s.node i).gen (toString id) now).1 k = some b at hb
      rw [hflag] at hb
      split at hb
      · rename_i hkey
        cases hb
        exact .inr ⟨id, row.name, hnamed, hkey, mem_cons_self⟩
      · exact .inl ⟨_, .inl ⟨i, rfl⟩, hb⟩
    · rcases mem_cons.mp hmem with heq | htail
      · cases heq
        exact .inr ⟨id, hnamed, (hflag _).trans (if_pos rfl)⟩
      · exact .inl htail
    · refine (hflag k).trans ?_
      split
      · rfl
      · exact hk

theorem inv_create (h : Inv s) (now : Int) (ht : insertOperator (s.node i).table row = some t)
    (hfresh : ∀ id name, s.Named id name → (row.id = id ↔ row.name = name))
    (hdecided : decided s.log row.name ≠ some false) :
    Inv { s.setNode i (onOperatorUpsert { s.node i with table := t } row now) with
      log := (row.name, true) :: s.log } := by
  have hinsert : (s.node i).table.insert? { row with active := true } = some t := by
    unfold insertOperator at ht
    split at ht
    · cases ht
    · exact ht
  have hmem : ∀ r, r ∈ t.rows ↔ r ∈ (s.node i).table.rows ∨ r = { row with active := true } :=
    fun r ↦ mem_insert? hinsert
  have hnamed : ∀ id name,
      (s.setNode i (onOperatorUpsert { s.node i with table := t } row now)).Named id name ↔
        s.Named id name ∨ row.id = id ∧ row.name = name := by
    intro id name
    have hrows : (∃ r ∈ t.rows, r.id = id ∧ r.name = name) ↔
        (∃ r ∈ (s.node i).table.rows, r.id = id ∧ r.name = name) ∨
          row.id = id ∧ row.name = name := by
      simp only [hmem, or_and_right, exists_or, exists_eq_left]
    rw [named_setNode_iff, named_iff i, or_right_comm]
    exact or_congr_left hrows
  have hflag : ∀ key, flag (onOperatorUpsert { s.node i with table := t } row now).map key =
      if toString row.id = key then some false else flag (s.node i).map key :=
    flag_upsert _ _ _ _ _
  refine h.replaceNode i _ _ ?_ (fun id name hn ↦ (hnamed id name).mpr (.inl hn))
    (fun d ↦ mem_cons_of_mem _) (h.final.cons fun _ ↦ hdecided) (fun r hr ↦ ?_)
    (fun k b hb ↦ ?_) (fun name hmem' ↦ .inl ?_) fun id name hmem' hn hdead ↦ ?_
  · intro id name id' name' hn hn'
    rcases (hnamed id name).mp hn with hn | ⟨rfl, rfl⟩ <;>
      rcases (hnamed id' name').mp hn' with hn' | ⟨rfl, rfl⟩
    · exact h.ids _ _ _ _ hn hn'
    · rw [eq_comm, hfresh id name hn, eq_comm]
    · exact hfresh id' name' hn'
    · simp
  · constructor
    · rcases (hmem r).mp hr with hold | rfl
      · exact mem_cons_of_mem _ (h.grounded i r hold)
      · exact mem_cons_self
    · rw [hflag]
      split
      · rfl
      · rename_i hne
        rcases (hmem r).mp hr with hold | rfl
        · exact h.own i r hold
        · exact absurd rfl hne
  · rw [hflag] at hb
    split at hb
    · rename_i hkey
      cases hb
      exact .inr ⟨row.id, row.name, (hnamed _ _).mpr (.inr ⟨rfl, rfl⟩), hkey, mem_cons_self⟩
    · exact .inl ⟨_, .inl ⟨i, rfl⟩, hb⟩
  · exact (mem_cons.mp hmem').resolve_left (by simp)
  · rw [hflag]
    split
    · -- the entry that is revived would be this operator's own
      rename_i hkey
      have hid : row.id = id := by
        obtain ⟨_, r, -, rfl, -⟩ := hn
        exact OperatorRow.id_eq_of_toString hkey
      rw [(hfresh id name hn).mp hid] at hdecided
      exact absurd (h.final name hmem') hdecided
    · exact hdead

theorem inv_step (h : Inv s) (e : Event n) (he : Orderly s e) : Inv (step s e).1 := by
  cases e with
  | create i row now =>
    simp only [step]
    split
    · exact h
    · rename_i t ht
      refine inv_create h now ht ?_ he.2
      rintro _ _ ⟨j, r, hr, rfl, rfl⟩
      exact he.1 j r hr
  | patch i id active now =>
    simp only [step]
    split
    · exact h
    · rename_i row hrow
      exact inv_patch h now hrow fun hactive ↦ he hactive row hrow
  | send i since =>
    refine inv_send h i fun k b hb ↦ ?_
    cases since with
    | none => exact hb
    | some => exact flag_deltaSince hb
  | deliver i =>
    simp only [step]
    split
    · exact h
    · rename_i m hm
      exact inv_deliver h i (mem_of_getElem? hm)
  | persist i => exact inv_persist h i

end Invariant

/-! ## Runs -/

/-- In every orderly run, at all times, the column shows decisions about its own
operator only, and after convergence the last one. -/
theorem activation_follows_decisions {n : ℕ} {tables : Fin n → OperatorTable}
    (hagree : Agree tables) {es : List (Event n)}
    (horderly : Meets step Orderly (Cluster.start tables) es) :
    (run step (Cluster.start tables) es).Grounded ∧
      (run step (Cluster.start tables) es).Settles := by
  have hinv := horderly.invariant Inv (inv_start hagree) fun s e h he ↦ inv_step h e he
  exact ⟨hinv.grounded, hinv.settles⟩

/-! ### Traces -/

def newOperator (id : Fin 100) (name : String) : OperatorRow where
  id := id
  name := name
  role := "auditor"
  createdAt := "2026-01-01T00:00:00Z"
  active := true
  caId := ""
  id_range := by omega

/-- Two nodes give the number 1 to different operators.  Deactivating the one
deactivates the other. -/
def numbersClash : List (Event 2) :=
  [.create 0 (newOperator 1 "alice") 10, .create 1 (newOperator 1 "bob") 10,
   .patch 0 1 false 20, .send 0 none, .deliver 1 0, .persist 1]

/-- An operator is deactivated by mistake; the next write-back undoes the
correction. -/
def reactivated : List (Event 1) :=
  [.create 0 (newOperator 1 "alice") 10, .patch 0 1 false 20, .patch 0 1 true 30]

theorem activation_goes_astray :
    ¬ (run step (Cluster.start fun _ ↦ .empty) numbersClash).Grounded ∧
      ¬ (run step (Cluster.start fun _ ↦ .empty) reactivated).Settles := by
  constructor
  · unfold Cluster.Grounded
    decide +kernel
  · intro hsettles
    have hlast := hsettles (fun i j k ↦ by rw [Subsingleton.elim i j])
    revert hlast
    decide +kernel

def deactivatedElsewhere : List (Event 2) :=
  [.create 0 (newOperator 2 "alice") 10, .create 1 (newOperator 2 "alice") 15, .send 1 none,
   .deliver 0 0, .patch 0 2 false 20, .send 0 none, .deliver 1 0, .persist 1, .persist 0]

def rootOnly : OperatorTable := ⟨[newOperator 1 "root"], by simp⟩

theorem deactivated_everywhere :
    (run step (Cluster.start fun _ ↦ rootOnly) deactivatedElsewhere).Grounded ∧
      (run step (Cluster.start fun _ ↦ rootOnly) deactivatedElsewhere).Settles ∧
      ((run step (Cluster.start fun _ ↦ rootOnly) deactivatedElsewhere).node 1).table.rows.map
        OperatorRow.active = [true, false] := by
  have hagree : Agree fun _ : Fin 2 ↦ rootOnly := by
    unfold Agree
    decide
  have horderly : Meets step Orderly (Cluster.start fun _ ↦ rootOnly) deactivatedElsewhere := by
    decide +kernel
  obtain ⟨hgrounded, hsettles⟩ := activation_follows_decisions hagree horderly
  exact ⟨hgrounded, hsettles, by decide +kernel⟩

end Akamu.Operators
