import Akamu.Db.Effects
import Akamu.Node.Step

/-!
# External account binding keys are used once

`mark_used` refuses a key that carries a `used_at`, so two concurrent requests
cannot both consume it.  The replica learns of a key when an operator creates
it and never of its use; its write-back therefore clears `used_at` again.
-/

namespace Akamu

open Crdt KeyedTable List Machine

def KeyUsed (db : Db) (kid : String) : Prop :=
  ∃ k, db.eabKeys.find? kid = some k ∧ k.usedAt.isSome = true

def KeepsUsed (db : Db) (crdt : AkaCrdt) : Prop :=
  ∀ k ∈ db.eabKeys.rows, k.usedAt.isSome = true →
    ∀ r ∈ crdt.eabKeys.lookup k.kid, ∀ v ∈ r.value, v.usedAt.isSome = true

instance (db : Db) (crdt : AkaCrdt) : Decidable (KeepsUsed db crdt) :=
  inferInstanceAs (Decidable (∀ k ∈ db.eabKeys.rows, k.usedAt.isSome = true →
    ∀ r ∈ crdt.eabKeys.lookup k.kid, ∀ v ∈ r.value, v.usedAt.isSome = true))

def Txn.deletedKid? : Txn → Option String
  | .deleteEab kid => some kid
  | _ => none

/-- The transaction takes no use of a key back: a write-back finds such a
replica, and no used key is deleted. -/
def SparesUsed (db : Db) (t : Txn) : Prop :=
  (∀ crdt ∈ t.snapshot?, KeepsUsed db crdt) ∧
    ∀ kid ∈ t.deletedKid?, ∀ k ∈ db.eabKeys.rows, k.kid = kid → k.usedAt = none

instance (db : Db) (t : Txn) : Decidable (SparesUsed db t) :=
  inferInstanceAs (Decidable ((∀ crdt ∈ t.snapshot?, KeepsUsed db crdt) ∧
    ∀ kid ∈ t.deletedKid?, ∀ k ∈ db.eabKeys.rows, k.kid = kid → k.usedAt = none))

def SparesUsedKeys (s : Node) (e : Event) : Prop := ∀ t ∈ s.attempt e, SparesUsed s.db t

instance (s : Node) (e : Event) : Decidable (SparesUsedKeys s e) :=
  inferInstanceAs (Decidable (∀ t ∈ s.attempt e, SparesUsed s.db t))

section Step

variable {decodeNull : Except AcmeError String} {db db' : Db} {t : Txn} {o : Outcome}
  {kid : String}

theorem Txn.onEabKey_of_used (t : Txn) {k : EabKeyRow} (h : k.usedAt.isSome = true) :
    t.onEabKey k = k := by
  cases t with
  | newAccount account eabKid =>
    cases eabKid with
    | none => rfl
    | some kid =>
      have hused : Eab.isUnused kid k = false := by
        cases hat : k.usedAt <;> simp_all [Eab.isUnused]
      simp [Txn.onEabKey, hused]
  | _ => rfl

variable {account : AccountRow} {now : Int}

theorem exists_unused_of_newAccount
    (hexec : exec decodeNull db (.newAccount account (some kid) now) = .ok (db', o)) :
    ∃ k ∈ db.eabKeys.rows, k.kid = kid ∧ k.usedAt = none := by
  obtain ⟨db₁, hexec, -⟩ := Except.map_eq_ok hexec
  obtain ⟨db₂, hinsert, hmark⟩ := Except.bind_eq_ok hexec
  obtain ⟨accounts, rfl, -⟩ := Accounts.insert_eq_ok hinsert
  simp only [Eab.markUsed] at hmark
  split at hmark
  · cases hmark
  · rename_i hcount
    obtain ⟨k, hk, hunused⟩ := KeyedTable.countWhere_ne_zero_iff.mp hcount
    refine ⟨k, hk, ?_⟩
    simpa [Eab.isUnused] using hunused

theorem keyUsed_of_newAccount
    (hexec : exec decodeNull db (.newAccount account (some kid) now) = .ok (db', o)) :
    KeyUsed db' kid := by
  obtain ⟨k, hk, hkid, hunused⟩ := exists_unused_of_newAccount hexec
  have heffect := effect_of_exec hexec fun crdt h ↦ by cases h
  refine ⟨{ k with usedAt := some now }, KeyedTable.find?_eq_some_iff.mpr ⟨?_, hkid⟩, rfl⟩
  rw [heffect.eabKeys]
  refine mem_append_left _ (mem_map.mpr ⟨k, mem_filter.mpr ⟨hk, rfl⟩, ?_⟩)
  exact if_pos (by simp [Eab.isUnused, hkid, hunused])

theorem not_newAccount_of_keyUsed (h : KeyUsed db kid) :
    exec decodeNull db (.newAccount account (some kid) now) ≠ .ok (db', o) := by
  intro hexec
  obtain ⟨k, hk, hkid, hunused⟩ := exists_unused_of_newAccount hexec
  obtain ⟨k', hk', hused⟩ := h
  have heq : k' = k := by
    rw [← hkid, find?_of_mem hk] at hk'
    exact (Option.some.inj hk').symm
  simp [heq, hunused] at hused

theorem keyUsed_of_persist {crdt : AkaCrdt} (hpersist : persistCrdtAcme db crdt = .ok db')
    (hkeeps : KeepsUsed db crdt) (h : KeyUsed db kid) : KeyUsed db' kid := by
  obtain ⟨k, hk, hused⟩ := h
  obtain ⟨habsent, hwritten⟩ := eabKey_of_persist hpersist kid
  cases hlookup : crdt.eabKeys.lookup kid with
  | none => exact ⟨k, (habsent hlookup).trans hk, hused⟩
  | some r =>
    have hnew := hwritten r hlookup
    unfold EabKeyWritten at hnew
    cases hvalue : r.value with
    | none =>
      rw [hvalue] at hnew
      exact ⟨k, hnew.trans hk, hused⟩
    | some v =>
      rw [hvalue, hk] at hnew
      refine ⟨_, hnew, ?_⟩
      exact hkeeps k (mem_of_find? hk) hused r
        (by rw [key_of_find? hk]; exact hlookup) v hvalue

theorem keyUsed_of_exec (hexec : exec decodeNull db t = .ok (db', o)) (hspares : SparesUsed db t)
    (h : KeyUsed db kid) : KeyUsed db' kid := by
  rcases exec_cases hexec with ⟨crdt, rfl, hpersist⟩ | heffect
  · exact keyUsed_of_persist hpersist (hspares.1 crdt rfl) h
  · obtain ⟨k, hk, hused⟩ := h
    have hkept : t.keepsEabKey k = true := by
      cases t with
      | deleteEab kid' =>
        have hne : k.kid ≠ kid' := by
          intro hkid
          simp [hspares.2 kid' rfl k (mem_of_find? hk) hkid] at hused
        simpa [Txn.keepsEabKey] using hne
      | _ => rfl
    refine ⟨k, KeyedTable.find?_eq_some_iff.mpr ⟨?_, key_of_find? hk⟩, hused⟩
    rw [heffect.eabKeys]
    exact mem_append_left _ (mem_map.mpr
      ⟨k, mem_filter.mpr ⟨mem_of_find? hk, hkept⟩, t.onEabKey_of_used hused⟩)

end Step

section Run

variable {env : Env} {s : Node} {e : Event} {kid : String}

theorem keyUsed_of_step (hok : SparesUsedKeys s e) (h : KeyUsed s.db kid) :
    KeyUsed (Node.step env s e).1.db kid := by
  exact Node.db_rule h fun t o db' hattempt hexec ↦ keyUsed_of_exec hexec (hok t hattempt) h

/-- Once an account has been created with a key, no later step creates another
one with it, whatever else happens in between. -/
theorem eabKey_consumed_once (env : Env) (s : Node) (e f : Event) (fs : List Event)
    (kid : String) (account account' : AccountRow) (now now' : Int) (o o' : Outcome)
    (hout : (Node.step env s e).2 = .committed (.newAccount account (some kid) now) o)
    (hmeets : Meets (Node.step env) SparesUsedKeys (Node.step env s e).1 fs) :
    (Node.step env (run (Node.step env) (Node.step env s e).1 fs) f).2 ≠
      .committed (.newAccount account' (some kid) now') o' := by
  have hused : KeyUsed (run (Node.step env) (Node.step env s e).1 fs).db kid :=
    hmeets.invariant (fun s ↦ KeyUsed s.db kid)
      (keyUsed_of_newAccount (Node.exec_of_committed hout).2.1)
      fun s e h hok ↦ keyUsed_of_step hok h
  intro hagain
  exact not_newAccount_of_keyUsed hused (Node.exec_of_committed hagain).2.1

end Run

/-! ## A key that is used twice -/

def eabEnv : Env :=
  ⟨{ Config.plain with gossip := true, externalAccountRequired := true }, Library.numbered⟩

def eabAccount (n : String) (now : Int) : Event :=
  .request (.newAccount ("acct-" ++ n) ("thumbprint-" ++ n) [1] none false
    (some { kid := "kid-1", verify := fun _ ↦ .ok () })) now

/-- An operator creates the key, and an account is about to be created with it. -/
def consuming : Node :=
  run (Node.step eabEnv) (.boot eabEnv 0)
    (.request (.postEab "kid-1" "key" none none false) 1 :: drain 3 1 ++ [eabAccount "1" 2])

def consume (now : Int) : Event := .advance 0 now Input.plain

def rowOfAccount (n : String) (now : Int) : AccountRow :=
  newAccountRow ("acct-" ++ n) ("thumbprint-" ++ n) [1] none none now

/-- The hook of the first account runs and the replica is written back; then the
second account asks for the same key. -/
def reuseEvents : List Event :=
  drain 2 2 ++ [.snapshot] ++ drain 1 3 ++ [eabAccount "2" 4]

theorem eabKey_consumed_twice :
    (Node.step eabEnv consuming (consume 2)).2 =
        .committed (.newAccount (rowOfAccount "1" 2) (some "kid-1") 2) { hit := true } ∧
      (Node.step eabEnv
          (run (Node.step eabEnv) (Node.step eabEnv consuming (consume 2)).1 reuseEvents)
          (consume 4)).2 =
        .committed (.newAccount (rowOfAccount "2" 4) (some "kid-1") 4) { hit := true } := by
  constructor <;> decide +kernel

/-- With a restart before the write-back the second request is refused. -/
theorem eabKey_refused_after_restart :
    (Node.step eabEnv
        (run (Node.step eabEnv) (Node.step eabEnv consuming (consume 2)).1
          ([.restart 0 3, .snapshot] ++ drain 1 3 ++ [eabAccount "2" 4])) (consume 4)).2 ≠
      .committed (.newAccount (rowOfAccount "2" 4) (some "kid-1") 4) { hit := true } :=
  eabKey_consumed_once eabEnv consuming (consume 2) (consume 4) _ "kid-1" (rowOfAccount "1" 2)
    _ 2 _ { hit := true } _ (by decide +kernel) (by decide +kernel)

end Akamu
