import Akamu.Crdt.AkaCrdt
import Akamu.Db.Transactions

/-!
# Write-path hooks

`crdt_hooks.rs` and the replica update at the end of `on_valid`.  A hook runs
after the commit it belongs to, under the replica's write lock.
-/

namespace Akamu

open Crdt

inductive Hook where
  | accountUpsert (row : AccountRow)
  | accountTombstone (id : String) (now : Int)
  | orderUpsert (entry : OrderEntry)
  | authzUpsert (entry : AuthzEntry)
  | challengeSet (entry : ChallengeEntry)
  | certUpsert (entry : CertEntry)
  | certTombstone (id : String) (now : Int)
  | eabKeySet (entry : EabKeyEntry)
  /-- The tail of `on_valid`, which edits the entries that are there. -/
  | validated (challengeId authzId orderId : String) (now : Int) (orderAdvanced : Bool)
  deriving DecidableEq, Repr

structure Replica where
  crdt : AkaCrdt
  gen : ℕ

namespace Replica

def setChallenge (r : Replica) (nodeId : String) (entry : ChallengeEntry) : Replica :=
  let s := r.crdt.challenges.set r.gen entry.challengeId entry entry.updated nodeId
  { crdt := { r.crdt with challenges := s.1 }, gen := s.2 }

def upsertAuthz (r : Replica) (entry : AuthzEntry) : Replica :=
  let s := r.crdt.authorizations.upsert r.gen entry.authzId entry entry.updated
  { crdt := { r.crdt with authorizations := s.1 }, gen := s.2 }

def upsertOrder (r : Replica) (entry : OrderEntry) : Replica :=
  let s := r.crdt.orders.upsert r.gen entry.orderId entry entry.updated
  { crdt := { r.crdt with orders := s.1 }, gen := s.2 }

def upsertAccount (r : Replica) (entry : AccountEntry) : Replica :=
  let s := r.crdt.accounts.upsert r.gen entry.accountId entry entry.updated
  { crdt := { r.crdt with accounts := s.1 }, gen := s.2 }

def upsertCert (r : Replica) (entry : CertEntry) : Replica :=
  let s := r.crdt.certificates.upsert r.gen entry.certId entry entry.created
  { crdt := { r.crdt with certificates := s.1 }, gen := s.2 }

def removeAccount (r : Replica) (id : String) (now : Int) : Replica :=
  let s := r.crdt.accounts.remove r.gen id now
  { crdt := { r.crdt with accounts := s.1 }, gen := s.2 }

def removeCert (r : Replica) (id : String) (now : Int) : Replica :=
  let s := r.crdt.certificates.remove r.gen id now
  { crdt := { r.crdt with certificates := s.1 }, gen := s.2 }

def setEabKey (r : Replica) (nodeId : String) (entry : EabKeyEntry) : Replica :=
  let s := r.crdt.eabKeys.set r.gen entry.kid entry (entry.usedAt.getD entry.created) nodeId
  { crdt := { r.crdt with eabKeys := s.1 }, gen := s.2 }

/-- The challenge part of the replica update after a validation.  The write
goes under the map's key, which is where the entry was found. -/
def validateChallenge (r : Replica) (nodeId challengeId : String) (now : Int) : Replica :=
  match r.crdt.challenges.get challengeId with
  | none => r
  | some ch =>
    let s := r.crdt.challenges.set r.gen challengeId
      { ch with status := "valid", validated := some now, updated := now } now nodeId
    { crdt := { r.crdt with challenges := s.1 }, gen := s.2 }

def validateAuthz (r : Replica) (authzId : String) (now : Int) : Replica :=
  match r.crdt.authorizations.get authzId with
  | none => r
  | some az =>
    let s := r.crdt.authorizations.upsert r.gen authzId
      { az with status := "valid", updated := now } now
    { crdt := { r.crdt with authorizations := s.1 }, gen := s.2 }

def readyOrder (r : Replica) (orderId : String) (now : Int) : Replica :=
  match r.crdt.orders.get orderId with
  | none => r
  | some ord =>
    let s := r.crdt.orders.upsert r.gen orderId
      { ord with status := "ready", error := none, updated := now } now
    { crdt := { r.crdt with orders := s.1 }, gen := s.2 }

def applyHook (nodeId : String) (r : Replica) : Hook → Replica
  | .accountUpsert row => r.upsertAccount (accountEntryOfRow row)
  | .accountTombstone id now => r.removeAccount id now
  | .orderUpsert entry => r.upsertOrder entry
  | .authzUpsert entry => r.upsertAuthz entry
  | .challengeSet entry => r.setChallenge nodeId entry
  | .certUpsert entry => r.upsertCert entry
  | .certTombstone id now => r.removeCert id now
  | .eabKeySet entry => r.setEabKey nodeId entry
  | .validated challengeId authzId orderId now orderAdvanced =>
    let r := (r.validateChallenge nodeId challengeId now).validateAuthz authzId now
    if orderAdvanced then r.readyOrder orderId now else r

def merge (r : Replica) (other : AkaCrdt) : Replica :=
  let s := r.crdt.merge r.gen other
  { crdt := s.1, gen := s.2 }

def purge (r : Replica) (cutoff : Int) : Replica :=
  { r with crdt := r.crdt.purgeOldTombstones cutoff }

end Replica

end Akamu
