import Akamu.Db.Effects
import Akamu.Node.Step

/-!
# Revocation and deactivation under write-back

The handlers never take back a revocation or a deactivation.  The write-back of
the replica does: the tombstone that the hooks set keeps the value the entry had
before, and `persist_crdt_acme` writes tombstoned entries like any other.
-/

namespace Akamu

open Crdt KeyedTable Machine Node

def Revoked (db : Db) (certId : String) (revokedAt : Int) (reason : Option Int) : Prop :=
  ∃ c, db.certificates.find? certId = some c ∧ c.status = .revoked ∧
    c.revokedAt = some revokedAt ∧ c.revocationReason = reason

def Deactivated (db : Db) (accountId : String) : Prop :=
  ∃ a, db.accounts.find? accountId = some a ∧ a.status = .deactivated

/-- Whatever the replica holds for a revoked certificate or a deactivated
account says the same. -/
structure KeepsFinal (db : Db) (crdt : AkaCrdt) : Prop where
  certificates : ∀ c ∈ db.certificates.rows, c.status = .revoked →
    ∀ e ∈ crdt.certificates.lookup c.id, e.value.status = "revoked" ∧
      e.value.revokedAt = c.revokedAt ∧ e.value.revocationReason = c.revocationReason
  accounts : ∀ a ∈ db.accounts.rows, a.status = .deactivated →
    ∀ e ∈ crdt.accounts.lookup a.id, e.value.status = "deactivated"

instance (db : Db) (crdt : AkaCrdt) : Decidable (KeepsFinal db crdt) :=
  decidable_of_iff (_ ∧ _) ⟨fun h ↦ ⟨h.1, h.2⟩, fun h ↦ ⟨h.1, h.2⟩⟩

def WritesBackFinal (s : Node) (e : Event) : Prop :=
  ∀ crdt ∈ s.writesBack e, KeepsFinal s.db crdt

instance (s : Node) (e : Event) : Decidable (WritesBackFinal s e) :=
  inferInstanceAs (Decidable (∀ crdt ∈ s.writesBack e, KeepsFinal s.db crdt))

variable {reason : Option Int} {certId accountId : String} {at' : Int}

section Step

variable {decodeNull : Except AcmeError String} {db db' : Db} {t : Txn} {o : Outcome}

theorem Txn.onCert_of_revoked (t : Txn) {c : CertificateRow} (h : c.status = .revoked) :
    (t.onCert c).id = c.id ∧ (t.onCert c).status = .revoked ∧
      (t.onCert c).revokedAt = c.revokedAt ∧
      (t.onCert c).revocationReason = c.revocationReason := by
  cases t with
  | finalize order cert now pred =>
    cases pred with
    | none => exact ⟨rfl, h, rfl, rfl⟩
    | some =>
      simp only [Txn.onCert]
      split <;> exact ⟨rfl, h, rfl, rfl⟩
  | revoke => simp [Txn.onCert, Certs.revocable, h]
  | _ => exact ⟨rfl, h, rfl, rfl⟩

theorem Txn.onAccount_of_deactivated (t : Txn) {a : AccountRow} (h : a.status = .deactivated) :
    (t.onAccount a).id = a.id ∧ (t.onAccount a).status = .deactivated := by
  cases t with
  | deactivateAccount =>
    simp only [Txn.onAccount]
    split
    · exact ⟨rfl, rfl⟩
    · exact ⟨rfl, h⟩
  | updateContact | updateKey | setProfileGrants => simp [Txn.onAccount, Accounts.isValid, h]
  | _ => exact ⟨rfl, h⟩

theorem revoked_of_persist {crdt : AkaCrdt} (hpersist : persistCrdtAcme db crdt = .ok db')
    (hkeeps : KeepsFinal db crdt) (h : Revoked db certId at' reason) :
    Revoked db' certId at' reason := by
  obtain ⟨c, hc, hstatus, hat, hreason⟩ := h
  obtain ⟨habsent, hwritten⟩ := cert_of_persist hpersist certId
  cases hlookup : crdt.certificates.lookup certId with
  | none => exact ⟨c, (habsent hlookup).trans hc, hstatus, hat, hreason⟩
  | some e =>
    have hid : c.id = certId := key_of_find? hc
    obtain ⟨hval, hvalAt, hvalReason⟩ :=
      hkeeps.certificates c (mem_of_find? hc) hstatus e (by rw [hid]; exact hlookup)
    have hnew := hwritten e hlookup
    rw [hc] at hnew
    obtain ⟨status, hstatus', hnew⟩ := hnew
    obtain rfl : CertStatus.revoked = status := by
      rw [hval] at hstatus'
      exact Option.some.inj hstatus'
    exact ⟨_, hnew, rfl, hvalAt.trans hat, hvalReason.trans hreason⟩

theorem deactivated_of_persist {crdt : AkaCrdt} (hpersist : persistCrdtAcme db crdt = .ok db')
    (hkeeps : ∀ a ∈ db.accounts.rows, a.status = .deactivated →
      ∀ e ∈ crdt.accounts.lookup a.id, e.value.status = "deactivated")
    (h : Deactivated db accountId) : Deactivated db' accountId := by
  obtain ⟨a, ha, hstatus⟩ := h
  obtain ⟨habsent, hwritten⟩ := account_of_persist hpersist accountId
  cases hlookup : crdt.accounts.lookup accountId with
  | none => exact ⟨a, (habsent hlookup).trans ha, hstatus⟩
  | some e =>
    have hid : a.id = accountId := key_of_find? ha
    have hval := hkeeps a (mem_of_find? ha) hstatus e
      (by rw [hid]; exact hlookup)
    obtain ⟨status, hstatus', hnew⟩ := hwritten e hlookup
    obtain rfl : AccountStatus.deactivated = status := by
      rw [hval] at hstatus'
      exact Option.some.inj hstatus'
    rw [ha] at hnew
    exact ⟨_, hnew, rfl⟩

theorem revoked_of_exec (hexec : exec decodeNull db t = .ok (db', o))
    (hkeeps : ∀ crdt, t = .persist crdt → KeepsFinal db crdt) (h : Revoked db certId at' reason) :
    Revoked db' certId at' reason := by
  rcases exec_cases hexec with ⟨crdt, rfl, hpersist⟩ | heffect
  · exact revoked_of_persist hpersist (hkeeps crdt rfl) h
  · obtain ⟨c, hc, hstatus, hat, hreason⟩ := h
    obtain ⟨hid, hstatus', hat', hreason'⟩ := t.onCert_of_revoked hstatus
    have hmem := mem_of_map_append heffect.certificates (mem_of_find? hc)
    exact ⟨t.onCert c, KeyedTable.find?_eq_some_iff.mpr
      ⟨hmem, hid.trans (key_of_find? hc)⟩, hstatus', hat'.trans hat,
      hreason'.trans hreason⟩

theorem deactivated_of_exec (hexec : exec decodeNull db t = .ok (db', o))
    (hkeeps : ∀ crdt, t = .persist crdt → ∀ a ∈ db.accounts.rows, a.status = .deactivated →
      ∀ e ∈ crdt.accounts.lookup a.id, e.value.status = "deactivated")
    (h : Deactivated db accountId) : Deactivated db' accountId := by
  rcases exec_cases hexec with ⟨crdt, rfl, hpersist⟩ | heffect
  · exact deactivated_of_persist hpersist (hkeeps crdt rfl) h
  · obtain ⟨a, ha, hstatus⟩ := h
    obtain ⟨hid, hstatus'⟩ := t.onAccount_of_deactivated hstatus
    have hmem := mem_of_map_append heffect.accounts (mem_of_find? ha)
    exact ⟨t.onAccount a, KeyedTable.find?_eq_some_iff.mpr
      ⟨hmem, hid.trans (key_of_find? ha)⟩, hstatus'⟩

theorem revoked_of_revoke {now : Int} {caId : Option String}
    (hexec : exec decodeNull db (.revoke certId reason now caId) = .ok (db', o))
    (hhit : o.hit = true) : Revoked db' certId now reason := by
  cases hexec
  have hcount : db.certificates.countWhere (Certs.revocable certId caId) ≠ 0 := by
    simpa [Certs.revoke] using hhit
  obtain ⟨c, hc, hrevocable⟩ := KeyedTable.countWhere_ne_zero_iff.mp hcount
  have hid : c.id = certId := by
    simp only [Certs.revocable, Bool.and_eq_true, beq_iff_eq] at hrevocable
    exact hrevocable.1.1
  refine ⟨{ c with status := .revoked, revokedAt := some now, revocationReason := reason },
    KeyedTable.find?_eq_some_iff.mpr ⟨?_, hid⟩, rfl, rfl, rfl⟩
  exact List.mem_map.mpr ⟨c, hc, if_pos hrevocable⟩

theorem deactivated_of_deactivate {id : String} {now : Int} {byOperator : Bool}
    (hexec : exec decodeNull db (.deactivateAccount id now byOperator) = .ok (db', o))
    (hhit : o.hit = true) : Deactivated db' id := by
  cases hexec
  have hcount : db.accounts.countWhere (fun a ↦ a.id == id) ≠ 0 := by
    simpa [Accounts.updateStatus] using hhit
  obtain ⟨a, ha, hid⟩ := KeyedTable.countWhere_ne_zero_iff.mp hcount
  refine ⟨{ a with status := .deactivated, updated := now },
    KeyedTable.find?_eq_some_iff.mpr ⟨?_, by simpa using hid⟩, rfl⟩
  exact List.mem_map.mpr ⟨a, ha, if_pos hid⟩

end Step

section Run

variable {env : Env} {s : Node} {e : Event}

theorem revoked_of_step (hok : WritesBackFinal s e) (h : Revoked s.db certId at' reason) :
    Revoked (Node.step env s e).1.db certId at' reason := by
  refine db_rule h fun t o db' hattempt hexec ↦ ?_
  exact revoked_of_exec hexec
    (fun crdt hcrdt ↦ hok crdt (Node.writesBack_eq_some.mpr (hcrdt ▸ hattempt))) h

theorem deactivated_of_step (hok : WritesBackFinal s e) (h : Deactivated s.db accountId) :
    Deactivated (Node.step env s e).1.db accountId := by
  refine db_rule h fun t o db' hattempt hexec ↦ ?_
  exact deactivated_of_exec hexec
    (fun crdt hcrdt ↦ (hok crdt (Node.writesBack_eq_some.mpr (hcrdt ▸ hattempt))).accounts) h

/-- From any state, after any interleaving whose write-backs meet the side
condition. -/
theorem final_states_permanent (env : Env) (s : Node) (e : Event) (fs : List Event)
    (hmeets : Meets (Node.step env) WritesBackFinal (Node.step env s e).1 fs) :
    (∀ certId reason now caId o,
        (Node.step env s e).2 = .committed (.revoke certId reason now caId) o → o.hit = true →
        Revoked (run (Node.step env) (Node.step env s e).1 fs).db certId now reason) ∧
      ∀ id now byOperator o,
        (Node.step env s e).2 = .committed (.deactivateAccount id now byOperator) o →
        o.hit = true → Deactivated (run (Node.step env) (Node.step env s e).1 fs).db id := by
  constructor
  · intro certId reason now caId o hout hhit
    exact hmeets.invariant (fun s ↦ Revoked s.db certId now reason)
      (revoked_of_revoke (Node.exec_of_committed hout).2.1 hhit)
      fun s e h hok ↦ revoked_of_step hok h
  · intro id now byOperator o hout hhit
    exact hmeets.invariant (fun s ↦ Deactivated s.db id)
      (deactivated_of_deactivate (Node.exec_of_committed hout).2.1 hhit)
      fun s e h hok ↦ deactivated_of_step hok h

end Run

/-! ## A node that takes its revocation back -/

def gossipEnv : Env := ⟨{ Config.plain with gossip := true }, Library.numbered⟩

def revoking : Node :=
  run (Node.step gossipEnv) (.boot gossipEnv 0)
    (accountEvents ++ orderEvents ++ validateEvents ++ finalizeEvents "1" 4 ++
      [.request (.revokeCert (some "acct-1") false "ca" "1" (some 1)) 5])

def deactivating : Node :=
  run (Node.step gossipEnv) (.boot gossipEnv 0)
    (accountEvents ++ [.request (.updateAccount "acct-1" true none) 5])

def commitNow : Event := .advance 0 5 Input.plain

def writeBackEvents : List Event := drain 2 5 ++ [.snapshot] ++ drain 1 6

theorem revocation_undone :
    ((Node.step gossipEnv revoking commitNow).2 =
        .committed (.revoke "cert-1" (some 1) 5 none) { hit := true } ∧
      ¬ Revoked (run (Node.step gossipEnv) (Node.step gossipEnv revoking commitNow).1
        writeBackEvents).db "cert-1" 5 (some 1)) ∧
      (Node.step gossipEnv deactivating commitNow).2 =
        .committed (.deactivateAccount "acct-1" 5 false) { hit := true } ∧
      ¬ Deactivated (run (Node.step gossipEnv) (Node.step gossipEnv deactivating commitNow).1
        writeBackEvents).db "acct-1" := by
  have hcert : ((run (Node.step gossipEnv) (Node.step gossipEnv revoking commitNow).1
      writeBackEvents).db.certificates.find? "cert-1").map (·.status) = some .valid := by
    decide +kernel
  have haccount : ((run (Node.step gossipEnv) (Node.step gossipEnv deactivating commitNow).1
      writeBackEvents).db.accounts.find? "acct-1").map (·.status) = some .valid := by
    decide +kernel
  refine ⟨⟨by decide +kernel, ?_⟩, by decide +kernel, ?_⟩
  · rintro ⟨c, hc, hstatus, -⟩
    simp [hc, hstatus] at hcert
  · rintro ⟨a, ha, hstatus⟩
    simp [ha, hstatus] at haccount

def restartEvents : List Event := [.restart 0 6, .snapshot] ++ drain 1 6

theorem revocation_survives_restart :
    Revoked (run (Node.step gossipEnv) (Node.step gossipEnv revoking commitNow).1
      restartEvents).db "cert-1" 5 (some 1) :=
  (final_states_permanent gossipEnv revoking commitNow restartEvents (by decide +kernel)).1
    "cert-1" (some 1) 5 none { hit := true } (by decide +kernel) rfl

end Akamu
