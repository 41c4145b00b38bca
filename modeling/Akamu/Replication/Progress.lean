import Akamu.Crdt.Hooks
import Akamu.Db.Effects
import Akamu.Lib.Mirror

/-!
# What the replica says about a row

The columns of orders, authorizations and challenges that the write-back
assigns, apart from the time of the last update.  A replica that describes them
correctly can be written back without effect.
-/

namespace Akamu

open Crdt KeyedTable Option OrMap

structure OrderProgress where
  status : OrderStatus
  error : Option String
  certificateId : Option String
  expires : Option Int
  deriving DecidableEq

structure AuthzProgress where
  status : AuthzStatus
  expires : Option Int
  deriving DecidableEq

structure ChallengeProgress where
  status : ChallengeStatus
  validated : Option Int
  error : Option String
  deriving DecidableEq

def OrderRow.progress (o : OrderRow) : OrderProgress :=
  ⟨o.status, o.error, o.certificateId, o.expires⟩

def AuthorizationRow.progress (a : AuthorizationRow) : AuthzProgress := ⟨a.status, a.expires⟩

def ChallengeRow.progress (c : ChallengeRow) : ChallengeProgress :=
  ⟨c.status, c.validated, c.error⟩

namespace Db

def orderProgress (db : Db) (k : String) : Option OrderProgress :=
  (db.orders.find? k).map OrderRow.progress

def authzProgress (db : Db) (k : String) : Option AuthzProgress :=
  (db.authorizations.find? k).map AuthorizationRow.progress

def challengeProgress (db : Db) (k : String) : Option ChallengeProgress :=
  (db.challenges.find? k).map ChallengeRow.progress

end Db

def orderSays (v : OrderEntry) (p : OrderProgress) : Prop :=
  v.status = p.status.asStr ∧ v.error = p.error ∧ v.certificateId = p.certificateId ∧
    v.expires = p.expires

def authzSays (v : AuthzEntry) (p : AuthzProgress) : Prop :=
  v.status = p.status.asStr ∧ v.expires = p.expires

def challengeSays (v : ChallengeEntry) (p : ChallengeProgress) : Prop :=
  v.status = p.status.asStr ∧ v.validated = p.validated ∧ v.error = p.error

theorem orderSays_ofRow (o : OrderRow) : orderSays (orderEntryOfRow o) o.progress :=
  ⟨rfl, rfl, rfl, rfl⟩

theorem authzSays_ofRow (a : AuthorizationRow) : authzSays (authzEntryOfRow a) a.progress :=
  ⟨rfl, rfl⟩

theorem challengeSays_ofRow (c : ChallengeRow) : challengeSays (challengeEntryOfRow c) c.progress :=
  ⟨rfl, rfl, rfl⟩

/-- The replica describes the database, except at the outstanding rows. -/
structure Reflects (db : Db) (crdt : AkaCrdt) (order authz challenge : String → Prop) : Prop where
  orders : Mirrors (fun e ↦ orderSays e.value) db.orderProgress crdt.orders.lookup order
  authorizations :
    Mirrors (fun e ↦ authzSays e.value) db.authzProgress crdt.authorizations.lookup authz
  challenges : Mirrors (fun r p ↦ ∀ v ∈ r.value, challengeSays v p) db.challengeProgress
    crdt.challenges.lookup challenge

def nowhere : String → Prop := fun _ ↦ False

/-! ## Writing it back -/

section WriteBack

variable {db db' : Db} {crdt : AkaCrdt}

variable (h : Reflects db crdt nowhere nowhere nowhere)
  (hpersist : persistCrdtAcme db crdt = .ok db')

include h hpersist

theorem Reflects.order_of_persist (k : String) :
    (db'.orders.find? k).map (fun o ↦ { o with updated := 0 }) =
      (db.orders.find? k).map fun o ↦ { o with updated := 0 } := by
  obtain ⟨habsent, hwritten⟩ := Akamu.order_of_persist hpersist k
  cases hlookup : crdt.orders.lookup k with
  | none => rw [habsent hlookup]
  | some e =>
    obtain ⟨p, hp, hstatus, herror, hcert, hexpires⟩ := h.orders.settled not_false hlookup
    obtain ⟨o, ho, rfl⟩ := map_eq_some_iff.mp hp
    obtain ⟨status, hparsed, hnew⟩ := hwritten e hlookup
    rw [hstatus] at hparsed
    obtain rfl : o.status = status := by simpa [OrderRow.progress] using hparsed
    rw [hnew, ho]
    simp [assignOrder, herror, hcert, hexpires, OrderRow.progress]

theorem Reflects.authz_of_persist (k : String) :
    (db'.authorizations.find? k).map (fun a ↦ { a with updated := 0 }) =
      (db.authorizations.find? k).map fun a ↦ { a with updated := 0 } := by
  obtain ⟨habsent, hwritten⟩ := Akamu.authz_of_persist hpersist k
  cases hlookup : crdt.authorizations.lookup k with
  | none => rw [habsent hlookup]
  | some e =>
    obtain ⟨p, hp, hstatus, hexpires⟩ := h.authorizations.settled not_false hlookup
    obtain ⟨a, ha, rfl⟩ := map_eq_some_iff.mp hp
    obtain ⟨status, hparsed, hnew⟩ := hwritten e hlookup
    rw [hstatus] at hparsed
    obtain rfl : a.status = status := by simpa [AuthorizationRow.progress] using hparsed
    rw [hnew, ha]
    simp [assignAuthz, hexpires, AuthorizationRow.progress]

theorem Reflects.challenge_of_persist (k : String) :
    (db'.challenges.find? k).map (fun c ↦ { c with updated := 0 }) =
      (db.challenges.find? k).map fun c ↦ { c with updated := 0 } := by
  obtain ⟨habsent, hwritten⟩ := Akamu.challenge_of_persist hpersist k
  cases hlookup : crdt.challenges.lookup k with
  | none => rw [habsent hlookup]
  | some e =>
    obtain ⟨p, hp, hshown⟩ := h.challenges.settled not_false hlookup
    obtain ⟨c, hc, rfl⟩ := map_eq_some_iff.mp hp
    have hnew := hwritten e hlookup
    unfold ChallengeWritten at hnew
    cases hvalue : e.value with
    | none =>
      rw [hvalue] at hnew
      rw [hnew]
    | some v =>
      rw [hvalue] at hnew
      obtain ⟨status, hparsed, hnew⟩ := hnew
      obtain ⟨hstatus, hvalidated, herror⟩ := hshown v hvalue
      rw [hstatus] at hparsed
      obtain rfl : c.status = status := by simpa [ChallengeRow.progress] using hparsed
      rw [hnew, hc]
      simp [assignChallenge, hvalidated, herror, ChallengeRow.progress]

end WriteBack

/-! ## Loading it -/

variable {db : Db}

theorem reflects_of_load {decodeNull : Except AcmeError String} {nodeId : String} {crdt : AkaCrdt}
    (h : loadFromDb decodeNull nodeId db = .ok crdt) :
    Reflects db crdt nowhere nowhere nowhere := by
  obtain ⟨authzRows, hdecode, h⟩ := Except.bind_eq_ok h
  cases h
  refine ⟨fun k e he ↦ ?_, fun k e he ↦ ?_, fun k e he ↦ ?_⟩
  · obtain ⟨o, ho, heq⟩ := mem_of_lookup_load he
    obtain ⟨rfl, rfl⟩ := Prod.mk.inj heq
    exact ⟨o.progress, by simp [Db.orderProgress, find?_of_mem ho],
      .inr (orderSays_ofRow o)⟩
  · obtain ⟨a', ha', heq⟩ := mem_of_lookup_load he
    obtain ⟨rfl, rfl⟩ := Prod.mk.inj heq
    obtain ⟨a, ha, hrow⟩ := Except.exists_of_mem_mapM hdecode ha'
    -- decoding fills in the order id and nothing else
    have hsame : a'.id = a.id ∧ a'.progress = a.progress := by
      unfold Authz.decode at hrow
      split at hrow
      · cases hrow
        exact ⟨rfl, rfl⟩
      · obtain ⟨oid, -, rfl⟩ := Except.map_eq_ok hrow
        exact ⟨rfl, rfl⟩
    refine ⟨a'.progress, ?_, .inr (authzSays_ofRow a')⟩
    rw [hsame.1, hsame.2]
    simp [Db.authzProgress, find?_of_mem ha]
  · obtain ⟨c, hc, heq⟩ := LwwMap.mem_of_lookup_load he
    obtain ⟨rfl, rfl⟩ := Prod.mk.inj heq
    refine ⟨c.progress, by simp [Db.challengeProgress, find?_of_mem hc], .inr ?_⟩
    intro v hv
    cases hv
    exact challengeSays_ofRow c

/-! ## Hooks -/

namespace Hook

def touchesOrder (k : String) : Hook → Bool
  | .orderUpsert entry => entry.orderId == k
  | .validated _ _ orderId _ orderAdvanced => orderAdvanced && orderId == k
  | _ => false

def touchesAuthz (k : String) : Hook → Bool
  | .authzUpsert entry => entry.authzId == k
  | .validated _ authzId _ _ _ => authzId == k
  | _ => false

def touchesChallenge (k : String) : Hook → Bool
  | .challengeSet entry => entry.challengeId == k
  | .validated challengeId _ _ _ _ => challengeId == k
  | _ => false

def lands (nodeId : String) (crdt : AkaCrdt) : Hook → Bool
  | .challengeSet entry =>
    ((crdt.challenges.lookup entry.challengeId).getD default).wins entry.updated nodeId
  | .validated challengeId _ _ now _ =>
    (crdt.challenges.lookup challengeId).all fun r ↦ r.wins now nodeId
  | _ => true

/-- What the hook is about to write is what the database says.  The update after
a validation keeps the columns it does not set, so that the entries it finds have
to agree in those, and it skips entries that are tombstoned. -/
def Fits (db : Db) (crdt : AkaCrdt) : Hook → Prop
  | .orderUpsert entry => ∃ p, db.orderProgress entry.orderId = some p ∧ orderSays entry p
  | .authzUpsert entry => ∃ p, db.authzProgress entry.authzId = some p ∧ authzSays entry p
  | .challengeSet entry =>
    ∃ p, db.challengeProgress entry.challengeId = some p ∧ challengeSays entry p
  | .validated challengeId authzId orderId now orderAdvanced =>
    (∃ p, db.challengeProgress challengeId = some p ∧ p.status = .valid ∧
      p.validated = some now ∧ ∀ r ∈ crdt.challenges.lookup challengeId, ∀ v ∈ r.value,
        v.error = p.error) ∧
    (∃ p, db.authzProgress authzId = some p ∧ p.status = .valid ∧
      ∀ e ∈ crdt.authorizations.lookup authzId, e.tombstone = false ∧
        e.value.expires = p.expires) ∧
    (orderAdvanced = true → ∃ p, db.orderProgress orderId = some p ∧ p.status = .ready ∧
      p.error = none ∧ ∀ e ∈ crdt.orders.lookup orderId, e.tombstone = false ∧
        e.value.certificateId = p.certificateId ∧ e.value.expires = p.expires)
  | _ => True

end Hook

namespace Replica

variable {nodeId : String} {r : Replica} {h : Hook} {k : String}

@[simp] theorem orders_validateChallenge (r : Replica) (nodeId cid : String) (now : Int) :
    (r.validateChallenge nodeId cid now).crdt.orders = r.crdt.orders := by
  unfold validateChallenge
  split <;> rfl

@[simp] theorem authorizations_validateChallenge (r : Replica) (nodeId cid : String) (now : Int) :
    (r.validateChallenge nodeId cid now).crdt.authorizations = r.crdt.authorizations := by
  unfold validateChallenge
  split <;> rfl

@[simp] theorem orders_validateAuthz (r : Replica) (aid : String) (now : Int) :
    (r.validateAuthz aid now).crdt.orders = r.crdt.orders := by
  unfold validateAuthz
  split <;> rfl

@[simp] theorem challenges_validateAuthz (r : Replica) (aid : String) (now : Int) :
    (r.validateAuthz aid now).crdt.challenges = r.crdt.challenges := by
  unfold validateAuthz
  split <;> rfl

@[simp] theorem authorizations_readyOrder (r : Replica) (oid : String) (now : Int) :
    (r.readyOrder oid now).crdt.authorizations = r.crdt.authorizations := by
  unfold readyOrder
  split <;> rfl

@[simp] theorem challenges_readyOrder (r : Replica) (oid : String) (now : Int) :
    (r.readyOrder oid now).crdt.challenges = r.crdt.challenges := by
  unfold readyOrder
  split <;> rfl

theorem orders_readyOrder (r : Replica) (oid : String) (now : Int) :
    (r.readyOrder oid now).crdt.orders = (r.crdt.orders.get oid).elim r.crdt.orders fun v ↦
      (r.crdt.orders.upsert r.gen oid { v with status := "ready", error := none, updated := now }
        now).1 := by
  unfold readyOrder
  cases r.crdt.orders.get oid <;> rfl

theorem authorizations_validateAuthz (r : Replica) (aid : String) (now : Int) :
    (r.validateAuthz aid now).crdt.authorizations =
      (r.crdt.authorizations.get aid).elim r.crdt.authorizations fun v ↦
        (r.crdt.authorizations.upsert r.gen aid { v with status := "valid", updated := now } now).1 := by
  unfold validateAuthz
  cases r.crdt.authorizations.get aid <;> rfl

variable {e : LwwRegister ChallengeEntry} {now : Int}

/-- What is found afterwards under the key that a validation edits: what was
there, if it was not set, or the edited entry. -/
theorem lookup_validateChallenge {cid : String}
    (hlands : (r.crdt.challenges.lookup cid).all (fun e ↦ e.wins now nodeId) = true)
    (h : (r.validateChallenge nodeId cid now).crdt.challenges.lookup k = some e) :
    (r.crdt.challenges.lookup k = some e ∧ (cid = k → e.value = none)) ∨
      cid = k ∧ ∃ e₀ v₀, r.crdt.challenges.lookup k = some e₀ ∧ e₀.value = some v₀ ∧
        e.value = some { v₀ with status := "valid", validated := some now, updated := now } := by
  unfold validateChallenge at h
  split at h
  · rename_i hget
    refine .inl ⟨h, ?_⟩
    rintro rfl
    simpa [LwwMap.get, h] using hget
  · rename_i ch hget
    obtain ⟨e₀, he₀, hvalue⟩ := bind_eq_some_iff.mp hget
    rw [LwwMap.lookup_set] at h
    split at h
    · rename_i hkey
      have hwins : e₀.wins now nodeId = true := by simpa [he₀] using hlands
      simp only [he₀, getD_some, LwwRegister.set, hwins, if_true] at h
      cases h
      exact .inr ⟨hkey, e₀, ch, hkey ▸ he₀, hvalue, rfl⟩
    · exact .inl ⟨h, fun hkey ↦ absurd hkey ‹_›⟩

theorem applyHook_orders (hfits : h.Fits db r.crdt) {e : OrMapEntry OrderEntry}
    (he : (r.applyHook nodeId h).crdt.orders.lookup k = some e) :
    (h.touchesOrder k = false ∧ r.crdt.orders.lookup k = some e) ∨
      e.tombstone = false ∧ ∃ p, db.orderProgress k = some p ∧ orderSays e.value p := by
  cases h with
  | orderUpsert =>
    simp only [applyHook, upsertOrder, lookup_upsert] at he
    split at he
    · rename_i hkey
      cases he
      exact .inr ⟨rfl, hkey ▸ hfits⟩
    · exact .inl ⟨by simpa [Hook.touchesOrder], he⟩
  | validated cid aid oid now adv =>
    cases adv with
    | false => exact .inl ⟨rfl, by simpa [applyHook] using he⟩
    | true =>
      obtain ⟨p, hp, hstatus, herror, hentry⟩ := hfits.2.2 rfl
      simp only [applyHook, if_true, orders_readyOrder, orders_validateAuthz,
        orders_validateChallenge] at he
      rcases lookup_edit _ _ (fun e he ↦ (hentry e he).1) he with
        ⟨hkey, hold⟩ | ⟨rfl, htomb, e₀, he₀, hvalue⟩
      · exact .inl ⟨by simpa [Hook.touchesOrder] using hkey, hold⟩
      · obtain ⟨-, hcert, hexpires⟩ := hentry e₀ he₀
        refine .inr ⟨htomb, p, hp, ?_⟩
        rw [hvalue]
        exact ⟨by rw [hstatus]; rfl, herror.symm, hcert, hexpires⟩
  | _ => exact .inl ⟨rfl, he⟩

theorem applyHook_authorizations (hfits : h.Fits db r.crdt) {e : OrMapEntry AuthzEntry}
    (he : (r.applyHook nodeId h).crdt.authorizations.lookup k = some e) :
    (h.touchesAuthz k = false ∧ r.crdt.authorizations.lookup k = some e) ∨
      e.tombstone = false ∧ ∃ p, db.authzProgress k = some p ∧ authzSays e.value p := by
  cases h with
  | authzUpsert =>
    simp only [applyHook, upsertAuthz, lookup_upsert] at he
    split at he
    · rename_i hkey
      cases he
      exact .inr ⟨rfl, hkey ▸ hfits⟩
    · exact .inl ⟨by simpa [Hook.touchesAuthz], he⟩
  | validated cid aid oid now adv =>
    obtain ⟨p, hp, hstatus, hentry⟩ := hfits.2.1
    have he' : ((r.validateChallenge nodeId cid now).validateAuthz aid
        now).crdt.authorizations.lookup k = some e := by
      cases adv <;> simpa [applyHook] using he
    rw [authorizations_validateAuthz, authorizations_validateChallenge] at he'
    rcases lookup_edit _ _ (fun e he ↦ (hentry e he).1) he' with
      ⟨hkey, hold⟩ | ⟨rfl, htomb, e₀, he₀, hvalue⟩
    · exact .inl ⟨by simpa [Hook.touchesAuthz] using hkey, hold⟩
    · refine .inr ⟨htomb, p, hp, ?_⟩
      rw [hvalue]
      exact ⟨by rw [hstatus]; rfl, (hentry e₀ he₀).2⟩
  | _ => exact .inl ⟨rfl, he⟩

theorem applyHook_challenges (hfits : h.Fits db r.crdt) (hlands : h.lands nodeId r.crdt = true)
    (he : (r.applyHook nodeId h).crdt.challenges.lookup k = some e) :
    (h.touchesChallenge k = false ∧ r.crdt.challenges.lookup k = some e) ∨
      ∃ p, db.challengeProgress k = some p ∧ ∀ v ∈ e.value, challengeSays v p := by
  cases h with
  | challengeSet =>
    simp only [applyHook, setChallenge, LwwMap.lookup_set] at he
    split at he
    · rename_i hkey
      simp only [Hook.lands] at hlands
      simp only [LwwRegister.set, hlands, if_true] at he
      cases he
      obtain ⟨p, hp, hshown⟩ := hfits
      refine .inr ⟨p, hkey ▸ hp, ?_⟩
      rintro v hv
      cases hv
      exact hshown
    · exact .inl ⟨by simpa [Hook.touchesChallenge], he⟩
  | validated cid aid oid now adv =>
    obtain ⟨p, hp, hstatus, hvalidated, hentry⟩ := hfits.1
    have he' : (r.validateChallenge nodeId cid now).crdt.challenges.lookup k = some e := by
      cases adv <;> simpa [applyHook] using he
    rcases lookup_validateChallenge hlands he' with
      ⟨hold, hnone⟩ | ⟨rfl, e₀, v₀, he₀, hv₀, hvalue⟩
    · by_cases hkey : cid = k
      · exact .inr ⟨p, hkey ▸ hp, by simp [hnone hkey]⟩
      · exact .inl ⟨by simpa [Hook.touchesChallenge] using hkey, hold⟩
    · refine .inr ⟨p, hp, fun v hv ↦ ?_⟩
      rw [hvalue] at hv
      cases hv
      exact ⟨by rw [hstatus]; rfl, hvalidated.symm, hentry e₀ he₀ v₀ hv₀⟩
  | _ => exact .inl ⟨rfl, he⟩

end Replica

end Akamu
