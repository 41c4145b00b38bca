import Akamu.Node.Ledger
import Akamu.Orders.Lifecycle

/-!
# Expiry of orders and authorizations

`expires` is written when a row is created and read by the searches for an
authorization to reuse, by the reply to a challenge mail and by the upstream
loop.  Neither the answer to any other challenge nor `finalize_order` looks at
it, so that nothing but the clock keeps an expired order from being issued.  It
is a sum that wraps around.
-/

namespace Akamu

open Crdt Machine Node

/-- The age of a row, by a clock, is within its configured lifetime.  A lifetime
that ends after the last time of the clock ends before it begins. -/
def InLifetime (secs : UInt64) (created now : Int) : Prop :=
  now - created ≤ if created + secs.toNat < 2 ^ 63 then (secs.toNat : Int) else secs.toNat - 2 ^ 64

instance (secs : UInt64) (created now : Int) : Decidable (InLifetime secs created now) :=
  inferInstanceAs (Decidable (_ ≤ _))

theorem inLifetime_iff {secs : UInt64} {created now : Int} :
    InLifetime secs created now ↔ now ≤ addSecs created secs.toNat := by
  unfold InLifetime addSecs
  split <;> omega

namespace Node

/-- The order, unless it is delegated, and the authorizations listed for it are in
their lifetimes. -/
def OrderInLifetime (env : Env) (s : Node) (orderId : String) (now : Int) : Prop :=
  ∀ o ∈ s.db.orders.rows, o.id = orderId → o.delegationId = none →
    InLifetime env.config.orderExpirySecs o.created now ∧
    ∀ p ∈ s.log, ∀ q ∈ p.1.listed o.id, ∀ a ∈ s.db.authorizations.rows, a.id = q.2 →
      InLifetime env.config.authzExpirySecs a.created now

instance (env : Env) (s : Node) (orderId : String) (now : Int) :
    Decidable (s.OrderInLifetime env orderId now) :=
  inferInstanceAs (Decidable (∀ o ∈ s.db.orders.rows, _))

/-- The order's `expires` has not passed, nor that of an authorization listed for
it, and every identifier has one. -/
def OrderUnexpired (s : Node) (orderId : String) (now : Int) : Prop :=
  ∃ o ∈ s.db.orders.rows, o.id = orderId ∧ (o.delegationId = none →
    (∃ expires, o.expires = some expires ∧ now ≤ expires) ∧
    (∀ id ∈ o.identifiers, ∃ aid, s.Covers orderId id aid) ∧
    ∀ id aid, s.Covers orderId id aid → ∃ a ∈ s.db.authorizations.rows, a.id = aid ∧
      ∃ expires, a.expires = some expires ∧ now ≤ expires)

end Node

structure ExpirySound (env : Env) (s : Node) : Prop where
  sound : s.Sound env .nothing
  ledger : Ledger env s

section Step

variable {env : Env} {s : Node} {e : Event}

theorem ExpirySound.step (h : ExpirySound env s) (hok : WritesBackAgreeing s e) :
    ExpirySound env (Node.step env s e).1 where
  sound := h.sound.step (admits_nothing env s e) (extends_of_step hok.quiet) fun _ _ _ ↦ trivial
  ledger := h.ledger.step h.sound hok.quiet

/-- What is valid after a step was valid before it, or an `on_valid` has found its
challenge processing. -/
theorem ExpirySound.valid_cases (h : ExpirySound env s) (hok : WritesBackAgreeing s e)
    {a : AuthorizationRow} (ha : a ∈ (Node.step env s e).1.db.authorizations.rows)
    (hvalid : a.status = .valid) :
    (∃ a₀ ∈ s.db.authorizations.rows, a₀.id = a.id ∧ a₀.status = .valid) ∨
      ∃ a₀ ∈ s.db.authorizations.rows, ∃ job evidence now out,
        (Node.step env s e).2 = .committed (.onValid job evidence now) out ∧
        processing s.db job.challengeId = true ∧ a₀.id = job.authzId ∧ a₀.status ≠ .valid ∧
        a.id = a₀.id ∧ a.expires = a₀.expires := by
  rcases step_db env s e with ⟨hdb, -, -⟩ | ⟨t, out, hattempt, hout, hexec, -⟩
  · rw [hdb] at ha
    exact .inl ⟨a, ha, rfl, hvalid⟩
  · have hwrites := writes_of_exec hexec (hok.quiet t hattempt)
    rcases (hwrites.authorizations a).mp ha with ⟨a₀, ha₀, rfl⟩ | hnew
    · have hfixed := t.fixed_onAuthz s.db a₀
      have hid : (t.onAuthz s.db a₀).id = a₀.id := (congrArg AuthorizationRow.id hfixed :)
      by_cases hvalid₀ : a₀.status = .valid
      · exact .inl ⟨a₀, ha₀, hid.symm, hvalid₀⟩
      · rcases valid_onAuthz hvalid with hvalid' | ⟨job, evidence, now, rfl, hproc, hjob⟩
        · exact absurd hvalid' hvalid₀
        · exact .inr ⟨a₀, ha₀, job, evidence, now, out, hout, hproc, hjob, hvalid₀, hid,
            (congrArg AuthorizationRow.expires hfixed :)⟩
    · rw [((h.sound.attempt hattempt).plan_of_newAuthz hnew).1] at hvalid
      cases hvalid

/-- The sum stored in `expires` has not passed exactly within the lifetimes. -/
theorem ExpirySound.orderUnexpired_iff (h : ExpirySound env s) {orderId : String} {now : Int}
    {o : OrderRow} (ho : o ∈ s.db.orders.rows) (hid : o.id = orderId) :
    s.OrderUnexpired orderId now ↔ s.OrderInLifetime env orderId now := by
  constructor
  · rintro ⟨o₁, ho₁, hid₁, hunexpired⟩ o₂ ho₂ hid₂ hnone
    obtain rfl := s.db.orders.eq_of_mem_of_key_eq ho₁ ho₂ (hid₁.trans hid₂.symm)
    obtain ⟨⟨expires, hexpires, hle⟩, -, hauthzs⟩ := hunexpired hnone
    have hrow := h.ledger.order_expires h.sound ho₁
    refine ⟨?_, fun p hp q hq a ha haid ↦ ?_⟩
    · rw [inLifetime_iff]
      exact Option.some.inj (hexpires.symm.trans hrow) ▸ hle
    · rw [hid₁] at hq
      obtain ⟨a₁, ha₁, haid₁, expires, hexpires, hle⟩ := hauthzs q.1 q.2 ⟨p, hp, hq⟩
      obtain rfl := s.db.authorizations.eq_of_mem_of_key_eq ha₁ ha (haid₁.trans haid.symm)
      rw [inLifetime_iff]
      exact Option.some.inj (hexpires.symm.trans (h.ledger.authz_expires h.sound ha₁)) ▸ hle
  · intro hlife
    refine ⟨o, ho, hid, fun hnone ↦ ?_⟩
    obtain ⟨horder, hauthzs⟩ := hlife o ho hid hnone
    rw [← hid]
    refine ⟨⟨_, h.ledger.order_expires h.sound ho, inLifetime_iff.mp horder⟩,
      fun id hmem ↦ h.ledger.exists_covers h.sound ho hnone hmem, fun id aid hcovers ↦ ?_⟩
    obtain ⟨a, ha, haid⟩ := h.ledger.authz_of_covers h.sound hcovers
    obtain ⟨p, hp, hlisted⟩ := hcovers
    exact ⟨a, ha, haid, _, h.ledger.authz_expires h.sound ha,
      inLifetime_iff.mp (hauthzs p hp _ hlisted a ha haid)⟩

theorem ExpirySound.valid_iff (h : ExpirySound env s) (hok : WritesBackAgreeing s e) :
    (∀ a ∈ (Node.step env s e).1.db.authorizations.rows, a.status = .valid →
      (∃ a₀ ∈ s.db.authorizations.rows, a₀.id = a.id ∧ a₀.status = .valid) ∨
      ∃ job evidence now out, (Node.step env s e).2 = .committed (.onValid job evidence now) out ∧
        job.authzId = a.id ∧ ∃ expires, a.expires = some expires ∧ now ≤ expires) ↔
    ∀ job evidence now out, (Node.step env s e).2 = .committed (.onValid job evidence now) out →
      processing s.db job.challengeId = true → ∀ a ∈ s.db.authorizations.rows, a.id = job.authzId →
        a.status ≠ .valid → InLifetime env.config.authzExpirySecs a.created now := by
  constructor
  · intro hall job evidence now out hout hproc a ha hid hinvalid
    obtain ⟨hattempt, hexec, -⟩ := exec_of_committed hout
    have hmem := ((writes_of_exec hexec (hok.quiet _ hattempt)).authorizations _).mpr
      (.inl ⟨a, ha, rfl⟩)
    have hfixed := (Txn.onValid job evidence now).fixed_onAuthz s.db a
    have hid' : ((Txn.onValid job evidence now).onAuthz s.db a).id = a.id :=
      (congrArg AuthorizationRow.id hfixed :)
    have hexpires' : ((Txn.onValid job evidence now).onAuthz s.db a).expires = a.expires :=
      (congrArg AuthorizationRow.expires hfixed :)
    rcases hall _ hmem (by simp [Txn.onAuthz, hproc, hid]) with ⟨a₀, ha₀, hid₀, hvalid₀⟩ |
      ⟨job', evidence', now', out', hout', -, expires, hexpires, hle⟩
    · obtain rfl := s.db.authorizations.eq_of_mem_of_key_eq ha₀ ha (hid₀.trans hid')
      exact absurd hvalid₀ hinvalid
    · rw [hout] at hout'
      cases hout'
      rw [inLifetime_iff]
      exact Option.some.inj (hexpires.symm.trans
        (hexpires'.trans (h.ledger.authz_expires h.sound ha))) ▸ hle
  · intro hlife a ha hvalid
    refine (h.valid_cases hok ha hvalid).imp_right ?_
    rintro ⟨a₀, ha₀, job, evidence, now, out, hout, hproc, hid, hinvalid, hsame, hexpires⟩
    refine ⟨job, evidence, now, out, hout, hid.symm.trans hsame.symm, _,
      hexpires.trans (h.ledger.authz_expires h.sound ha₀), ?_⟩
    exact inLifetime_iff.mp (hlife job evidence now out hout hproc a₀ ha₀ hid hinvalid)

end Step

/-- The order and its authorization expire at 102; the certificate is issued at
1000. -/
def lateFinalizeEvents : List Event :=
  accountEvents ++ orderEvents ++ validateEvents ++ finalizeEvents "1" 1000

def lateValidateEvents : List Event :=
  accountEvents ++ orderEvents ++
    .request (.respondChallenge "acct-1" "ca" "authz-1-0" .http01 (.ok ())) 1000 :: drain 7 1000

def timelyEvents : List Event :=
  accountEvents ++ orderEvents ++ validateEvents ++ (finalizeEvents "1" 4).take 4

end Akamu
