import Akamu.Orders.Wildcard

/-!
# Orders, authorizations and challenges

What no foreign key says: rows that belong together agree, and a status is
backed by the rows below it, however handlers and background loops interleave.
-/

namespace Akamu

open Machine

structure Db.Linked (env : Env) (db : Db) : Prop where
  challenge : ∀ c ∈ db.challenges.rows, ∃ a ∈ db.authorizations.rows,
    a.id = c.authzId ∧ c.type ∈ eligibleChallengeTypes env.config a.identifier
  order : ∀ a ∈ db.authorizations.rows, ∀ oid ∈ a.orderId, ∃ o ∈ db.orders.rows,
    o.id = oid ∧ o.accountId = a.accountId ∧ o.caId = a.caId
  met : ∀ a ∈ db.authorizations.rows, a.status = .valid → ∃ c ∈ db.challenges.rows,
    c.authzId = a.id ∧ c.status = .valid
  ready : ∀ o ∈ db.orders.rows, o.delegationId = none → o.status.authorized →
    ∀ a ∈ db.authorizations.rows, a.orderId = some o.id → a.status = .valid

variable {env : Env} {H : Assumed} {s : Node}

theorem Ledger.order_of_authz {a : AuthorizationRow} {oid : String} (h : Ledger env s)
    (hsound : s.Sound env H) (ha : a ∈ s.db.authorizations.rows) (hoid : a.orderId = some oid) :
    ∃ o ∈ s.db.orders.rows, o.id = oid ∧ o.accountId = a.accountId ∧ o.caId = a.caId := by
  obtain ⟨plan, hfixed, ⟨out, hlog⟩ | ⟨order, plans, covered, ⟨out, hlog⟩, hplan⟩⟩ := h.authz a ha
  all_goals simp only [AuthorizationRow.fixed, AuthorizationRow.mk.injEq] at hfixed
  · have hnone : plan.authz.orderId = none := (hsound.log _ hlog).2
    simp_all
  · obtain ⟨-, horder, haccount, hca⟩ := (hsound.log _ hlog).plans plan hplan
    obtain ⟨o, ho, hofixed⟩ := (h.created order plans covered ⟨out, hlog⟩).1
    simp only [OrderRow.fixed, OrderRow.mk.injEq] at hofixed
    refine ⟨o, ho, ?_⟩
    simp_all

theorem Ledger.linked (h : Ledger env s) (hsound : s.Sound env H) : s.db.Linked env where
  challenge := h.challenge
  order a ha oid := h.order_of_authz hsound ha
  met a ha hvalid := by
    obtain ⟨job, evidence, hvalidates⟩ := h.validated a ha hvalid
    obtain ⟨c, hc, hauthz, hcvalid, -⟩ := challenge_of_validates h hsound hvalidates
    exact ⟨c, hc, hauthz, hcvalid⟩
  ready := h.ready

/-- In every run without gossip a challenge is of a type the server offers for
its authorization, an authorization belongs to an order of its account and CA and
is valid only with a valid challenge, and an order is ready, processing or valid
only with valid authorizations. -/
theorem rows_linked (hgossip : env.config.gossip = false) (now : Int) (es : List Event) :
    (run (Node.step env) (.boot env now) es).db.Linked env := by
  have hrun : Node.Sound env .nothing (run (Node.step env) (.boot env now) es) ∧
      Ledger env (run (Node.step env) (.boot env now) es) := by
    refine (meets_true _ es).invariant (fun s ↦ Node.Sound env .nothing s ∧ Ledger env s)
      ⟨Node.sound_boot env .nothing now, ledger_boot env now⟩ fun s e h _ ↦ ?_
    have hquiet : ∀ t ∈ s.attempt e, Quiet s.db t := quiet_of_attempt h.1 hgossip
    exact ⟨h.1.step (admits_nothing env s e) (extends_of_step hquiet) fun _ _ _ ↦ trivial,
      h.2.step h.1 hquiet⟩
  exact hrun.2.linked hrun.1

theorem validated_rows_linked : (run (Node.step plainEnv) (.boot plainEnv 0)
    (accountEvents ++ orderEvents ++ validateEvents)).db.Linked plainEnv :=
  rows_linked rfl 0 _

end Akamu
