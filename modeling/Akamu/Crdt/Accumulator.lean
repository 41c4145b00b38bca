import Akamu.Crdt.LocalOps

/-!
# Merging through an accumulator

The gossip loop merges the states of its peers into an empty `AkaCrdt` first, and
that one into its own state, under the lock only once.
-/

namespace Akamu.Crdt

/-- Never written, or at a positive time. -/
def LwwRegister.Positive {T : Type} (r : LwwRegister T) : Prop :=
  r.content = (default : LwwRegister T).content ∨ 0 < r.timestamp

theorem LwwRegister.Positive.fit {T : Type} {r : LwwRegister T} (h : r.Positive) :
    Stamp.at 0 "" ≤ r.content.stamp ∧ (r.content.Unset → r.content.stamp = .at 0 "") := by
  rcases h with h | h
  · rw [h]
    exact ⟨le_rfl, fun _ ↦ rfl⟩
  · refine ⟨(Stamp.at_lt_at.mpr (.inl h)).le, fun ⟨_, n, hstamp⟩ ↦ ?_⟩
    exact absurd (Stamp.at_inj.mp hstamp).1 h.ne'

namespace ClusterCrdt

structure Positive (c : ClusterCrdt) : Prop where
  or : ∀ f key e, (c.orMap f).lookup key = some e → 0 < e.addedAt
  lww : ∀ f key, ((c.lwwMap f).register key).Positive
  writer : c.mtcWriter.Positive

variable {a b c : ClusterCrdt} {peers : List ClusterCrdt}

theorem Positive.fit (h : c.Positive) : c.Fit := by
  intro x
  cases x with
  | or f key => exact ⟨bot_le, fun hunset ↦ absurd hunset ((c.orMap f).not_unset key)⟩
  | lww f key => exact (h.lww f key).fit
  | writer => exact h.writer.fit

/-- `combined` after the loop over the peers, and where the counter is then. -/
def mergeAll (c : ClusterCrdt) (gen : ℕ) (peers : List ClusterCrdt) : ClusterCrdt × ℕ :=
  peers.foldl (fun acc peer ↦ acc.1.merge acc.2 peer) (c, gen)

theorem content_mergeAll (hc : c.Fit) (hpeers : ∀ p ∈ peers, p.Fit) (gen : ℕ) (x : Cell) :
    (c.mergeAll gen peers).1.Fit ∧ ((c.mergeAll gen peers).1.slot x).content =
      (peers.map fun p ↦ (p.slot x).content).foldl Stamped.join (c.slot x).content := by
  induction peers generalizing c gen with
  | nil => exact ⟨hc, rfl⟩
  | cons p peers ih =>
    obtain ⟨hp, hpeers⟩ := List.forall_mem_cons.mp hpeers
    have hrest := ih (fit_merge gen hc p) hpeers (c.merge gen p).2
    rw [content_merge gen hc hp] at hrest
    exact hrest

theorem view_congr (h : ∀ x, (a.slot x).content = (b.slot x).content) : a.view = b.view := by
  funext x
  rw [view_eq_value, view_eq_value, h]

theorem view_merge_assoc (ha : a.Fit) (hb : b.Fit) (hc : c.Fit) (g₁ g₂ g₃ g₄ : ℕ) :
    ((a.merge g₁ b).1.merge g₂ c).1.view = (a.merge g₃ (b.merge g₄ c).1).1.view := by
  refine view_congr fun x ↦ ?_
  rw [content_merge g₂ (fit_merge g₁ ha b) hc, content_merge g₁ ha hb,
    content_merge g₃ ha (fit_merge g₄ hb c), content_merge g₄ hb hc]
  exact Stamped.join_assoc _ _ _

theorem view_merge_self (ha : a.Fit) (gen : ℕ) : (a.merge gen a).1.view = a.view := by
  refine view_congr fun x ↦ ?_
  rw [content_merge gen ha ha, Stamped.join_self]

theorem view_merge_mergeAll (hc : c.Fit) (hpeers : ∀ p ∈ peers, p.Fit) (g₁ g₂ g₃ : ℕ) :
    (c.merge g₂ (empty.mergeAll g₁ peers).1).1.view = (c.mergeAll g₃ peers).1.view := by
  refine view_congr fun x ↦ ?_
  obtain ⟨hacc, hcontent⟩ := content_mergeAll fit_empty hpeers g₁ x
  have hempty : (c.slot x).content.join (empty.slot x).content = (c.slot x).content := by
    rw [slot_empty]
    exact Stamped.join_of_le (hc x).1
  rw [content_merge g₂ hc hacc, hcontent, Stamped.join_foldl, hempty,
    (content_mergeAll hc hpeers g₃ x).2]

/-- Merging is associative and idempotent on live views, and merging the peers'
states first into an empty state makes no difference. -/
theorem merge_through_accumulator (ha : a.Positive) (hb : b.Positive) (hc : c.Positive)
    (hpeers : ∀ p ∈ peers, p.Positive) (g₁ g₂ g₃ g₄ : ℕ) :
    ((a.merge g₁ b).1.merge g₂ c).1.view = (a.merge g₃ (b.merge g₄ c).1).1.view ∧
      (a.merge g₁ a).1.view = a.view ∧
      (c.merge g₂ (empty.mergeAll g₁ peers).1).1.view = (c.mergeAll g₃ peers).1.view :=
  ⟨view_merge_assoc ha.fit hb.fit hc.fit g₁ g₂ g₃ g₄, view_merge_self ha.fit g₁,
    view_merge_mergeAll hc.fit (fun p hp ↦ (hpeers p hp).fit) g₁ g₂ g₃⟩

/-- A node that has one order, claimed at time 5. -/
def owning (nodeId : String) : ClusterCrdt :=
  { empty with orderOwners := (LwwMap.empty.set 0 "order" ⟨nodeId, 5⟩ 5 nodeId).1 }

theorem register_owning (nodeId key : String) : (owning nodeId).orderOwners.register key =
    if "order" = key then ⟨some ⟨nodeId, 5⟩, 5, nodeId, 1⟩ else default :=
  LwwMap.register_put LwwMap.empty "order" _ key

theorem positive_owning (nodeId : String) : (owning nodeId).Positive where
  or f key e h := by cases f <;> cases h
  lww f key := by
    cases f with
    | orderOwners =>
      have hregister := register_owning nodeId key
      change ((owning nodeId).orderOwners.register key).Positive
      rw [hregister]
      split
      · exact .inr (by decide : (0 : Int) < 5)
      · exact .inl rfl
    | _ => exact .inl rfl
  writer := .inl rfl

theorem tied_claims_accumulated :
    ((owning "a").merge 1 (empty.mergeAll 1 [owning "b", owning "c"]).1).1.view =
      ((owning "a").mergeAll 1 [owning "b", owning "c"]).1.view := by
  have hpeers : ∀ p ∈ [owning "b", owning "c"], p.Positive := by
    intro p hp
    rcases List.mem_pair.mp hp with rfl | rfl
    · exact positive_owning "b"
    · exact positive_owning "c"
  exact (merge_through_accumulator (positive_owning "a") (positive_owning "a")
    (positive_owning "a") hpeers 1 1 1 1).2.2

end ClusterCrdt

end Akamu.Crdt
