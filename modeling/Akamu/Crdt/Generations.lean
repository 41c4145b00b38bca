import Akamu.Crdt.Delta
import Akamu.Db.ClusterTables

/-!
# The generation counter

From a database load on, every entry carries the number of its last change, and
the deltas since and between two values of the counter are told by these numbers
alone.
-/

namespace Akamu.Crdt.ClusterReplica

open ClusterCrdt

variable {r : ClusterReplica} {nodeId : String} {x : Cell} {cs : List Change}

theorem numbered_changes (h : r.Numbered) (cs : List Change) : (r.changes nodeId cs).Numbered := by
  induction cs generalizing r with
  | nil => exact h
  | cons c cs ih =>
    refine ih ?_
    cases c with
    | write op => exact h.apply nodeId op
    | merge other => exact h.merge other

theorem exists_change (h : (r.changes nodeId cs).crdt.entry x ≠ r.crdt.entry x) :
    ∃ before c after, cs = before ++ c :: after ∧
      ((r.changes nodeId before).change nodeId c).crdt.entry x ≠
        (r.changes nodeId before).crdt.entry x := by
  induction cs generalizing r with
  | nil => exact absurd rfl h
  | cons c cs ih =>
    by_cases hc : (r.change nodeId c).crdt.entry x = r.crdt.entry x
    · rw [← hc] at h
      obtain ⟨before, c', after, rfl, hchanged⟩ := ih h
      exact ⟨c :: before, c', after, rfl, hchanged⟩
    · exact ⟨[], c, cs, rfl, hc⟩

theorem gen_lt_of_listed {c : ClusterCrdt} {gen : ℕ}
    (h : (c.deltaSince gen).entry x ≠ ClusterCrdt.empty.entry x) : gen < (c.slot x).gen := by
  by_contra hle
  rw [entry_deltaSince, if_neg hle] at h
  exact h rfl

theorem gen_le_of_unlisted {c : ClusterCrdt} {gen : ℕ}
    (h : (c.deltaSince gen).entry x = ClusterCrdt.empty.entry x) : (c.slot x).gen ≤ gen := by
  by_contra hlt
  rw [entry_deltaSince, if_pos (not_le.mp hlt)] at h
  rw [slot_of_entry h, slot_empty] at hlt
  exact hlt (Nat.zero_le gen)

theorem delta_partition (c : ClusterCrdt) {g₁ g₂ : ℕ} (h : g₁ ≤ g₂) (x : Cell) :
    (c.deltaRange g₁ g₂).entry x = ClusterCrdt.empty.entry x ∧
        (c.deltaSince g₁).entry x = (c.deltaSince g₂).entry x ∨
      (c.deltaSince g₂).entry x = ClusterCrdt.empty.entry x ∧
        (c.deltaSince g₁).entry x = (c.deltaRange g₁ g₂).entry x := by
  simp only [entry_deltaSince, entry_deltaRange]
  rcases Nat.lt_or_ge g₂ (c.slot x).gen with hlt | hle
  · rw [if_neg (by omega), if_pos (by omega), if_pos hlt]
    exact .inl ⟨rfl, rfl⟩
  · rw [if_neg (by omega : ¬ g₂ < (c.slot x).gen)]
    simp only [hle, and_true]
    exact .inr trivial

/-- `pre` is what happens up to the moment at which the counter is read. -/
theorem generation_invariant {db : ClusterDb} {decodeNull : Except AcmeError String}
    {loaded : ClusterReplica} (hload : db.loadFromDb decodeNull nodeId = .ok loaded)
    (pre : List Change) {post : List Change} (hpost : ∀ c ∈ post, c.Keeps) :
    let r := loaded.changes nodeId pre
    let r' := r.changes nodeId post
    r'.Numbered ∧
      (∀ c : Change, c.Keeps → ∀ x, (r'.change nodeId c).crdt.entry x ≠ r'.crdt.entry x →
        r'.gen < ((r'.change nodeId c).crdt.slot x).gen) ∧
      (∀ x, (r'.crdt.deltaSince r.gen).entry x = ClusterCrdt.empty.entry x →
        r'.crdt.entry x = r.crdt.entry x) ∧
      (∀ x, (r'.crdt.deltaSince r.gen).entry x ≠ ClusterCrdt.empty.entry x →
        ∃ before c after, post = before ++ c :: after ∧
          ((r.changes nodeId before).change nodeId c).crdt.entry x ≠
            (r.changes nodeId before).crdt.entry x) ∧
      ∀ g₁ g₂, g₁ ≤ g₂ → ∀ x,
        (r'.crdt.deltaRange g₁ g₂).entry x = ClusterCrdt.empty.entry x ∧
            (r'.crdt.deltaSince g₁).entry x = (r'.crdt.deltaSince g₂).entry x ∨
          (r'.crdt.deltaSince g₂).entry x = ClusterCrdt.empty.entry x ∧
            (r'.crdt.deltaSince g₁).entry x = (r'.crdt.deltaRange g₁ g₂).entry x := by
  intro r r'
  have hr : r.Numbered := numbered_changes (ClusterDb.numbered_of_load hload) pre
  refine ⟨numbered_changes hr post, fun c hc x hne ↦ ?_, fun x hx ↦ ?_, fun x hx ↦ ?_,
    fun g₁ g₂ h ↦ delta_partition r'.crdt h⟩
  · rcases (r'.moved_change nodeId c hc).2 x with hsame | hmoved
    · exact absurd hsame hne
    · rw [slotOf_entry] at hmoved
      exact hmoved.1
  · have hle := gen_le_of_unlisted hx
    rw [← slotOf_entry] at hle
    exact ((r.moved_changes nodeId post hpost).2 x).eq_of_gen_le hle
  · refine exists_change fun hsame ↦ ?_
    have hlt := gen_lt_of_listed hx
    rw [slot_of_entry hsame] at hlt
    exact absurd (hr x) (not_le.mpr hlt)

/-- An order of account `acct`, and a policy rule of generation 4. -/
def storedRows : ClusterDb :=
  { ClusterDb.empty with
    orders := KeyedTable.empty.put (orderRowOfEntry "order" .pending
      ⟨"order", "acct", "pending", none, [], none, none, none, none, 1, 2, "default"⟩)
    policyRules := KeyedTable.empty.put
      ⟨"rule", "default", "no-wildcards", "null", true, "", "", none, 4, false, none⟩ }

def accountOfPeer : ClusterCrdt :=
  ((⟨.empty, 0⟩ : ClusterReplica).apply "node-b" (.or .accounts (.upsert "acct"
    ⟨"acct", "valid", none, [], "thumb", 1, 1, none, "default"⟩ 1))).crdt

/-- The order is loaded and the account of a peer merged.  When the order is
removed then, the delta since that moment has the order and not the account. -/
theorem removed_order_in_delta :
    ∃ loaded, storedRows.loadFromDb (.ok "") "node-a" = .ok loaded ∧
      let r := loaded.changes "node-a" [.merge accountOfPeer]
      let r' := r.changes "node-a" [.write (.or .orders (.remove "order" 3))]
      r.gen = 5 ∧ r'.Numbered ∧
        ((r'.crdt.deltaSince r.gen).orders.lookup "order").any (·.tombstone) ∧
        r'.crdt.entry (.or .accounts "acct") = r.crdt.entry (.or .accounts "acct") := by
  obtain ⟨loaded, hload⟩ : ∃ loaded, storedRows.loadFromDb (.ok "") "node-a" = .ok loaded :=
    ⟨_, rfl⟩
  have hkeeps : ∀ c ∈ [Change.write (.or .orders (.remove "order" 3))], c.Keeps :=
    List.forall_mem_singleton.mpr trivial
  have hinvariant := generation_invariant hload [.merge accountOfPeer] hkeeps
  have hunlisted : ∀ c : ClusterCrdt, (c.accounts.lookup "acct").isNone →
      c.entry (.or .accounts "acct") = ClusterCrdt.empty.entry (.or .accounts "acct") :=
    fun _ ↦ Option.isNone_iff_eq_none.mp
  refine ⟨loaded, hload, ?_, hinvariant.1, ?_, hinvariant.2.2.1 _ (hunlisted _ ?_)⟩
  all_goals
    cases hload
    decide +kernel

end Akamu.Crdt.ClusterReplica
