import Akamu.Lib.Replicas
import Akamu.Crdt.LocalOps

/-!
# Convergence of the replicas

Any number of nodes write locally and exchange copies of the whole state, in
any order and with any duplication.  Replicas that have received the same
updates show the same live view, provided that no write of an observed-remove
map goes backwards or competes with another one at the same timestamp, and that
nothing is forgotten.  Register writes need no such care: they are ordered by
timestamp and node id.
-/

namespace Akamu.Convergence

open Machine Replicas Crdt ClusterCrdt OrMap

/-! ## The cluster -/

variable {nodes : Finset String}

def protocol (nodes : Finset String) : Protocol nodes ClusterReplica LocalOp where
  init := ⟨.empty, 0⟩
  write i op r := r.apply i op
  merge r other := r.merge other.crdt

/-- No replica and no message holds another value for the key at this time. -/
def Uncontested (c : Cluster nodes ClusterReplica) (f : OrField) (key : String) (value : f.Value)
    (timestamp : Int) : Prop :=
  c.All fun x ↦ ∀ e ∈ (x.state.crdt.orMap f).lookup key,
    e.tombstone = false → e.addedAt = timestamp → e.value = value

def Careful (c : Cluster nodes ClusterReplica) : Event nodes LocalOp → Prop
  | .write i (.or f (.upsert key value timestamp)) =>
    (∀ e ∈ ((c.replica i).state.crdt.orMap f).lookup key,
      e.tombstone = false ∧ e.addedAt ≤ timestamp) ∧
    Uncontested c f key value timestamp
  | .write i (.or f (.insert key value timestamp)) =>
    ((c.replica i).state.crdt.orMap f).lookup key = none → Uncontested c f key value timestamp
  | .write _ (.or _ (.remove _ _)) => True
  | .write i (.or f (.retain p)) =>
    ∀ e ∈ ((c.replica i).state.crdt.orMap f).entries.rows,
      e.2.tombstone = false → p e.1 e.2.value = true
  | .write _ (.lww _ (.set _ _ _)) => True
  | .write _ (.lww _ (.remove _ timestamp)) => timestamp ≠ 0
  | .write i (.lww f (.retain p)) =>
    ∀ e ∈ ((c.replica i).state.crdt.lwwMap f).entries.rows, ∀ v ∈ e.2.value, p v = true
  | .write _ (.claimOrder _ _ _) => True
  | .write _ (.claimMtcWriter _ _) => True
  | .write i (.purge cutoff) =>
    (∀ f, ∀ e ∈ ((c.replica i).state.crdt.orMap f).entries.rows, e.2.tombstone = true →
      ∃ t ∈ e.2.tombstoneAt, cutoff ≤ t) ∧
    ∀ f, ∀ e ∈ ((c.replica i).state.crdt.lwwMap f).entries.rows, e.2.isTombstone = true →
      cutoff ≤ e.2.timestamp
  | .send _ => True
  | .deliver _ _ => True

/-! ## Careful writes are admitted -/

def board (r : ClusterReplica) (x : Cell) : Content x.Value := (r.crdt.slot x).content

/-- Register stamps are signed, map stamps are not. -/
def author (nodes : Finset String) : Cell → Stamp → Option nodes
  | .or _ _, _ => none
  | .lww _ _, s => s.node?.bind fun n ↦ if h : n ∈ nodes then some ⟨n, h⟩ else none
  | .writer, s => s.node?.bind fun n ↦ if h : n ∈ nodes then some ⟨n, h⟩ else none

theorem joins (nodes : Finset String) : Joins (protocol nodes) (fun r ↦ r.crdt.Fit) board where
  good_init := fit_empty
  good_merge r other hr _ := fit_merge r.gen hr other.crdt
  board_merge r _ x hr ho := content_merge r.gen hr ho x

section Admitted

variable {c : Cluster nodes ClusterReplica} {i : nodes} {r : ClusterReplica}

def Admitted (c : Cluster nodes ClusterReplica) (i : nodes) (r : ClusterReplica) : Prop :=
  Admits (fun r ↦ r.crdt.Fit) board (author nodes) c i r

theorem admitted_of_same (hfit : (c.replica i).state.crdt.Fit)
    (h : ∀ x, board r x = board (c.replica i).state x) : Admitted c i r where
  good x := by
    have hx : (r.crdt.slot x).content = _ := h x
    rw [hx]
    exact hfit x
  cell x := .inl (h x)

theorem admitted_of_cell (hfit : (c.replica i).state.crdt.Fit) (x₀ : Cell)
    (hother : ∀ x, x ≠ x₀ → board r x = board (c.replica i).state x)
    (hnew : x₀.Fit (board r x₀))
    (hlt : (board (c.replica i).state x₀).stamp < (board r x₀).stamp)
    (hauthor : author nodes x₀ (board r x₀).stamp = some i ∨
      author nodes x₀ (board r x₀).stamp = none ∧ ∀ y, c.Holds y →
        (board y.state x₀).stamp = (board r x₀).stamp → board y.state x₀ = board r x₀) :
    Admitted c i r where
  good x := by
    by_cases hx : x = x₀
    · subst hx
      exact hnew
    · have hsame : (r.crdt.slot x).content = _ := hother x hx
      rw [hsame]
      exact hfit x
  cell x := by
    by_cases hx : x = x₀
    · subst hx
      exact .inr ⟨hlt, hauthor⟩
    · exact .inl (hother x hx)

/-! ### Observed-remove maps -/

section OrMaps

variable {f : OrField} {key : String} {m : OrMap String f.Value} {gen : ℕ}

theorem board_setOrMap (r : ClusterReplica) (f : OrField) (m : OrMap String f.Value) (gen : ℕ)
    (key : String) : board ⟨r.crdt.setOrMap f m, gen⟩ (.or f key) = (m.slot key).content :=
  congrArg (fun m' ↦ (OrMap.slot m' key).content) (orMap_setOrMap r.crdt f m)

theorem board_setOrMap_of_same (r : ClusterReplica) {x : Cell}
    (hm : ∀ k, x = .or f k → (m.slot k).content = ((r.crdt.orMap f).slot k).content) :
    board ⟨r.crdt.setOrMap f m, gen⟩ x = board r x := by
  by_cases hf : ∃ k, x = .or f k
  · obtain ⟨k, rfl⟩ := hf
    rw [board_setOrMap]
    exact hm k rfl
  · exact congrArg Slot.content
      (slot_setOrMap_of_ne r.crdt f m fun k hk ↦ hf ⟨k, hk⟩)

theorem admitted_setOrMap_of_same (hfit : (c.replica i).state.crdt.Fit)
    (hm : ∀ k, (m.slot k).content = (((c.replica i).state.crdt.orMap f).slot k).content) :
    Admitted c i ⟨(c.replica i).state.crdt.setOrMap f m, gen⟩ :=
  admitted_of_same hfit fun _ ↦ board_setOrMap_of_same _ fun k _ ↦ hm k

/-- A write under a key, if every copy with its stamp has its content. -/
theorem admitted_setOrMap (hfit : (c.replica i).state.crdt.Fit) (key : String)
    (hother : ∀ k, key ≠ k →
      (m.slot k).content = (((c.replica i).state.crdt.orMap f).slot k).content)
    (hle : (((c.replica i).state.crdt.orMap f).slot key).content.stamp ≤
      (m.slot key).content.stamp)
    (hagreed : ∀ y, c.Holds y → (board y.state (.or f key)).stamp = (m.slot key).content.stamp →
      board y.state (.or f key) = (m.slot key).content) :
    Admitted c i ⟨(c.replica i).state.crdt.setOrMap f m, gen⟩ := by
  rcases hle.lt_or_eq with hlt | heq
  · refine admitted_of_cell hfit (.or f key) (fun x hx ↦ board_setOrMap_of_same _ fun k hk ↦
      hother k fun heq ↦ hx (by rw [hk, heq])) ?_ ?_ (.inr ⟨rfl, fun y hy ↦ ?_⟩)
    · rw [board_setOrMap]
      exact ⟨bot_le, fun hunset ↦ absurd hunset (m.not_unset key)⟩
    · rw [board_setOrMap]
      exact hlt
    · rw [board_setOrMap]
      exact hagreed y hy
  · -- the same content once more
    refine admitted_setOrMap_of_same hfit fun k ↦ ?_
    by_cases hk : key = k
    · subst hk
      exact (hagreed _ (c.holds_replica i) heq).symm
    · exact hother k hk

theorem admitted_live (hfit : (c.replica i).state.crdt.Fit) {value : f.Value} {timestamp : Int}
    (hm : ∀ k, (m.slot k).content = if key = k then ⟨.at timestamp "", some value⟩
      else (((c.replica i).state.crdt.orMap f).slot k).content)
    (hown : ∀ e ∈ ((c.replica i).state.crdt.orMap f).lookup key,
      e.tombstone = false ∧ e.addedAt ≤ timestamp)
    (hunc : Uncontested c f key value timestamp) :
    Admitted c i ⟨(c.replica i).state.crdt.setOrMap f m, gen⟩ := by
  have hself : (m.slot key).content = ⟨.at timestamp "", some value⟩ := by rw [hm, if_pos rfl]
  refine admitted_setOrMap hfit key (fun k hk ↦ by rw [hm, if_neg hk]) ?_ fun y hy hstamp ↦ ?_
  · rw [hself]
    exact stamp_le_of_live hown
  · rw [hself] at hstamp ⊢
    obtain ⟨e, hlookup, hlive, htime, hcontent⟩ := exists_of_stamp_eq hstamp
    rw [← hunc.holds hy e hlookup hlive htime]
    exact hcontent

theorem admitted_tombstone (hfit : (c.replica i).state.crdt.Fit) (key : String)
    (hself : (m.slot key).content = ⟨⊤, none⟩)
    (hother : ∀ k, key ≠ k →
      (m.slot k).content = (((c.replica i).state.crdt.orMap f).slot k).content) :
    Admitted c i ⟨(c.replica i).state.crdt.setOrMap f m, gen⟩ := by
  refine admitted_setOrMap hfit key hother ?_ fun y _ hstamp ↦ ?_
  · rw [hself]
    exact le_top
  · rw [hself] at hstamp ⊢
    exact content_of_stamp_top hstamp

end OrMaps

/-! ### Registers -/

section Registers

variable {f : LwwField} {key : f.Key} {m : LwwMap f.Key f.Value} {gen : ℕ}

theorem board_setLwwMap (r : ClusterReplica) (f : LwwField) (m : LwwMap f.Key f.Value) (gen : ℕ)
    (key : f.Key) : board ⟨r.crdt.setLwwMap f m, gen⟩ (.lww f key) = (m.slot key).content :=
  congrArg (fun m' ↦ (LwwMap.slot m' key).content) (lwwMap_setLwwMap r.crdt f m)

theorem board_setLwwMap_of_same (r : ClusterReplica) {x : Cell}
    (hm : ∀ k, x = .lww f k → (m.slot k).content = ((r.crdt.lwwMap f).slot k).content) :
    board ⟨r.crdt.setLwwMap f m, gen⟩ x = board r x := by
  by_cases hf : ∃ k, x = .lww f k
  · obtain ⟨k, rfl⟩ := hf
    rw [board_setLwwMap]
    exact hm k rfl
  · exact congrArg Slot.content
      (slot_setLwwMap_of_ne r.crdt f m fun k hk ↦ hf ⟨k, hk⟩)

theorem author_at (t : ℤ) (i : nodes) (x : Cell) (hx : ∀ f k, x ≠ .or f k) :
    author nodes x (.at t i) = some i := by
  cases x with
  | or f k => exact absurd rfl (hx f k)
  | lww | writer => simp [author]

theorem admitted_register (hfit : (c.replica i).state.crdt.Fit) (x₀ : Cell)
    (hx₀ : ∀ f k, x₀ ≠ .or f k)
    (hother : ∀ x, x ≠ x₀ → board r x = board (c.replica i).state x)
    (timestamp : Int) (value : Option x₀.Value) (hvalue : value = none → timestamp ≠ 0)
    (hself : board r x₀ = if (board (c.replica i).state x₀).stamp < .at timestamp i then
      ⟨.at timestamp i, value⟩ else board (c.replica i).state x₀) : Admitted c i r := by
  by_cases hlt : (board (c.replica i).state x₀).stamp < .at timestamp i
  · rw [if_pos hlt] at hself
    refine admitted_of_cell hfit x₀ hother ?_ ?_ (.inl ?_)
    · rw [hself]
      refine ⟨(hfit x₀).1.trans hlt.le, ?_⟩
      rintro ⟨hnone, n, hstamp⟩
      exact absurd (Stamp.at_inj.mp hstamp).1 (hvalue hnone)
    · rw [hself]
      exact hlt
    · rw [hself]
      exact author_at timestamp i x₀ hx₀
  · rw [if_neg hlt] at hself
    refine admitted_of_same hfit fun x ↦ ?_
    by_cases hx : x = x₀
    · subst hx
      exact hself
    · exact hother x hx

theorem admitted_setLwwMap (hfit : (c.replica i).state.crdt.Fit) {timestamp : Int}
    (value : Option f.Value) (hvalue : value = none → timestamp ≠ 0)
    (hm : ∀ k, m.slot k = if key = k ∧
        (((c.replica i).state.crdt.lwwMap f).slot key).content.stamp < .at timestamp i then
      ⟨⟨.at timestamp i, value⟩, (c.replica i).state.gen + 1⟩
      else ((c.replica i).state.crdt.lwwMap f).slot k) :
    Admitted c i ⟨(c.replica i).state.crdt.setLwwMap f m, gen⟩ := by
  refine admitted_register hfit (.lww f key) nofun
    (fun x hx ↦ board_setLwwMap_of_same _ fun k hk ↦ ?_) timestamp value hvalue ?_
  · rw [hm, if_neg fun h ↦ hx (by rw [hk, h.1])]
  · rw [board_setLwwMap, hm]
    by_cases hlt : (((c.replica i).state.crdt.lwwMap f).slot key).content.stamp < .at timestamp i
    · exact (congrArg Slot.content (if_pos ⟨rfl, hlt⟩)).trans (if_pos hlt).symm
    · exact (congrArg Slot.content (if_neg fun h ↦ hlt h.2)).trans (if_neg hlt).symm

end Registers

theorem admitted_or (hfit : (c.replica i).state.crdt.Fit) (f : OrField) (op : OrMapOp f.Value)
    (hcareful : Careful c (.write i (.or f op))) :
    Admitted c i ((c.replica i).state.apply i (.or f op)) := by
  cases op with
  | insert key =>
    cases hlookup : ((c.replica i).state.crdt.orMap f).lookup key with
    | none =>
      refine admitted_live hfit (fun k ↦ ?_) (by simp [hlookup]) (hcareful hlookup)
      rw [OrMapOp.apply, slot_insert]
      by_cases hk : key = k
      · rw [if_pos ⟨hk, hlookup⟩, if_pos hk]
      · rw [if_neg fun h ↦ hk h.1, if_neg hk]
    | some =>
      refine admitted_setOrMap_of_same hfit fun k ↦ ?_
      rw [OrMapOp.apply, slot_insert, if_neg (by simp [hlookup])]
  | upsert =>
    refine admitted_live hfit (fun k ↦ ?_) hcareful.1 hcareful.2
    rw [OrMapOp.apply, slot_upsert]
    split <;> rfl
  | remove key =>
    refine admitted_tombstone hfit key ?_ fun k hk ↦ ?_
    · rw [OrMapOp.apply, slot_remove, if_pos rfl]
      split
      · rename_i hold
        obtain ⟨e, hlookup, he⟩ := Option.any_eq_true _ _ |>.mp hold
        rw [slot_of_lookup hlookup]
        exact e.content_of_tombstone (Bool.and_eq_true_iff.mp he).1
      · rfl
    · rw [OrMapOp.apply, slot_remove, if_neg hk]
  | retain =>
    refine admitted_setOrMap_of_same hfit fun k ↦ ?_
    rw [OrMapOp.apply, retain_eq_self hcareful]

theorem admitted_lww (hfit : (c.replica i).state.crdt.Fit) (f : LwwField) (op : LwwMapOp f.Key f.Value)
    (hcareful : Careful c (.write i (.lww f op))) :
    Admitted c i ((c.replica i).state.apply i (.lww f op)) := by
  cases op with
  | set key value timestamp =>
    exact admitted_setLwwMap hfit (some value) nofun fun k ↦
      LwwMap.slot_set _ _ key timestamp i k value
  | remove key timestamp =>
    exact admitted_setLwwMap hfit none (fun _ ↦ hcareful) fun k ↦
      LwwMap.slot_remove _ _ key timestamp i k
  | retain =>
    refine admitted_of_same hfit fun x ↦ board_setLwwMap_of_same _ fun k _ ↦ ?_
    exact LwwMap.content_retain k hcareful (hfit (.lww f k)).1 (hfit (.lww f k)).2

theorem admitted_of_careful (hfit : (c.replica i).state.crdt.Fit) (op : LocalOp)
    (hcareful : Careful c (.write i op)) : Admitted c i ((c.replica i).state.apply i op) := by
  obtain heq | ⟨f, op, rfl⟩ | ⟨f, op', hop, heq⟩ | ⟨now, heq⟩ | ⟨cutoff, rfl⟩ :=
    (c.replica i).state.apply_eq_cases i op
  · rw [heq]
    exact admitted_of_same hfit fun _ ↦ rfl
  · exact admitted_or hfit f op hcareful
  · rw [heq]
    refine admitted_lww hfit f op' ?_
    rcases hop with rfl | ⟨_, _, _, rfl⟩
    · exact hcareful
    · trivial
  · rw [heq]
    refine admitted_register hfit .writer nofun
      (fun x hx ↦ congrArg Slot.content (slot_setWriter_of_ne _ _ hx))
      now (some ⟨i, now⟩) nofun ?_
    exact (congrArg Slot.content (LwwRegister.slot_set ..)).trans (apply_ite Slot.content ..)
  · refine admitted_of_same hfit fun x ↦ ?_
    cases x with
    | or f key =>
      refine congrArg (fun m ↦ (OrMap.slot m key).content) ?_
      exact (orMap_purge _ cutoff f).trans (purge_eq_self (hcareful.1 f))
    | lww f key =>
      refine congrArg (fun m ↦ (LwwMap.slot m key).content) ?_
      exact (lwwMap_purge _ cutoff f).trans (LwwMap.purge_eq_self (hcareful.2 f))
    | writer => rfl

end Admitted

/-! ## Convergence -/

theorem exists_sound {es : List (Event nodes LocalOp)}
    (hmeets : Meets (protocol nodes).step Careful (protocol nodes).start es) :
    ∃ δ, Sound (protocol nodes) (fun r ↦ r.crdt.Fit) board (author nodes) δ
      (run (protocol nodes).step (protocol nodes).start es) := by
  refine hmeets.invariant (fun c ↦ ∃ δ, Sound (protocol nodes) (fun r ↦ r.crdt.Fit) board
    (author nodes) δ c) ⟨fun _ _ ↦ ⊥, Sound.start fit_empty⟩ ?_
  rintro c e ⟨δ, hsound⟩ hcareful
  refine hsound.step (joins nodes) ?_
  rintro i op rfl
  exact admitted_of_careful (hsound.good _ (c.holds_replica i)) op hcareful

/-- In every run of careful writes, replicas that have received the same
updates show the same live view. -/
theorem same_updates_same_view {es : List (Event nodes LocalOp)}
    (hmeets : Meets (protocol nodes).step Careful (protocol nodes).start es) {i j : nodes}
    (hseen : ((run (protocol nodes).step (protocol nodes).start es).replica i).seen =
      ((run (protocol nodes).step (protocol nodes).start es).replica j).seen) :
    ((run (protocol nodes).step (protocol nodes).start es).replica i).state.crdt.view =
      ((run (protocol nodes).step (protocol nodes).start es).replica j).state.crdt.view := by
  obtain ⟨δ, hsound⟩ := exists_sound hmeets
  funext x
  rw [view_eq_value, view_eq_value]
  exact congrArg Stamped.value (hsound.board_eq hseen x)

/-! Two nodes, with a clock of one second. -/

def twoNodes : Finset String := {"node-a", "node-b"}

def nodeA : twoNodes := ⟨"node-a", by decide⟩

def nodeB : twoNodes := ⟨"node-b", by decide⟩

def sampleAccount (contact : String) : AccountEntry where
  accountId := "acct"
  status := "valid"
  contact := some contact
  publicKeyDer := []
  jwkThumbprint := "thumb"
  created := 1
  updated := 7
  profileGrants := none
  caId := "default"

def sampleChallenge (status : String) : ChallengeEntry where
  challengeId := "chall"
  authzId := "authz"
  challengeType := .http01
  status := status
  token := "token"
  validated := none
  error := none
  created := 1
  updated := 7

def exchange : List (Event twoNodes LocalOp) :=
  [.send nodeA, .send nodeB, .deliver nodeA 0, .deliver nodeB 1]

def tiedUpserts : List (Event twoNodes LocalOp) :=
  .write nodeA (.or .accounts (.upsert "acct" (sampleAccount "mailto:a@example.org") 7)) ::
  .write nodeB (.or .accounts (.upsert "acct" (sampleAccount "mailto:b@example.org") 7)) ::
  exchange

/-- Two upserts of one key in the same second: each node keeps its own value,
however often they exchange their states. -/
theorem tied_upserts_diverge :
    ((run (protocol twoNodes).step (protocol twoNodes).start tiedUpserts).replica nodeA).seen =
      ((run (protocol twoNodes).step (protocol twoNodes).start tiedUpserts).replica nodeB).seen ∧
    ((run (protocol twoNodes).step (protocol twoNodes).start tiedUpserts).replica nodeA).state.crdt.view ≠
      ((run (protocol twoNodes).step (protocol twoNodes).start tiedUpserts).replica nodeB).state.crdt.view := by
  refine ⟨by decide +kernel, fun hview ↦ ?_⟩
  have haccount : ((run (protocol twoNodes).step (protocol twoNodes).start tiedUpserts).replica
        nodeA).state.crdt.accounts.get "acct" =
      ((run (protocol twoNodes).step (protocol twoNodes).start tiedUpserts).replica
        nodeB).state.crdt.accounts.get "acct" := congrFun hview (.or .accounts "acct")
  revert haccount
  decide +kernel

instance (c : Cluster nodes ClusterReplica) (e : Event nodes LocalOp) : Decidable (Careful c e) := by
  unfold Careful Uncontested
  split <;> infer_instance

def tiedSets : List (Event twoNodes LocalOp) :=
  .write nodeA (.or .accounts (.upsert "acct" (sampleAccount "mailto:a@example.org") 7)) ::
  .write nodeA (.lww .challenges (.set "chall" (sampleChallenge "pending") 7)) ::
  .write nodeB (.lww .challenges (.set "chall" (sampleChallenge "processing") 7)) ::
  .write nodeB (.or .orders (.remove "order" 7)) ::
  exchange

/-- Register writes in the same second are ordered by the node ids. -/
theorem tied_sets_converge :
    ((run (protocol twoNodes).step (protocol twoNodes).start tiedSets).replica nodeA).state.crdt.view =
      ((run (protocol twoNodes).step (protocol twoNodes).start tiedSets).replica nodeB).state.crdt.view ∧
    ((run (protocol twoNodes).step (protocol twoNodes).start tiedSets).replica
      nodeA).state.crdt.challenges.get "chall" = some (sampleChallenge "processing") := by
  exact ⟨@same_updates_same_view twoNodes tiedSets (by decide +kernel) nodeA nodeB
    (by decide +kernel), by decide +kernel⟩

end Akamu.Convergence
