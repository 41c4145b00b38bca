import Mathlib.Algebra.Order.Floor.Div
import Mathlib.Data.List.Chain
import Akamu.Replication.Push

/-!
# Which peers a gossip round contacts

With a limit on the number of peers per round, a round contacts a window of the
peer list.  The window starts where the generation counter points, so that it
moves with local writes and merges and not with the rounds.
-/

/-! ## Windows on a circle -/

namespace Circle

/-- How far `b` is ahead of `a`, on a circle of `n` places. -/
def advance (n a b : ℕ) : ℕ := (b + (n - a)) % n

def travelled (n : ℕ) : List ℕ → ℕ
  | a :: b :: rest => advance n a b + travelled n (b :: rest)
  | _ => 0

variable {n k : ℕ}

theorem add_advance_mod {a b : ℕ} (ha : a < n) (hb : b < n) : (a + advance n a b) % n = b := by
  have hsum : a + (b + (n - a)) = b + n := by omega
  rw [advance, Nat.add_mod_mod, hsum, Nat.add_mod_right, Nat.mod_eq_of_lt hb]

variable {places : List ℕ}

theorem exists_window {a : ℕ} (hplaces : ∀ b ∈ a :: places, b < n)
    (hstep : (a :: places).IsChain fun b c ↦ advance n b c ≤ k) {j : ℕ}
    (hj : j < travelled n (a :: places) + k) :
    ∃ b ∈ a :: places, ∃ i < k, (b + i) % n = (a + j) % n := by
  induction places generalizing a j with
  | nil => exact ⟨a, List.mem_cons_self, j, by simpa [travelled] using hj, rfl⟩
  | cons b places ih =>
    by_cases hnear : j < k
    · exact ⟨a, List.mem_cons_self, j, hnear, rfl⟩
    · obtain ⟨hle, hrest⟩ := List.isChain_cons_cons.mp hstep
      have hb : b < n := hplaces b (by simp)
      have ha : a < n := hplaces a (by simp)
      have hj' : j - advance n a b < travelled n (b :: places) + k := by
        rw [travelled] at hj
        omega
      obtain ⟨c, hc, i, hi, heq⟩ :=
        ih (fun c hc ↦ hplaces c (List.mem_cons_of_mem a hc)) hrest hj'
      refine ⟨c, List.mem_cons_of_mem a hc, i, hi, heq.trans ?_⟩
      have hway : a + j = a + advance n a b + (j - advance n a b) := by omega
      rw [hway, Nat.add_mod (a + advance n a b), add_advance_mod ha hb, Nat.add_mod_mod]

theorem exists_window_of_le (hne : places ≠ []) (hplaces : ∀ b ∈ places, b < n)
    (hstep : places.IsChain fun b c ↦ advance n b c ≤ k) (hround : n ≤ travelled n places + k)
    {m : ℕ} (hm : m < n) : ∃ b ∈ places, ∃ i < k, (b + i) % n = m := by
  cases places with
  | nil => exact absurd rfl hne
  | cons a places =>
    have ha : a < n := hplaces a List.mem_cons_self
    have hfar : advance n a m < travelled n (a :: places) + k :=
      (Nat.mod_lt _ (by omega)).trans_le hround
    obtain ⟨b, hb, i, hi, heq⟩ := exists_window hplaces hstep hfar
    exact ⟨b, hb, i, hi, heq.trans (add_advance_mod ha hm)⟩

end Circle

namespace Akamu.FanOut

open Machine Circle

/-! ## The rounds -/

/-- `current_gen as usize % n`, of a counter with 64 bits. -/
def windowStart (n currentGen : ℕ) : ℕ := currentGen % 2 ^ 64 % n

def gossipPeers (fanOut : ℕ) (allPeers : List String) (currentGen : ℕ) : List String :=
  if fanOut = 0 ∨ allPeers.length ≤ fanOut then allPeers
  else (List.range fanOut).filterMap fun i ↦
    allPeers[(windowStart allPeers.length currentGen + i) % allPeers.length]?

structure Round where
  currentGen : ℕ
  peers : List String

structure Rounds where
  loop : Push.Loop
  rounds : List Round

def Rounds.window (s : Rounds) : List String := (s.rounds.getLast?.map Round.peers).getD []

/-- The peer list is fixed; the envelopes are prepared for the round's window. -/
def step (nodeId : String) (fanOut : ℕ) (allPeers : List String) (s : Rounds) :
    Push.Event → Rounds × Unit
  | .start _ =>
    match s.loop.phase with
    | .idle =>
      (⟨(Push.step nodeId s.loop (.start allPeers)).1, s.rounds ++
        [⟨s.loop.replica.gen, gossipPeers fanOut allPeers s.loop.replica.gen⟩]⟩, ())
    | _ => (s, ())
  | .prepare _ => ({ s with loop := (Push.step nodeId s.loop (.prepare s.window)).1 }, ())
  | e => ({ s with loop := (Push.step nodeId s.loop e).1 }, ())

/-! ## Who is contacted -/

section Coverage

variable {nodeId : String} {fanOut : ℕ} {allPeers : List String}

theorem rounds_step (s : Rounds) (e : Push.Event) :
    (step nodeId fanOut allPeers s e).1.rounds = s.rounds ∨
      (step nodeId fanOut allPeers s e).1.rounds = s.rounds ++
        [⟨s.loop.replica.gen, gossipPeers fanOut allPeers s.loop.replica.gen⟩] := by
  cases e with
  | start =>
    cases hphase : s.loop.phase with
    | idle =>
      right
      simp only [step, hphase]
    | _ =>
      left
      simp only [step, hphase]
  | _ => exact .inl rfl

def Chosen (fanOut : ℕ) (allPeers : List String) (s : Rounds) : Prop :=
  ∀ r ∈ s.rounds, r.peers = gossipPeers fanOut allPeers r.currentGen

theorem chosen_step {s : Rounds} (h : Chosen fanOut allPeers s) (e : Push.Event) :
    Chosen fanOut allPeers (step nodeId fanOut allPeers s e).1 := by
  intro r hr
  rcases rounds_step s e with hsame | hnew
  · rw [hsame] at hr
    exact h r hr
  · rw [hnew, List.mem_append, List.mem_singleton] at hr
    rcases hr with hold | rfl
    · exact h r hold
    · rfl

theorem chosen_run (nodeId : String) (fanOut : ℕ) (allPeers : List String)
    (r : Crdt.ClusterReplica) (es : List Push.Event) :
    Chosen fanOut allPeers (run (step nodeId fanOut allPeers) ⟨Push.Loop.start r, []⟩ es) :=
  (meets_true _ es).invariant (Chosen fanOut allPeers) (fun _ h ↦ absurd h List.not_mem_nil)
    fun _ e h _ ↦ chosen_step h e

/-- Some `count` consecutive elements of a list. -/
def Consecutive {α : Type} (count : ℕ) (part whole : List α) : Prop :=
  part.length = count ∧ part <:+: whole

/-- Any `⌈n / k⌉` consecutive rounds contact every peer. -/
def ReachesAll (fanOut : ℕ) (allPeers : List String) (rounds : List Round) : Prop :=
  ∀ part, Consecutive (allPeers.length ⌈/⌉ fanOut) part rounds →
    ∀ peer ∈ allPeers, ∃ r ∈ part, peer ∈ r.peers

/-- How the counter has to move: from one round to the next it passes over no
peer, and in as many rounds as are to reach all peers it gets around to the
first ones. -/
structure Paced (fanOut n : ℕ) (gens : List ℕ) : Prop where
  no_gap : (gens.map (windowStart n)).IsChain fun a b ↦ advance n a b ≤ fanOut
  around : ∀ part, Consecutive (n ⌈/⌉ fanOut) part gens →
    n ≤ travelled n (part.map (windowStart n)) + fanOut

theorem mem_gossipPeers (hpos : 0 < fanOut) (hlt : fanOut < allPeers.length) {gen i : ℕ}
    (hi : i < fanOut) {peer : String}
    (hpeer : allPeers[(windowStart allPeers.length gen + i) % allPeers.length]? = some peer) :
    peer ∈ gossipPeers fanOut allPeers gen := by
  rw [gossipPeers, if_neg (by omega)]
  exact List.mem_filterMap.mpr ⟨i, List.mem_range.mpr hi, hpeer⟩

end Coverage

/-- The windows reach every peer in time if the counter keeps pace with them. -/
theorem paced_rounds_reach_all (nodeId : String) {fanOut : ℕ} {allPeers : List String}
    (hpos : 0 < fanOut) (hlt : fanOut < allPeers.length) (r : Crdt.ClusterReplica)
    (es : List Push.Event)
    (hpaced : Paced fanOut allPeers.length
      ((run (step nodeId fanOut allPeers) ⟨Push.Loop.start r, []⟩ es).rounds.map
        Round.currentGen)) :
    ReachesAll fanOut allPeers
      (run (step nodeId fanOut allPeers) ⟨Push.Loop.start r, []⟩ es).rounds := by
  rintro part ⟨hcount, hpart⟩ peer hpeer
  have hchosen := chosen_run nodeId fanOut allPeers r es
  obtain ⟨m, hm, hget⟩ := List.mem_iff_getElem.mp hpeer
  have hne : part ≠ [] := by
    rintro rfl
    have hle : allPeers.length ≤ fanOut * 0 :=
      (ceilDiv_le_iff_le_mul hpos).mp hcount.symm.le
    omega
  have hno_gap : ((part.map Round.currentGen).map (windowStart allPeers.length)).IsChain
      fun a b ↦ advance allPeers.length a b ≤ fanOut := by
    obtain ⟨front, back, hwhole⟩ := hpart
    have hgap := hpaced.no_gap
    rw [← hwhole, List.map_append, List.map_append, List.map_append, List.map_append] at hgap
    exact hgap.left_of_append.right_of_append
  obtain ⟨b, hb, i, hi, hplace⟩ := exists_window_of_le (by simpa using hne)
    (fun b hb ↦ by
      obtain ⟨gen, -, rfl⟩ := List.mem_map.mp hb
      exact Nat.mod_lt _ (by omega))
    hno_gap
    (hpaced.around _ ⟨by simpa using hcount, hpart.map Round.currentGen⟩) hm
  obtain ⟨gen, hgen, rfl⟩ := List.mem_map.mp hb
  obtain ⟨round, hround, rfl⟩ := List.mem_map.mp hgen
  refine ⟨round, hround, ?_⟩
  rw [hchosen round (hpart.subset hround)]
  refine mem_gossipPeers hpos hlt hi ?_
  rw [hplace, List.getElem?_eq_getElem hm, hget]

/-! ## A counter that stands still, or moves too far -/

namespace TwoPeers

def peers : List String := ["https://b", "https://c"]

def afterEvents (es : List Push.Event) : Rounds :=
  run (step "node-a" 1 peers) ⟨Push.Loop.start ⟨.empty, 0⟩, []⟩ es

/-- A round whose only peer answers that it has nothing. -/
def quietRound (peer : String) : List Push.Event :=
  [.start [], .prepare [], .respond peer .empty 0, .combine, .mergeCombined, .stamp, .record]

def newAccount (id : String) : Push.Event :=
  .write (.or .accounts (.upsert id (Push.account id) 1))

/-- Without writes, and with two writes between the rounds, the second peer is
never contacted. -/
theorem second_peer_starves :
    ¬ ReachesAll 1 peers (afterEvents (quietRound "https://b" ++ quietRound "https://b")).rounds ∧
    ¬ ReachesAll 1 peers (afterEvents (quietRound "https://b" ++
      [newAccount "first", newAccount "second"] ++ quietRound "https://b")).rounds := by
  constructor
  · intro h
    have hall := h _ ⟨by decide +kernel, List.infix_rfl⟩ "https://c" (by decide)
    revert hall
    decide +kernel
  · intro h
    have hall := h _ ⟨by decide +kernel, List.infix_rfl⟩ "https://c" (by decide)
    revert hall
    decide +kernel

theorem both_peers_reached : ReachesAll 1 peers (afterEvents (quietRound "https://b" ++
    [newAccount "first"] ++ quietRound "https://c")).rounds := by
  refine paced_rounds_reach_all "node-a" (by decide) (by decide) _ _ ⟨by decide +kernel, ?_⟩
  rintro part ⟨hcount, hpart⟩
  have hlength : part.length = ((afterEvents (quietRound "https://b" ++
    [newAccount "first"] ++ quietRound "https://c")).rounds.map Round.currentGen).length := by
    rw [hcount]
    decide +kernel
  rw [hpart.eq_of_length hlength]
  decide +kernel

end TwoPeers

end Akamu.FanOut
