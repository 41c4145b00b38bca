import Akamu.Crdt.Hooks
import Akamu.Crdt.Delta
import Akamu.Lib.Machine

/-!
# A node's own writes to a register

`on_challenge_set` and `on_eab_key_set` write registers under the node's own id.
A write wins over another one by the same node only with a later timestamp, and
the clock has a resolution of one second.
-/

namespace Akamu

open Crdt Machine

/-- A kind of hook that sets a register, and the map it does so in. -/
structure RegisterHook (V : Type) where
  map : AkaCrdt → LwwMap String V
  hook : V → Hook
  key : V → String
  timestamp : V → Int
  applied : ∀ nodeId (r : Replica) v, map (r.applyHook nodeId (hook v)).crdt =
    ((map r.crdt).set r.gen (key v) v (timestamp v) nodeId).1
  merged : ∀ (r : Replica) peer,
    ∃ gen, map (r.merge peer).crdt = ((map r.crdt).merge gen (map peer)).1

def RegisterHook.challenges : RegisterHook ChallengeEntry where
  map := AkaCrdt.challenges
  hook := .challengeSet
  key := ChallengeEntry.challengeId
  timestamp := ChallengeEntry.updated
  applied _ _ _ := rfl
  merged _ _ := ⟨_, rfl⟩

def RegisterHook.eabKeys : RegisterHook EabKeyEntry where
  map := AkaCrdt.eabKeys
  hook := .eabKeySet
  key := EabKeyEntry.kid
  timestamp e := e.usedAt.getD e.created
  applied _ _ _ := rfl
  merged _ _ := ⟨_, rfl⟩

inductive OwnEvent (V : Type) where
  | write (value : V)
  | merge (peer : AkaCrdt)

def OwnEvent.last? {V : Type} : List (OwnEvent V) → Option V
  | [] => none
  | .write v :: es => (last? es).or (some v)
  | .merge _ :: es => last? es

namespace RegisterHook

variable {V : Type} (H : RegisterHook V) (nodeId key : String)

def step (r : Replica) : OwnEvent V → Replica × Unit
  | .write v => (r.applyHook nodeId (H.hook v), ())
  | .merge peer => (r.merge peer, ())

/-- A write is later than what the register holds; a peer has nothing that the
register does not have, such as the node's own earlier values. -/
def Later (r : Replica) : OwnEvent V → Prop
  | .write v => H.key v = key ∧ ((H.map r.crdt).register key).timestamp < H.timestamp v
  | .merge peer => ((H.map peer).slot key).content.Subsumed ((H.map r.crdt).slot key).content

variable {H nodeId key}

theorem step_later {r : Replica} {e : OwnEvent V} (h : H.Later key r e) :
    (H.map (H.step nodeId r e).1.crdt).get key =
        (OwnEvent.last? [e]).or ((H.map r.crdt).get key) ∧
      ((H.map r.crdt).slot key).content.stamp ≤
        ((H.map (H.step nodeId r e).1.crdt).slot key).content.stamp := by
  rw [LwwMap.get_eq_value, LwwMap.get_eq_value]
  cases e with
  | write v =>
    obtain ⟨rfl, hlt⟩ := h
    have hwins : ((H.map r.crdt).slot (H.key v)).content.stamp < .at (H.timestamp v) nodeId :=
      Stamp.at_lt_at.mpr (.inl hlt)
    rw [step, H.applied, LwwMap.slot_set, if_pos ⟨rfl, hwins⟩]
    exact ⟨rfl, hwins.le⟩
  | merge peer =>
    obtain ⟨gen, hmerged⟩ := H.merged r peer
    have hslot := (LwwMap.slot_merge (H.map r.crdt) gen (H.map peer) key).eq_of_subsumed h
    rw [step, hmerged, hslot]
    exact ⟨rfl, le_rfl⟩

/-- What the node has gossiped earlier may come back at any time. -/
theorem later_own {r : Replica} {es : List (OwnEvent V)}
    (h : Meets (H.step nodeId) (H.Later key) r es) :
    H.Later key (run (H.step nodeId) r es) (.merge r.crdt) := by
  refine .inl ?_
  induction es generalizing r with
  | nil => exact le_rfl
  | cons e es ih => exact (step_later h.1).2.trans (ih h.2)

/-- With later timestamps the register has the value of the last write. -/
theorem last_write_kept {r : Replica} {es : List (OwnEvent V)}
    (h : Meets (H.step nodeId) (H.Later key) r es) :
    (H.map (run (H.step nodeId) r es).crdt).get key =
      (OwnEvent.last? es).or ((H.map r.crdt).get key) := by
  induction es generalizing r with
  | nil => rfl
  | cons e es ih =>
    rw [run_cons, ih h.2, (step_later h.1).1, ← Option.or_assoc]
    cases e with
    | write => rfl
    | merge => rw [OwnEvent.last?, OwnEvent.last?, OwnEvent.last?, Option.or_none]

end RegisterHook

namespace OwnWrites

def challenge (status : String) (updated : Int) : ChallengeEntry :=
  { challengeId := "challenge", authzId := "authz", challengeType := .http01, status := status,
    token := "token", validated := none, error := none, created := 1, updated := updated }

/-- The challenge is taken up and fails, at these times. -/
def events (t₁ t₂ : Int) : List (OwnEvent ChallengeEntry) :=
  [.write (challenge "pending" 1), .write (challenge "processing" t₁),
    .write (challenge "invalid" t₂)]

def final (t₁ t₂ : Int) : Replica :=
  run (RegisterHook.challenges.step "node-a") ⟨.empty, 0⟩ (events t₁ t₂)

/-- In one second only the first of the two writes counts. -/
theorem second_write_lost :
    (final 5 5).crdt.challenges.get "challenge" = some (challenge "processing" 5) := by
  decide +kernel

def eabKey (usedAt : Option Int) : EabKeyEntry :=
  { kid := "kid", hmacKeyB64u := "key", created := 1, usedAt := usedAt, profileGrants := none }

/-- Before the key is used. -/
def unused : Replica := (⟨.empty, 0⟩ : Replica).applyHook "node-a" (.eabKeySet (eabKey none))

/-- The key is used, and the earlier state comes back from a peer. -/
def eabEvents : List (OwnEvent EabKeyEntry) := [.write (eabKey (some 5)), .merge unused.crdt]

theorem later_write_kept :
    (final 5 6).crdt.challenges.get "challenge" = some (challenge "invalid" 6) ∧
      (run (RegisterHook.eabKeys.step "node-a") unused eabEvents).crdt.eabKeys.get "kid" =
        some (eabKey (some 5)) := by
  have hlater : Meets (RegisterHook.challenges.step "node-a")
      (RegisterHook.challenges.Later "challenge") ⟨.empty, 0⟩ (events 5 6) :=
    ⟨⟨rfl, by decide +kernel⟩, ⟨rfl, by decide +kernel⟩, ⟨rfl, by decide +kernel⟩, trivial⟩
  have hused : Meets (RegisterHook.eabKeys.step "node-a") (RegisterHook.eabKeys.Later "kid") unused
      [.write (eabKey (some 5))] := ⟨⟨rfl, by decide +kernel⟩, trivial⟩
  have heab : Meets (RegisterHook.eabKeys.step "node-a") (RegisterHook.eabKeys.Later "kid") unused
      ([.write (eabKey (some 5))] ++ [.merge unused.crdt]) :=
    meets_append.mpr ⟨hused, meets_cons.mpr ⟨RegisterHook.later_own hused, trivial⟩⟩
  exact ⟨RegisterHook.last_write_kept hlater, RegisterHook.last_write_kept heab⟩

end OwnWrites

end Akamu
