import Akamu.Lib.Machine
import Akamu.Lib.ReplayWindow
import Akamu.Arith
import Akamu.Crdt.LocalOps

/-!
# Envelopes that a node accepts

`gossip_sync` at one process: who may send, how old an envelope may be, and the
cache of nonces that is to keep an envelope from being merged a second time.
Requests are handled one after another under a clock that never goes back;
between requests the replica changes in other ways.
-/

namespace Akamu.Gossip

open Machine Crdt ReplayWindow KeyedTable List

structure GossipEnvelope where
  crdt : List UInt8
  issuedAt : Int
  isDelta : Bool
  myGen : ℕ
  requestDeltaSince : Option ℕ
  nonce : List UInt8
  deriving DecidableEq, Repr

structure GossipConfig where
  gossipEnvelopeMaxAgeSecs : UInt64
  clockSkewToleranceSecs : UInt64

def maxAge (config : Option GossipConfig) : Int :=
  (config.map fun g ↦ asI64 g.gossipEnvelopeMaxAgeSecs).getD 300

def clockSkew (config : Option GossipConfig) : Int :=
  (config.map fun g ↦ asI64 g.clockSkewToleranceSecs).getD 30

/-- What other libraries do with the bytes on the wire; the node's own keys are
fixed.  `signAndSeal` includes the random nonce of the answer. -/
structure Wire (Body : Type) where
  verifyAndOpen : Body → List UInt8 → Option (List UInt8)
  decode : List UInt8 → Option GossipEnvelope
  decodeCrdt : List UInt8 → Option ClusterCrdt
  encodeCrdt : ClusterCrdt → Option (List UInt8)
  signAndSeal : String → List UInt8 → GossipEnvelope → Option Body

inductive StatusCode where
  | badRequest
  | unauthorized
  | tooManyRequests
  | internalServerError
  deriving DecidableEq, Repr

structure SyncRequest (Body : Type) where
  nodeIdHeader : Option String
  body : Body

abbrev NonceCache : Type := KeyedTable (List UInt8 × UnixTime) Prod.fst

/-- `merged` lists the envelopes whose payload was merged, the last one first;
the program does not keep it. -/
structure Receiver where
  replica : ClusterReplica
  nonceCache : NonceCache
  clock : UnixTime
  merged : List GossipEnvelope

def Receiver.start (replica : ClusterReplica) (clock : UnixTime) : Receiver :=
  ⟨replica, .empty, clock, []⟩

/-! ## The handler -/

def pinnedKeys (crdt : ClusterCrdt) (sender : String) : Option (List UInt8 × List UInt8) :=
  match crdt.clusterNodes.get sender with
  | none => none
  | some node =>
    if node.gossipSigningPubKeyDer = [] ∨ node.kemPublicKeyDer = [] then none
    else some (node.gossipSigningPubKeyDer, node.kemPublicKeyDer)

section Handler

variable {Body : Type} (wire : Wire Body) (config : Option GossipConfig)

/-- The envelope is neither from the future nor stale. -/
def Fresh (now : UnixTime) (envelope : GossipEnvelope) : Prop :=
  ¬ addI64 now.1 (clockSkew config) < envelope.issuedAt ∧
    ¬ envelope.issuedAt < subI64 now.1 (maxAge config)

instance (now : UnixTime) (envelope : GossipEnvelope) : Decidable (Fresh config now envelope) :=
  inferInstanceAs (Decidable (_ ∧ _))

def Kept (now stamp : UnixTime) : Prop := subI64 now.1 (maxAge config) ≤ stamp.1

instance (now stamp : UnixTime) : Decidable (Kept config now stamp) :=
  inferInstanceAs (Decidable (_ ≤ _))

def gossipNonceCacheMax : ℕ := 10000

/-- The cache afterwards, and the refusal if there is one.  The nonce of a
duplicate is stamped anew. -/
def checkNonce (now : UnixTime) (cache : NonceCache) (nonce : List UInt8) :
    NonceCache × Option StatusCode :=
  if nonce = [] then (cache, none)
  else if nonce.length < 16 then (cache, some .badRequest)
  else if 32 < nonce.length then (cache, some .badRequest)
  else
    let cache := cache.retain fun r ↦ decide (Kept config now r.2)
    if gossipNonceCacheMax ≤ cache.rows.length then (cache, some .tooManyRequests)
    else
      (cache.put (nonce, now),
        if (cache.find? nonce).isSome then some .badRequest else none)

/-- The answer to an accepted envelope; `since` is what the sender asks for and
`preGen` and `postGen` are the counter around the merge. -/
def answer (s : Receiver) (sender : String) (kemKey : List UInt8) (since : Option ℕ)
    (preGen postGen : ℕ) : Except StatusCode Body := do
  let (crdt, isDelta) := match since with
    | some since => (s.replica.crdt.deltaRange since preGen, true)
    | none => (s.replica.crdt, false)
  let bytes ← (wire.encodeCrdt crdt).elim (.error .internalServerError) .ok
  (wire.signAndSeal sender kemKey ⟨bytes, s.clock.1, isDelta, postGen, none, []⟩).elim
    (.error .internalServerError) .ok

def receive (s : Receiver) (sender : String) (kemKey : List UInt8) (envelope : GossipEnvelope) :
    Receiver × Except StatusCode Body :=
  if ¬ Fresh config s.clock envelope then (s, .error .badRequest)
  else
    let (cache, refusal) := checkNonce config s.clock s.nonceCache envelope.nonce
    let s := { s with nonceCache := cache }
    match refusal with
    | some code => (s, .error code)
    | none =>
      match wire.decodeCrdt envelope.crdt with
      | none => (s, .error .badRequest)
      | some peerCrdt =>
        let preGen := s.replica.gen
        let s := { s with
          replica := s.replica.merge peerCrdt
          merged := envelope :: s.merged }
        (s, answer wire s sender kemKey envelope.requestDeltaSince preGen s.replica.gen)

def gossipSync (s : Receiver) (req : SyncRequest Body) : Receiver × Except StatusCode Body :=
  let sender := req.nodeIdHeader.getD ""
  if sender = "" then (s, .error .badRequest)
  else if 64 < sender.utf8ByteSize then (s, .error .badRequest)
  else
    match pinnedKeys s.replica.crdt sender with
    | none => (s, .error .unauthorized)
    | some (signingKey, kemKey) =>
      match wire.verifyAndOpen req.body signingKey with
      | none => (s, .error .unauthorized)
      | some plaintext =>
        match wire.decode plaintext with
        | none => (s, .error .badRequest)
        | some envelope => receive wire config s sender kemKey envelope

/-! ## Runs of the process -/

inductive Event (Body : Type) where
  /-- Time passes; the clock does not go back. -/
  | tick (now : UnixTime)
  | sync (req : SyncRequest Body)
  | write (op : LocalOp)
  | merge (payload : ClusterCrdt)

def step (nodeId : String) (s : Receiver) : Event Body → Receiver × Option (Except StatusCode Body)
  | .tick now => ({ s with clock := max s.clock now }, none)
  | .sync req => ((gossipSync wire config s req).1, some (gossipSync wire config s req).2)
  | .write op => ({ s with replica := s.replica.apply nodeId op }, none)
  | .merge payload => ({ s with replica := s.replica.merge payload }, none)

/-- The request carries no envelope with a nonce that is dated ahead of the
clock within the tolerance. -/
def NotAhead (s : Receiver) : Event Body → Prop
  | .sync req => ∀ key plaintext envelope, wire.verifyAndOpen req.body key = some plaintext →
      wire.decode plaintext = some envelope → envelope.nonce ≠ [] →
        envelope.issuedAt ≤ s.clock.1 ∨ addI64 s.clock.1 (clockSkew config) < envelope.issuedAt
  | _ => True

end Handler

/-! ## Nonces are remembered long enough -/

section Window

variable {config : Option GossipConfig} {now : UnixTime} {envelope : GossipEnvelope}

theorem maxAge_bounds (config : Option GossipConfig) :
    -2 ^ 63 ≤ maxAge config ∧ maxAge config < 2 ^ 63 := by
  cases config with
  | none =>
    have hdefault : maxAge none = 300 := rfl
    omega
  | some g =>
    rw [maxAge, Option.map_some, Option.getD_some]
    exact asI64_bounds g.gossipEnvelopeMaxAgeSecs

theorem Kept.mono {now old new : UnixTime} (hle : old ≤ new) (h : Kept config now old) :
    Kept config now new :=
  le_trans h hle

/-- The cutoff moves up from any time at which it is not ahead of the clock. -/
theorem cutoff_le {stamp now later : UnixTime}
    (hstamp : subI64 stamp.1 (maxAge config) ≤ stamp.1) (hnow : stamp ≤ now)
    (hlater : now ≤ later) : subI64 now.1 (maxAge config) ≤ subI64 later.1 (maxAge config) := by
  have hnow' : stamp.1 ≤ now.1 := hnow
  have hlater' : now.1 ≤ later.1 := hlater
  have hage := maxAge_bounds config
  have hs := subI64_cases stamp.2 hage
  have hn := subI64_cases now.2 hage
  have hl := subI64_cases later.2 hage
  omega

/-- An envelope that is not dated ahead is stale when its nonce is dropped. -/
theorem outlasts_of_fresh (hfresh : Fresh config now envelope) (hdate : envelope.issuedAt ≤ now.1) :
    Outlasts (Fresh config) (Kept config) now envelope := by
  intro t ht hdropped later hlater hagain
  have hcutoff : subI64 now.1 (maxAge config) ≤ now.1 := (not_lt.mp hfresh.2).trans hdate
  have hmoved := cutoff_le hcutoff ht hlater
  apply hagain.2
  calc
    envelope.issuedAt ≤ now.1 := hdate
    _ < subI64 t.1 (maxAge config) := not_le.mp hdropped
    _ ≤ subI64 later.1 (maxAge config) := hmoved

end Window

/-! ## One request -/

section Steps

variable {Body : Type} {wire : Wire Body} {config : Option GossipConfig} {s : Receiver}

def Receiver.Remembers (config : Option GossipConfig) (s : Receiver) (x : GossipEnvelope) : Prop :=
  Covered (Fresh config) (Kept config) ((s.nonceCache.find? x.nonce).map Prod.snd) s.clock x

variable {cache' cache : NonceCache} {nonce : List UInt8}

theorem checkNonce_covered {now : UnixTime} {refusal : Option StatusCode}
    (h : checkNonce config now cache nonce = (cache', refusal)) {x : GossipEnvelope}
    (hx : Covered (Fresh config) (Kept config) ((cache.find? x.nonce).map Prod.snd) now x) :
    Covered (Fresh config) (Kept config) ((cache'.find? x.nonce).map Prod.snd) now x := by
  have hpruned : Covered (Fresh config) (Kept config)
      (((cache.retain fun r ↦ decide (Kept config now r.2)).find? x.nonce).map Prod.snd) now x := by
    rw [find?_retain]
    have hfilter := hx.prune (p := fun stamp ↦ decide (Kept config now stamp))
      fun stamp hk ↦ decide_eq_true hk
    rwa [Option.filter_map] at hfilter
  unfold checkNonce at h
  split at h
  · cases h
    exact hx
  split at h
  · cases h
    exact hx
  split at h
  · cases h
    exact hx
  dsimp only at h
  split at h
  · cases h
    exact hpruned
  · cases h
    rw [find?_put]
    split
    · exact hpruned.renew fun _ _ _ hle hk ↦ Kept.mono hle hk
    · exact hpruned

/-- A nonce that passes was not in the cache any more, and is in it now. -/
theorem checkNonce_passed {now : UnixTime} (h : checkNonce config now cache nonce = (cache', none))
    (hnonce : nonce ≠ []) :
    (cache.find? nonce).filter (fun r ↦ decide (Kept config now r.2)) = none ∧
      cache'.find? nonce = some (nonce, now) := by
  unfold checkNonce at h
  rw [if_neg hnonce] at h
  split at h
  · cases h
  split at h
  · cases h
  dsimp only at h
  split at h
  · cases h
  · obtain ⟨rfl, hrefusal⟩ := Prod.mk.inj h
    rw [← find?_retain]
    refine ⟨?_, find?_put_self _ (nonce, now)⟩
    split at hrefusal
    · cases hrefusal
    · rename_i hunseen
      exact Option.not_isSome_iff_eq_none.mp hunseen

theorem gossipSync_eq (s : Receiver) (req : SyncRequest Body) :
    (gossipSync wire config s req).1 = s ∨
      ∃ key plaintext envelope sender kemKey,
        wire.verifyAndOpen req.body key = some plaintext ∧ wire.decode plaintext = some envelope ∧
        gossipSync wire config s req = receive wire config s sender kemKey envelope := by
  unfold gossipSync
  dsimp only
  split
  · exact .inl rfl
  split
  · exact .inl rfl
  split
  · exact .inl rfl
  split
  · exact .inl rfl
  rename_i plaintext hopen
  split
  · exact .inl rfl
  rename_i envelope hdecode
  exact .inr ⟨_, plaintext, envelope, _, _, hopen, hdecode, rfl⟩

theorem receive_cases (s : Receiver) (sender : String) (kemKey : List UInt8)
    (envelope : GossipEnvelope) :
    (receive wire config s sender kemKey envelope).1 = s ∨
      Fresh config s.clock envelope ∧ ∃ cache refusal,
        checkNonce config s.clock s.nonceCache envelope.nonce = (cache, refusal) ∧
        ((receive wire config s sender kemKey envelope).1 = { s with nonceCache := cache } ∨
          refusal = none ∧ ∃ replica, (receive wire config s sender kemKey envelope).1 =
            { s with nonceCache := cache, replica := replica, merged := envelope :: s.merged }) := by
  unfold receive
  split
  · exact .inl rfl
  rename_i hfresh
  refine .inr ⟨not_not.mp hfresh, _, _, rfl, ?_⟩
  dsimp only
  split
  · exact .inl rfl
  rename_i hpassed
  split
  · exact .inl rfl
  · exact .inr ⟨hpassed, _, rfl⟩

/-- No envelope with a nonce was merged twice, and those that were merged are
remembered. -/
def Once (config : Option GossipConfig) (s : Receiver) : Prop :=
  ∀ x : GossipEnvelope, x.nonce ≠ [] →
    s.merged.count x ≤ 1 ∧ (x ∈ s.merged → s.Remembers config x)

theorem once_sync (h : Once config s) {req : SyncRequest Body}
    (hreq : NotAhead wire config s (.sync req)) : Once config (gossipSync wire config s req).1 := by
  obtain heq | ⟨key, plaintext, envelope, sender, kemKey, hopen, hdecode, heq⟩ :=
    gossipSync_eq s req
  · rw [heq]
    exact h
  rw [heq]
  obtain heq | ⟨hfresh, cache, refusal, hcheck, hafter⟩ := receive_cases s sender kemKey envelope
  · rw [heq]
    exact h
  intro x hx
  obtain ⟨hcount, hseen⟩ := h x hx
  have hkept : x ∈ s.merged → Covered (Fresh config) (Kept config)
      ((cache.find? x.nonce).map Prod.snd) s.clock x :=
    fun hmem ↦ checkNonce_covered hcheck (hseen hmem)
  rcases hafter with heq | ⟨rfl, replica, heq⟩
  · rw [heq]
    exact ⟨hcount, hkept⟩
  rw [heq]
  by_cases hself : envelope = x
  · subst hself
    obtain ⟨hunseen, hstored⟩ := checkNonce_passed hcheck hx
    have hnew : envelope ∉ s.merged := by
      intro hmem
      have hcovered := (hseen hmem).prune (p := fun stamp ↦ decide (Kept config s.clock stamp))
        fun stamp hk ↦ decide_eq_true hk
      rw [Option.filter_map] at hcovered
      have hnone : Option.map Prod.snd (Option.filter
          ((fun stamp ↦ decide (Kept config s.clock stamp)) ∘ Prod.snd)
          (s.nonceCache.find? envelope.nonce)) = none := congrArg (Option.map Prod.snd) hunseen
      rw [hnone] at hcovered
      exact hcovered.not_fresh hfresh
    have hdate : envelope.issuedAt ≤ s.clock.1 :=
      (hreq key plaintext envelope hopen hdecode hx).resolve_right hfresh.1
    constructor
    · simp [count_eq_zero.mpr hnew]
    · intro _
      refine .inl ⟨s.clock, le_rfl, ?_, outlasts_of_fresh hfresh hdate⟩
      exact congrArg (Option.map Prod.snd) hstored
  · constructor
    · simpa [count_cons_of_ne hself] using hcount
    · intro hmem
      exact hkept ((mem_cons.mp hmem).resolve_left (Ne.symm hself))

theorem once_step {nodeId : String} (h : Once config s) (e : Event Body)
    (he : NotAhead wire config s e) : Once config (step wire config nodeId s e).1 := by
  cases e with
  | tick now =>
    intro x hx
    exact ⟨(h x hx).1, fun hmem ↦ ((h x hx).2 hmem).later (le_max_left s.clock now)⟩
  | sync => exact once_sync h he
  | write | merge => exact h

end Steps

/-! ## Runs -/

/-- As long as no envelope is dated ahead of the clock, each is merged once. -/
theorem envelope_merged_once {Body : Type} {wire : Wire Body} {config : Option GossipConfig}
    {nodeId : String} {replica : ClusterReplica} {clock : UnixTime} {es : List (Event Body)}
    (hdates : Meets (step wire config nodeId) (NotAhead wire config)
      (Receiver.start replica clock) es) {x : GossipEnvelope} (hx : x.nonce ≠ []) :
    (run (step wire config nodeId) (Receiver.start replica clock) es).merged.count x ≤ 1 := by
  have hstart : Once config (Receiver.start replica clock) := fun x _ ↦
    ⟨Nat.zero_le 1, fun hmem ↦ absurd hmem List.not_mem_nil⟩
  exact ((hdates.invariant (Once config) hstart fun s e h he ↦ once_step h e he) x hx).1

/-! ### Traces -/

def aheadEnvelope : GossipEnvelope := ⟨[], 1030, false, 0, none, List.replicate 16 7⟩

def punctualEnvelope : GossipEnvelope := ⟨[], 1000, false, 0, none, List.replicate 16 8⟩

def plainWire : Wire (List UInt8) where
  verifyAndOpen body _ := some body
  decode
    | [0] => some aheadEnvelope
    | [1] => some punctualEnvelope
    | _ => none
  decodeCrdt _ := some .empty
  encodeCrdt _ := some []
  signAndSeal _ _ _ := some []

def peerNode : AkaNodeEntry := ⟨"node-b", "https://b", [1], [2], [3], [], 1⟩

def enrolled : Receiver :=
  .start ((⟨.empty, 0⟩ : ClusterReplica).apply "node-a"
    (.or .clusterNodes (.upsert "node-b" peerNode 1))) ⟨1000, by decide⟩

def fromPeer (body : List UInt8) : Event (List UInt8) := .sync ⟨some "node-b", body⟩

/-- After 301 seconds the nonce is gone, but the envelope is only 271 seconds
old. -/
theorem envelope_ahead_replayed :
    (run (step plainWire none "node-a") enrolled
      [fromPeer [0], .tick ⟨1301, by decide⟩, fromPeer [0]]).merged.count aheadEnvelope = 2 := by
  decide +kernel

def resent : List (Event (List UInt8)) :=
  [fromPeer [1], fromPeer [1], .tick ⟨1301, by decide⟩, fromPeer [1]]

theorem envelope_resent_merged_once :
    punctualEnvelope ∈ (run (step plainWire none "node-a") enrolled resent).merged ∧
      (run (step plainWire none "node-a") enrolled resent).merged.count punctualEnvelope ≤ 1 := by
  have hdates : Meets (step plainWire none "node-a") (NotAhead plainWire none) enrolled resent := by
    refine ⟨?_, ?_, trivial, ?_, trivial⟩
    all_goals
      intro key plaintext envelope hopen hdecode _
      cases hopen
      cases hdecode
      exact .inl (by decide +kernel)
  exact ⟨by decide +kernel, envelope_merged_once hdates (by decide)⟩

end Akamu.Gossip
