import Akamu.Lib.Machine
import Akamu.Crdt.Delta

/-!
# What the gossip loop pushes

The loop of `gossip_loop.rs` at one node, in the steps in which it takes and
releases the replica's lock, interleaved with local writes and with the merges
of `gossip_sync`.  `peer_last_gen` is the counter as of the end of the last
round with a peer; later deltas for that peer leave out whatever is not beyond
it.

Which peers are contacted, in which order they answer and what they answer is
open.  A peer stands for its URL, in `gossip_sync` for the URL it is enrolled
under.
-/

namespace Akamu.Push

open Machine Crdt ClusterCrdt List

/-! ## The loop -/

structure Flight where
  url : String
  payload : ClusterCrdt

structure Reply where
  url : String
  response : ClusterCrdt
  myGen : ℕ

inductive Phase where
  | idle
  | begun (currentGen : ℕ)
  | sent (flights : List Flight) (replies : List Reply)
  | combined (acc : ClusterCrdt) (replies : List Reply)
  | merged (replies : List Reply)
  | stamped (postMergeGen : ℕ) (replies : List Reply)

/-- The state of the loop, with the replica.  `known` is what a peer has
acknowledged or sent so far; the program does not keep it. -/
structure Loop where
  replica : ClusterReplica
  peerLastGen : String → Option ℕ
  peerResponseGen : String → Option ℕ
  phase : Phase
  known : String → List ClusterCrdt

inductive Event where
  | write (op : LocalOp)
  /-- `gossip_sync` has accepted a payload. -/
  | sync (peer : String) (payload : ClusterCrdt)
  /-- The peer list is built, the per-peer maps are pruned, the counter is read. -/
  | start (peers : List String)
  | prepare (peers : List String)
  /-- An envelope could not be sent. -/
  | drop (url : String)
  | fail (url : String)
  | respond (url : String) (response : ClusterCrdt) (myGen : ℕ)
  /-- The responses are merged in a scratch state, without a lock. -/
  | combine
  | mergeCombined
  | stamp
  | record

namespace Loop

variable (s : Loop)

def payloadFor (url : String) : ClusterCrdt :=
  match s.peerLastGen url with
  | some since => s.replica.crdt.deltaSince since
  | none => s.replica.crdt

/-- A peer that is up to date is skipped. -/
def prepareOne (currentGen : ℕ) (url : String) : Option Flight :=
  if s.peerLastGen url = some currentGen then none else some ⟨url, s.payloadFor url⟩

def learn (url : String) (states : List ClusterCrdt) : Loop :=
  { s with known := fun u ↦ if u = url then states ++ s.known u else s.known u }

def forget (url : String) : Loop :=
  { s with
    peerLastGen := fun u ↦ if u = url then none else s.peerLastGen u
    peerResponseGen := fun u ↦ if u = url then none else s.peerResponseGen u }

def recordOne (postMergeGen : ℕ) (r : Reply) : Loop :=
  { s with
    peerLastGen := fun u ↦ if u = r.url then some postMergeGen else s.peerLastGen u
    peerResponseGen := fun u ↦
      if u = r.url ∧ 0 < r.myGen then some r.myGen else s.peerResponseGen u }

end Loop

def combine (gen : ℕ) (replies : List Reply) : ClusterReplica :=
  replies.foldl (fun acc r ↦ acc.merge r.response) ⟨.empty, gen⟩

def step (nodeId : String) (s : Loop) : Event → Loop × Unit
  | .write op => ({ s with replica := s.replica.apply nodeId op }, ())
  | .sync peer payload =>
    ({ s with replica := s.replica.merge payload }.learn peer [payload], ())
  | .start peers =>
    match s.phase with
    | .idle =>
      ({ s with
        peerLastGen := fun u ↦ if u ∈ peers then s.peerLastGen u else none
        peerResponseGen := fun u ↦ if u ∈ peers then s.peerResponseGen u else none
        phase := .begun s.replica.gen }, ())
    | _ => (s, ())
  | .prepare peers =>
    match s.phase with
    | .begun currentGen =>
      ({ s with phase := .sent (peers.filterMap (s.prepareOne currentGen)) [] }, ())
    | _ => (s, ())
  | .drop url =>
    match s.phase with
    | .sent flights replies =>
      ({ s with phase := .sent (flights.filter (·.url ≠ url)) replies }, ())
    | _ => (s, ())
  | .fail url =>
    match s.phase with
    | .sent flights replies =>
      ({ s.forget url with phase := .sent (flights.filter (·.url ≠ url)) replies }, ())
    | _ => (s, ())
  | .respond url response myGen =>
    match s.phase with
    | .sent flights replies =>
      match flights.find? (·.url = url) with
      | some f =>
        ({ s.learn url [f.payload, response] with
          phase := .sent (flights.filter (·.url ≠ url)) (replies ++ [⟨url, response, myGen⟩]) },
          ())
      | none => (s, ())
    | _ => (s, ())
  | .combine =>
    match s.phase with
    | .sent [] replies =>
      ({ s with
        replica := ⟨s.replica.crdt, (combine s.replica.gen replies).gen⟩
        phase := .combined (combine s.replica.gen replies).crdt replies }, ())
    | _ => (s, ())
  | .mergeCombined =>
    match s.phase with
    | .combined acc replies => ({ s with replica := s.replica.merge acc, phase := .merged replies }, ())
    | _ => (s, ())
  | .stamp =>
    match s.phase with
    | .merged replies => ({ s with phase := .stamped s.replica.gen replies }, ())
    | _ => (s, ())
  | .record =>
    match s.phase with
    | .stamped postMergeGen replies =>
      ({ replies.foldl (fun s r ↦ s.recordOne postMergeGen r) s with phase := .idle }, ())
    | _ => (s, ())

def Loop.start (r : ClusterReplica) : Loop := ⟨r, fun _ ↦ none, fun _ ↦ none, .idle, fun _ ↦ []⟩

/-! ## What peers have -/

def IsEntry (c : ClusterCrdt) (x : Cell) : Prop :=
  (c.slot x).content ≠ (ClusterCrdt.empty.slot x).content

namespace Loop

variable (s : Loop)

def Has (peer : String) (x : Cell) : Prop :=
  ∃ c ∈ s.known peer, (c.slot x).content = (s.replica.crdt.slot x).content

def HasUpTo (peer : String) (gen : ℕ) : Prop :=
  ∀ x, IsEntry s.replica.crdt x → (s.replica.crdt.slot x).gen ≤ gen → s.Has peer x

def HasAll (peer : String) : Prop := ∀ x, IsEntry s.replica.crdt x → s.Has peer x

/-- No peer is passed over: what the recorded generation covers the peer has,
and the rest is in the next payload for it. -/
def Safe : Prop :=
  ∀ peer, (∀ gen, s.peerLastGen peer = some gen → s.HasUpTo peer gen) ∧
    ∀ x, IsEntry s.replica.crdt x →
      s.Has peer x ∨ ((s.payloadFor peer).slot x).content = (s.replica.crdt.slot x).content

end Loop

/-- The peers of the round under way: with an envelope built and the result not
yet recorded. -/
def Phase.peers : Phase → List String
  | .sent flights replies => flights.map Flight.url ++ replies.map Reply.url
  | .combined _ replies => replies.map Reply.url
  | .merged replies => replies.map Reply.url
  | _ => []

/-- Merging the payload would change nothing. -/
def BringsNothing (payload crdt : ClusterCrdt) : Prop :=
  ∀ x, (payload.slot x).content.Subsumed (crdt.slot x).content

/-- While a round is under way the replica takes in nothing new, except from the
only peer of that round. -/
def Quiet (s : Loop) : Event → Prop
  | .write _ => s.phase.peers = []
  | .sync peer payload =>
    (∀ u ∈ s.phase.peers, u = peer) ∨ BringsNothing payload s.replica.crdt
  | .mergeCombined =>
    match s.phase with
    | .combined _ replies =>
      replies.length ≤ 1 ∨ ∀ r ∈ replies, BringsNothing r.response s.replica.crdt
    | _ => True
  | _ => True

/-! ## The invariant -/

def Phase.Sound (s : Loop) : Phase → Prop
  | .idle => True
  | .begun _ => True
  | .sent flights replies =>
    (∀ f ∈ flights, ∀ x, IsEntry s.replica.crdt x →
      s.Has f.url x ∨ (f.payload.slot x).content = (s.replica.crdt.slot x).content) ∧
    ∀ r ∈ replies, s.HasAll r.url ∧ r.response ∈ s.known r.url
  | .combined acc replies =>
    (∀ r ∈ replies, s.HasAll r.url ∧ r.response ∈ s.known r.url) ∧
    ∀ x, (acc.slot x).content = (ClusterCrdt.empty.slot x).content ∨
      ∃ r ∈ replies, (acc.slot x).content = (r.response.slot x).content
  | .merged replies => ∀ r ∈ replies, s.HasAll r.url
  | .stamped gen replies => gen ≤ s.replica.gen ∧ ∀ r ∈ replies, s.HasUpTo r.url gen

structure Inv (s : Loop) : Prop where
  last : ∀ peer gen, s.peerLastGen peer = some gen → gen ≤ s.replica.gen ∧ s.HasUpTo peer gen
  phase : s.phase.Sound s

theorem Inv.safe {s : Loop} (h : Inv s) : s.Safe := by
  intro peer
  refine ⟨fun gen hgen ↦ (h.last peer gen hgen).2, fun x hx ↦ ?_⟩
  unfold Loop.payloadFor
  split
  · rename_i since hlast
    by_cases hgen : since < (s.replica.crdt.slot x).gen
    · right
      rw [slot_deltaSince, if_pos hgen]
    · exact .inl ((h.last peer since hlast).2 x hx (not_lt.mp hgen))
  · exact .inr rfl

theorem inv_start (r : ClusterReplica) : Inv (Loop.start r) where
  last _ _ h := by cases h
  phase := trivial

/-! ### Steps that touch the replica -/

section Steps

variable {s s' : Loop} {peer : String} {gen : ℕ}

theorem Loop.Has.of_content_eq {x : Cell} (h : s.Has peer x) (hknown : s.known peer ⊆ s'.known peer)
    (heq : (s'.replica.crdt.slot x).content = (s.replica.crdt.slot x).content) : s'.Has peer x := by
  obtain ⟨c, hc, hcontent⟩ := h
  exact ⟨c, hknown hc, hcontent.trans heq.symm⟩

/-- Changes beyond the counter do not concern a generation that was recorded. -/
theorem Loop.HasUpTo.touched (h : s.HasUpTo peer gen) (hgen : gen ≤ s.replica.gen)
    (hknown : s.known peer ⊆ s'.known peer)
    (htouched : ∀ x, Slot.Moved s.replica.gen s'.replica.gen (s.replica.crdt.slot x)
      (s'.replica.crdt.slot x) ∨ s'.replica.crdt.slot x = ClusterCrdt.empty.slot x) :
    s'.HasUpTo peer gen := by
  intro x hx hle
  rcases htouched x with hmoved | hempty
  · have hsame := hmoved.eq_of_gen_le (hle.trans hgen)
    rw [IsEntry, hsame] at hx
    rw [hsame] at hle
    exact (h x hx hle).of_content_eq hknown (congrArg Slot.content hsame)
  · exact absurd (congrArg Slot.content hempty) hx

theorem Loop.HasAll.settled (h : s.HasAll peer) (hknown : s.known peer ⊆ s'.known peer)
    (hnew : ∀ x, IsEntry s'.replica.crdt x →
      s'.replica.crdt.slot x = s.replica.crdt.slot x ∨ s'.Has peer x) : s'.HasAll peer := by
  intro x hx
  rcases hnew x hx with hsame | hhas
  · rw [IsEntry, hsame] at hx
    exact (h x hx).of_content_eq hknown (congrArg Slot.content hsame)
  · exact hhas

theorem Inv.write (h : Inv s) (nodeId : String) (op : LocalOp) (hquiet : s.phase.peers = []) :
    Inv { s with replica := s.replica.apply nodeId op } := by
  obtain ⟨hgen, htouched⟩ := s.replica.apply_cases nodeId op
  have hphase := h.phase
  refine ⟨fun peer gen hlast ↦ ?_, ?_⟩
  · obtain ⟨hle, hhas⟩ := h.last peer gen hlast
    exact ⟨hle.trans hgen, hhas.touched hle (List.Subset.refl _) htouched⟩
  · cases hp : s.phase with
    | idle | begun => trivial
    | sent =>
      rw [hp] at hquiet
      obtain ⟨hflights, hreplies⟩ := append_eq_nil_iff.mp hquiet
      rw [map_eq_nil_iff] at hflights hreplies
      subst hflights hreplies
      exact ⟨fun f hf ↦ absurd hf not_mem_nil, fun r hr ↦ absurd hr not_mem_nil⟩
    | combined =>
      rw [hp] at hquiet hphase
      have hreplies := map_eq_nil_iff.mp hquiet
      subst hreplies
      exact ⟨fun r hr ↦ absurd hr not_mem_nil, hphase.2⟩
    | merged =>
      rw [hp] at hquiet
      have hreplies := map_eq_nil_iff.mp hquiet
      subst hreplies
      exact fun r hr ↦ absurd hr not_mem_nil
    | stamped =>
      rw [hp] at hphase
      exact ⟨hphase.1.trans hgen, fun r hr ↦
        (hphase.2 r hr).touched hphase.1 (List.Subset.refl _) htouched⟩

theorem Loop.subset_learn (url : String) (states : List ClusterCrdt) (peer : String) :
    s.known peer ⊆ (s.learn url states).known peer := by
  unfold Loop.learn
  dsimp only
  split
  · exact subset_append_right _ _
  · exact List.Subset.refl _

theorem Loop.mem_learn (url : String) (states : List ClusterCrdt) {c : ClusterCrdt}
    (hc : c ∈ states) : c ∈ (s.learn url states).known url := by
  unfold Loop.learn
  dsimp only
  rw [if_pos rfl]
  exact mem_append_left _ hc

theorem Loop.sync_cases (s : Loop) (sender : String) (payload : ClusterCrdt) (x : Cell) :
    ({ s with replica := s.replica.merge payload }.learn sender [payload]).replica.crdt.slot x =
        s.replica.crdt.slot x ∨
      ({ s with replica := s.replica.merge payload }.learn sender [payload]).Has sender x := by
  have hmerged := s.replica.crdt.slot_merge s.replica.gen payload x
  change (s.replica.merge payload).crdt.slot x = _ ∨ _
  change Slot.Merged _ _ _ _ ((s.replica.merge payload).crdt.slot x) at hmerged
  generalize hnew : (s.replica.merge payload).crdt.slot x = new at hmerged
  cases hmerged with
  | kept => exact .inl rfl
  | taken =>
    refine .inr ⟨payload, Loop.mem_learn sender _ mem_cons_self, ?_⟩
    exact (congrArg Slot.content hnew).symm

theorem Inv.sync (h : Inv s) (sender : String) (payload : ClusterCrdt)
    (hquiet : (∀ u ∈ s.phase.peers, u = sender) ∨ BringsNothing payload s.replica.crdt) :
    Inv ({ s with replica := s.replica.merge payload }.learn sender [payload]) := by
  obtain ⟨hgen, hmerged⟩ := s.replica.crdt.merge_spec s.replica.gen payload
  have htouched : ∀ x, Slot.Moved s.replica.gen (s.replica.merge payload).gen
      (s.replica.crdt.slot x) ((s.replica.merge payload).crdt.slot x) ∨
        (s.replica.merge payload).crdt.slot x = ClusterCrdt.empty.slot x :=
    fun x ↦ .inl (hmerged x).moved
  -- a peer of the round under way is the sender, or nothing changes at all
  have hpeer : ∀ u ∈ s.phase.peers, ∀ x,
      ({ s with replica := s.replica.merge payload }.learn sender [payload]).replica.crdt.slot x =
        s.replica.crdt.slot x ∨
      ({ s with replica := s.replica.merge payload }.learn sender [payload]).Has u x := by
    intro u hu x
    rcases hquiet with hsame | hnothing
    · rw [hsame u hu]
      exact s.sync_cases sender payload x
    · exact .inl ((hmerged x).eq_of_subsumed (hnothing x))
  have hknown := Loop.subset_learn (s := { s with replica := s.replica.merge payload }) sender
    [payload]
  have hphase := h.phase
  refine ⟨fun peer gen hlast ↦ ?_, ?_⟩
  · obtain ⟨hle, hhas⟩ := h.last peer gen hlast
    exact ⟨hle.trans hgen, hhas.touched hle (hknown peer) htouched⟩
  · cases hp : s.phase with
    | idle | begun => trivial
    | sent flights replies =>
      rw [hp] at hphase hpeer
      refine ⟨fun f hf x hx ↦ ?_, fun r hr ↦ ⟨?_, hknown _ (hphase.2 r hr).2⟩⟩
      · have hu : f.url ∈ (Phase.sent flights replies).peers :=
          mem_append_left _ (mem_map_of_mem hf)
        rcases hpeer f.url hu x with hsame | hhas
        · rw [IsEntry, hsame] at hx
          rw [hsame]
          exact (hphase.1 f hf x hx).imp_left
            (·.of_content_eq (hknown _) (congrArg Slot.content hsame))
        · exact .inl hhas
      · exact (hphase.2 r hr).1.settled (hknown _) fun x _ ↦
          hpeer r.url (mem_append_right _ (mem_map_of_mem hr)) x
    | combined =>
      rw [hp] at hphase hpeer
      exact ⟨fun r hr ↦ ⟨(hphase.1 r hr).1.settled (hknown _) fun x _ ↦
        hpeer r.url (mem_map_of_mem hr) x, hknown _ (hphase.1 r hr).2⟩, hphase.2⟩
    | merged =>
      rw [hp] at hphase hpeer
      exact fun r hr ↦ (hphase r hr).settled (hknown _) fun x _ ↦
        hpeer r.url (mem_map_of_mem hr) x
    | stamped =>
      rw [hp] at hphase
      exact ⟨hphase.1.trans hgen, fun r hr ↦
        (hphase.2 r hr).touched hphase.1 (hknown _) htouched⟩

theorem combine_spec (gen : ℕ) (replies : List Reply) :
    gen ≤ (combine gen replies).gen ∧ ∀ x,
      ((combine gen replies).crdt.slot x).content = (ClusterCrdt.empty.slot x).content ∨
        ∃ r ∈ replies, ((combine gen replies).crdt.slot x).content =
          (r.response.slot x).content := by
  have hfold : ∀ (replies : List Reply) (acc : ClusterReplica),
      acc.gen ≤ (replies.foldl (fun acc r ↦ acc.merge r.response) acc).gen ∧ ∀ x,
        ((replies.foldl (fun acc r ↦ acc.merge r.response) acc).crdt.slot x).content =
            (acc.crdt.slot x).content ∨
          ∃ r ∈ replies, ((replies.foldl (fun acc r ↦ acc.merge r.response) acc).crdt.slot
            x).content = (r.response.slot x).content := by
    intro replies
    induction replies with
    | nil => exact fun acc ↦ ⟨le_rfl, fun x ↦ .inl rfl⟩
    | cons r replies ih =>
      intro acc
      obtain ⟨hgen, hmerged⟩ := acc.crdt.merge_spec acc.gen r.response
      obtain ⟨hgen', hcontent⟩ := ih (acc.merge r.response)
      refine ⟨hgen.trans hgen', fun x ↦ ?_⟩
      rcases hcontent x with hacc | ⟨r', hr', hresponse⟩
      · rw [foldl_cons, hacc]
        have hx := hmerged x
        change Slot.Merged _ _ _ _ ((acc.merge r.response).crdt.slot x) at hx
        generalize (acc.merge r.response).crdt.slot x = new at hx
        cases hx with
        | kept => exact .inl rfl
        | taken => exact .inr ⟨r, mem_cons_self, rfl⟩
      · exact .inr ⟨r', mem_cons_of_mem r hr', hresponse⟩
  exact hfold replies ⟨.empty, gen⟩

variable {replies : List Reply} {flights : List Flight}

theorem Inv.mergeCombined (h : Inv s) {acc : ClusterCrdt} (hp : s.phase = .combined acc replies)
    (hquiet : replies.length ≤ 1 ∨ ∀ r ∈ replies, BringsNothing r.response s.replica.crdt) :
    Inv { s with replica := s.replica.merge acc, phase := .merged replies } := by
  obtain ⟨hgen, hmerged⟩ := s.replica.crdt.merge_spec s.replica.gen acc
  have hphase := h.phase
  rw [hp] at hphase
  obtain ⟨hreplies, hacc⟩ := hphase
  refine ⟨fun peer gen hlast ↦ ?_, fun r hr ↦ ?_⟩
  · obtain ⟨hle, hhas⟩ := h.last peer gen hlast
    exact ⟨hle.trans hgen, hhas.touched hle (List.Subset.refl _) fun x ↦ .inl (hmerged x).moved⟩
  · refine (hreplies r hr).1.settled (List.Subset.refl _) fun x hx ↦ ?_
    rcases hquiet with hone | hnothing
    · -- the only reply is `r`, so what is new comes from it
      have hx' := hmerged x
      change Slot.Merged _ _ _ _ ((s.replica.merge acc).crdt.slot x) at hx'
      generalize hnew : (s.replica.merge acc).crdt.slot x = new at hx'
      cases hx' with
      | kept => exact .inl rfl
      | taken =>
        have hcontent : ((s.replica.merge acc).crdt.slot x).content = (acc.slot x).content := by
          rw [hnew]
        rcases hacc x with hempty | ⟨r', hr', hresponse⟩
        · exact absurd (hcontent.trans hempty) hx
        · obtain rfl : r' = r := by
            match replies, hone, hr, hr' with
            | [a], _, hr, hr' => rw [mem_singleton.mp hr, mem_singleton.mp hr']
          exact .inr ⟨r'.response, (hreplies r' hr).2, (hcontent.trans hresponse).symm⟩
    · refine .inl ((hmerged x).eq_of_subsumed ?_)
      rcases hacc x with hempty | ⟨r', hr', hresponse⟩
      · rw [hempty]
        exact empty_subsumed x _
      · rw [hresponse]
        exact hnothing r' hr' x

/-! ### Steps of the loop itself -/

theorem Inv.of_phase (h : Inv s) {phase : Phase} (hphase : phase.Sound { s with phase := phase }) :
    Inv { s with phase := phase } :=
  ⟨h.last, hphase⟩

theorem Inv.prepare (h : Inv s) (currentGen : ℕ) (peers : List String) :
    Inv { s with phase := .sent (peers.filterMap (s.prepareOne currentGen)) [] } := by
  refine h.of_phase ⟨fun f hf x hx ↦ ?_, fun r hr ↦ absurd hr not_mem_nil⟩
  obtain ⟨url, -, hone⟩ := mem_filterMap.mp hf
  unfold Loop.prepareOne at hone
  split at hone
  · cases hone
  · cases hone
    exact (h.safe url).2 x hx

theorem Inv.respond (h : Inv s) (hp : s.phase = .sent flights replies) {url : String} {f : Flight}
    (hf : f ∈ flights) (hurl : f.url = url) (response : ClusterCrdt) (myGen : ℕ) :
    Inv { s.learn url [f.payload, response] with
      phase := .sent (flights.filter (·.url ≠ url)) (replies ++ [⟨url, response, myGen⟩]) } := by
  have hphase := h.phase
  rw [hp] at hphase
  have hknown := Loop.subset_learn (s := s) url [f.payload, response]
  have hsame : ∀ {peer x}, s.Has peer x → (s.learn url [f.payload, response]).Has peer x :=
    fun {peer x} hhas ↦ hhas.of_content_eq (hknown peer) rfl
  refine ⟨fun peer gen hlast ↦ ?_, fun f' hf' x hx ↦ ?_, fun r hr ↦ ?_⟩
  · obtain ⟨hle, hhas⟩ := h.last peer gen hlast
    exact ⟨hle, fun x hx hxgen ↦ hsame (hhas x hx hxgen)⟩
  · exact (hphase.1 f' (mem_of_mem_filter hf') x hx).imp_left hsame
  · rcases mem_append.mp hr with hold | hnew
    · exact ⟨fun x hx ↦ hsame ((hphase.2 r hold).1 x hx), hknown _ (hphase.2 r hold).2⟩
    · rw [mem_singleton.mp hnew]
      refine ⟨fun x hx ↦ ?_, Loop.mem_learn url _ (by simp)⟩
      rcases hphase.1 f hf x hx with hhas | hpayload
      · rw [hurl] at hhas
        exact hsame hhas
      · exact ⟨f.payload, Loop.mem_learn url _ mem_cons_self, hpayload⟩

theorem Inv.forget (h : Inv s) (hp : s.phase = .sent flights replies) (url : String) :
    Inv { s.forget url with phase := .sent (flights.filter (·.url ≠ url)) replies } := by
  have hphase := h.phase
  rw [hp] at hphase
  refine ⟨fun peer gen hlast ↦ ?_, fun f hf ↦ hphase.1 f (mem_of_mem_filter hf), hphase.2⟩
  simp only [Loop.forget] at hlast
  split at hlast
  · cases hlast
  · exact h.last peer gen hlast

theorem Inv.recordOne (h : Inv s) {r : Reply} (hgen : gen ≤ s.replica.gen)
    (hr : s.HasUpTo r.url gen) (hp : s.phase = .idle) : Inv (s.recordOne gen r) := by
  refine ⟨fun peer g hlast ↦ ?_, ?_⟩
  · simp only [Loop.recordOne] at hlast
    split at hlast
    · rename_i hpeer
      cases hlast
      rw [hpeer]
      exact ⟨hgen, hr⟩
    · exact h.last peer g hlast
  · change s.phase.Sound _
    rw [hp]
    trivial

theorem Inv.record (h : Inv s) (hgen : gen ≤ s.replica.gen)
    (hreplies : ∀ r ∈ replies, s.HasUpTo r.url gen) (hp : s.phase = .idle) :
    Inv (replies.foldl (fun s r ↦ s.recordOne gen r) s) := by
  induction replies generalizing s with
  | nil => exact h
  | cons r replies ih =>
    exact ih (h.recordOne hgen (hreplies r mem_cons_self) hp) hgen
      (fun r' hr' ↦ hreplies r' (mem_cons_of_mem r hr')) hp

theorem Loop.record_phase (replies : List Reply) (phase : Phase) (s : Loop) :
    { replies.foldl (fun s r ↦ s.recordOne gen r) s with phase := phase } =
      replies.foldl (fun s r ↦ s.recordOne gen r) { s with phase := phase } := by
  induction replies generalizing s with
  | nil => rfl
  | cons r replies ih => exact ih (s.recordOne gen r)

theorem inv_step {nodeId : String} (h : Inv s) (e : Event) (hquiet : Quiet s e) :
    Inv (step nodeId s e).1 := by
  have hphase := h.phase
  cases e with
  | write op => exact h.write nodeId op hquiet
  | sync peer payload => exact h.sync peer payload hquiet
  | start =>
    simp only [step]
    split
    · refine ⟨fun peer gen hlast ↦ ?_, trivial⟩
      simp only at hlast
      split at hlast
      · exact h.last peer gen hlast
      · cases hlast
    · exact h
  | prepare peers =>
    simp only [step]
    split
    · exact h.prepare _ peers
    · exact h
  | drop =>
    simp only [step]
    split
    · rename_i flights replies hp
      rw [hp] at hphase
      exact h.of_phase ⟨fun f hf ↦ hphase.1 f (mem_of_mem_filter hf), hphase.2⟩
    · exact h
  | fail url =>
    simp only [step]
    split
    · rename_i hp
      exact h.forget hp url
    · exact h
  | respond url response myGen =>
    simp only [step]
    split
    · rename_i flights replies hp
      split
      · rename_i f hfind
        exact h.respond hp (mem_of_find?_eq_some hfind)
          (by simpa using find?_some hfind) response myGen
      · exact h
    · exact h
  | combine =>
    simp only [step]
    split
    · rename_i replies hp
      rw [hp] at hphase
      obtain ⟨hgen, hcontent⟩ := combine_spec s.replica.gen replies
      refine ⟨fun peer gen hlast ↦ ?_, hphase.2, hcontent⟩
      obtain ⟨hle, hhas⟩ := h.last peer gen hlast
      exact ⟨hle.trans hgen, hhas⟩
    · exact h
  | mergeCombined =>
    simp only [step]
    split
    · rename_i acc replies hp
      simp only [Quiet, hp] at hquiet
      exact h.mergeCombined hp hquiet
    · exact h
  | stamp =>
    simp only [step]
    split
    · rename_i replies hp
      rw [hp] at hphase
      exact h.of_phase ⟨le_rfl, fun r hr x hx _ ↦ hphase r hr x hx⟩
    · exact h
  | record =>
    simp only [step]
    split
    · rename_i postMergeGen replies hp
      rw [hp] at hphase
      rw [Loop.record_phase]
      have hidle : Inv { s with phase := .idle } := h.of_phase trivial
      exact hidle.record hphase.1 hphase.2 rfl
    · exact h

end Steps

/-! ## Runs -/

/-- In every quiet run, at all times, no peer has been passed over. -/
theorem no_entry_skipped {nodeId : String} {r : ClusterReplica} {es : List Event}
    (hquiet : Meets (step nodeId) Quiet (Loop.start r) es) :
    (run (step nodeId) (Loop.start r) es).Safe :=
  (hquiet.invariant Inv (inv_start r) fun _ e h hq ↦ inv_step h e hq).safe

def account (id : String) : AccountEntry :=
  ⟨id, "valid", none, [], id, 1, 1, none, "default"⟩

def writeDuringRound : List Event :=
  [.write (.or .accounts (.upsert "first" (account "first") 1)),
   .start ["https://b"], .prepare ["https://b"],
   .write (.or .accounts (.upsert "second" (account "second") 1)),
   .respond "https://b" .empty 1, .combine, .mergeCombined, .stamp, .record]

def afterRound : Loop := run (step "node-a") (Loop.start ⟨.empty, 0⟩) writeDuringRound

/-- It was not sent, and the recorded generation covers it. -/
theorem write_during_round_skipped :
    ¬ (run (step "node-a") (Loop.start ⟨.empty, 0⟩) writeDuringRound).Safe := by
  intro hsafe
  have hlast : afterRound.peerLastGen "https://b" = some 2 := by decide +kernel
  have hgen : (afterRound.replica.crdt.slot (.or .accounts "second")).gen ≤ 2 := by decide +kernel
  have hget : afterRound.replica.crdt.accounts.get "second" = some (account "second") := by
    decide +kernel
  have hhere : afterRound.replica.crdt.view (.or .accounts "second") = some (account "second") :=
    hget
  have hthere : ∀ c ∈ afterRound.known "https://b", c.accounts.get "second" = none := by
    decide +kernel
  rw [view_eq_value] at hhere
  obtain ⟨c, hc, hcontent⟩ := (hsafe "https://b").1 2 hlast (.or .accounts "second")
    (fun hempty ↦ by
      have hnone := (congrArg Stamped.value hempty).symm.trans hhere
      cases hnone) hgen
  have hview : c.view (.or .accounts "second") = some (account "second") := by
    rw [view_eq_value, hcontent]
    exact hhere
  have hnone : c.view (.or .accounts "second") = none := hthere c hc
  rw [hnone] at hview
  cases hview

def quietRound : List Event :=
  [.write (.or .accounts (.upsert "first" (account "first") 1)),
   .start ["https://b"], .prepare ["https://b"],
   .respond "https://b" ((⟨.empty, 0⟩ : ClusterReplica).apply "node-b"
      (.or .accounts (.upsert "theirs" (account "theirs") 1))).crdt 1,
   .combine, .mergeCombined, .stamp,
   .write (.or .accounts (.upsert "second" (account "second") 1)), .record,
   .sync "https://c" ((⟨.empty, 0⟩ : ClusterReplica).apply "node-c"
      (.or .accounts (.upsert "third" (account "third") 1))).crdt]

theorem quiet_round_safe :
    (run (step "node-a") (Loop.start ⟨.empty, 0⟩) quietRound).Safe ∧
      (run (step "node-a") (Loop.start ⟨.empty, 0⟩) quietRound).peerLastGen "https://b" =
        some 3 := by
  refine ⟨no_entry_skipped ⟨rfl, trivial, trivial, trivial, trivial, .inl (by decide), trivial, rfl,
    trivial, .inl (fun u hu ↦ absurd hu List.not_mem_nil), trivial⟩, by decide +kernel⟩

end Akamu.Push
