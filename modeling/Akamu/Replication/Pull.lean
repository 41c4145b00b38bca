import Akamu.Lib.Machine
import Akamu.Crdt.Delta
import Akamu.Db.ClusterTables

/-!
# What a node pulls from a peer

A node `q` syncs with a peer `p` again and again: it sends the generation that
`p` reported last, and `p` answers with what it has changed since.  The two
critical sections of `gossip_sync` are two steps; in between and at all other
times both replicas go on changing, and `p` may restart from its database, with
a counter that starts over from the stored numbers.
-/

namespace Akamu.Pull

open Machine Crdt ClusterCrdt

/-! ## Requests and answers -/

/-- The course of one sync.  `held` is the state of `p` when it handled the
request, before it merged the payload; `epoch` is the process that answered. -/
inductive Phase where
  | idle
  | sent (payload : ClusterCrdt)
  | handled (preGen postGen : ℕ) (held : ClusterCrdt)
  | answered (response : ClusterCrdt) (myGen epoch : ℕ) (held : ClusterCrdt)
  | combined (acc : ClusterCrdt) (myGen epoch : ℕ) (held : ClusterCrdt)
  | merged (myGen epoch : ℕ) (held : ClusterCrdt)

/-- `since` is what `q` keeps of `p` in `peer_response_gen`.  The epochs count
the processes of `p`; the program does not keep them. -/
structure Pair where
  p : ClusterReplica
  db : ClusterDb
  epoch : ℕ
  q : ClusterReplica
  since : Option ℕ
  sinceEpoch : ℕ
  phase : Phase

inductive Event where
  | pWrite (op : LocalOp)
  | pMerge (payload : ClusterCrdt)
  /-- The handlers of `p` write to its database. -/
  | pStore (db : ClusterDb)
  /-- The periodic write-back at `p`. -/
  | pPersist
  | pRestart
  | qWrite (op : LocalOp)
  | qMerge (payload : ClusterCrdt)
  /-- `q` builds a payload, a delta or everything. -/
  | send (since : Option ℕ)
  /-- `p` merges it, under the write lock. -/
  | handle
  /-- `p` builds its answer, under the read lock. -/
  | respond
  /-- `q` merges the answers of its peers, that of `p` among them. -/
  | combine (before after : List ClusterCrdt)
  | merge
  | record
  | fail

def combine (gen : ℕ) (responses : List ClusterCrdt) : ClusterReplica :=
  responses.foldl ClusterReplica.merge ⟨.empty, gen⟩

def persist (db : ClusterDb) (crdt : ClusterCrdt) : ClusterDb :=
  let db₁ := (persistCrdtCluster db crdt).toOption.getD db
  (db₁.persistCrdtAcme crdt).toOption.getD db₁

/-- The answer of `p`: what changed after the requested generation, except by the
request itself; everything if no generation was requested. -/
def Pair.answer (s : Pair) (preGen : ℕ) : ClusterCrdt :=
  match s.since with
  | some since => s.p.crdt.deltaRange since preGen
  | none => s.p.crdt

def Pair.fail (s : Pair) : Pair := { s with since := none, phase := .idle }

section Step

variable (decodeNull : Except AcmeError String) (nodeP nodeQ : String)

/-- A new process; a request that was being handled fails. -/
def restart (s : Pair) : Pair :=
  match s.db.loadFromDb decodeNull nodeP with
  | .error _ => s
  | .ok r =>
    match s.phase with
    | .handled _ _ _ => { s with p := r, epoch := s.epoch + 1 }.fail
    | _ => { s with p := r, epoch := s.epoch + 1 }

def step (s : Pair) : Event → Pair × Unit
  | .pWrite op => ({ s with p := s.p.apply nodeP op }, ())
  | .pMerge payload => ({ s with p := s.p.merge payload }, ())
  | .pStore db => ({ s with db := db }, ())
  | .pPersist => ({ s with db := persist s.db s.p.crdt }, ())
  | .pRestart => (restart decodeNull nodeP s, ())
  | .qWrite op => ({ s with q := s.q.apply nodeQ op }, ())
  | .qMerge payload => ({ s with q := s.q.merge payload }, ())
  | .send since =>
    match s.phase with
    | .idle =>
      ({ s with phase := .sent (match since with
        | some gen => s.q.crdt.deltaSince gen
        | none => s.q.crdt) }, ())
    | _ => (s, ())
  | .handle =>
    match s.phase with
    | .sent payload =>
      ({ s with
        p := s.p.merge payload
        phase := .handled s.p.gen (s.p.merge payload).gen s.p.crdt }, ())
    | _ => (s, ())
  | .respond =>
    match s.phase with
    | .handled preGen postGen held =>
      ({ s with phase := .answered (s.answer preGen) postGen s.epoch held }, ())
    | _ => (s, ())
  | .combine before after =>
    match s.phase with
    | .answered response myGen epoch held =>
      let acc := combine s.q.gen (before ++ response :: after)
      ({ s with q := ⟨s.q.crdt, acc.gen⟩, phase := .combined acc.crdt myGen epoch held }, ())
    | _ => (s, ())
  | .merge =>
    match s.phase with
    | .combined acc myGen epoch held =>
      ({ s with q := s.q.merge acc, phase := .merged myGen epoch held }, ())
    | _ => (s, ())
  | .record =>
    match s.phase with
    | .merged myGen epoch _ =>
      (if 0 < myGen then
        { s with since := some myGen, sinceEpoch := epoch, phase := .idle }
      else { s with phase := .idle }, ())
    | _ => (s, ())
  | .fail => (s.fail, ())

end Step

def Pair.start (p q : ClusterReplica) (db : ClusterDb) : Pair := ⟨p, db, 0, q, none, 0, .idle⟩

/-- Once the answer is merged, the state that `p` had would tell `q` nothing new. -/
def Pair.Safe (s : Pair) : Prop :=
  ∀ myGen epoch held, s.phase = .merged myGen epoch held →
    (s.q.merge held).crdt.view = s.q.crdt.view

/-- No register is stamped before the first second. -/
def AboveFloor (c : ClusterCrdt) : Prop := ∀ x, x.floor ≤ (c.slot x).content.stamp

/-- The generation that `q` sends was reported by the running process of `p`,
and `p` does not change between the two halves of its handler. -/
def Steady (s : Pair) : Event → Prop
  | .pWrite _ => ∀ pre post held, s.phase ≠ .handled pre post held
  | .pMerge payload => (∀ pre post held, s.phase ≠ .handled pre post held) ∨
      ∀ x, (payload.slot x).content.Subsumed (s.p.crdt.slot x).content
  | .handle => s.since = none ∨ s.sinceEpoch = s.epoch
  | .qWrite op => op.Grows
  | _ => True

/-! ## The invariant -/

section Invariant

/-- `q` would not take this content. -/
def Pair.Has (s : Pair) (x : Cell) (c : Content x.Value) : Prop :=
  c.Subsumed (s.q.crdt.slot x).content

/-- `q` has it, or what is to be merged brings it. -/
def Pair.Gets (s : Pair) (brings : (x : Cell) → Content x.Value → Prop) (x : Cell)
    (c : Content x.Value) : Prop :=
  s.Has x c ∨ brings x c

def UpTo (r : ClusterReplica) (gen : ℕ) (P : (x : Cell) → Content x.Value → Prop) : Prop :=
  gen ≤ r.gen ∧ ∀ x, (r.crdt.slot x).gen ≤ gen → P x (r.crdt.slot x).content

def Phase.Sound (s : Pair) : Phase → Prop
  | .idle => True
  | .sent payload => ∀ x, s.Has x (payload.slot x).content
  | .handled preGen postGen held =>
    postGen ≤ s.p.gen ∧
    (∀ x, s.p.crdt.slot x = held.slot x ∧ (held.slot x).gen ≤ preGen ∨
      s.Has x (s.p.crdt.slot x).content ∧ s.Has x (held.slot x).content) ∧
    ∀ since ∈ s.since, ∀ x, (held.slot x).gen ≤ since → s.Has x (held.slot x).content
  | .answered response myGen epoch held =>
    epoch ≤ s.epoch ∧
    (∀ x, s.Gets (fun x c ↦ c = (response.slot x).content) x (held.slot x).content) ∧
    (epoch = s.epoch → UpTo s.p myGen (s.Gets fun x c ↦ c = (response.slot x).content))
  | .combined acc myGen epoch held =>
    epoch ≤ s.epoch ∧ acc.Fit ∧
    (∀ x, s.Gets (fun x c ↦ c.Subsumed (acc.slot x).content) x (held.slot x).content) ∧
    (epoch = s.epoch → UpTo s.p myGen (s.Gets fun x c ↦ c.Subsumed (acc.slot x).content))
  | .merged myGen epoch held =>
    epoch ≤ s.epoch ∧ (∀ x, s.Has x (held.slot x).content) ∧
    (epoch = s.epoch → UpTo s.p myGen s.Has)

structure Inv (s : Pair) : Prop where
  numbered : s.p.Numbered
  floor : AboveFloor s.q.crdt
  epoch : s.sinceEpoch ≤ s.epoch
  since : ∀ gen, s.since = some gen → s.sinceEpoch = s.epoch → UpTo s.p gen s.Has
  phase : s.phase.Sound s

theorem Inv.safe {s : Pair} (h : Inv s) : s.Safe := by
  intro myGen epoch held hp
  have hphase := h.phase
  rw [hp] at hphase
  funext x
  have hmerged := s.q.crdt.slot_merge s.q.gen held x
  have hsame : (s.q.merge held).crdt.slot x = s.q.crdt.slot x :=
    hmerged.eq_of_subsumed (hphase.2.1 x)
  rw [view_eq_value, view_eq_value, hsame]

theorem inv_start {p q : ClusterReplica} (db : ClusterDb) (hp : p.Numbered)
    (hq : AboveFloor q.crdt) : Inv (Pair.start p q db) where
  numbered := hp
  floor := hq
  epoch := le_rfl
  since _ h := by cases h
  phase := trivial

variable {s : Pair}

variable {r : ClusterReplica} {held : ClusterCrdt} {myGen epoch : ℕ}
  {P : (x : Cell) → Content x.Value → Prop} {decodeNull : Except AcmeError String}

theorem UpTo.mono {gen : ℕ} {Q : (x : Cell) → Content x.Value → Prop} (h : UpTo r gen P)
    (himp : ∀ x c, P x c → Q x c) : UpTo r gen Q :=
  ⟨h.1, fun x hx ↦ himp x _ (h.2 x hx)⟩

/-- Changes beyond the counter are not among the entries of a generation before. -/
theorem UpTo.touched {r' : ClusterReplica} {gen : ℕ} (h : UpTo r gen P) (hgen : r.gen ≤ r'.gen)
    (htouched : ∀ x, Slot.Moved r.gen r'.gen (r.crdt.slot x) (r'.crdt.slot x) ∨
    r'.crdt.slot x = ClusterCrdt.empty.slot x)
    (hempty : ∀ x, P x (ClusterCrdt.empty.slot x).content) : UpTo r' gen P := by
  refine ⟨h.1.trans hgen, fun x hx ↦ ?_⟩
  rcases htouched x with hmoved | hvacant
  · have hsame := hmoved.eq_of_gen_le (hx.trans h.1)
    rw [hsame] at hx ⊢
    exact h.2 x hx
  · rw [hvacant]
    exact hempty x

theorem Pair.has_empty (s : Pair) (x : Cell) : s.Has x (ClusterCrdt.empty.slot x).content :=
  empty_subsumed x _

/-! ### Changes at `p` -/

theorem Inv.pChange (h : Inv s) (hnumbered : r.Numbered) (hgen : s.p.gen ≤ r.gen)
    (htouched : ∀ x, Slot.Moved s.p.gen r.gen (s.p.crdt.slot x) (r.crdt.slot x) ∨
    r.crdt.slot x = ClusterCrdt.empty.slot x)
    (hphase : ∀ pre post held, s.phase ≠ .handled pre post held) : Inv { s with p := r } := by
  have hsound := h.phase
  refine ⟨hnumbered, h.floor, h.epoch, fun gen hgen' hepoch ↦ ?_, ?_⟩
  · exact (h.since gen hgen' hepoch).touched hgen htouched s.has_empty
  · cases hp : s.phase with
    | idle => trivial
    | sent =>
      rw [hp] at hsound
      exact hsound
    | handled pre post held => exact absurd hp (hphase pre post held)
    | answered =>
      rw [hp] at hsound
      exact ⟨hsound.1, hsound.2.1, fun hepoch ↦ (hsound.2.2 hepoch).touched hgen htouched
        fun x ↦ .inl (s.has_empty x)⟩
    | combined =>
      rw [hp] at hsound
      exact ⟨hsound.1, hsound.2.1, hsound.2.2.1, fun hepoch ↦
        (hsound.2.2.2 hepoch).touched hgen htouched fun x ↦ .inl (s.has_empty x)⟩
    | merged =>
      rw [hp] at hsound
      exact ⟨hsound.1, hsound.2.1, fun hepoch ↦
        (hsound.2.2 hepoch).touched hgen htouched s.has_empty⟩

theorem Inv.pSame (h : Inv s) (hnumbered : r.Numbered) (hgen : s.p.gen ≤ r.gen)
    (hsame : ∀ x, r.crdt.slot x = s.p.crdt.slot x) : Inv { s with p := r } := by
  have hsound := h.phase
  by_cases hphase : ∃ pre post held, s.phase = .handled pre post held
  · obtain ⟨pre, post, held, hp⟩ := hphase
    rw [hp] at hsound
    refine ⟨hnumbered, h.floor, h.epoch, fun gen hgen' hepoch ↦ ?_, ?_⟩
    · exact (h.since gen hgen' hepoch).touched hgen (fun x ↦ .inl (.inl (hsame x))) s.has_empty
    · rw [hp]
      refine ⟨hsound.1.trans hgen, fun x ↦ ?_, hsound.2.2⟩
      rw [hsame x]
      exact hsound.2.1 x
  · exact h.pChange hnumbered hgen (fun x ↦ .inl (.inl (hsame x)))
      fun pre post held hp ↦ hphase ⟨pre, post, held, hp⟩

/-! ### Changes at `q` -/

theorem Inv.qChange (h : Inv s)
    (hle : ∀ x, (s.q.crdt.slot x).content.stamp ≤ (r.crdt.slot x).content.stamp) :
    Inv { s with q := r } := by
  have hhas : ∀ x c, s.Has x c → { s with q := r }.Has x c := fun x c hc ↦ hc.mono (hle x)
  have hgets : ∀ {brings} x c, s.Gets brings x c → { s with q := r }.Gets brings x c :=
    fun x c hc ↦ hc.imp_left (hhas x c)
  have hsound := h.phase
  refine ⟨h.numbered, fun x ↦ (h.floor x).trans (hle x), h.epoch, fun gen hgen hepoch ↦ ?_, ?_⟩
  · exact (h.since gen hgen hepoch).mono hhas
  · cases hp : s.phase with
    | idle => trivial
    | sent =>
      rw [hp] at hsound
      exact fun x ↦ hhas x _ (hsound x)
    | handled =>
      rw [hp] at hsound
      exact ⟨hsound.1, fun x ↦ (hsound.2.1 x).imp_right fun hx ↦ ⟨hhas x _ hx.1, hhas x _ hx.2⟩,
        fun since hsince x hx ↦ hhas x _ (hsound.2.2 since hsince x hx)⟩
    | answered =>
      rw [hp] at hsound
      exact ⟨hsound.1, fun x ↦ hgets x _ (hsound.2.1 x),
        fun hepoch ↦ (hsound.2.2 hepoch).mono hgets⟩
    | combined =>
      rw [hp] at hsound
      exact ⟨hsound.1, hsound.2.1, fun x ↦ hgets x _ (hsound.2.2.1 x),
        fun hepoch ↦ (hsound.2.2.2 hepoch).mono hgets⟩
    | merged =>
      rw [hp] at hsound
      exact ⟨hsound.1, fun x ↦ hhas x _ (hsound.2.1 x),
        fun hepoch ↦ (hsound.2.2 hepoch).mono hhas⟩

/-! ### The steps of a sync -/

theorem Inv.of_phase (h : Inv s) {phase : Phase} (hphase : phase.Sound { s with phase := phase }) :
    Inv { s with phase := phase } :=
  ⟨h.numbered, h.floor, h.epoch, h.since, hphase⟩

theorem Inv.fail (h : Inv s) : Inv s.fail where
  numbered := h.numbered
  floor := h.floor
  epoch := h.epoch
  since _ hsince := by cases hsince
  phase := trivial

theorem Inv.restart {nodeP : String} (h : Inv s) : Inv (restart decodeNull nodeP s) := by
  have hsound := h.phase
  unfold Pull.restart
  split
  · exact h
  · rename_i r hload
    have hstale : ∀ epoch, epoch ≤ s.epoch → ∀ {P : Prop}, epoch = s.epoch + 1 → P :=
      fun epoch hle _ heq ↦ absurd heq (by omega)
    have hnew : ∀ phase : Phase, phase.Sound { s with p := r, epoch := s.epoch + 1 } →
        Inv { s with p := r, epoch := s.epoch + 1, phase := phase } := fun phase hphase ↦
      ⟨ClusterDb.numbered_of_load hload, h.floor, h.epoch.trans (Nat.le_succ _),
        fun _ _ ↦ hstale _ h.epoch, by cases phase <;> exact hphase⟩
    split
    · exact (hnew .idle trivial).fail
    · rename_i hphase
      refine hnew s.phase ?_
      cases hp : s.phase with
      | idle => trivial
      | sent payload =>
        rw [hp] at hsound
        exact hsound
      | handled pre post held => exact absurd hp (hphase pre post held)
      | answered response myGen epoch held =>
        rw [hp] at hsound
        exact ⟨hsound.1.trans (Nat.le_succ _), hsound.2.1, hstale epoch hsound.1⟩
      | combined acc myGen epoch held =>
        rw [hp] at hsound
        exact ⟨hsound.1.trans (Nat.le_succ _), hsound.2.1, hsound.2.2.1, hstale epoch hsound.1⟩
      | merged myGen epoch held =>
        rw [hp] at hsound
        exact ⟨hsound.1.trans (Nat.le_succ _), hsound.2.1, hstale epoch hsound.1⟩

theorem Inv.send (h : Inv s) (since : Option ℕ) :
    Inv { s with phase := .sent (match since with
      | some gen => s.q.crdt.deltaSince gen
      | none => s.q.crdt) } := by
  refine h.of_phase fun x ↦ ?_
  cases since with
  | none => exact .refl _
  | some =>
    dsimp only
    rw [slot_deltaSince]
    split
    · exact .refl _
    · exact s.has_empty x

/-- What `p` takes from the payload `q` has, and then `q` does not need what it
replaces. -/
theorem Inv.handle (h : Inv s) {payload : ClusterCrdt} (hp : s.phase = .sent payload)
    (hsteady : s.since = none ∨ s.sinceEpoch = s.epoch) :
    Inv { s with
      p := s.p.merge payload
      phase := .handled s.p.gen (s.p.merge payload).gen s.p.crdt } := by
  have hpayload := h.phase
  rw [hp] at hpayload
  obtain ⟨hgen, hmerged⟩ := s.p.crdt.merge_spec s.p.gen payload
  refine ⟨h.numbered.merge payload, h.floor, h.epoch, fun gen hgen' hepoch ↦ ?_, le_rfl,
    fun x ↦ ?_, fun since hsince x hx ↦ ?_⟩
  · exact (h.since gen hgen' hepoch).touched hgen (fun x ↦ .inl (hmerged x).moved) s.has_empty
  · have hx := hmerged x
    change Slot.Merged _ _ _ _ ((s.p.merge payload).crdt.slot x) at hx
    generalize (s.p.merge payload).crdt.slot x = new at hx ⊢
    cases hx with
    | kept => exact .inl ⟨rfl, h.numbered x⟩
    | taken g hlt hset =>
      have hle := (hpayload x).resolve_right hset
      exact .inr ⟨hpayload x, .inl (hlt.le.trans hle)⟩
  · rcases hsteady with hnone | hepoch
    · rw [hnone] at hsince
      cases hsince
    · exact (h.since since hsince hepoch).2 x hx

theorem Inv.respond (h : Inv s) {preGen postGen : ℕ} (hp : s.phase = .handled preGen postGen held) :
    Inv { s with phase := .answered (s.answer preGen) postGen s.epoch held } := by
  have hphase := h.phase
  rw [hp] at hphase
  obtain ⟨hpost, hslots, hsince⟩ := hphase
  -- an entry that has not changed is subsumed or in the answer
  have hanswer : ∀ x, s.p.crdt.slot x = held.slot x → (held.slot x).gen ≤ preGen →
      s.Gets (fun x c ↦ c = ((s.answer preGen).slot x).content) x (held.slot x).content := by
    intro x hsame hpre
    cases hs : s.since with
    | none =>
      refine .inr ?_
      dsimp only [Pair.answer]
      rw [hs, hsame]
    | some since =>
      by_cases hx : since < (held.slot x).gen
      · refine .inr ?_
        dsimp only [Pair.answer]
        rw [hs]
        rw [slot_deltaRange, hsame, if_pos ⟨hx, hpre⟩]
      · exact .inl (hsince since hs x (not_lt.mp hx))
  refine h.of_phase ⟨le_rfl, fun x ↦ ?_, fun _ ↦ ⟨hpost, fun x _ ↦ ?_⟩⟩
  · rcases hslots x with ⟨hsame, hpre⟩ | ⟨-, hheld⟩
    · exact hanswer x hsame hpre
    · exact .inl hheld
  · rcases hslots x with ⟨hsame, hpre⟩ | ⟨hnew, -⟩
    · have hx := hanswer x hsame hpre
      rw [← hsame] at hx
      exact hx
    · exact .inl hnew

theorem combine_spec (gen : ℕ) (responses : List ClusterCrdt) :
    (combine gen responses).crdt.Fit ∧ ∀ r ∈ responses, ∀ x,
      (r.slot x).content.Subsumed ((combine gen responses).crdt.slot x).content := by
  have hfold : ∀ (responses : List ClusterCrdt) (acc : ClusterReplica), acc.crdt.Fit →
      (responses.foldl ClusterReplica.merge acc).crdt.Fit ∧
      (∀ x, (acc.crdt.slot x).content.stamp ≤
        ((responses.foldl ClusterReplica.merge acc).crdt.slot x).content.stamp) ∧
      ∀ r ∈ responses, ∀ x, (r.slot x).content.Subsumed
        ((responses.foldl ClusterReplica.merge acc).crdt.slot x).content := by
    intro responses
    induction responses with
    | nil => exact fun acc hfit ↦ ⟨hfit, fun _ ↦ le_rfl, fun r hr ↦ absurd hr List.not_mem_nil⟩
    | cons r responses ih =>
      intro acc hfit
      have hmerged := acc.crdt.slot_merge acc.gen r
      obtain ⟨hfit', hle, hsub⟩ := ih (acc.merge r) (fit_merge acc.gen hfit r)
      refine ⟨hfit', fun x ↦ (hmerged x).stamp_le.trans (hle x), fun r' hr' x ↦ ?_⟩
      rcases List.mem_cons.mp hr' with rfl | htail
      · exact (hmerged x).subsumed.mono (hle x)
      · exact hsub r' htail x
  obtain ⟨hfit, -, hsub⟩ := hfold responses ⟨.empty, gen⟩ fit_empty
  exact ⟨hfit, hsub⟩

theorem Inv.combine (h : Inv s) {response : ClusterCrdt}
    (hp : s.phase = .answered response myGen epoch held) (before after : List ClusterCrdt) :
    Inv { s with
      q := ⟨s.q.crdt, (combine s.q.gen (before ++ response :: after)).gen⟩
      phase := .combined (combine s.q.gen (before ++ response :: after)).crdt myGen epoch held } := by
  have hphase := h.phase
  rw [hp] at hphase
  obtain ⟨hfit, hsub⟩ := combine_spec s.q.gen (before ++ response :: after)
  have hresponse := hsub response (by simp)
  have hgets : ∀ x c, s.Gets (fun x c ↦ c = (response.slot x).content) x c →
      s.Gets (fun x c ↦ c.Subsumed ((Pull.combine s.q.gen
        (before ++ response :: after)).crdt.slot x).content) x c := by
    intro x c hc
    refine hc.imp_right fun heq ↦ ?_
    dsimp only at heq ⊢
    rw [heq]
    exact hresponse x
  exact ⟨h.numbered, h.floor, h.epoch, h.since, hphase.1, hfit, fun x ↦ hgets x _ (hphase.2.1 x),
    fun hepoch ↦ (hphase.2.2 hepoch).mono hgets⟩

theorem Inv.merge (h : Inv s) {acc : ClusterCrdt} (hp : s.phase = .combined acc myGen epoch held) :
    Inv { s with q := s.q.merge acc, phase := .merged myGen epoch held } := by
  have hphase := h.phase
  rw [hp] at hphase
  obtain ⟨hepoch, hfit, hheld, hmark⟩ := hphase
  have hmerged := s.q.crdt.slot_merge s.q.gen acc
  have hchanged := h.qChange (r := s.q.merge acc) fun x ↦ (hmerged x).stamp_le
  have hhas : ∀ x c, s.Gets (fun x c ↦ c.Subsumed (acc.slot x).content) x c →
      c.Subsumed ((s.q.merge acc).crdt.slot x).content := by
    intro x c hc
    rcases hc with hc | hc
    · exact hc.mono (hmerged x).stamp_le
    · -- an accumulator that the merge passes over is at the floor, and `q` is not below
      refine hc.mono ?_
      rcases (hmerged x).subsumed with hle | hunset
      · exact hle
      · rw [(hfit x).2 hunset]
        exact hchanged.floor x
  exact ⟨h.numbered, hchanged.floor, h.epoch, hchanged.since, hepoch, fun x ↦ hhas x _ (hheld x),
    fun heq ↦ (hmark heq).mono hhas⟩

theorem Inv.record (h : Inv s) (hp : s.phase = .merged myGen epoch held) :
    Inv { s with since := some myGen, sinceEpoch := epoch, phase := .idle } := by
  have hphase := h.phase
  rw [hp] at hphase
  refine ⟨h.numbered, h.floor, hphase.1, fun gen hgen hepoch ↦ ?_, trivial⟩
  cases hgen
  exact hphase.2.2 hepoch

theorem inv_step {nodeP nodeQ : String} (h : Inv s) (e : Event) (hsteady : Steady s e) :
    Inv (step decodeNull nodeP nodeQ s e).1 := by
  cases e with
  | pWrite op =>
    obtain ⟨hgen, htouched⟩ := s.p.apply_cases nodeP op
    exact h.pChange (h.numbered.apply nodeP op) hgen htouched hsteady
  | pMerge payload =>
    obtain ⟨hgen, hmerged⟩ := s.p.crdt.merge_spec s.p.gen payload
    rcases hsteady with hphase | hnothing
    · exact h.pChange (h.numbered.merge payload) hgen (fun x ↦ .inl (hmerged x).moved) hphase
    · exact h.pSame (h.numbered.merge payload) hgen fun x ↦
        (hmerged x).eq_of_subsumed (hnothing x)
  | pStore | pPersist => exact ⟨h.numbered, h.floor, h.epoch, h.since, h.phase⟩
  | pRestart => exact h.restart
  | qWrite op => exact h.qChange (s.q.stamp_le_apply nodeQ op hsteady)
  | qMerge payload => exact h.qChange fun x ↦ (s.q.crdt.slot_merge s.q.gen payload x).stamp_le
  | send since =>
    simp only [step]
    split
    · exact h.send since
    · exact h
  | handle =>
    simp only [step]
    split
    · rename_i hp
      exact h.handle hp hsteady
    · exact h
  | respond =>
    simp only [step]
    split
    · rename_i hp
      exact h.respond hp
    · exact h
  | combine before after =>
    simp only [step]
    split
    · rename_i hp
      exact h.combine hp before after
    · exact h
  | merge =>
    simp only [step]
    split
    · rename_i hp
      exact h.merge hp
    · exact h
  | record =>
    simp only [step]
    split
    · rename_i hp
      split
      · exact h.record hp
      · exact h.of_phase trivial
    · exact h
  | fail => exact h.fail

end Invariant

/-! ## Runs -/

/-- In every steady run, whenever `q` has merged an answer, it has all that `p`
had when it handled the request. -/
theorem pull_complete {decodeNull : Except AcmeError String} {nodeP nodeQ : String}
    {p q : ClusterReplica} {db : ClusterDb} {es : List Event} (hp : p.Numbered)
    (hq : AboveFloor q.crdt)
    (hsteady : Meets (step decodeNull nodeP nodeQ) Steady (Pair.start p q db) es) :
    (run (step decodeNull nodeP nodeQ) (Pair.start p q db) es).Safe :=
  (hsteady.invariant Inv (inv_start db hp hq) fun _ e h hs ↦ inv_step h e hs).safe

def account (id : String) : AccountEntry :=
  ⟨id, "valid", none, [], id, 1, 1, none, "default"⟩

def create (id : String) : Event := .pWrite (.or .accounts (.upsert id (account id) 1))

def sync : List Event := [.send none, .handle, .respond, .combine [] [], .merge]

/-- After the restart the counter is back at zero, but `q` asks for what comes
after generation 2. -/
def syncAfterRestart : List Event :=
  create "first" :: create "second" :: sync ++
    .record :: .pPersist :: .pRestart :: create "third" :: sync

/-- An account as `q` shows it after and before merging what `p` held. -/
def Pair.seen (s : Pair) (id : String) : Option (Option AccountEntry × Option AccountEntry) :=
  match s.phase with
  | .merged _ _ held => some ((s.q.merge held).crdt.accounts.get id, s.q.crdt.accounts.get id)
  | _ => none

theorem account_skipped_after_restart :
    ¬ (run (step (.ok "") "node-p" "node-q")
      (Pair.start ⟨.empty, 0⟩ ⟨.empty, 0⟩ .empty) syncAfterRestart).Safe := by
  intro hsafe
  have hseen : (run (step (.ok "") "node-p" "node-q")
      (Pair.start ⟨.empty, 0⟩ ⟨.empty, 0⟩ .empty) syncAfterRestart).seen "third" =
        some (some (account "third"), none) := by
    decide +kernel
  unfold Pair.seen at hseen
  split at hseen
  · rename_i held hp
    have hview := congrFun (hsafe _ _ held hp) (.or .accounts "third")
    obtain ⟨hafter, hbefore⟩ := Prod.mk.inj (Option.some.inj hseen)
    have hsome := hafter.symm.trans (hview.trans hbefore)
    cases hsome
  · cases hseen

def syncTwice : List Event :=
  create "first" :: sync ++ .record :: create "second" :: sync

theorem sync_twice_complete :
    (run (step (.ok "") "node-p" "node-q")
      (Pair.start ⟨.empty, 0⟩ ⟨.empty, 0⟩ .empty) syncTwice).Safe ∧
    (run (step (.ok "") "node-p" "node-q")
      (Pair.start ⟨.empty, 0⟩ ⟨.empty, 0⟩ .empty) syncTwice).seen "second" =
        some (some (account "second"), some (account "second")) := by
  refine ⟨pull_complete (fun x ↦ ?_) (fun x ↦ ?_) ⟨?_, trivial, .inl rfl, trivial, trivial, trivial,
    trivial, ?_, trivial, .inr rfl, trivial, trivial, trivial, trivial⟩, by decide +kernel⟩
  · rw [slot_empty]
  · rw [slot_empty]
  · intro _ _ _ hp
    cases hp
  · intro _ _ _ hp
    cases hp

end Akamu.Pull
