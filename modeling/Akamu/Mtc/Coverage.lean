import Akamu.Mtc.Growth

/-!
# Standalone forms for every logged certificate

A call of `produce_checkpoint` selects at most 500 certificates that have no
standalone form, in the order of their log index, and gives each one.  It
selects nothing when the latest checkpoint has the size of the tree.  So a
backlog shrinks by 500 with each call that finds the tree grown, and not at all
otherwise.
-/

namespace Akamu.Mtc

open Certs List Machine Option Tasks

/-! ## Batches -/

/-- Of a sorted list the first `k` are taken: what is left below a bound is by
`k` less than there was, or nothing. -/
theorem length_filter_drop_le {α : Type*} {f : α → ℕ} {l : List α}
    (hsorted : l.Pairwise fun a b ↦ f a ≤ f b) (n k : ℕ) :
    ((l.drop k).filter fun a ↦ f a < n).length ≤ (l.filter fun a ↦ f a < n).length - k := by
  cases hleft : (l.drop k).filter fun a ↦ f a < n with
  | nil => exact Nat.zero_le _
  | cons a =>
    have ha : a ∈ (l.drop k).filter fun a ↦ f a < n := hleft ▸ mem_cons_self
    obtain ⟨hdrop, hlt⟩ := mem_filter.mp ha
    have hk : k ≤ l.length := by
      by_contra hgt
      rw [drop_eq_nil_of_le (by omega)] at hdrop
      cases hdrop
    -- something below the bound is left, so all that was taken is below it
    have htaken : (l.take k).filter (fun a ↦ f a < n) = l.take k := by
      refine filter_eq_self.mpr fun b hb ↦ ?_
      have hle : f b ≤ f a := by
        rw [← take_append_drop k l] at hsorted
        exact (pairwise_append.mp hsorted).2.2 b hb a hdrop
      exact decide_eq_true (hle.trans_lt (of_decide_eq_true hlt))
    have hsplit : (l.filter fun a ↦ f a < n).length =
        k + ((l.drop k).filter fun a ↦ f a < n).length := by
      conv_lhs => rw [← take_append_drop k l]
      rw [filter_append, length_append, htaken, length_take, Nat.min_eq_left hk]
    rw [hsplit, hleft]
    omega

/-- The certificates below a size that have no standalone form. -/
def pendingBelow (s : Server) (n : ℕ) : List PendingCert :=
  s.certs.rows.filterMap (Certs.pending? n)

variable {c : PendingCert}

theorem mem_pendingBelow {s : Server} {n : ℕ} :
    c ∈ pendingBelow s n ↔ ∃ row ∈ s.certs.rows, Certs.pending? n row = some c :=
  mem_filterMap

theorem nodup_pendingBelow (s : Server) (n : ℕ) : ((pendingBelow s n).map PendingCert.id).Nodup := by
  refine pairwise_map.mpr (List.Pairwise.filterMap _ ?_ (pairwise_map.mp s.certs.nodup))
  intro row row' hne c hc c' hc'
  rw [(pending?_eq_some hc).2.2.2.1, (pending?_eq_some hc').2.2.2.1]
  exact hne

theorem length_pendingBelow_le {s : Server} {n : ℕ} {l : List PendingCert}
    (h : ∀ c ∈ pendingBelow s n, ∃ c' ∈ l, c'.id = c.id) : (pendingBelow s n).length ≤ l.length := by
  have hsubset : (pendingBelow s n).map PendingCert.id ⊆ l.map PendingCert.id := by
    intro id hid
    obtain ⟨c, hc, rfl⟩ := mem_map.mp hid
    obtain ⟨c', hc', heq⟩ := h c hc
    exact mem_map.mpr ⟨c', hc', heq⟩
  simpa only [length_map] using
    (subperm_of_subset (nodup_pendingBelow s n) hsubset).length_le

def backlog (s : Server) (treeSize : ℕ) : List PendingCert :=
  (pendingBelow s treeSize).insertionSort fun a b ↦ a.logIndex ≤ b.logIndex

theorem sorted_backlog (s : Server) (treeSize : ℕ) :
    (backlog s treeSize).Pairwise fun a b ↦ a.logIndex ≤ b.logIndex := by
  have : Std.Total fun a b : PendingCert ↦ a.logIndex ≤ b.logIndex :=
    ⟨fun a b ↦ Nat.le_total a.logIndex b.logIndex⟩
  have : IsTrans PendingCert fun a b ↦ a.logIndex ≤ b.logIndex := ⟨fun _ _ _ ↦ Nat.le_trans⟩
  exact pairwise_insertionSort _ _

theorem length_backlog_filter {s : Server} {n treeSize : ℕ} (h : n ≤ treeSize) :
    ((backlog s treeSize).filter fun c ↦ c.logIndex < n).length = (pendingBelow s n).length := by
  have hperm : (backlog s treeSize).Perm (pendingBelow s treeSize) := perm_insertionSort _ _
  rw [(hperm.filter _).length_eq, pendingBelow, filter_filterMap, pendingBelow]
  congr 2
  funext row
  unfold Certs.pending?
  cases row.mtcLogIndex with
  | none => rfl
  | some index =>
    cases row.mtcStandaloneDer with
    | some => rfl
    | none =>
      by_cases hlt : index < n
      · simp [hlt, hlt.trans_le h, Option.filter]
      · by_cases hlt' : index < treeSize
        · simp [hlt, hlt', Option.filter]
        · simp [hlt, hlt']

/-! ## One call -/

/-- A call that runs from its start to its end while other tasks wait: six steps
up to the storing, one for each of at most 500 certificates, and a last one.
Irreducible, so that no unifier runs it. -/
@[irreducible] def call (caId : String) (i : ℕ) (input : Input) : List (Move Arrival Input) :=
  .arrive (.checkpoint caId) :: List.replicate (501 + 6) (.advance i input)

/-- The operations of a step of `produce_checkpoint` all succeed. -/
def succeeds (env : MtcEnv) (s : Server) (input : Input) : Task → Bool
  | .checkpoint caId stage => !input.fails && (env.signing caId).all fun (m, signing) ↦
    match stage with
    | .selected prevTreeSize pending =>
      (prove env.library m signing (s.logs caId) prevTreeSize pending input.now).toOption.any
        fun p ↦ p.proofs.length == pending.length
    | .recorded p =>
      (assemble env.library m signing input.replies p).toOption.any
        fun (_, certs) ↦ certs.length == p.proofs.length
    | .storing _ ((certId, _) :: _) => (s.certs.find? certId).isSome
    | _ => true
  | _ => true

def NoFailure (env : MtcEnv) (s : Pool Server Task) : Move Arrival Input → Prop
  | .advance i input => ∀ t ∈ s.tasks[i]?, succeeds env s.shared input t = true
  | _ => True

instance (env : MtcEnv) (s : Pool Server Task) : ∀ e, Decidable (NoFailure env s e)
  | .advance i input =>
    inferInstanceAs (Decidable (∀ t ∈ s.tasks[i]?, succeeds env s.shared input t = true))
  | .arrive _ => .isTrue trivial
  | .abandon _ => .isTrue trivial

def NoNewRows (s s' : Server) : Prop :=
  ∀ row' ∈ s'.certs.rows, ∃ row ∈ s.certs.rows, row'.Extends row

namespace NoNewRows

variable {s s' s'' : Server}

theorem refl (s : Server) : NoNewRows s s := fun row hrow ↦ ⟨row, hrow, .refl row⟩

theorem of_eq (h : s'.certs = s.certs) : NoNewRows s s' :=
  fun row hrow ↦ ⟨row, h ▸ hrow, .refl row⟩

theorem trans (h : NoNewRows s s') (h' : NoNewRows s' s'') : NoNewRows s s'' := by
  intro row'' hrow''
  obtain ⟨row', hrow', hext'⟩ := h' row'' hrow''
  obtain ⟨row, hrow, hext⟩ := h row' hrow'
  exact ⟨row, hrow, hext'.trans hext⟩

end NoNewRows

theorem noNewRows_setMtcStandaloneDer (s : Server) (certId : String) (cert : StandaloneCert) :
    NoNewRows s (Certs.setMtcStandaloneDer s certId cert) := by
  intro row' hrow'
  obtain ⟨row, hrow, rfl⟩ := mem_map.mp hrow'
  refine ⟨row, hrow, ?_⟩
  split
  · exact ⟨⟨rfl, rfl, rfl, rfl⟩, fun _ ↦ rfl⟩
  · exact .refl row

def OneCall (caId : String) (ts : List Task) : Prop :=
  ts = [] ∨ ∃ stage, ts = [.checkpoint caId stage]

section Call

variable (env : MtcEnv) (caId : String) (input : Input) (ts : List Task)

theorem act_checkpoint_stays (s : Server) (stage : CheckpointStage) :
    NoNewRows s (act env s (.checkpoint caId stage) input).shared ∧
      OneCall caId (act env s (.checkpoint caId stage) input).next := by
  have hmoves := moves_act env s (.checkpoint caId stage) input
  generalize act env s (.checkpoint caId stage) input = r at hmoves ⊢
  cases hmoves with
  | idle => exact ⟨.refl s, .inl rfl⟩
  | record => exact ⟨.of_eq (sameLogs_upsertCheckpoint s _).certs, .inr ⟨_, rfl⟩⟩
  | storeNext => exact ⟨noNewRows_setMtcStandaloneDer s _ _, .inr ⟨_, rfl⟩⟩
  | _ => exact ⟨.refl s, .inr ⟨_, rfl⟩⟩

/-- However far it gets, a call that is left alone brings no rows. -/
theorem noNewRows_alone {s : Server} {next : List Task} (hnext : OneCall caId next) (k : ℕ) :
    NoNewRows s (Machine.run (system env).step ⟨s, ts ++ next⟩
      (List.replicate k (.advance ts.length input))).shared := by
  induction k generalizing s next with
  | zero => exact .refl s
  | succ k ih =>
    rw [replicate_succ, run_cons]
    rcases hnext with rfl | ⟨stage, rfl⟩
    · have hrest : NoNewRows s (Machine.run (system env).step ⟨s, ts ++ []⟩
          (List.replicate k (.advance ts.length input))).shared := ih (.inl rfl)
      rw [append_nil] at hrest ⊢
      rw [System.step_absent]
      exact hrest
    · rw [System.step_last]
      obtain ⟨hrows, hone⟩ := act_checkpoint_stays env caId input s stage
      exact hrows.trans (ih hone)

theorem noNewRows_call (s : Pool Server Task) :
    NoNewRows s.shared
      (Machine.run (system env).step s (call caId s.tasks.length input)).shared := by
  obtain ⟨sh, ts⟩ := s
  unfold call
  rw [run_cons]
  change NoNewRows sh (Machine.run (system env).step ⟨(arrive env sh (.checkpoint caId)).shared,
    ts ++ (arrive env sh (.checkpoint caId)).next⟩ _).shared
  dsimp only [arrive]
  split
  · exact noNewRows_alone env caId input ts (.inr ⟨.start, rfl⟩) _
  · exact noNewRows_alone env caId input ts (.inl rfl) _

end Call

/-! ## What a call that finds the tree grown does -/

section Alone

variable {env : MtcEnv} {caId : String} {input : Input} {ts : List Task}
  {m : MtcState env.library.scheme} {signing : SigningConfig env.library.scheme}

theorem run_last (s : Server) (t : Task) (k : ℕ) :
    Machine.run (system env).step ⟨s, ts ++ [t]⟩
        (List.replicate (k + 1) (.advance ts.length input)) =
      Machine.run (system env).step ⟨(act env s t input).shared, ts ++ (act env s t input).next⟩
        (List.replicate k (.advance ts.length input)) := by
  rw [replicate_succ, run_cons, System.step_last]
  rfl

/-- What holds of the server when a call that is left alone has taken `k` steps,
none of which failed. -/
def Ensures (env : MtcEnv) (input : Input) (ts : List Task) (k : ℕ) (s : Server) (next : List Task)
    (Q : Server → Prop) : Prop :=
  Machine.Meets (system env).step (NoFailure env) ⟨s, ts ++ next⟩
      (List.replicate k (.advance ts.length input)) →
    Q (Machine.run (system env).step ⟨s, ts ++ next⟩
      (List.replicate k (.advance ts.length input))).shared

theorem ensures_succ {s : Server} {t : Task} {k : ℕ} {Q : Server → Prop}
    (h : succeeds env s input t = true →
      Ensures env input ts k (act env s t input).shared (act env s t input).next Q) :
    Ensures env input ts (k + 1) s [t] Q := by
  intro hok
  rw [replicate_succ, meets_cons, System.step_last] at hok
  rw [run_last]
  exact h (hok.1 t getElem?_concat_length) hok.2

theorem succeeds_checkpoint {s : Server} {stage : CheckpointStage}
    (h : succeeds env s input (.checkpoint caId stage) = true) : input.fails = false := by
  unfold succeeds at h
  simpa using (Bool.and_eq_true_iff.mp h).1

variable {cosignatures : List Cosignature} {certs : List (String × StandaloneCert)} {prev : ℕ}
  {pending : List PendingCert}

theorem stored_of_storing (hsigning : env.signing caId = some (m, signing)) {s : Server} {k : ℕ}
    (hk : certs.length ≤ k) :
    Ensures env input ts k s [.checkpoint caId (.storing cosignatures certs)] fun s' ↦
      ∀ row' ∈ s'.certs.rows, row'.id ∈ certs.map Prod.fst → row'.mtcStandaloneDer.isSome := by
  induction certs generalizing s k with
  | nil => exact fun _ _ _ hid ↦ absurd hid not_mem_nil
  | cons c rest ih =>
    obtain ⟨certId, cert⟩ := c
    obtain ⟨k, rfl⟩ : ∃ k', k = k' + 1 := ⟨k - 1, by simp at hk; omega⟩
    refine ensures_succ fun hsucceeds ↦ ?_
    have hfails := succeeds_checkpoint hsucceeds
    have hfound : (s.certs.find? certId).isSome = true := by
      simpa [succeeds, hsigning, hfails] using hsucceeds
    have hact : act env s (.checkpoint caId (.storing cosignatures ((certId, cert) :: rest)))
        input = ⟨Certs.setMtcStandaloneDer s certId cert,
          [.checkpoint caId (.storing cosignatures rest)],
          some (.standaloneStored certId cosignatures cert)⟩ := by
      simp [act, hsigning, checkpointStep, hfails, isSome_iff_ne_none.mp hfound]
    rw [hact]
    intro hok row' hrow' hid
    rcases mem_cons.mp hid with hhead | htail
    · -- the row was given its form now, and keeps it
      obtain ⟨row, hrow, hext⟩ :=
        noNewRows_alone env caId input ts (.inr ⟨_, rfl⟩) k row' hrow'
      refine hext.der ?_
      obtain ⟨row₀, -, rfl⟩ := mem_map.mp hrow
      have hsame : row₀.id = certId := by
        have hkept := hext.same.1.symm.trans hhead
        split at hkept <;> exact hkept
      rw [if_pos (beq_iff_eq.mpr hsame)]
      rfl
    · exact ih (by simpa using hk) hok row' hrow' htail

variable {replies : List (Option (Option SubtreeSignature))} {leaves : List Hash}

theorem exists_built {now : Int} {p : Proved}
    (hprove : prove env.library m signing leaves prev pending now = .ok p)
    (hproofs : p.proofs.length = pending.length)
    (hassemble : assemble env.library m signing replies p = .ok (cosignatures, certs))
    (hcerts : certs.length = p.proofs.length) (hc : c ∈ pending) : c.id ∈ certs.map Prod.fst := by
  have hp := (prove_eq_ok hprove).2.2
  have hall := (assemble_eq_ok hassemble).2
  rw [hp] at hproofs
  obtain ⟨entry, hentry⟩ :=
    isSome_iff_exists.mp (filterMap_length_eq_length.mp hproofs c hc)
  have hmem : entry ∈ p.proofs := hp ▸ mem_filterMap.mpr ⟨c, hc, hentry⟩
  have hid : entry.certId = c.id := by
    obtain ⟨proof, -, rfl⟩ := map_eq_some_iff.mp hentry
    rfl
  rw [hall] at hcerts
  obtain ⟨built, hbuilt⟩ :=
    isSome_iff_exists.mp (filterMap_length_eq_length.mp hcerts entry hmem)
  refine mem_map.mpr ⟨built, hall ▸ mem_filterMap.mpr ⟨entry, hmem, hbuilt⟩, ?_⟩
  exact (standaloneOf_eq_some hbuilt).1.trans hid

theorem length_built_le {now : Int} {p : Proved}
    (hprove : prove env.library m signing leaves prev pending now = .ok p)
    (hassemble : assemble env.library m signing replies p = .ok (cosignatures, certs)) :
    certs.length ≤ pending.length := by
  rw [(assemble_eq_ok hassemble).2]
  refine (length_filterMap_le _ _).trans ?_
  rw [(prove_eq_ok hprove).2.2]
  exact length_filterMap_le _ _

theorem stored_of_selected (hsigning : env.signing caId = some (m, signing)) {s : Server} {k : ℕ}
    (hk : pending.length ≤ k) :
    Ensures env input ts (k + 3) s [.checkpoint caId (.selected prev pending)] fun s' ↦
      ∀ row' ∈ s'.certs.rows, ∀ c ∈ pending, row'.id = c.id → row'.mtcStandaloneDer.isSome := by
  -- proofs under the lock of the log
  refine ensures_succ fun hsucceeds ↦ ?_
  have hfails := succeeds_checkpoint hsucceeds
  simp only [succeeds, hfails, Bool.not_false, Bool.true_and, hsigning, all_some]
    at hsucceeds
  obtain ⟨p, hp, hproofs⟩ := (any_eq_true _ _).mp hsucceeds
  have hprove := Except.toOption_eq_some_iff.mp hp
  have hproved : act env s (.checkpoint caId (.selected prev pending)) input =
      .goOn s (.checkpoint caId (.proved p)) := by
    simp [act, hsigning, checkpointStep, hfails, hprove]
  simp only [hproved, Result.goOn]
  -- the checkpoint row
  refine ensures_succ fun _ ↦ ?_
  have hrecorded : act env s (.checkpoint caId (.proved p)) input =
      .goOn (Checkpoints.upsert s (checkpointRow caId p)) (.checkpoint caId (.recorded p)) := by
    simp [act, hsigning, checkpointStep, hfails]
  simp only [hrecorded, Result.goOn]
  -- cosignatures and certificates
  refine ensures_succ fun hsucceeds ↦ ?_
  simp only [succeeds, hfails, Bool.not_false, Bool.true_and, hsigning, all_some]
    at hsucceeds
  obtain ⟨⟨cosignatures, certs⟩, hcerts, hlength⟩ := (any_eq_true _ _).mp hsucceeds
  have hassemble := Except.toOption_eq_some_iff.mp hcerts
  have hstoring : act env (Checkpoints.upsert s (checkpointRow caId p))
      (.checkpoint caId (.recorded p)) input =
      .goOn (Checkpoints.upsert s (checkpointRow caId p))
        (.checkpoint caId (.storing cosignatures certs)) := by
    simp [act, hsigning, checkpointStep, hfails, hassemble]
  rw [hstoring]
  intro hok row' hrow' c hc hid
  refine stored_of_storing hsigning ((length_built_le hprove hassemble).trans hk) hok row' hrow' ?_
  rw [hid]
  exact exists_built hprove (beq_iff_eq.mp hproofs) hassemble (beq_iff_eq.mp hlength) hc

theorem step_arrive (hsigning : env.signing caId = some (m, signing)) (s : Server) :
    ((system env).step ⟨s, ts⟩ (.arrive (.checkpoint caId))).1 =
      ⟨s, ts ++ [.checkpoint caId .start]⟩ := by
  simp [System.step, System.result, System.rest, system, arrive, hsigning, Result.goOn]

theorem act_start (hsigning : env.signing caId = some (m, signing)) (hfails : input.fails = false)
    {s : Server} (hne : s.logs caId ≠ []) :
    act env s (.checkpoint caId .start) input =
      .goOn s (.checkpoint caId (.sized (s.logs caId).length)) := by
  simp [act, hsigning, checkpointStep, hfails, hne]

theorem stored_of_call (hsigning : env.signing caId = some (m, signing)) {s : Pool Server Task}
    (hpos : 0 < (s.shared.logs caId).length)
    (hgrown : ∀ latest ∈ Checkpoints.getLatest s.shared caId,
      latest.treeSize < (s.shared.logs caId).length)
    (hok : Machine.Meets (system env).step (NoFailure env) s
      (call caId s.tasks.length input)) :
    ∀ row' ∈ (Machine.run (system env).step s
        (call caId s.tasks.length input)).shared.certs.rows,
      ∀ c ∈ Certs.getPendingStandalone s.shared (s.shared.logs caId).length,
        row'.id = c.id → row'.mtcStandaloneDer.isSome := by
  obtain ⟨s, ts⟩ := s
  dsimp only at hpos hgrown hok ⊢
  unfold call at hok ⊢
  rw [meets_cons, step_arrive hsigning] at hok
  rw [run_cons, step_arrive hsigning]
  revert hok
  rw [and_imp]
  intro _
  change Ensures env input ts (501 + 6) s [.checkpoint caId .start] fun s' ↦ ∀ row' ∈ s'.certs.rows,
    ∀ c ∈ Certs.getPendingStandalone s (s.logs caId).length,
      row'.id = c.id → row'.mtcStandaloneDer.isSome
  refine ensures_succ fun hsucceeds ↦ ?_
  have hfails := succeeds_checkpoint hsucceeds
  simp only [act_start hsigning hfails (ne_nil_of_length_pos hpos), Result.goOn]
  refine ensures_succ fun _ ↦ ?_
  obtain ⟨prev, hbehind⟩ : ∃ prev, act env s
      (.checkpoint caId (.sized (s.logs caId).length)) input =
      .goOn s (.checkpoint caId (.behind (s.logs caId).length prev)) := by
    cases hlatest : Checkpoints.getLatest s caId with
    | none => exact ⟨0, by simp [act, hsigning, checkpointStep, hfails, hlatest]⟩
    | some latest =>
      have hlt := hgrown latest hlatest
      exact ⟨latest.treeSize, by simp [act, hsigning, checkpointStep, hfails, hlatest, hlt]⟩
  simp only [hbehind, Result.goOn]
  refine ensures_succ fun _ ↦ ?_
  have hselected : act env s (.checkpoint caId (.behind (s.logs caId).length prev)) input =
      .goOn s (.checkpoint caId
        (.selected prev (Certs.getPendingStandalone s (s.logs caId).length))) := by
    simp [act, hsigning, checkpointStep, hfails]
  rw [hselected]
  exact stored_of_selected hsigning ((length_take_le _ _).trans (by omega))

end Alone

/-! ## Repeated calls -/

structure Round where
  before : List (Move Arrival Input)
  input : Input

def Round.called (env : MtcEnv) (s : Pool Server Task) (r : Round) : Pool Server Task :=
  Machine.run (system env).step s r.before

def Round.after (env : MtcEnv) (caId : String) (s : Pool Server Task) (r : Round) :
    Pool Server Task :=
  Machine.run (system env).step (r.called env s) (call caId (r.called env s).tasks.length r.input)

def afterRounds (env : MtcEnv) (caId : String) (s : Pool Server Task) :
    List Round → Pool Server Task
  | [] => s
  | r :: rounds => afterRounds env caId (r.after env caId s) rounds

/-- No certificate below a size was stored late. -/
def NoNewBelow (n : ℕ) (s s' : Server) : Prop :=
  ∀ row' ∈ s'.certs.rows, ∀ index ∈ row'.mtcLogIndex, index < n →
    ∃ row ∈ s.certs.rows, row.id = row'.id

/-- The call of a round succeeds, and it finds the tree grown since the latest
checkpoint while anything is pending below the size. -/
structure Round.Good (env : MtcEnv) (caId : String) (n : ℕ) (s : Pool Server Task) (r : Round) :
    Prop where
  noNew : NoNewBelow n s.shared (r.called env s).shared
  grown : pendingBelow (r.called env s).shared n = [] ∨
    ∀ latest ∈ Checkpoints.getLatest (r.called env s).shared caId,
      latest.treeSize < ((r.called env s).shared.logs caId).length
  succeeds : Machine.Meets (system env).step (NoFailure env) (r.called env s)
    (call caId (r.called env s).tasks.length r.input)

def GoodRounds (env : MtcEnv) (caId : String) (n : ℕ) (s : Pool Server Task) : List Round → Prop
  | [] => True
  | r :: rounds => r.Good env caId n s ∧ GoodRounds env caId n (r.after env caId s) rounds

section Rounds

variable {env : MtcEnv} {caId : String} {n : ℕ}

theorem exists_pending_of_extends {s : Server} {row row' : CertRow} (hrow : row ∈ s.certs.rows)
    (hext : row'.Extends row) (hpending : Certs.pending? n row' = some c) {treeSize : ℕ}
    (hn : n ≤ treeSize) :
    ∃ c' ∈ pendingBelow s treeSize, c'.id = c.id ∧ c'.logIndex = c.logIndex := by
  obtain ⟨hindex, hder, hlt, hid, -⟩ := pending?_eq_some hpending
  have hnone : row.mtcStandaloneDer = none := by
    by_contra hsome
    have := hext.der (isSome_iff_ne_none.mpr hsome)
    rw [hder] at this
    cases this
  refine ⟨⟨row.id, row.der, c.logIndex⟩, mem_pendingBelow.mpr ⟨row, hrow, ?_⟩,
    hext.same.1.symm.trans hid.symm, rfl⟩
  exact pending?_of (hext.same.2.2.1.symm.trans hindex) hnone (hlt.trans_le hn)

theorem length_pendingBelow_of_grows {s s' : Server} (hgrows : Grows s s')
    (hnew : NoNewBelow n s s') : (pendingBelow s' n).length ≤ (pendingBelow s n).length := by
  refine length_pendingBelow_le fun c hc ↦ ?_
  obtain ⟨row', hrow', hpending⟩ := mem_pendingBelow.mp hc
  obtain ⟨hindex, -, hlt, -⟩ := pending?_eq_some hpending
  obtain ⟨row, hrow, hrowId⟩ := hnew row' hrow' c.logIndex hindex hlt
  obtain ⟨row'', hrow'', hext⟩ := hgrows.certs row hrow
  have hsame : row'' = row' :=
    s'.certs.eq_of_mem_of_key_eq hrow'' hrow' (hext.same.1.trans hrowId)
  subst hsame
  obtain ⟨c', hc', hid, -⟩ := exists_pending_of_extends hrow hext hpending le_rfl
  exact ⟨c', hc', hid⟩

theorem exists_pending_before {s s' : Server} (hrows : NoNewRows s s') {treeSize : ℕ}
    (hn : n ≤ treeSize) (hc : c ∈ pendingBelow s' n) :
    ∃ c' ∈ pendingBelow s treeSize, c'.id = c.id ∧ c'.logIndex = c.logIndex := by
  obtain ⟨row', hrow', hpending⟩ := mem_pendingBelow.mp hc
  obtain ⟨row, hrow, hext⟩ := hrows row' hrow'
  exact exists_pending_of_extends hrow hext hpending hn

variable {s : Pool Server Task}

theorem length_pendingBelow_call {m : MtcState env.library.scheme}
    {signing : SigningConfig env.library.scheme} {input : Input}
    (hsigning : env.signing caId = some (m, signing)) (hn : n ≤ (s.shared.logs caId).length)
    (hpos : 0 < (s.shared.logs caId).length)
    (hgrown : ∀ latest ∈ Checkpoints.getLatest s.shared caId,
      latest.treeSize < (s.shared.logs caId).length)
    (hok : Machine.Meets (system env).step (NoFailure env) s (call caId s.tasks.length input)) :
    (pendingBelow (Machine.run (system env).step s
      (call caId s.tasks.length input)).shared n).length ≤
        (pendingBelow s.shared n).length - 500 := by
  have hstored := stored_of_call hsigning hpos hgrown hok
  have hrows := noNewRows_call env caId input s
  rw [← length_backlog_filter (s := s.shared) hn]
  have hdropped := length_filter_drop_le (sorted_backlog s.shared (s.shared.logs caId).length) n 500
  refine le_trans (length_pendingBelow_le ?_) hdropped
  intro c hc
  obtain ⟨c', hc', hid, hindex⟩ := exists_pending_before hrows hn hc
  obtain ⟨row', hrow', hpending⟩ := mem_pendingBelow.mp hc
  obtain ⟨-, hder, hlt, hrowId, -⟩ := pending?_eq_some hpending
  have hmem : c' ∈ backlog s.shared (s.shared.logs caId).length :=
    (mem_insertionSort _).mpr hc'
  rw [← take_append_drop 500 (backlog _ _)] at hmem
  rcases mem_append.mp hmem with htake | hdrop
  · -- what was selected is not pending any more
    have := hstored row' hrow' c' htake (hrowId.symm.trans hid.symm)
    rw [hder] at this
    cases this
  · refine ⟨c', mem_filter.mpr ⟨hdrop, ?_⟩, hid⟩
    rw [hindex]
    exact decide_eq_true hlt

theorem length_pendingBelow_round (hsigning : (env.signing caId).isSome)
    (hn : n ≤ (s.shared.logs caId).length) {r : Round} (hr : r.Good env caId n s) :
    (pendingBelow (r.after env caId s).shared n).length ≤ (pendingBelow s.shared n).length - 500 := by
  obtain ⟨⟨m, signing⟩, hsigning⟩ := isSome_iff_exists.mp hsigning
  have hgrows : Grows s.shared (r.called env s).shared := grows_run env s r.before
  have hn' := hn.trans (hgrows.length_le caId)
  have hbefore := length_pendingBelow_of_grows hgrows hr.noNew
  have hempty : pendingBelow (r.called env s).shared n = [] →
      (pendingBelow (r.after env caId s).shared n).length = 0 := by
    intro hnil
    refine Nat.le_zero.mp (length_pendingBelow_le (l := []) fun c hc ↦ ?_)
    obtain ⟨c', hc', -⟩ := exists_pending_before (noNewRows_call env caId r.input _) le_rfl hc
    rw [hnil] at hc'
    cases hc'
  rcases hr.grown with hnil | hgrown
  · rw [hempty hnil]
    exact Nat.zero_le _
  · rcases Nat.eq_zero_or_pos ((r.called env s).shared.logs caId).length with hzero | hpos
    · rw [hempty]
      · exact Nat.zero_le _
      · refine eq_nil_iff_forall_not_mem.mpr fun c hc ↦ ?_
        obtain ⟨row, -, hpending⟩ := mem_pendingBelow.mp hc
        have hlt := (pending?_eq_some hpending).2.2.1
        omega
    · exact (length_pendingBelow_call hsigning hn' hpos hgrown hr.succeeds).trans
        (Nat.sub_le_sub_right hbefore 500)

theorem pendingBelow_afterRounds (hsigning : (env.signing caId).isSome) {rounds : List Round}
    (hn : n ≤ (s.shared.logs caId).length)
    (hcount : (pendingBelow s.shared n).length ≤ 500 * rounds.length)
    (hok : GoodRounds env caId n s rounds) :
    pendingBelow (afterRounds env caId s rounds).shared n = [] := by
  induction rounds generalizing s with
  | nil => exact length_eq_zero_iff.mp (Nat.le_zero.mp hcount)
  | cons r rounds ih =>
    obtain ⟨hr, hrest⟩ := hok
    have hgrows : Grows s.shared (r.after env caId s).shared :=
      (grows_run env s r.before).trans (grows_run env (r.called env s) _)
    refine ih (s := r.after env caId s) (hn.trans (hgrows.length_le caId)) ?_ hrest
    have hround := length_pendingBelow_round hsigning hn hr
    rw [length_cons] at hcount
    omega

end Rounds

/-- If each call finds the tree grown since the latest checkpoint for as long as
certificates are pending, enough calls give every certificate below the size its
standalone form. -/
theorem standalone_after_calls (env : MtcEnv) (caId : String) (hsigning : (env.signing caId).isSome)
    (s : Pool Server Task) (n : ℕ) (hn : n ≤ (s.shared.logs caId).length) (rounds : List Round)
    (hcount : (pendingBelow s.shared n).length ≤ 500 * rounds.length)
    (hok : GoodRounds env caId n s rounds) :
    ∀ row ∈ (afterRounds env caId s rounds).shared.certs.rows, ∀ index ∈ row.mtcLogIndex,
      index < n → row.mtcStandaloneDer.isSome := by
  intro row hrow index hindex hlt
  by_contra hnone
  have hnone := Option.not_isSome_iff_eq_none.mp hnone
  have hmem := mem_pendingBelow.mpr ⟨row, hrow, Certs.pending?_of hindex hnone hlt⟩
  rw [pendingBelow_afterRounds hsigning hn hcount hok] at hmem
  cases hmem

/-! ## A tree that does not grow -/

variable {latest : CheckpointRow}

theorem call_of_upToDate {env : MtcEnv} {caId : String} {input : Input} {s : Pool Server Task}
    (hlatest : Checkpoints.getLatest s.shared caId = some latest)
    (hle : (s.shared.logs caId).length ≤ latest.treeSize) :
    Machine.run (system env).step s (call caId s.tasks.length input) = s := by
  obtain ⟨s, ts⟩ := s
  dsimp only at hlatest hle ⊢
  have habsent : ∀ k, Machine.run (system env).step ⟨s, ts⟩
      (List.replicate k (.advance ts.length input)) = ⟨s, ts⟩ := by
    intro k
    induction k with
    | zero => rfl
    | succ k ih => rw [replicate_succ, run_cons, System.step_absent, ih]
  have hidle : ∀ t k, act env s t input = .idle s → Machine.run (system env).step ⟨s, ts ++ [t]⟩
      (List.replicate (k + 1) (.advance ts.length input)) = ⟨s, ts⟩ := by
    intro t k hact
    rw [run_last, hact]
    simp only [Result.idle, append_nil]
    exact habsent k
  unfold call
  rw [run_cons]
  cases hsigning : env.signing caId with
  | none =>
    have hstart : ((system env).step ⟨s, ts⟩ (.arrive (.checkpoint caId))).1 = ⟨s, ts⟩ := by
      simp [System.step, System.result, System.rest, system, arrive, hsigning, Result.idle]
    rw [hstart, habsent]
  | some =>
    rw [step_arrive hsigning]
    by_cases hstops : input.fails = true ∨ s.logs caId = []
    · refine hidle _ _ ?_
      rcases hstops with hfails | hnil
      · simp [act, hsigning, checkpointStep, hfails]
      · simp [act, hsigning, checkpointStep, hnil]
    · obtain ⟨hfails, hne⟩ := not_or.mp hstops
      rw [run_last, act_start hsigning (Bool.not_eq_true _ ▸ hfails) hne]
      refine hidle _ _ ?_
      simp [act, hsigning, checkpointStep, hfails, hlatest, hle]

theorem afterRounds_of_upToDate {env : MtcEnv} {caId : String} {s : Pool Server Task}
    (hlatest : Checkpoints.getLatest s.shared caId = some latest)
    (hle : (s.shared.logs caId).length ≤ latest.treeSize) (inputs : List Input) :
    afterRounds env caId s (inputs.map (Round.mk [])) = s := by
  induction inputs with
  | nil => rfl
  | cons input inputs ih =>
    rw [map_cons, afterRounds]
    have hsame : (Round.mk [] input).after env caId s = s := call_of_upToDate hlatest hle
    rw [hsame, ih]

namespace TwoLogs

/-- The leaf of a certificate is in the log, a checkpoint covers it, and only
then is the row stored. -/
def storedLate : List (Move Arrival Input) :=
  [.arrive (.issue "a" ⟨"c1", [1]⟩ false), .advance 0 {}] ++ call "a" 1 {} ++ [.advance 0 {}]

def late : Pool Server Task := Machine.run (system env).step start storedLate

/-- Nothing has failed, and however often `produce_checkpoint` is called, the
certificate has no standalone form. -/
theorem late_row_is_never_covered :
    Machine.Meets (system env).step (NoFailure env) start storedLate ∧
    (late.shared.logs "a").length = 2 ∧
    ∀ inputs : List Input,
      (afterRounds env "a" late (inputs.map (Round.mk []))).shared.certs.rows.map
        (fun row ↦ (row.id, row.mtcLogIndex, row.mtcStandaloneDer)) = [("c1", some 1, none)] := by
  refine ⟨by decide +kernel, by decide +kernel, fun inputs ↦ ?_⟩
  have hlatest : ∃ latest, Checkpoints.getLatest late.shared "a" = some latest ∧
      (late.shared.logs "a").length ≤ latest.treeSize := by
    refine ⟨⟨"a", 2, [0, 1], [], 0⟩, by decide +kernel, by decide +kernel⟩
  obtain ⟨latest, hlatest, hle⟩ := hlatest
  rw [afterRounds_of_upToDate hlatest hle]
  decide +kernel

def stored : Pool Server Task := Machine.run (system env).step start (issue 0 "a" "c1" 1)

theorem stored_row_is_covered :
    (pendingBelow stored.shared 2).length = 1 ∧
    ∀ row ∈ (afterRounds env "a" stored [⟨[], {}⟩]).shared.certs.rows, ∀ index ∈ row.mtcLogIndex,
      index < 2 → row.mtcStandaloneDer.isSome := by
  refine ⟨by decide +kernel, ?_⟩
  exact standalone_after_calls env "a" (by decide +kernel) stored 2 (by decide +kernel) [⟨[], {}⟩]
    (by decide +kernel)
    ⟨⟨fun row hrow _ _ _ ↦ ⟨row, hrow, rfl⟩, .inr (by decide +kernel), by decide +kernel⟩, trivial⟩

end TwoLogs

end Akamu.Mtc
