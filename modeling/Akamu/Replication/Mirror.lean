import Akamu.Replication.Advance
import Akamu.Replication.Permanence

/-!
# The replica keeps up with the database

A commit advances some rows; the hooks of the same handler bring the replica up
to date afterwards.  Until they have run, the rows they touch are outstanding.
The commits without a hook, the hooks that give up or lose against the time
stamp of the entry they find, and the hooks that are overtaken by another commit
to the same row are the ways in which the replica falls behind for good.
-/

namespace Akamu

open Crdt List Machine Option OrMap

namespace Node

def pendingHooks (s : Node) : List Hook := s.tasks.flatMap Task.pendingHooks

theorem mem_pendingHooks {s : Node} {h : Hook} :
    h ∈ s.pendingHooks ↔ ∃ task ∈ s.tasks, h ∈ task.pendingHooks := mem_flatMap

def Awaits (s : Node) (touches : String → Hook → Bool) (k : String) : Prop :=
  ∃ h ∈ s.pendingHooks, touches k h = true

theorem not_awaits {s : Node} {touches : String → Hook → Bool} {k : String}
    (hfree : ∀ h ∈ s.pendingHooks, touches k h = false) : ¬ s.Awaits touches k := by
  rintro ⟨h, hmem, htouch⟩
  simp [hfree h hmem] at htouch

/-- What a commit may do for the replica to keep up: the rows it advances are
touched by no hook that is still to run, and where the replica has a live entry
for such a row, a hook of the same handler is going to bring it up to date.  A
write-back takes the replica as it is, with no hook still to run. -/
@[mk_iff]
structure Carries (env : Env) (s : Node) (t : Txn) : Prop where
  orders : ∀ o ∈ s.db.orders.rows, t.advancesOrder env.decodeNull s.db o = true →
    (∀ h ∈ s.pendingHooks, h.touchesOrder o.id = false) ∧
      ∀ e ∈ s.replica.crdt.orders.lookup o.id, t.hooked s.db = true ∧ e.tombstone = false
  authorizations : ∀ a ∈ s.db.authorizations.rows, t.advancesAuthz s.db a = true →
    (∀ h ∈ s.pendingHooks, h.touchesAuthz a.id = false) ∧
      ∀ e ∈ s.replica.crdt.authorizations.lookup a.id, t.hooked s.db = true ∧ e.tombstone = false
  challenges : ∀ c ∈ s.db.challenges.rows, t.advancesChallenge c = true →
    (∀ h ∈ s.pendingHooks, h.touchesChallenge c.id = false) ∧
      ∀ _e ∈ s.replica.crdt.challenges.lookup c.id, t.hooked s.db = true
  snapshot : ∀ crdt ∈ t.snapshot?, crdt = s.replica.crdt ∧ s.pendingHooks = []

instance (env : Env) (s : Node) (t : Txn) : Decidable (s.Carries env t) :=
  decidable_of_iff' _ (carries_iff ..)

def runsHook (s : Node) : Event → Option (Hook × Bool)
  | .advance i _ input =>
    match s.tasks[i]? with
    | some (.hooks (h :: _) _) => some (h, match h with
        | .validated .. => true
        | _ => !input.lockTimeout)
    | _ => none
  | _ => none

end Node

def Event.isMerge : Event → Bool
  | .merge _ => true
  | _ => false

def Node.abandons (s : Node) : Event → Option Task
  | .abandon i => s.tasks[i]?
  | _ => none

/-- The side condition: no update from a peer, no handler cancelled before its
hooks, every hook gets the lock and wins, and the commits are as above. -/
@[mk_iff]
structure KeepsMirror (env : Env) (s : Node) (e : Event) : Prop where
  unmerged : e.isMerge = false
  abandons : ∀ task ∈ s.abandons e, task.pendingHooks = []
  hook : ∀ p ∈ s.runsHook e, p.2 = true ∧ p.1.lands env.config.nodeId s.replica.crdt = true
  commit : ∀ t ∈ s.attempt e, s.Carries env t

instance (env : Env) (s : Node) (e : Event) : Decidable (KeepsMirror env s e) :=
  decidable_of_iff' _ (keepsMirror_iff ..)

/-! ## What a step does to replica and hooks -/

variable {task : Task}

theorem Node.mem_eraseIdx_tasks {s : Node} (hmem : task ∈ s.tasks) (i : ℕ) :
    s.tasks[i]? = some task ∨ task ∈ s.tasks.eraseIdx i := by
  obtain ⟨j, hj⟩ := mem_iff_getElem?.mp hmem
  by_cases hij : j = i
  · exact .inl (hij ▸ hj)
  · exact .inr (mem_eraseIdx_iff_getElem?.mpr ⟨j, hij, hj⟩)

/-- The invariant: the replica describes the database except where a hook is
still to run, and the hooks that are still to run write what the database says. -/
structure Node.Mirrored (env : Env) (s : Node) : Prop where
  sound : s.Sound env .nothing
  clean : Clean s.db
  tasks : ∀ task ∈ s.tasks, TaskMirrored s.db s.replica.crdt task
  reflects : Reflects s.db s.replica.crdt (s.Awaits Hook.touchesOrder)
    (s.Awaits Hook.touchesAuthz) (s.Awaits Hook.touchesChallenge)

namespace Node.Mirrored

variable {env : Env} {s : Node} {e : Event}

variable {t : Txn} {db : Db} {hook : Hook} {crdt : AkaCrdt}

variable (h : s.Mirrored env)

include h

theorem fits (hmem : hook ∈ s.pendingHooks) : hook.Fits s.db s.replica.crdt := by
  obtain ⟨task, htask, hhook⟩ := mem_pendingHooks.mp hmem
  exact (h.tasks task htask).fits hook hhook

theorem settled (hquiet : s.pendingHooks = []) :
    Reflects s.db s.replica.crdt nowhere nowhere nowhere := by
  have hnone : ∀ touches k, ¬ s.Awaits touches k := fun _ _ ↦ not_awaits (by simp [hquiet])
  exact ⟨h.reflects.orders.mono (hnone _), h.reflects.authorizations.mono (hnone _),
    h.reflects.challenges.mono (hnone _)⟩

theorem current (hok : s.Carries env t) : Current env.decodeNull s.db s.replica.crdt t where
  orders r hr hadv e he := by
    obtain ⟨hfree, hlive⟩ := hok.orders r hr hadv
    exact ⟨(hlive e he).2, h.reflects.orders.agrees_of_settled (not_awaits hfree) he
      (Db.orderProgress_of_mem hr)⟩
  authorizations a ha hadv e he := by
    obtain ⟨hfree, hlive⟩ := hok.authorizations a ha hadv
    exact ⟨(hlive e he).2, h.reflects.authorizations.agrees_of_settled (not_awaits hfree) he
      (Db.authzProgress_of_mem ha)⟩
  challenges c hc hadv e he v hv := by
    obtain ⟨hfree, -⟩ := hok.challenges c hc hadv
    exact h.reflects.challenges.agrees_of_settled (not_awaits hfree) he
      (Db.challengeProgress_of_mem hc) v hv

theorem advances {o : Outcome} (hok : s.Carries env t)
    (hexec : exec env.decodeNull s.db t = .ok (db, o)) (htxn : TxnClean t) :
    Advances env.decodeNull s.db t db ∧ Clean db := by
  rcases exec_cases hexec with ⟨crdt, rfl, hpersist⟩ | heffect
  · obtain ⟨rfl, hquiet⟩ := hok.snapshot crdt rfl
    have hsettled := h.settled hquiet
    exact ⟨hsettled.advances hpersist, hsettled.clean hpersist h.clean⟩
  · exact ⟨heffect.advances, heffect.clean h.clean htxn⟩

/-- A hook that waits is not overtaken by a commit that is as it should be. -/
theorem fits_commit (hok : s.Carries env t) (hadv : Advances env.decodeNull s.db t db)
    (hmem : hook ∈ s.pendingHooks) : hook.Fits db s.replica.crdt := by
  refine (h.fits hmem).advance (fun k p htouch hp ↦ ?_) (fun k p htouch hp ↦ ?_)
    fun k p htouch hp ↦ ?_
  · obtain ⟨o, ho, rfl, p', hp', rfl | hchange⟩ := hadv.order hp
    · exact hp'
    · simp [(hok.orders o ho hchange).1 hook hmem] at htouch
  · obtain ⟨a, ha, rfl, p', hp', rfl | hchange⟩ := hadv.authz hp
    · exact hp'
    · simp [(hok.authorizations a ha hchange).1 hook hmem] at htouch
  · obtain ⟨c, hc, rfl, p', hp', rfl | hchange⟩ := hadv.challenge hp
    · exact hp'
    · simp [(hok.challenges c hc hchange).1 hook hmem] at htouch

theorem reflects_commit {o : Outcome} {clock : Int} {s' : Node} (hok : s.Carries env t)
    (hsound : TxnSound env .nothing s.db t) (hexec : exec env.decodeNull s.db t = .ok (db, o))
    (hadv : Advances env.decodeNull s.db t db)
    (hkept : ∀ hook ∈ s.pendingHooks, hook ∈ s'.pendingHooks)
    (hfollow : ∀ task ∈ followUp env.library clock t o, ∀ hook ∈ task.pendingHooks,
    hook ∈ s'.pendingHooks) :
    Reflects db s.replica.crdt (s'.Awaits Hook.touchesOrder) (s'.Awaits Hook.touchesAuthz)
      (s'.Awaits Hook.touchesChallenge) := by
  have hout : ∀ touches k, s.Awaits touches k → s'.Awaits touches k :=
    fun touches k ⟨hook, hmem, htouch⟩ ↦ ⟨hook, hkept hook hmem, htouch⟩
  refine ⟨h.reflects.orders.write (fun k p hp ↦ ?_) (hout _),
    h.reflects.authorizations.write (fun k p hp ↦ ?_) (hout _),
    h.reflects.challenges.write (fun k p hp ↦ ?_) (hout _)⟩
  · obtain ⟨r, hr, rfl, p', hp', hcase⟩ := hadv.order hp
    refine ⟨p', hp', hcase.imp_right fun hchange e hlookup ↦ ?_⟩
    have hhooked := ((hok.orders r hr hchange).2 e hlookup).1
    obtain ⟨task, htask, hook, hhook, htouch⟩ :=
      touchesOrder_of_followUp hexec hsound hhooked hr hchange
    exact ⟨hook, hfollow task htask hook hhook, htouch⟩
  · obtain ⟨a, ha, rfl, p', hp', hcase⟩ := hadv.authz hp
    refine ⟨p', hp', hcase.imp_right fun hchange e hlookup ↦ ?_⟩
    have hhooked := ((hok.authorizations a ha hchange).2 e hlookup).1
    obtain ⟨task, htask, hook, hhook, htouch⟩ :=
      touchesAuthz_of_followUp hexec hhooked hchange
    exact ⟨hook, hfollow task htask hook hhook, htouch⟩
  · obtain ⟨c, hc, rfl, p', hp', hcase⟩ := hadv.challenge hp
    refine ⟨p', hp', hcase.imp_right fun hchange e hlookup ↦ ?_⟩
    have hhooked := (hok.challenges c hc hchange).2 e hlookup
    obtain ⟨task, htask, hook, hhook, htouch⟩ :=
      touchesChallenge_of_followUp hexec hhooked hc hchange
    exact ⟨hook, hfollow task htask hook hhook, htouch⟩

theorem task_of_hooks (hfits : ∀ hook ∈ s.pendingHooks, hook.Fits db crdt)
    (htask : task ∈ s.tasks) : TaskMirrored db crdt task := by
  have hold := h.tasks task htask
  cases task with
  | hooks => exact fun hook hhook ↦ hfits hook (mem_pendingHooks.mpr ⟨_, htask, hhook⟩)
  | commit | phase => exact hold

theorem step_hook (hgossip : env.config.gossip = true) {i : ℕ} {now : Int} {input : Input}
    {hs : List Hook} {spawn : Option ValidationJob} {s' : Node}
    (hok : KeepsMirror env s (.advance i now input))
    (hcur : s.tasks[i]? = some (.hooks (hook :: hs) spawn))
    (hs' : s' = { s with
      replica := runHook env s.replica input.lockTimeout hook
      tasks := s.tasks.eraseIdx i ++ [.hooks hs spawn] }) (hsound : s'.Sound env .nothing) :
    s'.Mirrored env := by
  have hlock := hok.hook
  simp only [runsHook, hcur, mem_def, some.injEq, forall_eq'] at hlock
  obtain ⟨hgets, hlands⟩ := hlock
  have hrun : runHook env s.replica input.lockTimeout hook =
      s.replica.applyHook env.config.nodeId hook := by
    cases hook <;> simp_all [runHook]
  rw [hrun] at hs'
  have hhook : hook ∈ s.pendingHooks :=
    mem_pendingHooks.mpr ⟨_, mem_of_getElem? hcur, mem_cons_self⟩
  have hfit := h.fits hhook
  -- what is still to run was to run before, and only this hook is gone
  have hrest : ∀ x ∈ hs, x ∈ s.pendingHooks := fun x hx ↦
    mem_pendingHooks.mpr ⟨_, mem_of_getElem? hcur, mem_cons_of_mem _ hx⟩
  have hgone : ∀ (touches : String → Hook → Bool) k, touches k hook = false →
      s.Awaits touches k → s'.Awaits touches k := by
    rintro touches k hnot ⟨x, hx, htouch⟩
    obtain ⟨task, htask, hmem⟩ := mem_pendingHooks.mp hx
    refine ⟨x, mem_pendingHooks.mpr ?_, htouch⟩
    rw [hs']
    rcases mem_eraseIdx_tasks htask i with hat | hleft
    · rw [hcur] at hat
      cases hat
      rcases mem_cons.mp hmem with rfl | hmem
      · simp [hnot] at htouch
      · exact ⟨.hooks hs spawn, by simp, hmem⟩
    · exact ⟨task, by simp [hleft], hmem⟩
  subst hs'
  have hfits : ∀ x ∈ s.pendingHooks,
      x.Fits s.db (s.replica.applyHook env.config.nodeId hook).crdt := by
    intro x hx
    refine (h.fits hx).update (fun k e he ↦ ?_) (fun k e he ↦ ?_) fun k e he ↦ ?_
    · exact (Replica.applyHook_orders hfit he).imp_left And.right
    · exact (Replica.applyHook_authorizations hfit he).imp_left And.right
    · exact (Replica.applyHook_challenges hfit hlands he).imp_left And.right
  refine ⟨hsound, h.clean, fun task htask ↦ ?_, ?_, ?_, ?_⟩
  · rcases mem_append.mp htask with hleft | hlast
    · exact h.task_of_hooks hfits (mem_of_mem_eraseIdx hleft)
    · cases mem_singleton.mp hlast
      exact fun x hx ↦ hfits x (hrest x hx)
  · refine h.reflects.orders.update fun k e he ↦ ?_
    rcases Replica.applyHook_orders hfit he with ⟨hnot, hold⟩ | ⟨-, hshown⟩
    · exact .inl ⟨hold, hgone _ k hnot⟩
    · exact .inr hshown
  · refine h.reflects.authorizations.update fun k e he ↦ ?_
    rcases Replica.applyHook_authorizations hfit he with ⟨hnot, hold⟩ | ⟨-, hshown⟩
    · exact .inl ⟨hold, hgone _ k hnot⟩
    · exact .inr hshown
  · refine h.reflects.challenges.update fun k e he ↦ ?_
    rcases Replica.applyHook_challenges hfit hlands he with ⟨hnot, hold⟩ | hshown
    · exact .inl ⟨hold, hgone _ k hnot⟩
    · exact .inr hshown

theorem step_purge (cutoff : Int) :
    Node.Mirrored env { s with replica := s.replica.purge cutoff } := by
  have hfits : ∀ x ∈ s.pendingHooks, x.Fits s.db (s.replica.purge cutoff).crdt := fun x hx ↦
    (h.fits hx).update (fun k e he ↦ .inl (lookup_of_purge he))
      (fun k e he ↦ .inl (lookup_of_purge he))
      fun k e he ↦ .inl (LwwMap.lookup_of_purge he)
  refine ⟨⟨h.sound.tasks, h.sound.log⟩, h.clean, fun task htask ↦ h.task_of_hooks hfits htask,
    ?_, ?_, ?_⟩
  · exact h.reflects.orders.update fun k e he ↦ .inl ⟨lookup_of_purge he, id⟩
  · exact h.reflects.authorizations.update fun k e he ↦ .inl ⟨lookup_of_purge he, id⟩
  · exact h.reflects.challenges.update fun k e he ↦ .inl ⟨LwwMap.lookup_of_purge he, id⟩

theorem step_restart {gen : ℕ} {now : Int} {s' : Node}
    (hload : loadFromDb env.decodeNull env.config.nodeId s.db = .ok crdt)
    (hs' : s' = { s with
      replica := ⟨crdt, gen⟩, tasks := seedTasks env.config now, upstream := [] })
    (hsound : s'.Sound env .nothing) : s'.Mirrored env := by
  subst hs'
  have hloaded := reflects_of_load hload
  refine ⟨hsound, h.clean, fun task htask ↦ ?_, ?_, ?_, ?_⟩
  · obtain ⟨k, -, rfl⟩ := mem_map.mp htask
    trivial
  · exact hloaded.orders.mono fun _ ↦ False.elim
  · exact hloaded.authorizations.mono fun _ ↦ False.elim
  · exact hloaded.challenges.mono fun _ ↦ False.elim

theorem task_of_arises (hfits : ∀ hook ∈ s.pendingHooks, hook.Fits db crdt)
    (hfollow : ∀ t o clock, (Node.step env s e).2 = .committed t o →
    ∀ task ∈ followUp env.library clock t o, ∀ hook ∈ task.pendingHooks, hook.Fits db crdt)
    (harises : Arises env s e task) : TaskMirrored db crdt task := by
  cases harises with
  | kept hmem => exact h.task_of_hooks hfits hmem
  | begun hbegin hmem => exact taskMirrored_of_begin h.clean hbegin task hmem
  | followed hout hmem => exact taskMirrored_of_followUp (hfollow _ _ _ hout) task hmem
  | proceeded hphase hproceed hmem =>
    exact taskMirrored_of_proceed (h.tasks _ (mem_of_getElem? hphase)) hproceed task hmem
  | hooked hmem =>
    exact fun hook hhook ↦ hfits hook
      (mem_pendingHooks.mpr ⟨_, mem_of_getElem? hmem, mem_cons_of_mem _ hhook⟩)
  | spawned | snapshot | starTick | purgeJti => trivial
  | seeded hmem =>
    obtain ⟨k, -, rfl⟩ := mem_map.mp hmem
    trivial

theorem txnClean (hattempt : s.attempt e = some t) : TxnClean t := by
  rcases attempt_eq_some hattempt with hmem | ⟨d, rest, answer, now, -, -, hdrive⟩
  · exact h.tasks _ hmem
  · rcases drive_fst hdrive with ⟨_, rfl⟩ | ⟨_, rfl⟩ | ⟨_, _, rfl⟩ <;> trivial

theorem step_other (hok : KeepsMirror env s e)
    (hreplica : (Node.step env s e).1.replica = s.replica)
    (hkept : ∀ task ∈ s.tasks, task.pendingHooks ≠ [] →
      task ∈ (Node.step env s e).1.tasks ∨ task ∈ s.abandons e) :
    (Node.step env s e).1.Mirrored env := by
  have hpending : ∀ hook ∈ s.pendingHooks, hook ∈ (Node.step env s e).1.pendingHooks := by
    intro hook hmem
    obtain ⟨task, htask, hhook⟩ := mem_pendingHooks.mp hmem
    rcases hkept task htask (ne_nil_of_mem hhook) with hleft | hgone
    · exact mem_pendingHooks.mpr ⟨task, hleft, hhook⟩
    · simp [hok.abandons task hgone] at hhook
  rcases step_db env s e with ⟨hdb, -, hno⟩ | ⟨t, o, hattempt, hout, hexec, -⟩
  · have hsound := h.sound.step (admits_nothing env s e) (by rw [hdb]; exact .refl s.db)
      fun _ _ _ ↦ trivial
    have hout : ∀ touches k, s.Awaits touches k → (Node.step env s e).1.Awaits touches k :=
      fun touches k ⟨hook, hmem, htouch⟩ ↦ ⟨hook, hpending hook hmem, htouch⟩
    refine ⟨hsound, by rw [hdb]; exact h.clean, fun task htask ↦ ?_, ?_⟩
    · rw [hdb, hreplica]
      exact h.task_of_arises (fun hook ↦ h.fits) (fun t o clock hc ↦ absurd hc (hno t o))
        (arises_of_mem htask)
    · rw [hdb, hreplica]
      exact ⟨h.reflects.orders.mono (hout _), h.reflects.authorizations.mono (hout _),
        h.reflects.challenges.mono (hout _)⟩
  · have hcarries := hok.commit t hattempt
    have htxn := h.txnClean hattempt
    have hsoundTxn := h.sound.attempt hattempt
    obtain ⟨hadv, hclean⟩ := h.advances hcarries hexec htxn
    have hsound := h.sound.step (admits_nothing env s e) hadv.extends fun _ _ _ ↦ trivial
    refine ⟨hsound, hclean, fun task htask ↦ ?_, ?_⟩
    · rw [hreplica]
      refine h.task_of_arises (fun hook ↦ h.fits_commit hcarries hadv) (fun t' o' clock hc ↦ ?_)
        (arises_of_mem htask)
      obtain ⟨rfl, rfl⟩ : t = t' ∧ o = o' := by simpa [hout] using hc
      exact fits_of_followUp hexec hsoundTxn h.clean htxn (h.current hcarries)
    · rw [hreplica]
      obtain ⟨clock, hfollow⟩ := followUp_of_committed hout
      exact h.reflects_commit hcarries hsoundTxn hexec hadv hpending
        fun task htask hook hhook ↦ mem_pendingHooks.mpr ⟨task, hfollow task htask, hhook⟩

theorem step (hgossip : env.config.gossip = true) (hok : KeepsMirror env s e) :
    (Node.step env s e).1.Mirrored env := by
  have hsound := fun hext ↦ h.sound.step (admits_nothing env s e) hext fun _ _ _ ↦ trivial
  have hother := h.step_other hok
  have hstep := steps_step env s e
  generalize Node.step env s e = r at hsound hother hstep ⊢
  cases hstep with
  | hook hcur => exact h.step_hook hgossip hok hcur rfl (hsound (.refl s.db))
  | merge => cases hok.unmerged
  | purgeTombstones => exact h.step_purge _
  | restart hload => exact h.step_restart hload rfl (hsound (.refl s.db))
  -- otherwise the replica is left alone, with the hooks that are still to run
  | @refuse i _ _ cur _ hcur hhooks =>
    refine hother rfl fun task htask hne ↦ .inl ?_
    refine (mem_eraseIdx_tasks htask i).resolve_left fun hat ↦ hne ?_
    rw [hcur] at hat
    cases hat
    cases cur with
    | hooks hs spawn => exact absurd rfl (hhooks hs spawn)
    | _ => rfl
  | commit hcur | proceed hcur | spawn hcur =>
    refine hother rfl fun task htask hne ↦ .inl (mem_append_left _ ?_)
    refine (mem_eraseIdx_tasks htask _).resolve_left fun hat ↦ hne ?_
    rw [hcur] at hat
    cases hat
    rfl
  | abandon => exact hother rfl fun task htask _ ↦ (mem_eraseIdx_tasks htask _).symm
  | begin | snapshot | starTick | driveCommit | purgeJti =>
    exact hother rfl fun task htask _ ↦ .inl (mem_append_left _ htask)
  | stay | upstreamTick | drive => exact hother rfl fun task htask _ ↦ .inl htask

end Node.Mirrored

theorem Node.mirrored_boot (env : Env) (now : Int) : (Node.boot env now).Mirrored env where
  sound := Node.sound_boot env _ now
  clean := ⟨fun o ho ↦ absurd ho not_mem_nil, fun c hc ↦ absurd hc not_mem_nil⟩
  tasks task htask := by
    obtain ⟨k, -, rfl⟩ := mem_map.mp htask
    trivial
  reflects := by
    constructor <;> intro k e he <;> cases he

/-- The rows are all there, and unchanged in the columns that record progress. -/
structure KeepsProgress (db db' : Db) : Prop where
  orders : ∀ o ∈ db.orders.rows, ∃ o' ∈ db'.orders.rows, o'.id = o.id ∧ o'.status = o.status ∧
    o'.error = o.error ∧ o'.certificateId = o.certificateId
  authorizations : ∀ a ∈ db.authorizations.rows, ∃ a' ∈ db'.authorizations.rows, a'.id = a.id ∧
    a'.status = a.status
  challenges : ∀ c ∈ db.challenges.rows, ∃ c' ∈ db'.challenges.rows, c'.id = c.id ∧
    c'.status = c.status ∧ c'.error = c.error ∧ c'.validated = c.validated

theorem Reflects.keepsProgress {db db' : Db} {crdt : AkaCrdt}
    (h : Reflects db crdt nowhere nowhere nowhere)
    (hpersist : persistCrdtAcme db crdt = .ok db') : KeepsProgress db db' := by
  have hadv : Advances (.ok "") db (.persist crdt) db' := h.advances hpersist
  constructor
  · intro o ho
    obtain ⟨o', ho', hfixed, hsame | hno⟩ := hadv.orders o ho
    · exact ⟨o', ho', (congrArg OrderRow.id hfixed :), (congrArg OrderProgress.status hsame :),
        (congrArg OrderProgress.error hsame :), (congrArg OrderProgress.certificateId hsame :)⟩
    · cases hno
  · intro a ha
    obtain ⟨a', ha', hfixed, hsame | hno⟩ := hadv.authorizations a ha
    · exact ⟨a', ha', (congrArg AuthorizationRow.id hfixed :),
        (congrArg AuthzProgress.status hsame :)⟩
    · cases hno
  · intro c hc
    obtain ⟨c', hc', hfixed, hsame | hno⟩ := hadv.challenges c hc
    · exact ⟨c', hc', (congrArg ChallengeRow.id hfixed :), (congrArg ChallengeProgress.status hsame :),
        (congrArg ChallengeProgress.error hsame :), (congrArg ChallengeProgress.validated hsame :)⟩
    · cases hno

/-- In every run of a gossiping node whose steps all meet the side condition,
whenever no handler is between its commit and its hooks. -/
theorem write_back_keeps_progress (env : Env) (hgossip : env.config.gossip = true) (start : Int)
    (es : List Event) (hmeets : Meets (Node.step env) (KeepsMirror env) (.boot env start) es)
    (hquiet : (run (Node.step env) (.boot env start) es).pendingHooks = []) (db' : Db)
    (hpersist : persistCrdtAcme (run (Node.step env) (.boot env start) es).db
      (run (Node.step env) (.boot env start) es).replica.crdt = .ok db') :
    KeepsProgress (run (Node.step env) (.boot env start) es).db db' := by
  have hmirrored : (run (Node.step env) (.boot env start) es).Mirrored env :=
    hmeets.invariant (Node.Mirrored env) (Node.mirrored_boot env start)
      fun s e h hok ↦ h.step hgossip hok
  exact (hmirrored.settled hquiet).keepsProgress hpersist

/-! ## A validation that fails -/

/-- The http-01 challenge is answered and the validation fails.  There is no hook
for that. -/
def failEvents : List Event :=
  .request (.respondChallenge "acct-1" "ca" "authz-1-0" .http01 (.ok ())) 3 :: drain 3 3 ++
    List.replicate 2 (.advance 0 4 { Input.plain with outcome := .error (.internal "refused") })

def failed : Node :=
  run (Node.step gossipEnv) (.boot gossipEnv 0) (accountEvents ++ orderEvents ++ failEvents)

def Db.orderStatus (db : Db) (id : String) : Option OrderStatus :=
  (db.orders.find? id).map OrderRow.status

theorem KeepsProgress.orderStatus {db db' : Db} (h : KeepsProgress db db') {id : String}
    {status : OrderStatus} (hstatus : db.orderStatus id = some status) :
    db'.orderStatus id = some status := by
  obtain ⟨o, ho, rfl⟩ := map_eq_some_iff.mp hstatus
  obtain ⟨hmem, rfl⟩ := KeyedTable.find?_eq_some_iff.mp ho
  obtain ⟨o', ho', hid, hsame, -⟩ := h.orders o hmem
  rw [Db.orderStatus, ← hid, KeyedTable.find?_of_mem ho', map_some, hsame]

/-- The invalid order is pending again. -/
theorem failure_written_back : failed.pendingHooks = [] ∧
    ∃ db', persistCrdtAcme failed.db failed.replica.crdt = .ok db' ∧
      ¬ KeepsProgress failed.db db' := by
  have hbefore : failed.db.orderStatus "order-1" = some .invalid := by decide +kernel
  have hafter : ((persistCrdtAcme failed.db failed.replica.crdt).map
      fun db ↦ db.orderStatus "order-1") = .ok (some .pending) := by decide +kernel
  obtain ⟨db', hpersist, hpending⟩ := Except.map_eq_ok hafter
  refine ⟨by decide +kernel, db', hpersist, fun hkeeps ↦ ?_⟩
  rw [hkeeps.orderStatus hbefore] at hpending
  cases hpending

/-- The challenge is validated in the second after it was answered, and the
order is finalized.  In the same second the update of the challenge would lose. -/
def unhurriedEvents : List Event :=
  accountEvents ++ orderEvents ++
    .request (.respondChallenge "acct-1" "ca" "authz-1-0" .http01 (.ok ())) 3 :: drain 3 3 ++
    drain 4 4 ++ finalizeEvents "1" 5

theorem success_written_back :
    (run (Node.step gossipEnv) (.boot gossipEnv 0) unhurriedEvents).db.orderStatus "order-1" =
        some .valid ∧
      ∃ db', persistCrdtAcme (run (Node.step gossipEnv) (.boot gossipEnv 0) unhurriedEvents).db
          (run (Node.step gossipEnv) (.boot gossipEnv 0) unhurriedEvents).replica.crdt = .ok db' ∧
        KeepsProgress (run (Node.step gossipEnv) (.boot gossipEnv 0) unhurriedEvents).db db' := by
  have hok : ((persistCrdtAcme (run (Node.step gossipEnv) (.boot gossipEnv 0) unhurriedEvents).db
      (run (Node.step gossipEnv) (.boot gossipEnv 0) unhurriedEvents).replica.crdt).map
      fun db ↦ db.orderStatus "order-1") = .ok (some .valid) := by decide +kernel
  obtain ⟨db', hpersist, -⟩ := Except.map_eq_ok hok
  exact ⟨by decide +kernel, db', hpersist, write_back_keeps_progress gossipEnv rfl 0
    unhurriedEvents (by decide +kernel) (by decide +kernel) db' hpersist⟩

end Akamu
