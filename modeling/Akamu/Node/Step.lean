import Akamu.Lib.Machine
import Akamu.Node.Requests

/-!
# The node

One server process with its database: requests, the tasks they leave behind,
the gossip loop, the STAR and upstream-delegation loops and restarts, in any
order.  The upstream loop is a single task that works through the orders it has
listed; everything else runs concurrently.
-/

namespace Akamu

open Crdt List

/-- An order that the upstream loop has listed, and whether it is in the middle
of driving it. -/
structure Driven where
  order : OrderRow
  started : Bool

structure Node where
  db : Db
  replica : Replica
  tasks : List Task
  upstream : List Driven
  /-- What has been committed, latest first.  No step reads it. -/
  log : List (Txn × Outcome)

inductive Upstream where
  | ordered (url : String)
  | waiting
  | invalid
  | issued (cert : IssuedCert) (certUrl : String)

inductive Event where
  | request (r : Request) (now : Int)
  | advance (i : ℕ) (now : Int) (input : Input)
  /-- The task ends without finishing: cancelled, panicked or failed. -/
  | abandon (i : ℕ)
  | merge (peer : AkaCrdt)
  | purgeTombstones (cutoff : Int)
  | snapshot
  | starTick
  | upstreamTick
  | upstream (answer : Upstream) (now : Int)
  | purgeJti (now : Int)
  | restart (gen : ℕ) (now : Int)

inductive Output where
  | silent
  | refused (e : AcmeError)
  | committed (t : Txn) (o : Outcome)
  deriving DecidableEq

def Task.txn? : Task → Option Txn
  | .commit t => some t
  | _ => none

@[simp] theorem Task.txn?_eq_some {task : Task} {t : Txn} :
    task.txn? = some t ↔ task = .commit t := by
  cases task <;> simp [Task.txn?]

def Txn.snapshot? : Txn → Option AkaCrdt
  | .persist crdt => some crdt
  | _ => none

@[simp] theorem Txn.snapshot?_eq_some {t : Txn} {crdt : AkaCrdt} :
    t.snapshot? = some crdt ↔ t = .persist crdt := by
  cases t <;> simp [Txn.snapshot?]

namespace Node

/-- Run a transaction; `rest` are the tasks that remain besides its follow-up. -/
def commit (env : Env) (s : Node) (t : Txn) (now : Int) (rest : List Task) : Node × Output :=
  match exec env.decodeNull s.db t with
  | .error e => ({ s with tasks := rest }, .refused e)
  | .ok (db, o) =>
    ({ s with
        db := db
        tasks := rest ++ followUp env.library now t o
        log := (t, o) :: s.log }, .committed t o)

/-- Without gossip hooks do nothing; with it a hook may give up waiting for the
lock, except the one at the end of a validation, which waits. -/
def runHook (env : Env) (r : Replica) (lockTimeout : Bool) (h : Hook) : Replica :=
  let skipped := match h with
    | .validated .. => false
    | _ => lockTimeout
  if env.config.gossip && !skipped then r.applyHook env.config.nodeId h else r

def advance (env : Env) (s : Node) (now : Int) (input : Input) (rest : List Task) :
    Task → Node × Output
  | .commit t => s.commit env t now rest
  | .hooks [] spawn =>
    ({ s with tasks := rest ++ (spawn.map fun job ↦ Task.phase (.validate job)).toList }, .silent)
  | .hooks (h :: hs) spawn =>
    ({ s with
        replica := runHook env s.replica input.lockTimeout h
        tasks := rest ++ [.hooks hs spawn] }, .silent)
  | .phase p =>
    match p.proceed env s.db now input with
    | .error e => ({ s with tasks := rest }, .refused e)
    | .ok ts => ({ s with tasks := rest ++ ts }, .silent)

def drive (d : Driven) (rest : List Driven) (answer : Upstream) (now : Int) :
    Option Txn × List Driven :=
  if !d.started && d.order.expires.any fun e ↦ decide (e < now) then
    (some (.orderInvalid d.order.id "delegation order expired while processing" now), rest)
  else
    match answer with
    | .ordered url =>
      (some (.setUpstreamOrderUrl d.order.id url now), { d with started := true } :: rest)
    | .waiting => (none, rest)
    | .invalid => (some (.orderInvalid d.order.id "upstream CA rejected the order" now), rest)
    | .issued cert certUrl =>
      (some (.completeOrder (certRow d.order cert now) certUrl now), rest)

def seedTasks (cfg : Config) (now : Int) : List Task :=
  cfg.eabKeys.map fun k ↦ .commit (.insertEabIfAbsent (eabRow k.1 k.2 none none now) false)

/-- A process that cannot load its replica does not come up; such an attempt is
no step. -/
def restart (env : Env) (s : Node) (gen : ℕ) (now : Int) : Node :=
  match loadFromDb env.decodeNull env.config.nodeId s.db with
  | .error _ => s
  | .ok crdt =>
    { s with
      replica := ⟨crdt, gen⟩
      tasks := seedTasks env.config now
      upstream := [] }

def step (env : Env) (s : Node) : Event → Node × Output
  | .request r now =>
    match r.begin env s.db now with
    | .error e => (s, .refused e)
    | .ok ts => ({ s with tasks := s.tasks ++ ts }, .silent)
  | .advance i now input =>
    match s.tasks[i]? with
    | none => (s, .silent)
    | some task => s.advance env now input (s.tasks.eraseIdx i) task
  | .abandon i => ({ s with tasks := s.tasks.eraseIdx i }, .silent)
  | .merge peer =>
    if env.config.gossip then ({ s with replica := s.replica.merge peer }, .silent)
    else (s, .silent)
  | .purgeTombstones cutoff =>
    if env.config.gossip then ({ s with replica := s.replica.purge cutoff }, .silent)
    else (s, .silent)
  | .snapshot =>
    if env.config.gossip then
      ({ s with tasks := s.tasks ++ [.commit (.persist s.replica.crdt)] }, .silent)
    else (s, .silent)
  | .starTick =>
    ({ s with
        tasks := s.tasks ++ (Orders.listActiveStar s.db).map fun o ↦
          Task.phase (.renewStar o) }, .silent)
  | .upstreamTick =>
    if env.config.delegationUpstream && s.upstream.isEmpty then
      ({ s with
          upstream := (Orders.listPendingDelegationOrders s.db).map fun o ↦ ⟨o, false⟩ },
        .silent)
    else (s, .silent)
  | .upstream answer now =>
    match s.upstream with
    | [] => (s, .silent)
    | d :: rest =>
      let (txn, left) := drive d rest answer now
      let s := { s with upstream := left }
      match txn with
      | none => (s, .silent)
      | some t => s.commit env t now s.tasks
  | .purgeJti now => ({ s with tasks := s.tasks ++ [.commit (.purgeExpiredJti now)] }, .silent)
  | .restart gen now => (s.restart env gen now, .silent)

/-- The transaction that an event is going to run, whether or not it commits. -/
def attempt (s : Node) : Event → Option Txn
  | .advance i _ _ => s.tasks[i]?.bind Task.txn?
  | .upstream answer now =>
    match s.upstream with
    | [] => none
    | d :: rest => (drive d rest answer now).1
  | _ => none

def writesBack (s : Node) (e : Event) : Option AkaCrdt := (s.attempt e).bind Txn.snapshot?

theorem writesBack_eq_some {s : Node} {e : Event} {crdt : AkaCrdt} :
    s.writesBack e = some crdt ↔ s.attempt e = some (.persist crdt) := by
  simp [writesBack, Option.bind_eq_some_iff]

def boot (env : Env) (now : Int) : Node where
  db := .empty
  replica := ⟨.empty, 0⟩
  tasks := seedTasks env.config now
  upstream := []
  log := []

/-! ## What a step does -/

/-- What a step can do. -/
inductive Steps (env : Env) (s : Node) : Event → Node × Output → Prop
  | stay {e out} (hout : ∀ t o, out ≠ .committed t o)
      (hqueue : ∀ answer now, e = .upstream answer now → s.upstream = []) : Steps env s e (s, out)
  | begin {r now ts} (h : Request.begin env s.db now r = .ok ts) :
      Steps env s (.request r now) ({ s with tasks := s.tasks ++ ts }, .silent)
  | refuse {i now input cur err} (hcur : s.tasks[i]? = some cur)
      (hhooks : ∀ hs spawn, cur ≠ .hooks hs spawn) :
      Steps env s (.advance i now input) ({ s with tasks := s.tasks.eraseIdx i }, .refused err)
  | commit {i now input t db o} (hcur : s.tasks[i]? = some (.commit t))
      (hexec : exec env.decodeNull s.db t = .ok (db, o)) :
      Steps env s (.advance i now input)
        ({ s with
            db := db
            tasks := s.tasks.eraseIdx i ++ followUp env.library now t o
            log := (t, o) :: s.log }, .committed t o)
  | proceed {i now input p ts} (hcur : s.tasks[i]? = some (.phase p))
      (h : p.proceed env s.db now input = .ok ts) :
      Steps env s (.advance i now input) ({ s with tasks := s.tasks.eraseIdx i ++ ts }, .silent)
  | hook {i now input h hs spawn} (hcur : s.tasks[i]? = some (.hooks (h :: hs) spawn)) :
      Steps env s (.advance i now input)
        ({ s with
            replica := runHook env s.replica input.lockTimeout h
            tasks := s.tasks.eraseIdx i ++ [.hooks hs spawn] }, .silent)
  | spawn {i now input spawn} (hcur : s.tasks[i]? = some (.hooks [] spawn)) :
      Steps env s (.advance i now input)
        ({ s with
            tasks := s.tasks.eraseIdx i ++
              (spawn.map fun job ↦ Task.phase (.validate job)).toList }, .silent)
  | abandon {i} : Steps env s (.abandon i) ({ s with tasks := s.tasks.eraseIdx i }, .silent)
  | merge {peer} : Steps env s (.merge peer) ({ s with replica := s.replica.merge peer }, .silent)
  | purgeTombstones {cutoff} :
      Steps env s (.purgeTombstones cutoff) ({ s with replica := s.replica.purge cutoff }, .silent)
  | snapshot (hgossip : env.config.gossip = true) :
      Steps env s .snapshot
        ({ s with tasks := s.tasks ++ [.commit (.persist s.replica.crdt)] }, .silent)
  | starTick : Steps env s .starTick
      ({ s with
          tasks := s.tasks ++ (Orders.listActiveStar s.db).map fun o ↦
            Task.phase (.renewStar o) }, .silent)
  | upstreamTick : Steps env s .upstreamTick
      ({ s with
          upstream := (Orders.listPendingDelegationOrders s.db).map fun o ↦ ⟨o, false⟩ }, .silent)
  | drive {d rest answer now out} (hqueue : s.upstream = d :: rest)
      (hout : ∀ t o, out ≠ .committed t o) :
      Steps env s (.upstream answer now) ({ s with upstream := (drive d rest answer now).2 }, out)
  | driveCommit {d rest answer now t db o} (hqueue : s.upstream = d :: rest)
      (hdrive : (drive d rest answer now).1 = some t)
      (hexec : exec env.decodeNull s.db t = .ok (db, o)) :
      Steps env s (.upstream answer now)
        ({ s with
            db := db
            upstream := (drive d rest answer now).2
            tasks := s.tasks ++ followUp env.library now t o
            log := (t, o) :: s.log }, .committed t o)
  | purgeJti {now} : Steps env s (.purgeJti now)
      ({ s with tasks := s.tasks ++ [.commit (.purgeExpiredJti now)] }, .silent)
  | restart {gen now crdt} (hload : loadFromDb env.decodeNull env.config.nodeId s.db = .ok crdt) :
      Steps env s (.restart gen now)
        ({ s with replica := ⟨crdt, gen⟩, tasks := seedTasks env.config now, upstream := [] },
          .silent)

section Inversion

variable {env : Env} {s : Node} {e : Event} {t : Txn} {o : Outcome} {now : Int}

theorem attempt_eq_some (h : s.attempt e = some t) :
    .commit t ∈ s.tasks ∨ ∃ d rest answer now, s.upstream = d :: rest ∧
      e = .upstream answer now ∧ (drive d rest answer now).1 = some t := by
  cases e with
  | advance =>
    simp only [attempt, Option.bind_eq_some_iff, Task.txn?_eq_some] at h
    obtain ⟨task, htask, rfl⟩ := h
    exact .inl (mem_of_getElem? htask)
  | upstream answer now =>
    simp only [attempt] at h
    split at h
    · cases h
    · rename_i d rest hqueue
      exact .inr ⟨d, rest, answer, now, hqueue, rfl, h⟩
  | _ => simp [attempt] at h

theorem steps_step (env : Env) (s : Node) (e : Event) : Steps env s e (step env s e) := by
  have hsilent : ∀ t o, Output.silent ≠ .committed t o := fun _ _ ↦ nofun
  have hrefused : ∀ err t o, Output.refused err ≠ .committed t o := fun _ _ _ ↦ nofun
  cases e with
  | request =>
    simp only [step]
    split
    · exact .stay (hrefused _) nofun
    · exact .begin ‹_›
  | advance i =>
    simp only [step]
    cases hcur : s.tasks[i]? with
    | none => exact .stay hsilent nofun
    | some cur =>
      cases cur with
      | commit =>
        simp only [advance, Node.commit]
        split
        · exact .refuse hcur nofun
        · exact .commit hcur ‹_›
      | hooks hs spawn =>
        cases hs with
        | nil => exact .spawn hcur
        | cons => exact .hook hcur
      | phase =>
        simp only [advance]
        split
        · exact .refuse hcur nofun
        · exact .proceed hcur ‹_›
  | abandon => exact .abandon
  | merge =>
    simp only [step]
    split
    · exact .merge
    · exact .stay hsilent nofun
  | purgeTombstones =>
    simp only [step]
    split
    · exact .purgeTombstones
    · exact .stay hsilent nofun
  | snapshot =>
    simp only [step]
    split
    · exact .snapshot ‹_›
    · exact .stay hsilent nofun
  | starTick => exact .starTick
  | upstreamTick =>
    simp only [step]
    split
    · exact .upstreamTick
    · exact .stay hsilent nofun
  | upstream answer now =>
    simp only [step]
    split
    · exact .stay hsilent fun _ _ _ ↦ ‹_›
    · rename_i d rest hqueue
      cases hdrive : (Node.drive d rest answer now).1 with
      | none => exact .drive hqueue hsilent
      | some =>
        simp only [Node.commit]
        split
        · exact .drive hqueue (hrefused _)
        · exact .driveCommit hqueue hdrive ‹_›
  | purgeJti => exact .purgeJti
  | restart =>
    simp only [step, Node.restart]
    split
    · exact .stay hsilent nofun
    · exact .restart ‹_›

theorem step_db (env : Env) (s : Node) (e : Event) :
    ((step env s e).1.db = s.db ∧ (step env s e).1.log = s.log ∧
        ∀ t o, (step env s e).2 ≠ .committed t o) ∨
      ∃ t o, s.attempt e = some t ∧ (step env s e).2 = .committed t o ∧
        exec env.decodeNull s.db t = .ok ((step env s e).1.db, o) ∧
        (step env s e).1.log = (t, o) :: s.log := by
  have hstep := steps_step env s e
  generalize step env s e = r at hstep ⊢
  cases hstep with
  | stay hout | drive _ hout => exact .inl ⟨rfl, rfl, hout⟩
  | commit hcur hexec =>
    exact .inr ⟨_, _, by simp [attempt, hcur, Task.txn?], rfl, hexec, rfl⟩
  | driveCommit hqueue hdrive hexec =>
    exact .inr ⟨_, _, by simp [attempt, hqueue, hdrive], rfl, hexec, rfl⟩
  | _ => exact .inl ⟨rfl, rfl, fun _ _ ↦ nofun⟩

@[elab_as_elim]
theorem db_rule {motive : Db → Prop} (hsame : motive s.db)
    (hexec : ∀ t o db', s.attempt e = some t → exec env.decodeNull s.db t = .ok (db', o) →
      motive db') : motive (step env s e).1.db := by
  rcases step_db env s e with ⟨hdb, -, -⟩ | ⟨t, o, hattempt, -, h, -⟩
  · rwa [hdb]
  · exact hexec t o _ hattempt h

theorem mem_log_step {q : Txn × Outcome} (h : q ∈ (step env s e).1.log) :
    q ∈ s.log ∨ s.attempt e = some q.1 ∧
      exec env.decodeNull s.db q.1 = .ok ((step env s e).1.db, q.2) := by
  rcases step_db env s e with ⟨-, hlog, -⟩ | ⟨t, o, hattempt, -, hexec, hlog⟩
  · exact .inl (hlog ▸ h)
  · rw [hlog] at h
    rcases mem_cons.mp h with rfl | h
    · exact .inr ⟨hattempt, hexec⟩
    · exact .inl h

theorem exec_of_committed (h : (step env s e).2 = .committed t o) :
    s.attempt e = some t ∧ exec env.decodeNull s.db t = .ok ((step env s e).1.db, o) ∧
      (step env s e).1.log = (t, o) :: s.log := by
  rcases step_db env s e with ⟨-, -, hno⟩ | ⟨t', o', hattempt, hout, hexec, hlog⟩
  · exact absurd h (hno t o)
  · obtain ⟨rfl, rfl⟩ : t' = t ∧ o' = o := by simpa [hout] using h
    exact ⟨hattempt, hexec, hlog⟩

theorem committed_of_attempt {db' : Db} (hattempt : s.attempt e = some t)
    (hexec : exec env.decodeNull s.db t = .ok (db', o)) : (step env s e).2 = .committed t o := by
  cases e with
  | advance =>
    simp only [attempt, Option.bind_eq_some_iff, Task.txn?_eq_some] at hattempt
    obtain ⟨task, htask, rfl⟩ := hattempt
    simp [step, htask, advance, commit, hexec]
  | upstream answer now =>
    cases hup : s.upstream with
    | nil => simp [attempt, hup] at hattempt
    | cons d rest =>
      simp only [attempt, hup] at hattempt
      simp [step, hup, hattempt, commit, hexec]
  | _ => cases hattempt

theorem followUp_of_committed (h : (step env s e).2 = .committed t o) :
    ∃ clock, ∀ task ∈ followUp env.library clock t o, task ∈ (step env s e).1.tasks := by
  have hstep := steps_step env s e
  generalize step env s e = r at hstep h ⊢
  cases hstep with
  | stay hout | drive _ hout => exact absurd h (hout t o)
  | commit | driveCommit =>
    cases h
    exact ⟨_, fun _ htask ↦ mem_append_right _ htask⟩
  | _ => cases h

inductive Arises (env : Env) (s : Node) : Event → Task → Prop
  | kept {e : Event} {task : Task} (h : task ∈ s.tasks) : Arises env s e task
  | begun {r : Request} {now : Int} {ts : List Task} {task : Task}
      (h : Request.begin env s.db now r = .ok ts) (hmem : task ∈ ts) :
      Arises env s (.request r now) task
  | followed {e : Event} {t : Txn} {o : Outcome} {clock : Int} {task : Task}
      (hout : (step env s e).2 = .committed t o)
      (hmem : task ∈ followUp env.library clock t o) : Arises env s e task
  | proceeded {i : ℕ} {p : Phase} {now : Int} {input : Input} {ts : List Task} {task : Task}
      (hphase : s.tasks[i]? = some (.phase p)) (h : p.proceed env s.db now input = .ok ts)
      (hmem : task ∈ ts) : Arises env s (.advance i now input) task
  | hooked {i : ℕ} {now : Int} {input : Input} {h : Hook} {hs : List Hook}
      {spawn : Option ValidationJob} (hmem : s.tasks[i]? = some (.hooks (h :: hs) spawn)) :
      Arises env s (.advance i now input) (.hooks hs spawn)
  | spawned {i : ℕ} {now : Int} {input : Input} {job : ValidationJob}
      (hmem : s.tasks[i]? = some (.hooks [] (some job))) :
      Arises env s (.advance i now input) (.phase (.validate job))
  | snapshot (hgossip : env.config.gossip = true) :
      Arises env s .snapshot (.commit (.persist s.replica.crdt))
  | starTick {o : OrderRow} (h : o ∈ Orders.listActiveStar s.db) :
      Arises env s .starTick (.phase (.renewStar o))
  | purgeJti {now : Int} : Arises env s (.purgeJti now) (.commit (.purgeExpiredJti now))
  | seeded {gen : ℕ} {now : Int} {task : Task} (hmem : task ∈ seedTasks env.config now) :
      Arises env s (.restart gen now) task

theorem arises_of_mem {task : Task} (h : task ∈ (step env s e).1.tasks) : Arises env s e task := by
  have hrest : ∀ i, task ∈ s.tasks.eraseIdx i → Arises env s e task :=
    fun _ hmem ↦ .kept (mem_of_mem_eraseIdx hmem)
  have hsteps := steps_step env s e
  generalize hstep : step env s e = r at hsteps h
  cases hsteps with
  | stay | merge | purgeTombstones | upstreamTick | drive => exact .kept h
  | refuse | abandon => exact hrest _ h
  | begin hbegin => exact (mem_append.mp h).elim .kept (.begun hbegin)
  | commit => exact (mem_append.mp h).elim (hrest _) (.followed (by rw [hstep]))
  | driveCommit => exact (mem_append.mp h).elim .kept (.followed (by rw [hstep]))
  | proceed hcur hproceed => exact (mem_append.mp h).elim (hrest _) (.proceeded hcur hproceed)
  | hook hcur =>
    rcases mem_append.mp h with h | h
    · exact hrest _ h
    · cases mem_singleton.mp h
      exact .hooked hcur
  | @spawn _ _ _ spawn hcur =>
    rcases mem_append.mp h with h | h
    · exact hrest _ h
    · cases spawn with
      | none => cases h
      | some =>
        cases mem_singleton.mp h
        exact .spawned hcur
  | snapshot hgossip =>
    rcases mem_append.mp h with h | h
    · exact .kept h
    · cases mem_singleton.mp h
      exact .snapshot hgossip
  | starTick =>
    rcases mem_append.mp h with h | h
    · exact .kept h
    · obtain ⟨o, ho, rfl⟩ := mem_map.mp h
      exact .starTick ho
  | purgeJti =>
    rcases mem_append.mp h with h | h
    · exact .kept h
    · cases mem_singleton.mp h
      exact .purgeJti
  | restart => exact .seeded h

theorem upstream_of_step (env : Env) (s : Node) (e : Event) :
    (∃ d rest answer now, e = .upstream answer now ∧ s.upstream = d :: rest ∧
        (step env s e).1.upstream = (drive d rest answer now).2) ∨
      (∀ answer now, e = .upstream answer now → s.upstream = []) ∧
        ((step env s e).1.upstream = s.upstream ∨ (step env s e).1.upstream = [] ∨
          (step env s e).1.db = s.db ∧ (step env s e).1.upstream =
            (Orders.listPendingDelegationOrders s.db).map fun o ↦ ⟨o, false⟩) := by
  have hstep := steps_step env s e
  generalize step env s e = r at hstep ⊢
  cases hstep with
  | stay _ hqueue => exact .inr ⟨hqueue, .inl rfl⟩
  | drive hqueue | driveCommit hqueue => exact .inl ⟨_, _, _, _, rfl, hqueue, rfl⟩
  | upstreamTick => exact .inr ⟨nofun, .inr (.inr ⟨rfl, rfl⟩)⟩
  | restart => exact .inr ⟨nofun, .inr (.inl rfl)⟩
  | _ => exact .inr ⟨nofun, .inl rfl⟩

theorem drive_snd (d : Driven) (rest : List Driven) (answer : Upstream) (now : Int) :
    (drive d rest answer now).2 = rest ∨
      (drive d rest answer now).2 = { d with started := true } :: rest ∧
        ∃ url, (drive d rest answer now).1 = some (.setUpstreamOrderUrl d.order.id url now) := by
  unfold drive
  split
  · exact .inl rfl
  · cases answer with
    | ordered url => exact .inr ⟨rfl, url, rfl⟩
    | _ => exact .inl rfl

theorem drive_fst {d : Driven} {rest : List Driven} {answer : Upstream}
    (h : (drive d rest answer now).1 = some t) :
    (∃ error, t = .orderInvalid d.order.id error now) ∨
      (∃ url, t = .setUpstreamOrderUrl d.order.id url now) ∨
      ∃ cert certUrl, t = .completeOrder (certRow d.order cert now) certUrl now := by
  unfold drive at h
  split at h
  · cases h
    exact .inl ⟨_, rfl⟩
  · cases answer with
    | ordered url =>
      cases h
      exact .inr (.inl ⟨url, rfl⟩)
    | waiting => cases h
    | invalid =>
      cases h
      exact .inl ⟨_, rfl⟩
    | issued cert certUrl =>
      cases h
      exact .inr (.inr ⟨cert, certUrl, rfl⟩)

end Inversion

end Node

/-! ## A small run -/

/-- A CSR is a serial number of one character and the one dns name it asks for. -/
def Library.numbered : Library :=
  { Library.plain with
    parseCsr := fun der ↦ match der with
      | [] => .error (.badCsr "CSR does not decode")
      | serial :: name => .ok
          { subject := ⟨[serial], []⟩, sans := [.dnsName name], caCert := false, keyType := none }
    assemble := fun subject _ _ _ ↦
      let serial := String.ofList (subject.der.map fun b ↦ Char.ofNat b.toNat)
      .ok ("cert-" ++ serial, serial) }

/-- No CAA or TXT records; what is validated succeeds. -/
def Input.plain : Input where
  lookup _ := .ok []
  txt := .ok []
  outcome := .ok ()
  token := { jti := "jti", expires := 1000, tkvalue := none, caFlag := false }
  messageId := "message"
  lockTimeout := false
  signedAt := 0

/-- The first task takes `n` steps. -/
def drain (n : ℕ) (now : Int) : List Event := List.replicate n (.advance 0 now Input.plain)

def Fresh.sample (n : String) : Fresh where
  orderId := "order-" ++ n
  authzId i := "authz-" ++ n ++ "-" ++ toString i
  token _ := "token"
  challengeId i j := "challenge-" ++ n ++ "-" ++ toString i ++ "-" ++ toString j

def NewOrderPayload.plain (identifiers : List RequestedIdentifier) : NewOrderPayload where
  identifiers := identifiers
  notBefore := none
  notAfter := none
  replaces := none
  profile := none
  autoRenewal := none
  delegation := none

def accountEvents : List Event :=
  .request (.newAccount "acct-1" "thumbprint" [1] none false none) 1 :: drain 3 1

/-- It orders a certificate for `a.example`, up to the commit of the order and
its hooks. -/
def orderEvents : List Event :=
  .request (.newOrder "acct-1" "ca" (.plain [⟨.dns, "a.example", none⟩]) (.sample "1")) 2 ::
    drain 9 2

def validateEvents : List Event :=
  .request (.respondChallenge "acct-1" "ca" "authz-1-0" .http01 (.ok ())) 3 :: drain 7 3

def finalizeEvents (serial : String) (now : Int) : List Event :=
  .request (.finalize
    { accountId := "acct-1", caId := "ca", orderId := "order-1", csr := serial ++ "a.example" })
    now :: drain 7 now

end Akamu
