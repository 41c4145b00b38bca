import Akamu.Lib.Tasks
import Akamu.Validation.Binding

/-!
# Replays of authority tokens

A token is good until it expires, and its id is remembered at least as long.
A validation looks at the clock before it records the id, though, and a purge
looks at the clock before it deletes: a validation that was slow in between
may find the id of an expired token forgotten.
-/

namespace Akamu.TkAuth

open Except List Machine Option Tasks

/-! ## Validations and purges under way -/

structure Shared where
  db : Db
  clock : Int
  accepted : List String

inductive Task where
  | begun (req : TkRequest)
  | keyed (req : TkRequest) (thumbprint : String) (spki : List UInt8) (created : Int)
  | verified (req : TkRequest) (thumbprint : String) (created : Int) (claims : Json)
  | checked (req : TkRequest) (created : Int) (t : AcceptedToken)
  /-- A purge, by the background task or by an operator, that has read the
  clock. -/
  | purge (now : Int)

inductive Arrival where
  | validate (req : TkRequest)
  | purge
  | tick (secs : ℕ)

abbrev Outcome : Type := Result Shared Task (Except AcmeError Unit)

def goOnWith (sh : Shared) : Except AcmeError Task → Outcome
  | .ok task => .goOn sh task
  | .error e => .answer sh (.error e)

def beginValidation (req : TkRequest) (spki : Except AcmeError (List UInt8)) (now : Int) :
    Except AcmeError Task := do
  let thumbprint ← thumbprintOf req.keyAuth
  let key ← spki
  return .keyed req thumbprint key now

def record (sh : Shared) (req : TkRequest) (row : TkauthJtiRow) : Outcome :=
  match recordJti sh.db row with
  | .ok db => ⟨{ sh with db, accepted := sh.accepted ++ [req.authorityToken] }, [], some (.ok ())⟩
  | .error e => .answer sh (.error e)

def act (lib : TkLibrary) (cfg : TkConfig) (sh : Shared) (task : Task)
    (spki : Except AcmeError (List UInt8)) : Outcome :=
  match task with
  | .begun req => goOnWith sh (beginValidation req spki sh.clock)
  | .keyed req thumbprint key created =>
    goOnWith sh ((verifyToken lib req.authorityToken key sh.clock).map
      (.verified req thumbprint created))
  | .verified req thumbprint created claims =>
    goOnWith sh ((checkToken lib cfg req thumbprint claims sh.clock).map (.checked req created))
  | .checked req created t => record sh req (t.row req.authzId created)
  | .purge now => .idle { sh with db := Tkauth.purgeExpired sh.db now }

def arrive (sh : Shared) : Arrival → Outcome
  | .validate req => .goOn sh (.begun req)
  | .purge => .goOn sh (.purge sh.clock)
  | .tick secs => .idle { sh with clock := sh.clock + secs }

def system (lib : TkLibrary) (cfg : TkConfig) :
    System Shared Task Arrival (Except AcmeError (List UInt8)) (Except AcmeError Unit) where
  arrive := arrive
  act := act lib cfg

abbrev Event : Type := Move Arrival (Except AcmeError (List UInt8))

def step (lib : TkLibrary) (cfg : TkConfig) (s : Pool Shared Task) (e : Event) :
    Pool Shared Task × Option (Except AcmeError Unit) :=
  (system lib cfg).step s e

def initial (db : Db) (clock : Int) : Pool Shared Task := ⟨⟨db, clock, []⟩, []⟩

/-! ## Steps -/

namespace Task

/-- The token of a validation that has passed the check of the expiry and has
not recorded the id. -/
def pendingToken : Task → Option String
  | .verified req .. | .checked req .. => some req.authorityToken
  | .begun _ | .keyed .. | .purge _ => none

def purgeTime : Task → Option Int
  | .purge now => some now
  | _ => none

def Sound (lib : TkLibrary) (clock : Int) : Task → Prop
  | .begun _ | .keyed .. => True
  | .verified req _ _ claims => lib.decodeClaims req.authorityToken = .ok claims
  | .checked req _ t =>
    tokenJti lib req.authorityToken = some t.jti ∧ tokenExp lib req.authorityToken = some t.exp
  | .purge now => now ≤ clock

end Task

/-- No purge runs with a time by which the token of a validation that is past
its check of the expiry has expired. -/
def Patient (lib : TkLibrary) (s : Pool Shared Task) : Event → Prop
  | .advance i _ => ∀ now ∈ (s.tasks[i]?).bind Task.purgeTime,
      ∀ t ∈ s.tasks, ∀ token ∈ t.pendingToken, ∀ exp ∈ tokenExp lib token, now ≤ exp
  | .arrive _ | .abandon _ => True

instance (lib : TkLibrary) (s : Pool Shared Task) (e : Event) : Decidable (Patient lib s e) :=
  match e with
  | .advance i _ => inferInstanceAs (Decidable (∀ now ∈ (s.tasks[i]?).bind Task.purgeTime,
      ∀ t ∈ s.tasks, ∀ token ∈ t.pendingToken, ∀ exp ∈ tokenExp lib token, now ≤ exp))
  | .arrive _ | .abandon _ => .isTrue trivial

section Steps

variable {lib : TkLibrary} {cfg : TkConfig} {s : Pool Shared Task} {e : Event}

theorem Task.Sound.mono {clock clock' : Int} {t : Task} (h : t.Sound lib clock)
    (hle : clock ≤ clock') : t.Sound lib clock' := by
  cases t with
  | begun | keyed | verified | checked => exact h
  | purge => exact le_trans h hle

/-- What one event may do to the pool. -/
inductive Effect (lib : TkLibrary) (s s' : Pool Shared Task) : Prop where
  /-- Time passes and tasks go on; one that passes the check of the expiry has
  a token that is good at the time. -/
  | quiet (hdb : s'.shared.db = s.shared.db) (haccepted : s'.shared.accepted = s.shared.accepted)
      (hclock : s.shared.clock ≤ s'.shared.clock)
      (hpending : ∀ t ∈ s'.tasks, ∀ token ∈ t.pendingToken,
        (∃ t₀ ∈ s.tasks, token ∈ t₀.pendingToken) ∨
          ∀ exp ∈ tokenExp lib token, s.shared.clock < exp)
  | record (req : TkRequest) (created : Int) (t : AcceptedToken)
      (htask : .checked req created t ∈ s.tasks)
      (hfree : ∀ r ∈ s.shared.db.tkauthJtiCache.rows, r.jti ≠ t.jti)
      (hrows : s'.shared.db.tkauthJtiCache.rows =
        s.shared.db.tkauthJtiCache.rows ++ [t.row req.authzId created])
      (haccepted : s'.shared.accepted = s.shared.accepted ++ [req.authorityToken])
      (hclock : s'.shared.clock = s.shared.clock) (htasks : s'.tasks ⊆ s.tasks)
  | purge (now : Int) (htask : .purge now ∈ s.tasks)
      (hpatient : ∀ t ∈ s.tasks, ∀ token ∈ t.pendingToken, ∀ exp ∈ tokenExp lib token, now ≤ exp)
      (hdb : s'.shared.db = Tkauth.purgeExpired s.shared.db now)
      (haccepted : s'.shared.accepted = s.shared.accepted)
      (hclock : s'.shared.clock = s.shared.clock) (htasks : s'.tasks ⊆ s.tasks)

@[simp] theorem goOnWith_shared (sh : Shared) (r : Except AcmeError Task) :
    (goOnWith sh r).shared = sh := by
  cases r <;> rfl

theorem mem_goOnWith_next {sh : Shared} {r : Except AcmeError Task} {t : Task}
    (h : t ∈ (goOnWith sh r).next) : r = .ok t := by
  cases r with
  | error => cases h
  | ok => rw [mem_singleton.mp h]

variable {spki : Except AcmeError (List UInt8)} {i : ℕ}

theorem act_next {sh : Shared} {t t' : Task} (hsound : t.Sound lib sh.clock)
    (ht' : t' ∈ (act lib cfg sh t spki).next) :
    t'.Sound lib sh.clock ∧ ∀ token ∈ t'.pendingToken,
      token ∈ t.pendingToken ∨ ∀ exp ∈ tokenExp lib token, sh.clock < exp := by
  cases t with
  | begun req =>
    have hbegin : beginValidation req spki sh.clock = .ok t' := mem_goOnWith_next ht'
    obtain ⟨thumbprint, -, hbegin⟩ := bind_eq_ok hbegin
    obtain ⟨key, -, hbegin⟩ := bind_eq_ok hbegin
    cases hbegin
    exact ⟨trivial, fun token htoken ↦ nomatch htoken⟩
  | keyed =>
    obtain ⟨claims, hverify, rfl⟩ := map_eq_ok (mem_goOnWith_next ht')
    obtain ⟨hclaims, hlive⟩ := verifyToken_eq_ok hverify
    refine ⟨hclaims, ?_⟩
    rintro token ⟨⟩
    rw [tokenExp_of_claims hclaims]
    exact .inr hlive
  | verified =>
    obtain ⟨accepted, hcheck, rfl⟩ := map_eq_ok (mem_goOnWith_next ht')
    obtain ⟨hjti, hexp, -⟩ := checkToken_eq_ok hcheck
    exact ⟨⟨(tokenJti_of_claims hsound).trans hjti, (tokenExp_of_claims hsound).trans hexp⟩,
      fun token htoken ↦ .inl htoken⟩
  | checked req =>
    change t' ∈ (record sh req _).next at ht'
    unfold record at ht'
    split at ht' <;> cases ht'
  | purge => cases ht'

theorem clock_act (lib : TkLibrary) (cfg : TkConfig) (sh : Shared) (t : Task) (spki : Except AcmeError (List UInt8)) :
    (act lib cfg sh t spki).shared.clock = sh.clock := by
  cases t with
  | begun | keyed | verified => exact congrArg Shared.clock (goOnWith_shared sh _)
  | checked req =>
    change (record sh req _).shared.clock = sh.clock
    unfold record
    split <;> rfl
  | purge => rfl

theorem le_tick (clock : Int) (secs : ℕ) : clock ≤ clock + secs := by
  omega

/-- What new tasks meet, time keeps and `act` hands on holds of every task. -/
theorem clocked_step {P : Int → Task → Prop}
    (hmono : ∀ {clock clock' t}, P clock t → clock ≤ clock' → P clock' t)
    (hbegun : ∀ clock req, P clock (.begun req)) (hpurge : ∀ clock, P clock (.purge clock))
    (hact : ∀ {sh t spki}, P sh.clock t → ∀ t' ∈ (act lib cfg sh t spki).next, P sh.clock t')
    (h : Asserted (fun _ ↦ True) (fun sh t ↦ P sh.clock t) s) :
    Asserted (fun _ ↦ True) (fun sh t ↦ P sh.clock t) (step lib cfg s e).1 := by
  refine Asserted.step h (fun a _ ↦ ?_) (fun i spki t _ _ ht ↦ ?_)
  · cases a with
    | validate req =>
      refine ⟨trivial, fun t ht ↦ ht, fun t ht ↦ ?_⟩
      cases mem_singleton.mp ht
      apply hbegun
    | purge =>
      refine ⟨trivial, fun t ht ↦ ht, fun t ht ↦ ?_⟩
      cases mem_singleton.mp ht
      apply hpurge
    | tick secs => exact ⟨trivial, fun t ht ↦ hmono ht (le_tick s.shared.clock secs),
        fun t ht ↦ absurd ht not_mem_nil⟩
  · have hclock := clock_act lib cfg s.shared t spki
    refine ⟨trivial, fun t' ht' ↦ ?_, fun t' ht' ↦ ?_⟩
    · exact hclock.symm ▸ ht'
    · exact hclock.symm ▸ hact ht t' ht'

def SoundTasks (lib : TkLibrary) (s : Pool Shared Task) : Prop :=
  Asserted (fun _ ↦ True) (fun sh t ↦ t.Sound lib sh.clock) s

theorem SoundTasks.step (h : SoundTasks lib s) : SoundTasks lib (step lib cfg s e).1 :=
  clocked_step Task.Sound.mono (fun _ _ ↦ trivial) le_refl
    (fun ht _ ht' ↦ (act_next ht ht').1) h

theorem Effect.of_result
    (hdb : ((system lib cfg).result s e).shared.db = s.shared.db)
    (haccepted : ((system lib cfg).result s e).shared.accepted = s.shared.accepted)
    (hclock : s.shared.clock ≤ ((system lib cfg).result s e).shared.clock)
    (hnext : ∀ t ∈ ((system lib cfg).result s e).next, ∀ token ∈ t.pendingToken,
      (∃ t₀ ∈ s.tasks, token ∈ t₀.pendingToken) ∨
        ∀ exp ∈ tokenExp lib token, s.shared.clock < exp) : Effect lib s (step lib cfg s e).1 := by
  refine .quiet hdb haccepted hclock fun t ht token htoken ↦ ?_
  rcases System.mem_step_tasks ht with hold | hnew
  · exact .inl ⟨t, hold, htoken⟩
  · exact hnext t hnew token htoken

theorem effect_arrive (a : Arrival) : Effect lib s (step lib cfg s (.arrive a)).1 := by
  cases a with
  | validate | purge =>
    refine Effect.of_result rfl rfl (le_refl _) fun t ht token htoken ↦ ?_
    cases mem_singleton.mp ht
    cases htoken
  | tick secs =>
    exact Effect.of_result rfl rfl (le_tick _ secs) fun t ht ↦ nomatch ht

theorem effect_goOn {t : Task} (hsound : SoundTasks lib s) (htask : s.tasks[i]? = some t)
    (hshared : (act lib cfg s.shared t spki).shared = s.shared) :
    Effect lib s (step lib cfg s (.advance i spki)).1 := by
  have hresult : (system lib cfg).result s (.advance i spki) = act lib cfg s.shared t spki := by
    simp only [System.result, htask, elim_some, system]
  have hmem : t ∈ s.tasks := mem_of_getElem? htask
  refine Effect.of_result ?_ ?_ ?_ ?_
  · rw [hresult, hshared]
  · rw [hresult, hshared]
  · rw [hresult, hshared]
  · rw [hresult]
    intro t' ht' token htoken
    rcases (act_next (hsound.tasks t hmem) ht').2 token htoken with hold | hlive
    · exact .inl ⟨t, hmem, hold⟩
    · exact .inr hlive

variable {t : AcceptedToken}

theorem effect_checked {req : TkRequest} {created : Int} (hsound : SoundTasks lib s)
    (htask : s.tasks[i]? = some (.checked req created t)) :
    Effect lib s (step lib cfg s (.advance i spki)).1 := by
  cases hrecord : recordJti s.shared.db (t.row req.authzId created) with
  | error =>
    refine effect_goOn hsound htask ?_
    simp only [act, record, hrecord, Result.answer]
  | ok db =>
    obtain ⟨hfree, hrows⟩ := recordJti_eq_ok hrecord
    have hstep : (step lib cfg s (.advance i spki)).1 =
        ⟨{ s.shared with db, accepted := s.shared.accepted ++ [req.authorityToken] },
          s.tasks.eraseIdx i⟩ := by
      simp only [step, System.step, System.result, System.rest, htask, elim_some, system,
        act, record, hrecord, append_nil]
    rw [hstep]
    exact .record req created t (mem_of_getElem? htask) hfree hrows rfl rfl
      eraseIdx_subset

theorem effect_purge {now : Int} (htask : s.tasks[i]? = some (.purge now))
    (hpatient : Patient lib s (.advance i spki)) :
    Effect lib s (step lib cfg s (.advance i spki)).1 := by
  have hstep : (step lib cfg s (.advance i spki)).1 =
      ⟨{ s.shared with db := Tkauth.purgeExpired s.shared.db now }, s.tasks.eraseIdx i⟩ := by
    simp only [step, System.step, System.result, System.rest, htask, elim_some, system, act,
      Result.idle, append_nil]
  rw [hstep]
  refine .purge now (mem_of_getElem? htask) (hpatient now ?_) rfl rfl rfl
    eraseIdx_subset
  rw [htask]
  rfl

theorem effect_step (hsound : SoundTasks lib s) (hpatient : Patient lib s e) :
    Effect lib s (step lib cfg s e).1 := by
  cases e with
  | arrive a => exact effect_arrive a
  | abandon => exact Effect.of_result rfl rfl (le_refl _) fun t ht ↦ absurd ht not_mem_nil
  | advance i spki =>
    cases htask : s.tasks[i]? with
    | none =>
      have hresult : (system lib cfg).result s (.advance i spki) = .idle s.shared := by
        simp only [System.result, htask, elim_none]
      refine Effect.of_result ?_ ?_ ?_ ?_ <;> rw [hresult]
      · rfl
      · rfl
      · exact le_refl _
      · exact fun t ht ↦ absurd ht not_mem_nil
    | some t =>
      cases t with
      | begun | keyed | verified => exact effect_goOn hsound htask (goOnWith_shared _ _)
      | checked => exact effect_checked hsound htask
      | purge => exact effect_purge htask hpatient

/-! ## Acceptances -/

/-- What a validation under way holds is what `validate` computes from
observations that were made one after another. -/
def Task.Follows (lib : TkLibrary) (cfg : TkConfig) (clock : Int) : Task → Prop
  | .begun _ | .purge _ => True
  | .keyed req thumbprint _ created =>
    thumbprintOf req.keyAuth = .ok thumbprint ∧ created ≤ clock
  | .verified req thumbprint created claims => thumbprintOf req.keyAuth = .ok thumbprint ∧
      ∃ key verified, verifyToken lib req.authorityToken key verified = .ok claims ∧
        created ≤ verified ∧ verified ≤ clock
  | .checked req created t => ∃ obs : Observed,
      (∀ db, validate lib cfg req obs db = recordJti db (t.row req.authzId created)) ∧
        obs.created ≤ obs.verified ∧ obs.verified ≤ obs.capped ∧ obs.capped ≤ clock

theorem Task.Follows.mono {clock clock' : Int} {t : Task} (h : t.Follows lib cfg clock)
    (hle : clock ≤ clock') : t.Follows lib cfg clock' := by
  cases t with
  | begun | purge => trivial
  | keyed => exact ⟨h.1, h.2.trans hle⟩
  | verified =>
    obtain ⟨hthumb, key, verified, hverify, hcreated, hclock⟩ := h
    exact ⟨hthumb, key, verified, hverify, hcreated, hclock.trans hle⟩
  | checked =>
    obtain ⟨obs, hvalidate, hcreated, hverified, hclock⟩ := h
    exact ⟨obs, hvalidate, hcreated, hverified, hclock.trans hle⟩

theorem follows_act {sh : Shared} {t t' : Task} (h : t.Follows lib cfg sh.clock)
    (ht' : t' ∈ (act lib cfg sh t spki).next) : t'.Follows lib cfg sh.clock := by
  cases t with
  | begun req =>
    obtain ⟨thumbprint, hthumb, hbegin⟩ := bind_eq_ok (mem_goOnWith_next ht')
    obtain ⟨key, -, hbegin⟩ := bind_eq_ok hbegin
    cases hbegin
    exact ⟨hthumb, le_rfl⟩
  | keyed req thumbprint key =>
    obtain ⟨claims, hverify, rfl⟩ := map_eq_ok (mem_goOnWith_next ht')
    exact ⟨h.1, key, sh.clock, hverify, h.2, le_rfl⟩
  | verified req thumbprint created =>
    obtain ⟨t, hcheck, rfl⟩ := map_eq_ok (mem_goOnWith_next ht')
    obtain ⟨hthumb, key, verified, hverify, hcreated, hclock⟩ := h
    refine ⟨⟨.ok key, created, verified, sh.clock⟩, fun db ↦ ?_, hcreated, hclock, le_rfl⟩
    simp only [validate, hthumb, hverify, hcheck, bind, Except.bind]
  | checked req =>
    change t' ∈ (record sh req _).next at ht'
    unfold record at ht'
    split at ht' <;> cases ht'
  | purge => cases ht'

abbrev Following (lib : TkLibrary) (cfg : TkConfig) : Pool Shared Task → Prop :=
  Asserted (fun _ ↦ True) fun sh t ↦ t.Follows lib cfg sh.clock

theorem Following.step (h : Following lib cfg s) : Following lib cfg (step lib cfg s e).1 :=
  clocked_step Task.Follows.mono (fun _ _ ↦ trivial) (fun _ ↦ trivial)
    (fun ht _ ht' ↦ follows_act ht ht') h

/-- If the step accepts a token, it does to the database what `validate` does for
the request, with observations made in turn. -/
def AcceptsValidated (lib : TkLibrary) (cfg : TkConfig) (s : Pool Shared Task) (e : Event) : Prop :=
  (step lib cfg s e).2 = some (.ok ()) → ∃ req obs db,
    obs.created ≤ obs.verified ∧ obs.verified ≤ obs.capped ∧ obs.capped ≤ s.shared.clock ∧
      validate lib cfg req obs s.shared.db = .ok db ∧ (step lib cfg s e).1.shared =
        { s.shared with db, accepted := s.shared.accepted ++ [req.authorityToken] }

theorem acceptsValidated_of_following (h : Following lib cfg s) : AcceptsValidated lib cfg s e := by
  change ((system lib cfg).result s e).output = _ →
    ∃ req obs db, _ ∧ _ ∧ _ ∧ _ ∧ ((system lib cfg).result s e).shared = _
  refine System.result_rule nofun (fun a _ haccept ↦ ?_) fun i spki t _ htask haccept ↦ ?_
  · cases a <;> cases haccept
  change (act lib cfg s.shared t spki).output = _ at haccept
  cases t with
  | begun | keyed | verified =>
    simp only [act, goOnWith] at haccept
    split at haccept <;> cases haccept
  | purge => cases haccept
  | checked req created token =>
    obtain ⟨obs, hvalidate, hcreated, hverified, hclock⟩ := h.tasks _ (mem_of_getElem? htask)
    change (record s.shared req _).output = _ at haccept
    unfold record at haccept
    split at haccept
    · rename_i db hrecord
      refine ⟨req, obs, db, hcreated, hverified, hclock, (hvalidate _).trans hrecord, ?_⟩
      simp only [system, act, record, hrecord]
    · cases haccept

/-- However validations, purges and the clock interleave, a token is accepted
only as `validate` accepts it. -/
theorem acceptance_is_validate (lib : TkLibrary) (cfg : TkConfig) (db : Db) (clock : Int)
    (es : List Event) (e : Event) :
    AcceptsValidated lib cfg (Machine.run (step lib cfg) (initial db clock) es) e := by
  apply acceptsValidated_of_following
  refine (Machine.meets_true _ es).invariant _ ?_ fun s e hs _ ↦ Following.step hs
  exact ⟨trivial, fun _ ht ↦ absurd ht not_mem_nil⟩

/-! ## Spent tokens -/

/-- No validation of the token can succeed any more: its id is recorded, or it
has expired and no validation is past the check of that. -/
def Spent (lib : TkLibrary) (s : Pool Shared Task) (token : String) : Prop :=
  ∃ jti exp, tokenJti lib token = some jti ∧ tokenExp lib token = some exp ∧
    ((∃ r ∈ s.shared.db.tkauthJtiCache.rows, r.jti = jti ∧ r.expires = exp) ∨
      (exp < s.shared.clock ∧ ∀ t ∈ s.tasks, token ∉ t.pendingToken))

theorem Spent.of_effect {s' : Pool Shared Task} {token : String} (hsound : SoundTasks lib s)
    (heffect : Effect lib s s') (h : Spent lib s token) : Spent lib s' token := by
  obtain ⟨jti, exp, hjti, hexp, h⟩ := h
  refine ⟨jti, exp, hjti, hexp, ?_⟩
  cases heffect with
  | quiet hdb haccepted hclock hpending =>
    rcases h with hrow | ⟨hdead, hnone⟩
    · exact .inl (hdb ▸ hrow)
    · refine .inr ⟨lt_of_lt_of_le hdead hclock, fun t ht htoken ↦ ?_⟩
      rcases hpending t ht token htoken with ⟨t₀, ht₀, hold⟩ | hlive
      · exact hnone t₀ ht₀ hold
      · exact absurd (hlive exp hexp) (not_lt.mpr hdead.le)
  | record req created t htask hfree hrows haccepted hclock htasks =>
    rcases h with ⟨r, hr, hrow⟩ | ⟨hdead, hnone⟩
    · exact .inl ⟨r, hrows ▸ mem_append_left _ hr, hrow⟩
    · exact .inr ⟨hclock ▸ hdead, fun t ht ↦ hnone t (htasks ht)⟩
  | purge now htask hpatient hdb haccepted hclock htasks =>
    rcases h with ⟨r, hr, hrjti, hrexp⟩ | ⟨hdead, hnone⟩
    · by_cases hkeep : now ≤ exp
      · refine .inl ⟨r, ?_, hrjti, hrexp⟩
        rw [hdb]
        exact KeyedTable.mem_retain.mpr ⟨hr, decide_eq_true (hrexp ▸ hkeep)⟩
      · -- the row goes, and so has the time of the token
        have hnow : now ≤ s.shared.clock := hsound.tasks _ htask
        refine .inr ⟨hclock ▸ lt_of_lt_of_le (not_le.mp hkeep) hnow, fun t ht htoken ↦ ?_⟩
        exact hkeep (hpatient t (htasks ht) token htoken exp hexp)
    · exact .inr ⟨hclock ▸ hdead, fun t ht ↦ hnone t (htasks ht)⟩

/-- A token that is about to be recorded, with its id free, is not spent. -/
theorem not_spent_of_record {req : TkRequest} {created : Int} (hsound : SoundTasks lib s)
    (htask : .checked req created t ∈ s.tasks)
    (hfree : ∀ r ∈ s.shared.db.tkauthJtiCache.rows, r.jti ≠ t.jti) :
    ¬ Spent lib s req.authorityToken := by
  rintro ⟨jti, exp, hjti, -, ⟨r, hr, hrjti, -⟩ | ⟨-, hnone⟩⟩
  · have hsame : jti = t.jti := some.inj (hjti.symm.trans (hsound.tasks _ htask).1)
    exact hfree r hr (hrjti.trans hsame)
  · exact hnone _ htask rfl

structure Replay (lib : TkLibrary) (s : Pool Shared Task) : Prop where
  sound : SoundTasks lib s
  nodup : s.shared.accepted.Nodup
  spent : ∀ token ∈ s.shared.accepted, Spent lib s token

theorem Replay.step (h : Replay lib s) (hpatient : Patient lib s e) :
    Replay lib (step lib cfg s e).1 := by
  have heffect : Effect lib s (TkAuth.step lib cfg s e).1 := effect_step h.sound hpatient
  have hold : ∀ token ∈ s.shared.accepted, Spent lib (TkAuth.step lib cfg s e).1 token :=
    fun token htoken ↦ (h.spent token htoken).of_effect h.sound heffect
  refine ⟨h.sound.step, ?_, ?_⟩
  · cases heffect with
    | quiet hdb haccepted => exact haccepted ▸ h.nodup
    | purge now htask hpatient hdb haccepted => exact haccepted ▸ h.nodup
    | record req created t htask hfree hrows haccepted =>
      rw [haccepted]
      refine nodup_append.mpr ⟨h.nodup, nodup_singleton _, ?_⟩
      rintro token htoken _ hnew rfl
      rw [mem_singleton] at hnew
      exact not_spent_of_record h.sound htask hfree (hnew ▸ h.spent token htoken)
  · intro token htoken
    cases heffect with
    | quiet hdb haccepted => exact hold token (haccepted ▸ htoken)
    | purge now htask hpatient hdb haccepted => exact hold token (haccepted ▸ htoken)
    | record req created t htask hfree hrows haccepted =>
      rw [haccepted] at htoken
      rcases mem_append.mp htoken with holder | hnew
      · exact hold token holder
      · rw [mem_singleton] at hnew
        subst hnew
        obtain ⟨hjti, hexp⟩ := h.sound.tasks _ htask
        refine ⟨t.jti, t.exp, hjti, hexp, .inl ⟨t.row req.authzId created, ?_, rfl, rfl⟩⟩
        exact hrows ▸ mem_append_right _ (mem_singleton_self _)

theorem Replay.initial (db : Db) (clock : Int) : Replay lib (initial db clock) where
  sound := ⟨trivial, fun _ ht ↦ nomatch ht⟩
  nodup := nodup_nil
  spent _ htoken := nomatch htoken

end Steps

/-- In every run whose purges are patient, a token is accepted at most once. -/
theorem token_accepted_at_most_once (lib : TkLibrary) (cfg : TkConfig) (db : Db) (clock : Int)
    {es : List Event} (h : Machine.Meets (step lib cfg) (Patient lib) (initial db clock) es)
    (token : String) :
    (Machine.run (step lib cfg) (initial db clock) es).shared.accepted.count token ≤ 1 := by
  have hreplay := h.invariant (Replay lib) (Replay.initial db clock) fun s e hs he ↦ hs.step he
  exact List.nodup_iff_count_le_one.mp hreplay.nodup token

namespace SlowValidation

open DnsTokens

def key : Except AcmeError (List UInt8) := .ok []

def good : TkRequest := request "example.com" "listed"

/-- Two validations of one token are checked at 99, one is recorded, and the
token expires at 100; then a purge comes before the other is recorded. -/
def late : List Event :=
  [.arrive (.validate good), .arrive (.validate good)] ++ List.replicate 7 (.advance 0 key) ++
    [.arrive (.tick 2), .arrive .purge, .advance 1 key, .advance 0 key]

theorem token_accepted_twice :
    (Machine.run (step lib cfg) (initial Db.empty 99) late).shared.accepted.count "listed" = 2 := by
  decide +kernel

def inTime : List Event :=
  [.arrive (.validate good), .arrive (.validate good)] ++ List.replicate 8 (.advance 0 key) ++
    [.arrive (.tick 2), .arrive .purge, .advance 0 key, .arrive (.validate good)] ++
    List.replicate 4 (.advance 0 key)

theorem token_accepted_once :
    Machine.Meets (step lib cfg) (Patient lib) (initial Db.empty 99) inTime ∧
      (Machine.run (step lib cfg) (initial Db.empty 99) inTime).shared.accepted.count "listed" ≤
        1 := by
  have hmeets : Machine.Meets (step lib cfg) (Patient lib) (initial Db.empty 99) inTime := by
    decide +kernel
  exact ⟨hmeets, token_accepted_at_most_once lib cfg Db.empty 99 hmeets "listed"⟩

end SlowValidation

end Akamu.TkAuth
