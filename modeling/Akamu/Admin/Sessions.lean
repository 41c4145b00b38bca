import Akamu.Admin.EabLogin
import Akamu.Admin.OperatorTable
import Mathlib.Data.List.MinMax
import Mathlib.Data.Prod.Lex

/-!
# Sessions of operators

A session token is good for the role and the CA scope that the operator had
when its row was read at the login.  Changing an operator's row and dropping the
operator's sessions are separate steps of a request, as are reading the row at
a login and storing the session, so other requests run in between; a request
may also be dropped there.
-/

namespace Akamu.Admin

open KeyedTable List Option Tasks

/-! ## Rights -/

structure Rights where
  role : OperatorRole
  caId : String
  deriving DecidableEq, Repr

/-- An inactive operator has no rights, and neither has one of an unknown
role. -/
def Operator.rights (op : Operator) : Option Rights :=
  if op.active then (OperatorRole.parse op.role).map fun role ↦ ⟨role, op.caId⟩ else none

namespace OperatorTable

def rights (t : OperatorTable) (id : Int) : Option Rights := (t.getById id).bind Operator.rights

variable {t : OperatorTable} {id id' : Int} {f : Operator → Operator}
  {hf : ∀ op, (f op).id = op.id}

theorem rights_eq_of_getById {t' : OperatorTable} (h : t'.getById id = t.getById id) :
    t'.rights id = t.rights id := by
  rw [rights, rights, h]

theorem rights_modify_of_same (h : ∀ op, (f op).rights = op.rights) :
    (t.modify id f hf).rights id' = t.rights id' := by
  rw [rights, rights, getById_modify]
  cases t.getById id' with
  | none => rfl
  | some op =>
    simp only [map_some, bind_some]
    split
    · exact h op
    · rfl

theorem rights_setActive_true {now : String} {r : Rights} (h : t.rights id' = some r) :
    (t.setActive id true now).rights id' = some r := by
  obtain ⟨op, hop, hr⟩ := bind_eq_some_iff.mp h
  have hactive : op.active = true := by
    by_contra hno
    simp [Operator.rights, hno] at hr
  rw [rights, setActive, getById_modify, hop, map_some, bind_some]
  split
  · simpa [Operator.rights, hactive] using hr
  · exact hr

end OperatorTable

/-! ## The session store -/

inductive AdminAuthMethod where
  | cert
  | certProxy
  | gssapi
  | eab
  deriving DecidableEq, Repr

structure AdminSession where
  operatorId : Int
  name : String
  role : OperatorRole
  caId : String
  lastActiveAt : ℕ
  authMethod : AdminAuthMethod
  deriving DecidableEq, Repr

def AdminSession.rights (s : AdminSession) : Rights := ⟨s.role, s.caId⟩

structure OperatorContext where
  operatorId : Int
  name : String
  role : OperatorRole
  caId : String
  authMethod : AdminAuthMethod
  sessionToken : Option String
  deriving DecidableEq, Repr

structure SessionConfig where
  sessionTtl : ℕ
  sessionLock : ℕ

abbrev SessionStore : Type := KeyedTable (String × AdminSession) Prod.fst

def sessionCap : ℕ := 1000

inductive SessionLookup where
  | active (ctx : OperatorContext)
  | locked
  | notFound

namespace SessionStore

variable (store : SessionStore)

def sweep (config : SessionConfig) (now : ℕ) : SessionStore :=
  store.retain fun r ↦ decide (now - r.2.lastActiveAt < config.sessionTtl)

/-- A session that was idle the longest; among several it is any of them, here
the least in the order of `tie`. -/
def oldest (tie : String → ℕ) : Option String :=
  (store.rows.argmin fun r ↦ toLex (r.2.lastActiveAt, tie r.1)).map Prod.fst

def evictOldest (tie : String → ℕ) : SessionStore :=
  match store.oldest tie with
  | some key => store.retain fun r ↦ r.1 != key
  | none => store

def createSession (config : SessionConfig) (now : ℕ) (tie : String → ℕ) (token : String)
    (session : AdminSession) : SessionStore :=
  let store := store.sweep config now
  let store := if sessionCap ≤ store.rows.length then store.evictOldest tie else store
  store.put (token, session)

def lookupSession (config : SessionConfig) (now : ℕ) (token : String) :
    SessionStore × SessionLookup :=
  let store := store.sweep config now
  match store.find? token with
  | none => (store, .notFound)
  | some (_, s) =>
    if config.sessionLock ≤ now - s.lastActiveAt then (store, .locked)
    else
      (store.put (token, { s with lastActiveAt := now }),
        .active ⟨s.operatorId, s.name, s.role, s.caId, s.authMethod, some token⟩)

def invalidateSession (token : String) : SessionStore := store.retain fun r ↦ r.1 != token

def purge (id : Int) : SessionStore := store.retain fun r ↦ r.2.operatorId != id

def Grants (id : Int) (r : Rights) : Prop :=
  ∃ x ∈ store.rows, x.2.operatorId = id ∧ x.2.rights = r

variable {store} {config : SessionConfig} {now : ℕ} {id : Int} {r : Rights}

theorem Grants.of_retain {p : String × AdminSession → Bool}
    (h : Grants (store.retain p) id r) : store.Grants id r := by
  obtain ⟨x, hx, hid, hr⟩ := h
  exact ⟨x, (KeyedTable.mem_retain.mp hx).1, hid, hr⟩

theorem Grants.of_put {x : String × AdminSession} (h : Grants (store.put x) id r) :
    (x.2.operatorId = id ∧ x.2.rights = r) ∨ store.Grants id r := by
  obtain ⟨y, hy, hid, hr⟩ := h
  rcases mem_put hy with rfl | hold
  · exact .inl ⟨hid, hr⟩
  · exact .inr ⟨y, hold, hid, hr⟩

variable {token : String}

theorem Grants.of_createSession {tie : String → ℕ} {session : AdminSession}
    (h : (store.createSession config now tie token session).Grants id r) :
    (session.operatorId = id ∧ session.rights = r) ∨ store.Grants id r := by
  rcases h.of_put with hnew | hold
  · exact .inl hnew
  · refine .inr ?_
    split at hold
    · unfold evictOldest at hold
      split at hold
      · exact hold.of_retain.of_retain
      · exact hold.of_retain
    · exact hold.of_retain

theorem Grants.of_purge {id' : Int} (h : (store.purge id').Grants id r) :
    store.Grants id r ∧ id ≠ id' := by
  obtain ⟨x, hx, hid, hr⟩ := h
  obtain ⟨hold, hne⟩ := KeyedTable.mem_retain.mp hx
  exact ⟨⟨x, hold, hid, hr⟩, by simpa [hid] using hne⟩

theorem grants_of_lookupSession {ctx : OperatorContext}
    (h : (store.lookupSession config now token).2 = .active ctx) :
    ∃ s, store.find? token = some (token, s) ∧ s.operatorId = ctx.operatorId ∧
      s.rights = ⟨ctx.role, ctx.caId⟩ := by
  unfold lookupSession at h
  dsimp only at h
  split at h
  · cases h
  · rename_i key s hfind
    have hmem : (key, s) ∈ store.rows :=
      (KeyedTable.mem_retain.mp (mem_of_find? hfind)).1
    have hkey : key = token := key_of_find? hfind
    split at h
    · cases h
    · cases h
      exact ⟨s, hkey ▸ find?_of_mem hmem, rfl, rfl⟩

theorem Grants.of_lookupSession (h : (store.lookupSession config now token).1.Grants id r) :
    store.Grants id r := by
  unfold SessionStore.lookupSession at h
  dsimp only at h
  split at h
  · exact h.of_retain
  · rename_i key s hfind
    split at h
    · exact h.of_retain
    · rcases h.of_put with ⟨hid, hr⟩ | hold
      -- the session that was found, with a later activity
      · exact Grants.of_retain ⟨(key, s), mem_of_find? hfind, hid, hr⟩
      · exact hold.of_retain

end SessionStore

/-! ## Requests under way -/

namespace Sessions

structure Server where
  operators : OperatorTable
  sessions : SessionStore

inductive Task where
  /-- The operator's row has been read and the session is not stored yet. -/
  | login (op : Operator) (role : OperatorRole) (method : AdminAuthMethod)
  /-- The operator's row has been changed and its sessions are not dropped
  yet. -/
  | purge (id : Int)
  deriving DecidableEq

inductive Credential where
  | cert (fingerprint : String)
  | certProxy (fingerprint : String)
  | gssapi (principal : String)
  | eabOwner (id : Int)
  | eabPrincipal (principal : String)

def Credential.method : Credential → AdminAuthMethod
  | .cert _ => .cert
  | .certProxy _ => .certProxy
  | .gssapi _ => .gssapi
  | .eabOwner _ | .eabPrincipal _ => .eab

def Credential.row (t : OperatorTable) : Credential → Except Response Operator
  | .cert fingerprint | .certProxy fingerprint =>
    (t.getByFingerprint fingerprint).elim
      (.error ⟨403, "client certificate not recognized"⟩) .ok
  | .gssapi principal =>
    (t.getByPrincipal principal).elim
      (.error ⟨403, "Kerberos principal is not a registered operator"⟩) .ok
  | .eabOwner id =>
    (t.getById id).elim (.error ⟨403, "EAB key owner operator not found"⟩) .ok
  | .eabPrincipal principal =>
    (t.getByPrincipal principal).elim
      (.error ⟨403, "EAB key principal is not registered as an operator"⟩) .ok

/-- The queries by fingerprint and by principal see active rows only; an EAB
login tests the row. -/
def Credential.resolve (t : OperatorTable) (cred : Credential) (nowRfc3339 : String) :
    Except Response (Operator × OperatorRole) :=
  match cred.row t with
  | .error r => .error r
  | .ok op =>
    if cred.method = .eab ∧ op.active = false then
      .error ⟨403, "operator account is not active"⟩
    else if op.isLocked nowRfc3339 then .error ⟨403, EabLogin.lockedMessage⟩
    else
      match OperatorRole.parse op.role with
      | some role => .ok (op, role)
      | none => .error ⟨500, ""⟩

inductive Arrival where
  | login (cred : Credential) (now : String)
  | authorize (token : String) (now : ℕ)
  /-- `DELETE /admin/session`. -/
  | logout (token : String)
  /-- `POST /admin/operators`, once its checks are passed. -/
  | create (op : Operator)
  /-- `PATCH /admin/operators/id`, once its checks are passed. -/
  | patch (id : Int) (active : Bool) (now : String)
  /-- `PUT /admin/operators/id`, once its checks are passed. -/
  | put (id : Int) (params : OperatorUpdateParams) (now : String)
  /-- `persist_crdt_acme` writes what has been replicated: for each operator
  whether its entry is alive. -/
  | persist (entries : List (Int × Bool))
  | updateLastSeen (id : Int) (now : String)
  | incrementFailed (id maxAttempts : Int) (lockUntil : String)
  | resetFailed (id : Int)

structure Input where
  now : ℕ
  tie : String → ℕ
  /-- `none` if the random generator fails. -/
  token : Option String

inductive Output where
  | refused (r : Response)
  | authorized (ctx : OperatorContext)
  deriving DecidableEq

namespace Server

def authorize (config : SessionConfig) (s : Server) (token : String) (now : ℕ) :
    Result Server Task Output :=
  let (sessions, lookup) := s.sessions.lookupSession config now token
  .answer { s with sessions := sessions } <|
    match lookup with
    | .active ctx => .authorized ctx
    | .locked => .refused ⟨423, "session locked due to inactivity; re-authenticate"⟩
    | .notFound => .refused ⟨401, "session token expired or invalid; please re-authenticate"⟩

/-- Only a deactivation drops the sessions. -/
def patchOperator (s : Server) (id : Int) (active : Bool) (now : String) :
    Result Server Task Output :=
  match s.operators.getById id with
  | none => .answer s (.refused ⟨404, "operator not found"⟩)
  | some _ =>
    ⟨{ s with operators := s.operators.setActive id active now },
      if active then [] else [.purge id], none⟩

def putOperator (s : Server) (id : Int) (params : OperatorUpdateParams) (now : String) :
    Result Server Task Output :=
  match s.operators.update id params now with
  | none => .answer s (.refused ⟨500, "internal server error"⟩)
  | some (_, false) => .answer s (.refused ⟨404, "operator not found"⟩)
  | some (operators, true) => .goOn { s with operators := operators } (.purge id)

/-- `UPDATE operators SET active = ? WHERE id = ?`. -/
def persistEntry (t : OperatorTable) (entry : Int × Bool) : OperatorTable :=
  t.modify entry.1 (fun op ↦ { op with active := entry.2 }) fun _ ↦ rfl

def arrive (config : SessionConfig) (s : Server) : Arrival → Result Server Task Output
  | .login cred now =>
    match cred.resolve s.operators now with
    | .ok (op, role) => .goOn s (.login op role cred.method)
    | .error r => .answer s (.refused r)
  | .authorize token now => s.authorize config token now
  | .logout token => .idle { s with sessions := s.sessions.invalidateSession token }
  | .create op =>
    match s.operators.insert op with
    | some operators => .idle { s with operators := operators }
    | none =>
      .answer s (.refused ⟨409, "operator with this fingerprint or principal already exists"⟩)
  | .patch id active now => s.patchOperator id active now
  | .put id params now => s.putOperator id params now
  | .persist entries => .idle { s with operators := entries.foldl persistEntry s.operators }
  | .updateLastSeen id now => .idle { s with operators := s.operators.updateLastSeen id now }
  | .incrementFailed id maxAttempts lockUntil =>
    .idle { s with operators := s.operators.incrementFailed id maxAttempts lockUntil }
  | .resetFailed id => .idle { s with operators := s.operators.resetFailed id }

def act (config : SessionConfig) (s : Server) (task : Task) (input : Input) :
    Result Server Task Output :=
  match task with
  | .login op role method =>
    match input.token with
    | none => .answer s (.refused ⟨500, ""⟩)
    | some token =>
      .idle { s with
        sessions := s.sessions.createSession config input.now input.tie token
          ⟨op.id, op.name, role, op.caId, input.now, method⟩ }
  | .purge id => .idle { s with sessions := s.sessions.purge id }

end Server

abbrev State : Type := Pool Server Task

abbrev Event : Type := Move Arrival Input

def system (config : SessionConfig) : System Server Task Arrival Input Output where
  arrive := Server.arrive config
  act := Server.act config

def State.start (operators : OperatorTable) : State := ⟨⟨operators, .empty⟩, []⟩

/-! ## Orderly runs -/

def Task.loginOf : Task → Option Int
  | .login op _ _ => some op.id
  | .purge _ => none

/-- No login of the operator is between reading the row and storing the
session. -/
def NoLogin (s : State) (id : Int) : Prop := ∀ task ∈ s.tasks, task.loginOf ≠ some id

def NoSession (s : State) (id : Int) : Prop := ∀ x ∈ s.shared.sessions.rows, x.2.operatorId ≠ id

/-- A change of an operator does not meet a login of that operator; a token is
not presented while its operator's sessions wait to be dropped, and that is not
called off; replication changes no operator that is logged in or logging in. -/
def Orderly (s : State) : Event → Prop
  | .arrive (.patch id _ _) | .arrive (.put id _ _) => NoLogin s id
  | .arrive (.persist entries) =>
    ∀ entry ∈ entries, ∀ op ∈ s.shared.operators.rows, op.id = entry.1 → op.active ≠ entry.2 →
      NoLogin s op.id ∧ NoSession s op.id
  | .arrive (.authorize token _) =>
    ∀ x ∈ s.shared.sessions.rows, x.1 = token → .purge x.2.operatorId ∉ s.tasks
  | .abandon i => (s.tasks[i]?).all fun task ↦ task.loginOf.isSome
  | _ => True

instance (s : State) (id : Int) : Decidable (NoLogin s id) := by
  unfold NoLogin
  infer_instance

instance (s : State) (id : Int) : Decidable (NoSession s id) := by
  unfold NoSession
  infer_instance

instance (s : State) (e : Event) : Decidable (Orderly s e) := by
  unfold Orderly
  split <;> infer_instance

/-- A token is good for the rights its operator has, unless the operator's
sessions are about to be dropped; a login under way has read the operator's
rights. -/
structure Current (s : State) : Prop where
  sessions : ∀ id r, s.shared.sessions.Grants id r →
    s.shared.operators.rights id = some r ∨ .purge id ∈ s.tasks
  logins : ∀ op role method, .login op role method ∈ s.tasks →
    s.shared.operators.rights op.id = some ⟨role, op.caId⟩

theorem Current.start (operators : OperatorTable) : Current (State.start operators) where
  sessions _ _ h := by
    obtain ⟨x, hx, -⟩ := h
    cases hx
  logins _ _ _ h := by cases h

variable {s : State} {op : Operator} {i : ℕ} {t : OperatorTable} {now : String}
  {role : OperatorRole} {cred : Credential}

theorem Credential.getById_of_row (h : cred.row t = .ok op) :
    t.getById op.id = some op ∧ (cred.method ≠ .eab → op.active = true) := by
  have hsome : ∀ {o : Option Operator} {r : Response},
      o.elim (.error r) (.ok : Operator → Except Response Operator) = .ok op → o = some op := by
    intro o r ho
    cases o with
    | none => cases ho
    | some =>
      cases ho
      rfl
  cases cred with
  | cert fingerprint | certProxy fingerprint | gssapi principal | eabPrincipal principal =>
    have hfind := hsome h
    exact ⟨OperatorTable.getById_of_find hfind, fun _ ↦ by
      have hp := find?_some hfind
      simp only [Bool.and_eq_true] at hp
      exact hp.2⟩
  | eabOwner id =>
    have hfind := hsome h
    have hid : op.id = id := key_of_find? hfind
    exact ⟨hid ▸ hfind, fun hne ↦ absurd rfl hne⟩

theorem Credential.rights_of_resolve (h : cred.resolve t now = .ok (op, role)) :
    t.rights op.id = some ⟨role, op.caId⟩ := by
  unfold Credential.resolve at h
  split at h
  · cases h
  · rename_i op' hrow
    obtain ⟨hfind, hmethod⟩ := getById_of_row hrow
    split at h
    · cases h
    · rename_i hinactive
      split at h
      · cases h
      · split at h
        · rename_i role' hrole
          cases h
          have hactive : op.active = true := by
            by_cases heab : cred.method = .eab
            · by_contra hno
              exact hinactive ⟨heab, by simpa using hno⟩
            · exact hmethod heab
          rw [OperatorTable.rights, hfind]
          simp [Operator.rights, hactive, hrole]
        · cases h

/-! ## Steps -/

section Steps

variable (h : Current s)

include h

variable {config : SessionConfig} {f : Result Server Task Output} {entries : List (Int × Bool)}

/-- What an arrival must do for the rights to stay current: it stores no
session, and it leaves the rights of an operator as they are for the sessions
and for the logins under way, unless it goes on to drop the sessions. -/
theorem Current.arrive
    (hgrants : ∀ id r, f.shared.sessions.Grants id r → s.shared.sessions.Grants id r)
    (hsessions : ∀ id r, s.shared.sessions.Grants id r → s.shared.operators.rights id = some r →
    f.shared.operators.rights id = some r ∨ .purge id ∈ f.next)
    (hlogins : ∀ id r, ¬ NoLogin s id → s.shared.operators.rights id = some r →
    f.shared.operators.rights id = some r)
    (hnext : ∀ op role method, .login op role method ∈ f.next →
    f.shared.operators.rights op.id = some ⟨role, op.caId⟩) :
    Current ⟨f.shared, s.tasks ++ f.next⟩ where
  sessions id r hr := by
    have hold := hgrants id r hr
    rcases h.sessions id r hold with hrights | hpurge
    · exact (hsessions id r hold hrights).imp_right (mem_append_right _)
    · exact .inr (mem_append_left _ hpurge)
  logins op role method hmem := by
    rcases mem_append.mp hmem with hold | hnew
    · have hbusy : ¬ NoLogin s op.id := fun hno ↦ hno _ hold rfl
      exact hlogins _ _ hbusy (h.logins op role method hold)
    · exact hnext op role method hnew

theorem Current.arrive_of_same
    (hgrants : ∀ id r, f.shared.sessions.Grants id r → s.shared.sessions.Grants id r)
    (hrights : ∀ id r, s.shared.operators.rights id = some r →
    f.shared.operators.rights id = some r)
    (hnext : ∀ op role method, .login op role method ∈ f.next →
    f.shared.operators.rights op.id = some ⟨role, op.caId⟩) :
    Current ⟨f.shared, s.tasks ++ f.next⟩ :=
  h.arrive hgrants (fun id r _ hr ↦ .inl (hrights id r hr)) (fun id r _ ↦ hrights id r) hnext

theorem Current.answer (output : Output) :
    Current ⟨s.shared, s.tasks ++ (Result.answer s.shared output : Result _ Task _).next⟩ :=
  h.arrive_of_same (f := .answer s.shared output) (fun _ _ hr ↦ hr) (fun _ _ hr ↦ hr)
    fun _ _ _ hmem ↦ absurd hmem not_mem_nil

variable {id : Int}

theorem Current.patchOperator {active : Bool} (hno : NoLogin s id) :
    Current ⟨(s.shared.patchOperator id active now).shared,
      s.tasks ++ (s.shared.patchOperator id active now).next⟩ := by
  unfold Server.patchOperator
  split
  · exact h.answer _
  · have hother : ∀ id', id ≠ id' →
        (s.shared.operators.setActive id active now).rights id' = s.shared.operators.rights id' :=
      fun id' hne ↦ OperatorTable.rights_eq_of_getById (OperatorTable.getById_modify_of_ne hne)
    refine h.arrive (fun _ _ hr ↦ hr) (fun id' r _ hr ↦ ?_) (fun id' r hbusy hr ↦ ?_) ?_
    · cases active with
      | true => exact .inl (OperatorTable.rights_setActive_true hr)
      | false =>
        by_cases hid : id = id'
        · exact .inr (by simp [hid])
        · exact .inl ((hother id' hid).trans hr)
    · have hid : id ≠ id' := fun heq ↦ hbusy (heq ▸ hno)
      exact (hother id' hid).trans hr
    · intro op role method hmem
      split at hmem <;> simp at hmem

theorem Current.putOperator {params : OperatorUpdateParams} (hno : NoLogin s id) :
    Current ⟨(s.shared.putOperator id params now).shared,
      s.tasks ++ (s.shared.putOperator id params now).next⟩ := by
  unfold Server.putOperator
  split
  · exact h.answer _
  · exact h.answer _
  · rename_i operators hupdate
    have hother : ∀ id', id ≠ id' → operators.rights id' = s.shared.operators.rights id' :=
      fun id' hne ↦ OperatorTable.rights_eq_of_getById (OperatorTable.getById_of_update hupdate hne)
    refine h.arrive (fun _ _ hr ↦ hr) (fun id' r _ hr ↦ ?_) (fun id' r hbusy hr ↦ ?_) ?_
    · by_cases hid : id = id'
      · exact .inr (by simp [Result.goOn, hid])
      · exact .inl ((hother id' hid).trans hr)
    · have hid : id ≠ id' := fun heq ↦ hbusy (heq ▸ hno)
      exact (hother id' hid).trans hr
    · intro op role method hmem
      simp [Result.goOn] at hmem

omit h in
theorem getById_persist
    (h : ∀ entry ∈ entries, ∀ op, t.getById id = some op → op.id = entry.1 → op.active = entry.2) :
    (entries.foldl Server.persistEntry t).getById id = t.getById id := by
  induction entries generalizing t with
  | nil => rfl
  | cons entry entries ih =>
    have hone : (Server.persistEntry t entry).getById id = t.getById id := by
      rw [Server.persistEntry, OperatorTable.getById_modify]
      cases hfind : t.getById id with
      | none => rfl
      | some op =>
        rw [map_some]
        split
        · rename_i hid
          have hactive := h entry mem_cons_self op hfind (by simpa using hid)
          rw [← hactive]
        · rfl
    rw [foldl_cons, ih, hone]
    intro entry' hmem op hop
    exact h entry' (mem_cons_of_mem _ hmem) op (hone ▸ hop)

theorem Current.persist (hok : Orderly s (.arrive (.persist entries))) :
    Current ⟨{ s.shared with operators := entries.foldl Server.persistEntry s.shared.operators },
      s.tasks ++ []⟩ := by
  have hkeep : ∀ id, ¬ (NoLogin s id ∧ NoSession s id) →
      (entries.foldl Server.persistEntry s.shared.operators).rights id =
        s.shared.operators.rights id := by
    intro id hbusy
    refine OperatorTable.rights_eq_of_getById (getById_persist fun entry hmem op hop hid ↦ ?_)
    by_contra hne
    have hid' : op.id = id := key_of_find? hop
    exact hbusy (hid' ▸ hok entry hmem op (mem_of_find? hop) hid hne)
  refine h.arrive (f := ⟨{ s.shared with operators := _ }, [], none⟩) (fun _ _ hr ↦ hr)
    (fun id r hgrants hr ↦ .inl ?_) (fun id r hbusy hr ↦ ?_) fun _ _ _ hmem ↦ absurd hmem (by simp)
  · refine (hkeep id fun hfree ↦ ?_).trans hr
    obtain ⟨x, hx, hid, -⟩ := hgrants
    exact hfree.2 x hx hid
  · exact (hkeep id fun hfree ↦ hbusy hfree.1).trans hr

theorem Current.create {operators : OperatorTable}
    (hins : s.shared.operators.insert op = some operators) :
    Current ⟨{ s.shared with operators := operators }, s.tasks ++ []⟩ := by
  have hrights : ∀ id r, s.shared.operators.rights id = some r → operators.rights id = some r := by
    intro id r hr
    unfold OperatorTable.insert at hins
    split at hins
    · cases hins
    · have hnone := (KeyedTable.insert?_eq_some_iff.mp hins).1
      have hne : op.id ≠ id := by
        rintro rfl
        rw [OperatorTable.rights, OperatorTable.getById, hnone] at hr
        cases hr
      refine (OperatorTable.rights_eq_of_getById ?_).trans hr
      rw [OperatorTable.getById, find?_insert? hins, if_neg hne]
      rfl
  exact h.arrive_of_same (f := ⟨{ s.shared with operators := operators }, [], none⟩)
    (fun _ _ hr ↦ hr) hrights fun _ _ _ hmem ↦ absurd hmem (by simp)

theorem Current.modify {f : Operator → Operator} {hf : ∀ op, (f op).id = op.id}
    (hsame : ∀ op, (f op).rights = op.rights) :
    Current ⟨{ s.shared with operators := s.shared.operators.modify id f hf }, s.tasks ++ []⟩ := by
  have hrights : ∀ id', (s.shared.operators.modify id f hf).rights id' =
      s.shared.operators.rights id' := fun _ ↦ OperatorTable.rights_modify_of_same hsame
  exact h.arrive_of_same (f := ⟨{ s.shared with operators := _ }, [], none⟩) (fun _ _ hr ↦ hr)
    (fun id' _ hr ↦ (hrights id').trans hr) fun _ _ _ hmem ↦ absurd hmem (by simp)

theorem Current.arriveStep {a : Arrival} (hok : Orderly s (.arrive a)) :
    Current ⟨(s.shared.arrive config a).shared, s.tasks ++ (s.shared.arrive config a).next⟩ := by
  cases a with
  | login cred =>
    simp only [Server.arrive]
    split
    · rename_i op role hresolve
      refine h.arrive_of_same (fun _ _ hr ↦ hr) (fun _ _ hr ↦ hr) fun op' role' method hmem ↦ ?_
      obtain ⟨rfl, rfl, -⟩ : op' = op ∧ role' = role ∧ method = cred.method := by
        simpa [Result.goOn] using hmem
      exact Credential.rights_of_resolve hresolve
    · exact h.answer _
  | authorize =>
    exact h.arrive_of_same (fun _ _ hr ↦ hr.of_lookupSession) (fun _ _ hr ↦ hr)
      fun _ _ _ hmem ↦ absurd hmem not_mem_nil
  | logout =>
    exact h.arrive_of_same (fun _ _ hr ↦ hr.of_retain) (fun _ _ hr ↦ hr)
      fun _ _ _ hmem ↦ absurd hmem not_mem_nil
  | create =>
    simp only [Server.arrive]
    split
    · rename_i operators hins
      exact h.create hins
    · exact h.answer _
  | patch => exact h.patchOperator hok
  | put => exact h.putOperator hok
  | persist => exact h.persist hok
  | updateLastSeen | incrementFailed | resetFailed => exact h.modify fun _ ↦ rfl

theorem Current.eraseIdx (hne : ∀ id, s.tasks[i]? ≠ some (.purge id)) :
    Current ⟨s.shared, s.tasks.eraseIdx i⟩ where
  sessions id r hr := (h.sessions id r hr).imp_right fun hmem ↦ mem_eraseIdx_of_ne hmem (hne id)
  logins op role method hmem := h.logins op role method (mem_of_mem_eraseIdx hmem)

theorem Current.actLogin {input : Input} {method : AdminAuthMethod}
    (htask : s.tasks[i]? = some (.login op role method)) :
    Current ⟨(s.shared.act config (.login op role method) input).shared, s.tasks.eraseIdx i⟩ := by
  have hrest : Current ⟨s.shared, s.tasks.eraseIdx i⟩ := h.eraseIdx fun id ↦ by simp [htask]
  have hcurrent := h.logins op role method (mem_of_getElem? htask)
  simp only [Server.act]
  split
  · exact hrest
  · refine ⟨fun id r hr ↦ ?_, hrest.logins⟩
    rcases SessionStore.Grants.of_createSession hr with ⟨rfl, rfl⟩ | hold
    · exact .inl hcurrent
    · exact hrest.sessions id r hold

theorem Current.actPurge (htask : s.tasks[i]? = some (.purge id)) :
    Current ⟨{ s.shared with sessions := s.shared.sessions.purge id }, s.tasks.eraseIdx i⟩ where
  sessions id' r hr := by
    obtain ⟨hgrants, hne⟩ := SessionStore.Grants.of_purge hr
    refine (h.sessions id' r hgrants).imp_right fun hmem ↦ mem_eraseIdx_of_ne hmem ?_
    rw [htask]
    simpa using hne.symm
  logins op role method hmem := h.logins op role method (mem_of_mem_eraseIdx hmem)

omit h in
theorem act_next {s : Server} {task : Task} {input : Input} :
    (s.act config task input).next = [] := by
  unfold Server.act
  split
  · split <;> rfl
  · rfl

theorem Current.step {e : Event} (hok : Orderly s e) : Current ((system config).step s e).1 := by
  cases e with
  | arrive => exact h.arriveStep hok
  | advance i input =>
    cases htask : s.tasks[i]? with
    | none =>
      have hstay := h.eraseIdx (i := i) fun id ↦ by simp [htask]
      simpa [System.step, System.result, System.rest, htask, Result.idle] using hstay
    | some task =>
      have hgo : Current ⟨(s.shared.act config task input).shared, s.tasks.eraseIdx i⟩ := by
        cases task with
        | login => exact h.actLogin htask
        | purge => exact h.actPurge htask
      simpa [System.step, System.result, System.rest, htask, system, act_next] using hgo
  | abandon i =>
    have hstay := h.eraseIdx (i := i) fun id hpurge ↦ by
      simp [Orderly, hpurge, Task.loginOf] at hok
    simpa [System.step, System.result, System.rest, Result.idle] using hstay

end Steps

/-! ## Requests with a token -/

/-- In an orderly run a request with a session token gets the rights that its
operator has when the token is looked up. -/
theorem authorized_with_current_rights {config : SessionConfig} {operators : OperatorTable}
    {es : List Event} {token : String} {now : ℕ} {ctx : OperatorContext}
    (h : Machine.Meets (system config).step Orderly (State.start operators)
      (es ++ [.arrive (.authorize token now)]))
    (hctx : ((system config).step (Machine.run (system config).step (State.start operators) es)
      (.arrive (.authorize token now))).2 = some (.authorized ctx)) :
    (Machine.run (system config).step (State.start operators) es).shared.operators.rights
      ctx.operatorId = some ⟨ctx.role, ctx.caId⟩ := by
  obtain ⟨hrun, hlast, -⟩ := Machine.meets_append.mp h
  have hcurrent := hrun.invariant Current (.start operators) fun _ _ h ↦ h.step
  generalize Machine.run (system config).step (State.start operators) es = s at *
  have hlookup : (s.shared.sessions.lookupSession config now token).2 = .active ctx := by
    have hout : (s.shared.authorize config token now).output = some (.authorized ctx) := hctx
    unfold Server.authorize at hout
    dsimp only [Result.answer] at hout
    split at hout <;> simp_all
  obtain ⟨session, hfind, hid, hrights⟩ := SessionStore.grants_of_lookupSession hlookup
  have hmem := mem_of_find? hfind
  rw [← hid, ← hrights]
  refine (hcurrent.sessions _ _ ⟨_, hmem, rfl, rfl⟩).resolve_right ?_
  exact hlast _ hmem rfl

section Runs

def exampleOperator : Operator :=
  ⟨1, "ra", "ca_ra", some "ab", none, "2026-01-01T00:00:00Z", none, true, 0, none, "rsa"⟩

def exampleTable : OperatorTable := KeyedTable.empty.put exampleOperator

def exampleConfig : SessionConfig := ⟨3600, 900⟩

def exampleContext : OperatorContext := ⟨1, "ra", .caRa, "rsa", .cert, some "t"⟩

/-- The row is read; the session is stored under `token`. -/
def readRow : Event := .arrive (.login (.cert "ab") "2026-01-02T00:00:00Z")

def storeSession (token : String) : Event := .advance 0 ⟨0, fun _ ↦ 0, some token⟩

def deactivate : Event := .arrive (.patch 1 false "2026-01-02T00:00:00Z")

def dropSessions (i : ℕ) : Event := .advance i ⟨0, fun _ ↦ 0, none⟩

/-- A login meets a deactivation; a replicated deactivation; a request between
the two steps of a deactivation; a deactivation that is called off between its
two steps. -/
def staleRuns : List (List Event) :=
  [[readRow, deactivate, dropSessions 1, storeSession "t"],
    [readRow, storeSession "t", .arrive (.persist [(1, false)])],
    [readRow, storeSession "t", deactivate],
    [readRow, storeSession "t", deactivate, .abandon 0]]

/-- In each run the token is accepted, and the row gives no rights. -/
theorem authorized_with_earlier_rights :
    staleRuns.map (fun es ↦
      let s := Machine.run (system exampleConfig).step (State.start exampleTable) es
      (((system exampleConfig).step s (.arrive (.authorize "t" 1))).2,
        s.shared.operators.rights 1)) =
      List.replicate 4 (some (.authorized exampleContext), none) := by
  decide +kernel

/-- A session is used, the operator becomes an auditor, and it logs in again. -/
def orderlyRun : List Event :=
  [readRow, storeSession "t", .arrive (.authorize "t" 1),
    .arrive (.put 1 { role := some "auditor", caId := some "" } "2026-01-02T00:00:00Z"),
    dropSessions 0, .arrive (.authorize "t" 2), readRow, storeSession "u"]

theorem auditor_authorized :
    (Machine.run (system exampleConfig).step (State.start exampleTable)
      orderlyRun).shared.operators.rights 1 = some ⟨.auditor, ""⟩ := by
  have hctx : ((system exampleConfig).step
      (Machine.run (system exampleConfig).step (State.start exampleTable) orderlyRun)
      (.arrive (.authorize "u" 3))).2 =
        some (.authorized ⟨1, "ra", .auditor, "", .cert, some "u"⟩) := by
    decide +kernel
  exact authorized_with_current_rights (by decide +kernel) hctx

end Runs

end Sessions

end Akamu.Admin
