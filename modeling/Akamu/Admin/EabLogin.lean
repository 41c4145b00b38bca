import Akamu.Admin.Operator
import Akamu.Arith
import Akamu.Lib.KeyedTable
import Akamu.Lib.ReplayWindow
import Akamu.Lib.Tasks
import Akamu.Text
import Mathlib.Data.List.Perm.Basic

/-!
# Logging in with an EAB key

`POST /admin/session/eab` in one process.  A request reads the clock, waits for
the lock of the nonce store, reserves its `(kid, timestamp)` there, is verified
against the database, and on a wrong signature waits for the lock once more to
give the reservation back.  Any number of requests are under way at once.
-/

namespace Akamu.EabLogin

open Admin KeyedTable List Machine ReplayWindow Tasks

/-- `as_i64` of a JSON number. -/
abbrev Timestamp : Type := { t : Int // -2 ^ 63 ≤ t ∧ t < 2 ^ 63 }

structure Payload where
  kid : Option String
  timestamp : Option Timestamp
  signature : Option String

structure Pair where
  kid : String
  timestamp : Timestamp
  deriving DecidableEq

structure Login where
  pair : Pair
  signature : String

def Pair.nonceKey (p : Pair) : String := p.kid ++ "." ++ toString p.timestamp.1

/-- `i64::abs`, which leaves the least number as it is. -/
def absI64 (a : Int) : Int := if a = -2 ^ 63 then a else |a|

abbrev NonceStore : Type := KeyedTable (String × UnixTime) Prod.fst

/-- `sessions` lists the pairs that yielded a session, and `entered` is the
latest clock reading with which a request has entered the store; the program
keeps neither. -/
structure Server where
  nonces : NonceStore
  clock : UnixTime
  entered : UnixTime
  sessions : List Pair

def Server.start (clock : UnixTime) : Server := ⟨.empty, clock, ⟨0, by decide⟩, []⟩

inductive Phase where
  | waiting (now : UnixTime)
  | reserved
  | rejected
  deriving DecidableEq

structure Task where
  login : Login
  phase : Phase

/-! ## The database and the libraries -/

structure EabKey where
  hmacKeyB64u : String
  alg : String
  createdByOperatorId : Option Int
  boundPrincipal : Option String

/-- What the queries of one request answer; `error` is a failed query. -/
structure Answers where
  getByKid : String → Except Unit (Option EabKey)
  getById : Int → Except Unit (Option Operator)
  getByPrincipal : String → Except Unit (Option Operator)
  nowRfc3339 : String

structure Crypto where
  decodeKey : String → Option (List UInt8)
  decodeSignature : String → Option (List UInt8)
  hmacVerify : List UInt8 → String → List UInt8 → Bool

inductive Verdict where
  | refused (r : Response)
  | badSignature
  | accepted (op : Operator) (role : OperatorRole)

def resolveOperator (answers : Answers) (key : EabKey) : Except Response Operator :=
  match key.createdByOperatorId, key.boundPrincipal with
  | some id, _ =>
    match answers.getById id with
    | .ok (some op) => .ok op
    | .ok none => .error ⟨403, "EAB key owner operator not found"⟩
    | .error _ => .error ⟨500, ""⟩
  | none, some principal =>
    match answers.getByPrincipal principal with
    | .ok (some op) => .ok op
    | .ok none => .error ⟨403, "EAB key principal is not registered as an operator"⟩
    | .error _ => .error ⟨500, ""⟩
  | none, none =>
    .error ⟨403, "EAB key has no operator association and cannot be used for web UI login"⟩

def lockedMessage : String :=
  "operator account locked due to repeated authentication failures; " ++
    "contact an administrator to unlock"

def verify (crypto : Crypto) (answers : Answers) (login : Login) : Verdict :=
  match answers.getByKid login.pair.kid with
  | .error _ => .refused ⟨500, ""⟩
  | .ok none => .refused ⟨401, "authentication failed"⟩
  | .ok (some key) =>
    match resolveOperator answers key with
    | .error r => .refused r
    | .ok op =>
      if !op.active then .refused ⟨403, "operator account is not active"⟩
      else if op.isLocked answers.nowRfc3339 then .refused ⟨403, lockedMessage⟩
      else
        match crypto.decodeKey key.hmacKeyB64u, crypto.decodeSignature login.signature with
        | none, _ => .refused ⟨500, ""⟩
        | some _, none => .refused ⟨400, "signature is not valid base64url"⟩
        | some hmacKey, some signature =>
          if key.alg ≠ "sha256" then
            if key.alg = "sha384" ∨ key.alg = "sha512" then
              .refused ⟨400, "EAB web UI login only supports sha256 keys; " ++
                "this key uses a different algorithm"⟩
            else .refused ⟨500, ""⟩
          else if crypto.hmacVerify hmacKey login.pair.nonceKey signature then
            match OperatorRole.parse op.role with
            | some role => .accepted op role
            | none => .refused ⟨500, ""⟩
          else .badSignature

/-! ## The nonce store -/

def inWindow (now : UnixTime) (p : Pair) : Bool :=
  decide (absI64 (subI64 now.1 p.timestamp.1) ≤ 60)

def isKept (now stamp : UnixTime) : Bool := decide (absI64 (subI64 now.1 stamp.1) ≤ 120)

def eabNonceCap : ℕ := 10000

/-- Newest first; among equal stamps the order is any, here that of `tie`. -/
def newerFirst (tie : String → ℕ) (a b : String × UnixTime) : Bool :=
  decide (b.2 < a.2) || (a.2 == b.2 && decide (tie a.1 ≤ tie b.1))

def keepNewest (tie : String → ℕ) (store : NonceStore) : NonceStore where
  rows := (store.rows.mergeSort (newerFirst tie)).take (eabNonceCap / 2)
  nodup := by
    have hperm := (List.mergeSort_perm store.rows (newerFirst tie)).map Prod.fst
    have hnodup := hperm.nodup_iff.mpr store.nodup
    exact hnodup.sublist ((List.take_sublist _ _).map _)

def pruned (s : Server) (now : UnixTime) : NonceStore := s.nonces.retain fun r ↦ isKept now r.2

def reserve (s : Server) (tie : String → ℕ) (login : Login) (now : UnixTime) :
    Result Server Task Response :=
  let store := pruned s now
  let s := { s with entered := max s.entered now }
  if (store.find? login.pair.nonceKey).isSome then
    .answer { s with nonces := store } ⟨401, "replay detected"⟩
  else
    let store := if eabNonceCap ≤ store.rows.length then keepNewest tie store else store
    .goOn { s with nonces := store.put (login.pair.nonceKey, now) } ⟨login, .reserved⟩

def release (s : Server) (login : Login) : Server :=
  { s with nonces := s.nonces.retain fun r ↦ r.1 != login.pair.nonceKey }

/-! ## Requests under way -/

inductive Arrival where
  /-- Time passes; the clock does not go back. -/
  | tick (now : UnixTime)
  /-- A request, and whether the limiter of its address turns it away. -/
  | request (payload : Payload) (limited : Bool)

structure Input where
  tie : String → ℕ
  answers : Answers
  tokenOk : Bool

def parse (payload : Payload) : Except Response Login :=
  match payload.kid.filter (· != "") with
  | none => .error ⟨400, "kid is required"⟩
  | some kid =>
    match payload.timestamp with
    | none => .error ⟨400, "timestamp (integer) is required"⟩
    | some timestamp =>
      match payload.signature.filter (· != "") with
      | none => .error ⟨400, "signature is required"⟩
      | some signature => .ok ⟨⟨kid, timestamp⟩, signature⟩

def arrive (s : Server) : Arrival → Result Server Task Response
  | .tick now => .idle { s with clock := max s.clock now }
  | .request payload limited =>
    if limited then .answer s ⟨429, "authentication rate limit exceeded; try again later"⟩
    else
      match parse payload with
      | .error r => .answer s r
      | .ok login =>
        if inWindow s.clock login.pair then .goOn s ⟨login, .waiting s.clock⟩
        else .answer s ⟨401, "timestamp must be within 60 seconds of server time"⟩

def act (crypto : Crypto) (s : Server) (t : Task) (input : Input) : Result Server Task Response :=
  match t.phase with
  | .waiting now => reserve s input.tie t.login now
  | .reserved =>
    match verify crypto input.answers t.login with
    | .refused r => .answer s r
    | .badSignature => .goOn s ⟨t.login, .rejected⟩
    | .accepted op _ =>
      if input.tokenOk then .answer { s with sessions := t.login.pair :: s.sessions } ⟨200, op.name⟩
      else .answer s ⟨500, ""⟩
  | .rejected => .answer (release s t.login) ⟨401, "authentication failed"⟩

def system (crypto : Crypto) : System Server Task Arrival Input Response where
  arrive := arrive
  act := act crypto

/-- A request that waits for the lock finds room in the store, and none has
entered before it that read the clock later. -/
def Task.MayEnter (sh : Server) (t : Task) : Prop :=
  match t.phase with
  | .waiting now => sh.entered ≤ now ∧ (pruned sh now).rows.length < eabNonceCap
  | .reserved | .rejected => True

instance (sh : Server) (t : Task) : Decidable (t.MayEnter sh) := by
  unfold Task.MayEnter
  split <;> infer_instance

/-- Besides, the difference between clock and timestamp does not overflow. -/
def Orderly (s : Pool Server Task) : Move Arrival Input → Prop
  | .arrive (.request payload _) =>
    ∀ timestamp ∈ payload.timestamp, s.shared.clock.1 - timestamp.1 < 2 ^ 63
  | .advance i _ => ∀ t ∈ s.tasks[i]?, t.MayEnter s.shared
  | .arrive (.tick _) | .abandon _ => True

instance (s : Pool Server Task) (e : Move Arrival Input) : Decidable (Orderly s e) := by
  unfold Orderly
  split <;> infer_instance

/-! ## The key of a reservation -/

theorem dot_notMem_toString (n : Int) : '.' ∉ (toString n).toList := by
  have hdigits : ∀ m : ℕ, '.' ∉ Nat.toDigits 10 m := by
    intro m hmem
    have hdigit := Nat.isDigit_of_mem_toDigits (by omega) (by omega) hmem
    cases hdigit
  cases n with
  | ofNat m =>
    rw [Text.toList_toString_ofNat]
    exact hdigits m
  | negSucc m =>
    rw [Text.toList_toString_negSucc]
    simpa using hdigits (m + 1)

theorem toString_timestamp_injective {a b : Timestamp} (h : toString a.1 = toString b.1) : a = b := by
  have hparse := congrArg Text.parseI64 h
  rw [Text.parseI64_toString a.2.1 a.2.2, Text.parseI64_toString b.2.1 b.2.2] at hparse
  exact Subtype.ext (Option.some.inj hparse)

theorem append_dot_inj {a b x y : List Char} (ha : '.' ∉ a) (hb : '.' ∉ b)
    (h : a ++ '.' :: x = b ++ '.' :: y) : a = b ∧ x = y := by
  rcases append_eq_append_iff.mp h with ⟨c, rfl, hc⟩ | ⟨c, rfl, hc⟩
  · cases c with
    | nil => simpa using hc
    | cons => simp_all
  · cases c with
    | nil => simpa using hc.symm
    | cons => simp_all

theorem Pair.nonceKey_injective {p q : Pair} (h : p.nonceKey = q.nonceKey) : p = q := by
  have hdot (p : Pair) : '.' ∉ (toString p.timestamp.1).toList.reverse :=
    fun hmem ↦ dot_notMem_toString _ (mem_reverse.mp hmem)
  have hchars (p : Pair) : p.nonceKey.toList.reverse =
      (toString p.timestamp.1).toList.reverse ++ '.' :: p.kid.toList.reverse := by
    simp [Pair.nonceKey]
  have heq : p.nonceKey.toList.reverse = q.nonceKey.toList.reverse := by rw [h]
  rw [hchars, hchars] at heq
  obtain ⟨htime, hkid⟩ := append_dot_inj (hdot p) (hdot q) heq
  have htime := toString_timestamp_injective (String.toList_inj.mp (reverse_injective htime))
  have hkid := String.toList_inj.mp (reverse_injective hkid)
  cases q
  cases htime
  cases hkid
  rfl

/-! ## Reservations last long enough -/

def Near (now : UnixTime) (p : Pair) : Prop := |now.1 - p.timestamp.1| ≤ 60

def Kept (now stamp : UnixTime) : Prop := |now.1 - stamp.1| ≤ 120

theorem near_of_inWindow {now : UnixTime} {p : Pair} (h : inWindow now p = true)
    (hfits : now.1 - p.timestamp.1 < 2 ^ 63) : Near now p := by
  have hsub := subI64_cases now.2 p.timestamp.2
  have htime := p.timestamp.2
  have habs : absI64 (subI64 now.1 p.timestamp.1) ≤ 60 := of_decide_eq_true h
  rw [absI64] at habs
  split at habs
  · omega
  · have heq : subI64 now.1 p.timestamp.1 = now.1 - p.timestamp.1 := by omega
    rwa [heq] at habs

theorem isKept_of_kept {now stamp : UnixTime} (h : Kept now stamp) : isKept now stamp = true := by
  have hsub := subI64_cases now.2 ⟨by have := stamp.2; omega, stamp.2.2⟩
  rw [isKept, absI64, decide_eq_true_eq]
  have heq : subI64 now.1 stamp.1 = now.1 - stamp.1 := by omega
  split
  · omega
  · rwa [heq]

theorem outlasts_of_near {now : UnixTime} {p : Pair} (h : Near now p) :
    Outlasts Near Kept now p := by
  intro t ht hdropped later hlater hagain
  have ht' : now.1 ≤ t.1 := ht
  have hlater' : t.1 ≤ later.1 := hlater
  have hold := abs_le.mp h
  have hnew := abs_le.mp hagain
  apply hdropped
  unfold Kept
  rw [abs_le]
  omega

/-! ## The store and the pairs in use -/

def memory (store : NonceStore) (p : Pair) : Option UnixTime :=
  (store.find? p.nonceKey).map Prod.snd

/-- No pair is in use twice, and each is reserved or out of the window. -/
structure Secured (store : NonceStore) (entered : UnixTime) (used : List Pair) : Prop where
  nodup : used.Nodup
  covered : ∀ p ∈ used, Covered Near Kept (memory store p) entered p

namespace Secured

variable {store : NonceStore} {entered now : UnixTime} {used used' : List Pair} {p : Pair}

theorem mono (h : Secured store entered used) (hsub : used'.Subperm used) :
    Secured store entered used' where
  nodup := by
    obtain ⟨l, hperm, hsublist⟩ := hsub
    exact hperm.nodup_iff.mp (h.nodup.sublist hsublist)
  covered p hp := h.covered p (hsub.subset hp)

theorem prune (h : Secured store entered used) (hle : entered ≤ now) :
    Secured (store.retain fun r ↦ isKept now r.2) now used where
  nodup := h.nodup
  covered p hp := by
    have hfilter := ((h.covered p hp).later hle).prune (p := isKept now) fun _ ↦ isKept_of_kept
    rw [memory, Option.filter_map] at hfilter
    rw [memory, find?_retain]
    exact hfilter

theorem put (h : Secured store now used) (hp : Near now p)
    (hfree : store.find? p.nonceKey = none) :
    Secured (store.put (p.nonceKey, now)) now (p :: used) where
  nodup := by
    refine nodup_cons.mpr ⟨fun hmem ↦ ?_, h.nodup⟩
    have hcovered := h.covered p hmem
    rw [memory, hfree] at hcovered
    exact hcovered.not_fresh hp
  covered q hq := by
    rw [memory, find?_put]
    split
    · rename_i hkey
      rw [← Pair.nonceKey_injective hkey]
      exact .inl ⟨now, le_rfl, rfl, outlasts_of_near hp⟩
    · rename_i hkey
      refine h.covered q ((mem_cons.mp hq).resolve_left ?_)
      rintro rfl
      exact hkey rfl

/-- Giving back the reservation of a pair that is no longer in use. -/
theorem release (h : Secured store entered used) (hp : p ∉ used) :
    Secured (store.retain fun r ↦ r.1 != p.nonceKey) entered used where
  nodup := h.nodup
  covered q hq := by
    have hkey : q.nonceKey ≠ p.nonceKey := by
      intro heq
      rw [Pair.nonceKey_injective heq] at hq
      exact hp hq
    have hsame : (store.retain fun r ↦ r.1 != p.nonceKey).find? q.nonceKey =
        store.find? q.nonceKey := by
      rw [find?_retain]
      cases hfind : store.find? q.nonceKey with
      | none => rfl
      | some r =>
        have hr : r.1 = q.nonceKey := key_of_find? hfind
        simpa [hr] using hkey
    rw [memory, hsame]
    exact h.covered q hq

end Secured

/-! ## Every step keeps the pairs secured -/

def Task.holds (t : Task) : Option Pair :=
  match t.phase with
  | .waiting _ => none
  | .reserved | .rejected => some t.login.pair

/-- The pairs that have yielded a session or may still do so. -/
def used (s : Pool Server Task) : List Pair :=
  s.shared.sessions ++ s.tasks.filterMap Task.holds

structure Inv (s : Pool Server Task) : Prop where
  secured : Secured s.shared.nonces s.shared.entered (used s)
  waiting : ∀ t ∈ s.tasks, ∀ now, t.phase = .waiting now → Near now t.login.pair

def usedByOthers (s : Pool Server Task) (i : ℕ) : List Pair :=
  s.shared.sessions ++ (s.tasks.eraseIdx i).filterMap Task.holds

section Steps

variable {crypto : Crypto} {s : Pool Server Task} {i : ℕ} {t : Task}

theorem used_perm (ht : s.tasks[i]? = some t) :
    (used s).Perm (t.holds.toList ++ usedByOthers s i) := by
  obtain ⟨hlt, rfl⟩ := List.getElem?_eq_some_iff.mp ht
  have htasks := (getElem_cons_eraseIdx_perm hlt).symm.filterMap Task.holds
  have hcons : ((s.tasks[i] :: s.tasks.eraseIdx i).filterMap Task.holds) =
      s.tasks[i].holds.toList ++ (s.tasks.eraseIdx i).filterMap Task.holds := by
    rw [filterMap_cons]
    cases s.tasks[i].holds <;> rfl
  rw [hcons] at htasks
  refine (htasks.append_left _).trans ?_
  rw [usedByOthers, ← append_assoc, ← append_assoc]
  exact perm_append_comm.append_right _

def usedAfter (s : Pool Server Task) (i : ℕ) (f : Result Server Task Response) : List Pair :=
  f.next.filterMap Task.holds ++ (f.shared.sessions ++ (s.tasks.eraseIdx i).filterMap Task.holds)

theorem secured_holder (h : Inv s) (ht : s.tasks[i]? = some t) :
    Secured s.shared.nonces s.shared.entered (t.holds.toList ++ usedByOthers s i) :=
  h.secured.mono (used_perm ht).symm.subperm

theorem secured_reserve (h : Inv s) (ht : s.tasks[i]? = some t) {now : UnixTime}
    (hphase : t.phase = .waiting now) (tie : String → ℕ) (horder : s.shared.entered ≤ now)
    (hroom : (pruned s.shared now).rows.length < eabNonceCap) :
    Secured (reserve s.shared tie t.login now).shared.nonces
      (reserve s.shared tie t.login now).shared.entered
      (usedAfter s i (reserve s.shared tie t.login now)) := by
  have hothers := secured_holder h ht
  rw [Task.holds, hphase] at hothers
  have hnear : Near now t.login.pair := h.waiting t (mem_of_getElem? ht) now hphase
  have hmax : max s.shared.entered now = now := max_eq_right horder
  have hpruned := hothers.prune horder
  unfold reserve
  simp only [hmax]
  split
  · exact hpruned
  · rename_i hfree
    rw [if_neg (Nat.not_le.mpr hroom)]
    exact hpruned.put hnear (Option.not_isSome_iff_eq_none.mp hfree)

theorem secured_act (h : Inv s) (ht : s.tasks[i]? = some t) (input : Input)
    (hok : Orderly s (.advance i input)) :
    Secured (act crypto s.shared t input).shared.nonces (act crypto s.shared t input).shared.entered
      (usedAfter s i (act crypto s.shared t input)) := by
  unfold act
  split
  · rename_i now hphase
    have henter : t.MayEnter s.shared := hok t ht
    rw [Task.MayEnter, hphase] at henter
    obtain ⟨horder, hroom⟩ := henter
    exact secured_reserve h ht hphase input.tie horder hroom
  · rename_i hphase
    have hall := secured_holder h ht
    rw [Task.holds, hphase] at hall
    have hothers := hall.mono (sublist_cons_self _ _).subperm
    split
    · exact hothers
    · exact hall
    · split
      · exact hall
      · exact hothers
  · rename_i hphase
    have hall := secured_holder h ht
    rw [Task.holds, hphase] at hall
    exact (hall.mono (sublist_cons_self _ _).subperm).release (nodup_cons.mp hall.nodup).1

theorem not_waiting_of_act {input : Input} {t' : Task}
    (h : t' ∈ (act crypto s.shared t input).next) (now : UnixTime) : t'.phase ≠ .waiting now := by
  have hphase : t'.phase = .reserved ∨ t'.phase = .rejected := by
    unfold act reserve at h
    dsimp only at h
    repeat' split at h
    all_goals first
      | exact absurd h not_mem_nil
      | exact .inl (congrArg Task.phase (mem_singleton.mp h))
      | exact .inr (congrArg Task.phase (mem_singleton.mp h))
  rcases hphase with heq | heq
  · simp [heq]
  · simp [heq]

theorem timestamp_of_parse {payload : Payload} {login : Login} (h : parse payload = .ok login) :
    payload.timestamp = some login.pair.timestamp := by
  unfold parse at h
  split at h
  · cases h
  split at h
  · cases h
  rename_i htime
  split at h
  · cases h
  · cases h
    exact htime

/-- Nothing is reserved or given back, and the tasks that are started wait. -/
structure Quiet (sh : Server) (r : Result Server Task Response) : Prop where
  nonces : r.shared.nonces = sh.nonces
  entered : r.shared.entered = sh.entered
  sessions : r.shared.sessions = sh.sessions
  next : ∀ t ∈ r.next, ∃ now, t.phase = .waiting now ∧ Near now t.login.pair

theorem quiet_of_stop {sh : Server} {r : Result Server Task Response} (hshared : r.shared = sh)
    (hnext : r.next = []) : Quiet sh r :=
  ⟨by rw [hshared], by rw [hshared], by rw [hshared], by simp [hnext]⟩

theorem quiet_arrive (a : Arrival) (hok : Orderly s (.arrive a)) :
    Quiet s.shared (arrive s.shared a) := by
  cases a with
  | tick => exact ⟨rfl, rfl, rfl, by simp [arrive, Result.idle]⟩
  | request payload limited =>
    unfold arrive
    dsimp only
    split
    · exact quiet_of_stop rfl rfl
    split
    · exact quiet_of_stop rfl rfl
    rename_i login hparse
    split
    · rename_i hwindow
      refine ⟨rfl, rfl, rfl, forall_mem_singleton.mpr ⟨_, rfl, ?_⟩⟩
      exact near_of_inWindow hwindow (hok _ (timestamp_of_parse hparse))
    · exact quiet_of_stop rfl rfl

theorem inv_of_quiet {e : Move Arrival Input} (h : Inv s)
    (hquiet : Quiet s.shared ((system crypto).result s e)) :
    Inv ((system crypto).step s e).1 where
  secured := by
    have hnone : ((system crypto).result s e).next.filterMap Task.holds = [] := by
      refine filterMap_eq_nil_iff.mpr fun t ht ↦ ?_
      obtain ⟨now, hphase, -⟩ := hquiet.next t ht
      rw [Task.holds, hphase]
    have hrest : (System.rest s e).Sublist s.tasks := by
      cases e with
      | arrive => exact .refl _
      | advance | abandon => exact eraseIdx_sublist _ _
    rw [used, System.step_shared, hquiet.nonces, hquiet.entered, hquiet.sessions, System.step,
      filterMap_append, hnone, append_nil]
    exact h.secured.mono ((List.Sublist.refl _).append (hrest.filterMap _)).subperm
  waiting t ht now' hphase' := by
    rcases System.mem_step_tasks ht with hold | hnew
    · exact h.waiting t hold now' hphase'
    · obtain ⟨now, hphase, hnear⟩ := hquiet.next t hnew
      cases hphase.symm.trans hphase'
      exact hnear

theorem inv_advance (h : Inv s) (ht : s.tasks[i]? = some t) (input : Input)
    (hok : Orderly s (.advance i input)) : Inv ((system crypto).step s (.advance i input)).1 := by
  have hresult : (system crypto).result s (.advance i input) = act crypto s.shared t input := by
    simp [System.result, ht, system]
  have hstep : ((system crypto).step s (.advance i input)).1 =
      ⟨(act crypto s.shared t input).shared,
        s.tasks.eraseIdx i ++ (act crypto s.shared t input).next⟩ := by
    rw [System.step, hresult]
    rfl
  rw [hstep]
  refine ⟨?_, fun t' ht' now hphase ↦ ?_⟩
  · refine (secured_act h ht input hok).mono (List.Perm.subperm ?_)
    rw [used, usedAfter, filterMap_append, ← append_assoc]
    exact perm_append_comm
  · rcases mem_append.mp ht' with hold | hnew
    · exact h.waiting t' (mem_of_mem_eraseIdx hold) now hphase
    · exact (not_waiting_of_act hnew now hphase).elim

theorem inv_step (s : Pool Server Task) (e : Move Arrival Input) (h : Inv s) (hok : Orderly s e) :
    Inv ((system crypto).step s e).1 := by
  cases e with
  | arrive a => exact inv_of_quiet h (quiet_arrive a hok)
  | advance i input =>
    cases ht : s.tasks[i]? with
    | none => exact inv_of_quiet h (quiet_of_stop (by simp [System.result, ht, Result.idle])
        (by simp [System.result, ht, Result.idle]))
    | some => exact inv_advance h ht input hok
  | abandon => exact inv_of_quiet h (quiet_of_stop rfl rfl)

end Steps

theorem inv_start (clock : UnixTime) : Inv ⟨Server.start clock, []⟩ where
  secured := ⟨nodup_nil, fun _ hp ↦ absurd hp not_mem_nil⟩
  waiting _ ht := absurd ht not_mem_nil

/-- In every interleaving of logins, a pair yields one session at most. -/
theorem pair_yields_one_session (crypto : Crypto) (clock : UnixTime) (es : List (Move Arrival Input))
    (hes : Machine.Meets (system crypto).step Orderly ⟨Server.start clock, []⟩ es) (p : Pair) :
    (Machine.run (system crypto).step ⟨Server.start clock, []⟩ es).shared.sessions.count p ≤ 1 := by
  have hinv := hes.invariant Inv (inv_start clock) inv_step
  have hnodup := (List.nodup_append.mp hinv.secured.nodup).1
  exact List.nodup_iff_count_le_one.mp hnodup p

/-! ## Sessions that should not be -/

def sampleCrypto : Crypto := ⟨fun _ ↦ some [], fun _ ↦ some [], fun _ _ _ ↦ true⟩

def sampleOperator : Operator where
  id := 1
  name := "alice"
  role := "auditor"
  certFingerprint := none
  gssapiPrincipal := none
  createdAt := ""
  lastSeenAt := none
  active := true
  failedAttempts := 0
  lockedUntil := none
  caId := ""

/-- One key, `k`, and its operator. -/
def sampleInput : Input where
  tie _ := 0
  answers :=
    { getByKid := fun kid ↦ .ok (if kid = "k" then some ⟨"", "sha256", some 1, none⟩ else none)
      getById := fun _ ↦ .ok (some sampleOperator)
      getByPrincipal := fun _ ↦ .ok none
      nowRfc3339 := "" }
  tokenOk := true

def sampleRequest (p : Pair) : Arrival := .request ⟨some p.kid, some p.timestamp, some "s"⟩ false

/-- A request from its arrival to its answer, with nothing in between. -/
def attempt (p : Pair) : List (Move Arrival Input) :=
  [.arrive (sampleRequest p), .advance 0 sampleInput, .advance 0 sampleInput]

def victim : Pair := ⟨"k", ⟨100, by decide⟩⟩

def unixTime (n : ℕ) (h : (n : Int) < 2 ^ 63) : UnixTime := ⟨n, by omega, h⟩

def t100 : UnixTime := unixTime 100 (by decide)

def t101 : UnixTime := unixTime 101 (by decide)

/-- A pair with a key that does not exist. -/
def unknown (n : ℕ) : Pair := ⟨String.ofList (List.replicate (n + 1) 'x'), ⟨101, by decide⟩⟩

def flood (n : ℕ) : List (Move Arrival Input) :=
  (List.range n).flatMap fun i ↦ attempt (unknown i)

def reservedStore (sh : Server) (p : Pair) : NonceStore :=
  (if eabNonceCap ≤ (pruned sh sh.clock).rows.length then keepNewest (fun _ ↦ 0) (pruned sh sh.clock)
    else pruned sh sh.clock).put (p.nonceKey, sh.clock)

theorem run_attempt (sh : Server) (p : Pair) (hkid : p.kid ≠ "") (hwindow : inWindow sh.clock p = true)
    (hfree : (pruned sh sh.clock).find? p.nonceKey = none) :
    Machine.run (system sampleCrypto).step ⟨sh, []⟩ (attempt p) =
      ⟨{ sh with
          nonces := reservedStore sh p
          entered := max sh.entered sh.clock
          sessions := if p.kid = "k" then p :: sh.sessions else sh.sessions }, []⟩ := by
  have harrive : arrive sh (sampleRequest p) = .goOn sh ⟨⟨p, "s"⟩, .waiting sh.clock⟩ := by
    have hparse : parse ⟨some p.kid, some p.timestamp, some "s"⟩ = .ok ⟨p, "s"⟩ := by
      have hfilter : (some p.kid).filter (· != "") = some p.kid :=
        Option.filter_some_pos (by simpa using hkid)
      simp only [parse, hfilter]
      rfl
    simp only [sampleRequest, arrive, hparse, hwindow]
    rfl
  have hreserve : reserve sh sampleInput.tie ⟨p, "s"⟩ sh.clock =
      .goOn { sh with nonces := reservedStore sh p, entered := max sh.entered sh.clock }
        ⟨⟨p, "s"⟩, .reserved⟩ := by
    unfold reserve
    simp only [hfree]
    rfl
  have hverify : verify sampleCrypto sampleInput.answers ⟨p, "s"⟩ =
      if p.kid = "k" then .accepted sampleOperator .auditor
      else .refused ⟨401, "authentication failed"⟩ := by
    by_cases hk : p.kid = "k"
    · simp [verify, sampleInput, hk, resolveOperator, sampleOperator, Operator.isLocked, sampleCrypto,
        OperatorRole.parse]
    · simp [verify, sampleInput, hk]
  simp only [attempt, Machine.run, System.step, System.result, System.rest, system, harrive, act,
    Result.goOn, nil_append, getElem?_cons_zero, Option.elim, hreserve, hverify,
    eraseIdx_cons_zero]
  by_cases hk : p.kid = "k"
  · simp only [hk, if_true]
    rfl
  · simp only [hk, if_false]
    rfl

structure Flooded (n : ℕ) (sh : Server) : Prop where
  clock : sh.clock = t101
  sessions : sh.sessions = [victim]
  rows : sh.nonces.rows =
    (victim.nonceKey, t100) :: (List.range n).map fun i ↦ ((unknown i).nonceKey, t101)

theorem unknown_injective {i j : ℕ} (h : (unknown i).nonceKey = (unknown j).nonceKey) : i = j := by
  have hkid := congrArg (fun p : Pair ↦ p.kid.toList.length) (Pair.nonceKey_injective h)
  simpa [unknown] using hkid

theorem unknown_ne_victim (i : ℕ) : (unknown i).nonceKey ≠ victim.nonceKey := by
  intro h
  have htime := congrArg (fun p : Pair ↦ p.timestamp.1) (Pair.nonceKey_injective h)
  simp [unknown, victim] at htime

variable {sh : Server} {n : ℕ}

theorem Flooded.mem_rows {r : String × UnixTime} (h : Flooded n sh) (hr : r ∈ sh.nonces.rows) :
    r = (victim.nonceKey, t100) ∨ ∃ i < n, r = ((unknown i).nonceKey, t101) := by
  rw [h.rows] at hr
  refine (mem_cons.mp hr).imp_right fun hr ↦ ?_
  obtain ⟨i, hi, rfl⟩ := mem_map.mp hr
  exact ⟨i, mem_range.mp hi, rfl⟩

theorem Flooded.pruned_eq (h : Flooded n sh) : pruned sh sh.clock = sh.nonces := by
  refine retain_eq_self fun r hr ↦ ?_
  rw [h.clock]
  rcases h.mem_rows hr with rfl | ⟨i, -, rfl⟩
  · decide
  · exact (by decide : isKept t101 t101 = true)

theorem Flooded.length_pruned (h : Flooded n sh) : (pruned sh sh.clock).rows.length = n + 1 := by
  rw [h.pruned_eq, h.rows, length_cons, length_map, length_range]

theorem Flooded.unknown_free (h : Flooded n sh) :
    (pruned sh sh.clock).find? (unknown n).nonceKey = none := by
  rw [h.pruned_eq, find?_eq_none_iff]
  intro r hr hkey
  rcases h.mem_rows hr with rfl | ⟨i, hi, rfl⟩
  · exact unknown_ne_victim n hkey.symm
  · exact hi.ne (unknown_injective hkey)

theorem unknown_attempt (h : Flooded n sh) :
    Machine.run (system sampleCrypto).step ⟨sh, []⟩ (attempt (unknown n)) =
      ⟨{ sh with nonces := reservedStore sh (unknown n), entered := max sh.entered sh.clock }, []⟩ := by
  have hkid : (unknown n).kid ≠ "" := by
    intro heq
    have hlength := congrArg (fun s : String ↦ s.toList.length) heq
    simp [unknown] at hlength
  have hk : (unknown n).kid ≠ "k" := by
    intro heq
    have hchars := congrArg String.toList heq
    simp [unknown, replicate_succ] at hchars
  have hwindow : inWindow sh.clock (unknown n) = true := by
    rw [h.clock]
    rfl
  rw [run_attempt sh (unknown n) hkid hwindow h.unknown_free, if_neg hk]

theorem flooded_succ (h : Flooded n sh) (hn : n + 1 < eabNonceCap) : Flooded (n + 1) { sh with
      nonces := reservedStore sh (unknown n)
      entered := max sh.entered sh.clock } where
  clock := h.clock
  sessions := h.sessions
  rows := by
    have hfree := h.unknown_free
    have hroom : ¬ eabNonceCap ≤ (pruned sh sh.clock).rows.length := by
      rw [h.length_pruned]
      omega
    rw [reservedStore, if_neg hroom, rows_put_of_none hfree, h.pruned_eq, h.rows, h.clock,
      range_succ, map_append, cons_append, map_singleton]

theorem flood_succ (n : ℕ) : flood (n + 1) = flood n ++ attempt (unknown n) := by
  simp [flood, range_succ]

theorem run_flood (h : Flooded 0 sh) (n : ℕ) (hn : n < eabNonceCap) :
    ∃ sh', Machine.run (system sampleCrypto).step ⟨sh, []⟩ (flood n) = ⟨sh', []⟩ ∧ Flooded n sh' := by
  induction n with
  | zero => exact ⟨sh, rfl, h⟩
  | succ n ih =>
    obtain ⟨sh', hrun, hsh'⟩ := ih (by omega)
    refine ⟨_, ?_, flooded_succ hsh' hn⟩
    rw [flood_succ, run_append, hrun, unknown_attempt hsh']

theorem newerFirst_iff {a b : String × UnixTime} :
    newerFirst (fun _ ↦ 0) a b = true ↔ b.2 ≤ a.2 := by
  rw [newerFirst, Bool.or_eq_true, Bool.and_eq_true, decide_eq_true_eq, beq_iff_eq,
    decide_eq_true_eq]
  constructor
  · rintro (hlt | ⟨heq, -⟩)
    · exact hlt.le
    · exact heq.ge
  · intro hle
    rcases lt_or_eq_of_le hle with hlt | heq
    · exact .inl hlt
    · exact .inr ⟨heq.symm, le_rfl⟩

theorem pairwise_newerFirst (rows : List (String × UnixTime)) :
    (rows.mergeSort (newerFirst fun _ ↦ 0)).Pairwise fun a b ↦ newerFirst (fun _ ↦ 0) a b = true := by
  refine pairwise_mergeSort ?_ ?_ rows
  · intro a b c hab hbc
    exact newerFirst_iff.mpr ((newerFirst_iff.mp hbc).trans (newerFirst_iff.mp hab))
  · intro a b
    rw [Bool.or_eq_true, newerFirst_iff, newerFirst_iff]
    exact le_total _ _

/-- The only entry that is older than all others is not among the newest half. -/
theorem keepNewest_drops {store : NonceStore} {old : String × UnixTime}
    (hold : ∀ r ∈ store.rows, r ≠ old → old.2 < r.2)
    (hlength : eabNonceCap / 2 < store.rows.length) :
    old ∉ (keepNewest (fun _ ↦ 0) store).rows := by
  intro hmem
  have hperm := mergeSort_perm store.rows (newerFirst fun _ ↦ 0)
  have hpairs := pairwise_newerFirst store.rows
  have hnodup := hperm.nodup_iff.mpr (List.Nodup.of_map _ store.nodup)
  have hmem' : old ∈ (store.rows.mergeSort (newerFirst fun _ ↦ 0)).take (eabNonceCap / 2) := hmem
  generalize store.rows.mergeSort (newerFirst fun _ ↦ 0) = sorted at hperm hpairs hnodup hmem'
  -- something comes after the newest half, and it is not the old entry
  obtain ⟨r, hr⟩ : ∃ r, r ∈ sorted.drop (eabNonceCap / 2) := by
    refine exists_mem_of_length_pos ?_
    rw [length_drop, hperm.length_eq]
    omega
  rw [← take_append_drop (eabNonceCap / 2) sorted] at hpairs hnodup
  have hne : r ≠ old := fun heq ↦ (nodup_append.mp hnodup).2.2 old hmem' r hr heq.symm
  have hle := newerFirst_iff.mp ((pairwise_append.mp hpairs).2.2 old hmem' r hr)
  exact absurd (hold r (hperm.subset (mem_of_mem_drop hr)) hne) (not_lt.mpr hle)

theorem victim_evicted (h : Flooded (eabNonceCap - 1) sh) :
    (reservedStore sh (unknown (eabNonceCap - 1))).find? victim.nonceKey = none := by
  have hlength : (pruned sh sh.clock).rows.length = eabNonceCap := h.length_pruned
  have hold : ∀ r ∈ (pruned sh sh.clock).rows, r ≠ (victim.nonceKey, t100) →
      (victim.nonceKey, t100).2 < r.2 := by
    intro r hr hne
    rw [h.pruned_eq] at hr
    obtain ⟨i, -, rfl⟩ := (h.mem_rows hr).resolve_left hne
    exact (by decide : t100 < t101)
  rw [reservedStore, if_pos hlength.ge, find?_put, if_neg (unknown_ne_victim _),
    find?_eq_none_iff]
  intro r hr hkey
  have hmem : r ∈ (pruned sh sh.clock).rows :=
    (mergeSort_perm _ _).subset (mem_of_mem_take hr)
  rw [h.pruned_eq] at hmem
  rcases h.mem_rows hmem with rfl | ⟨i, -, rfl⟩
  · refine keepNewest_drops hold ?_ hr
    rw [hlength]
    decide
  · exact unknown_ne_victim i hkey

/-- The victim logs in, and again when the flood has pushed it out of the
store. -/
def floodRun : List (Move Arrival Input) :=
  attempt victim ++ [.arrive (.tick t101)] ++ flood eabNonceCap ++ attempt victim

theorem run_first_login :
    ∃ sh, Machine.run (system sampleCrypto).step ⟨Server.start t100, []⟩
      (attempt victim ++ [.arrive (.tick t101)]) = ⟨sh, []⟩ ∧ Flooded 0 sh := by
  have hattempt := run_attempt (Server.start t100) victim (by decide) (by decide) rfl
  rw [if_pos (show victim.kid = "k" from rfl)] at hattempt
  rw [run_append, hattempt]
  refine ⟨_, rfl, ?_, rfl, ?_⟩
  · decide
  · decide +kernel

theorem sessions_floodRun :
    (Machine.run (system sampleCrypto).step ⟨Server.start t100, []⟩ floodRun).shared.sessions =
      [victim, victim] := by
  obtain ⟨sh, hfirst, hstart⟩ := run_first_login
  obtain ⟨sh', hrun, hfull⟩ := run_flood hstart (eabNonceCap - 1) (by decide)
  have hlast : flood eabNonceCap = flood (eabNonceCap - 1) ++ attempt (unknown (eabNonceCap - 1)) :=
    flood_succ (eabNonceCap - 1)
  rw [floodRun, run_append, run_append, hfirst, hlast, run_append, hrun,
    unknown_attempt hfull]
  rw [run_attempt _ victim (by decide) ?_ ?_, if_pos (show victim.kid = "k" from rfl)]
  · exact congrArg _ hfull.sessions
  · rw [hfull.clock]
    decide
  · rw [pruned, find?_retain, victim_evicted hfull]
    rfl

/-- A flood of unknown keys pushes a used pair out of the store.  A request that
read the clock in time enters after one that has dropped the pair's slot.  A
timestamp at the lower end of the range passes the test twice. -/
theorem pair_yields_two_sessions :
    (Machine.run (system sampleCrypto).step ⟨Server.start t100, []⟩
        floodRun).shared.sessions.count victim = 2 ∧
      (Machine.run (system sampleCrypto).step ⟨Server.start t100, []⟩
        (attempt ⟨"k", ⟨160, by decide⟩⟩ ++ [.arrive (.tick (unixTime 220 (by decide))),
          .arrive (sampleRequest ⟨"k", ⟨160, by decide⟩⟩),
          .arrive (.tick (unixTime 221 (by decide))),
          .arrive (sampleRequest ⟨"y", ⟨221, by decide⟩⟩), .advance 1 sampleInput,
          .advance 0 sampleInput, .advance 1 sampleInput])).shared.sessions.count
            ⟨"k", ⟨160, by decide⟩⟩ = 2 ∧
      (Machine.run (system sampleCrypto).step ⟨Server.start (unixTime 0 (by decide)), []⟩
        (attempt ⟨"k", ⟨-2 ^ 63, by decide⟩⟩ ++
          [.arrive (.tick (unixTime (2 ^ 63 - 1) (by decide)))] ++
          attempt ⟨"k", ⟨-2 ^ 63, by decide⟩⟩)).shared.sessions.count
            ⟨"k", ⟨-2 ^ 63, by decide⟩⟩ = 2 := by
  refine ⟨?_, by decide +kernel, by decide +kernel⟩
  rw [sessions_floodRun]
  decide

/-- A replay half a minute later. -/
theorem replay_refused :
    (Machine.run (system sampleCrypto).step ⟨Server.start t100, []⟩
      (attempt victim ++ [.arrive (.tick (unixTime 130 (by decide)))] ++
        attempt victim)).shared.sessions = [victim] ∧
      (Machine.run (system sampleCrypto).step ⟨Server.start t100, []⟩
        (attempt victim ++ [.arrive (.tick (unixTime 130 (by decide)))] ++
          attempt victim)).shared.sessions.count victim ≤ 1 :=
  ⟨by decide +kernel, pair_yields_one_session sampleCrypto t100 _ (by decide +kernel) victim⟩

end Akamu.EabLogin
