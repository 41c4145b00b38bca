import Akamu.Db.Effects
import Akamu.Lib.ReadThrough
import Akamu.Node.Requests
import Akamu.Revocation.Ocsp

/-!
# The CRL and its cache

`get_crl` of `routes/crl.rs` against `revoke_cert` and `post_revoke`.  A request
that misses the cache reads the table, has the list signed on another thread and
stores it; a revocation commits and then clears the cache of its CA.  Between
any two of these steps other requests may take theirs.
-/

namespace Akamu

open KeyedTable List Machine Option Tasks

/-! ## Serial numbers as text -/

def decodePairs (offset : ℕ) : List Char → Except String (List UInt8)
  | a :: b :: rest =>
    match u8FromHex a b with
    | none => .error ("invalid hex byte at offset " ++ toString offset ++ ": '" ++
        String.ofList [a, b] ++ "'")
    | some byte => (decodePairs (offset + 2) rest).map (byte :: ·)
  | _ => .ok []

/-- The source counts octets.  A text with other characters than ASCII is
malformed by either count. -/
def decodeHex (hex : String) : Except String (List UInt8) :=
  if hex.length % 2 ≠ 0 then
    .error ("odd-length hex string (" ++ toString hex.length ++ " chars)")
  else decodePairs 0 hex.toList

theorem hexValue_hexDigit {n : ℕ} (h : n < 16) : hexValue (hexDigit n) = some n := by
  have hall : ∀ n < 16, hexValue (hexDigit n) = some n := by decide
  exact hall n h

theorem hexDigit_ne_plus {n : ℕ} (h : n < 16) : hexDigit n ≠ '+' := by
  have hall : ∀ n < 16, hexDigit n ≠ '+' := by decide
  exact hall n h

theorem u8FromHex_hexDigit (b : UInt8) :
    u8FromHex (hexDigit (b.toNat / 16)) (hexDigit (b.toNat % 16)) = some b := by
  have hhi : b.toNat / 16 < 16 := by
    have := b.toNat_lt
    omega
  have hlo : b.toNat % 16 < 16 := Nat.mod_lt _ (by decide)
  have hsum : 16 * (b.toNat / 16) + b.toNat % 16 = b.toNat := Nat.div_add_mod _ _
  rw [u8FromHex, if_neg (hexDigit_ne_plus hhi), hexValue_hexDigit hhi, hexValue_hexDigit hlo]
  exact congrArg some ((congrArg UInt8.ofNat hsum).trans UInt8.ofNat_toNat)

theorem decodePairs_hexDigits (bytes : List UInt8) (offset : ℕ) :
    decodePairs offset (bytes.flatMap fun b ↦
      [hexDigit (b.toNat / 16), hexDigit (b.toNat % 16)]) = .ok bytes := by
  induction bytes generalizing offset with
  | nil => rfl
  | cons b bytes ih =>
    simp only [flatMap_cons, cons_append, nil_append, decodePairs,
      u8FromHex_hexDigit, ih]
    rfl

theorem decodeHex_hexEncode (bytes : List UInt8) : decodeHex (hexEncode bytes) = .ok bytes := by
  have hlength : (hexEncode bytes).length = 2 * bytes.length := by
    simp [hexEncode, length_flatMap, Nat.mul_comm]
  rw [decodeHex, if_neg (by omega), hexEncode, String.toList_ofList]
  exact decodePairs_hexDigits bytes 0

/-! ## Building the list -/

/-- The columns that `list_revoked` selects. -/
structure CrlEntry where
  serialNumber : String
  revokedAt : Option Int
  revocationReason : Option Int
  deriving DecidableEq, Repr

def maxCrlEntries : ℕ := 500000

/-- `WHERE status = 'revoked' AND ca_id = ?`. -/
def CertificateRow.onCrlOf (caId : String) (c : CertificateRow) : Bool :=
  c.status == .revoked && c.caId == caId

def CertificateRow.crlEntry (c : CertificateRow) : CrlEntry :=
  ⟨c.serialNumber, c.revokedAt, c.revocationReason⟩

def Certs.listRevoked (db : Db) (caId : String) : Except AcmeError (List CrlEntry) :=
  let rows := ((db.certificates.rows.filter (CertificateRow.onCrlOf caId)).take
    (maxCrlEntries + 1)).map CertificateRow.crlEntry
  if maxCrlEntries < rows.length then
    .error (.database ("CA '" ++ caId ++ "' has more than " ++ toString maxCrlEntries ++
      " revoked certificates; CRL generation aborted to prevent OOM — implement delta CRLs"))
  else .ok rows

structure RevokedEntry where
  serialBytes : List UInt8
  revokedAt : Int
  reason : Option UInt8
  deriving DecidableEq, Repr

def u8TryFrom (v : Int) : Option UInt8 :=
  if 0 ≤ v ∧ v < 256 then some (UInt8.ofNat v.toNat) else none

/-- Rows whose serial number is malformed are skipped. -/
def CrlEntry.revokedEntry (now : Int) (r : CrlEntry) : Option RevokedEntry :=
  match decodeHex r.serialNumber with
  | .error _ => none
  | .ok serialBytes =>
    some { serialBytes := serialBytes, revokedAt := r.revokedAt.getD now,
           reason := r.revocationReason.bind u8TryFrom }

structure TbsCertList where
  issuer : List UInt8
  thisUpdate : Int
  nextUpdate : Int
  revoked : List RevokedEntry
  crlNumber : ℕ
  deriving DecidableEq, Repr

structure Crl where
  tbs : TbsCertList
  signature : List UInt8
  deriving DecidableEq, Repr

structure CrlLibrary where
  signTbs : CaState → TbsCertList → Except AcmeError (List UInt8)

def buildCrl (lib : CrlLibrary) (ca : CaState) (revoked : List RevokedEntry) (now : Int) :
    Except AcmeError Crl :=
  let tbs : TbsCertList :=
    { issuer := ca.certificate.subjectDer
      thisUpdate := now
      nextUpdate := now + ca.crlNextUpdateSecs
      revoked := revoked
      crlNumber := (now % 2 ^ 64).toNat }
  (lib.signTbs ca tbs).map fun signature ↦ ⟨tbs, signature⟩

def CaState.crlCacheTtl (ca : CaState) : ℕ := max (ca.crlNextUpdateSecs / 2) 30

/-! ## The server -/

structure Revocation where
  certId : String
  reason : Option Int
  now : Int
  scope : Option String
  deriving DecidableEq, Repr

def Task.revocation? : Task → Option Revocation
  | .commit (.revoke certId reason now scope) => some ⟨certId, reason, now, scope⟩
  | _ => none

namespace CrlServer

/-- What a request does next.  `revoke_cert` knows the CA from the row it has
read; `post_revoke` looks the row up after the commit. -/
inductive Task where
  | lookup (caId : String)
  | list (caId : String) (ca : CaState)
  | sign (caId : String) (ca : CaState) (revoked : List RevokedEntry)
  | store (caId : String) (ca : CaState) (crl : Crl)
  | revoke (r : Revocation) (caId : Option String)
  | locate (certId : String)
  | invalidate (certId : String) (caId : Option String)
  deriving DecidableEq, Repr

inductive Output where
  | crl (caId : String) (answer : Except AcmeError Crl)
  | revoked (certId : String)
  | refused (e : AcmeError)
  deriving DecidableEq

inductive Arrival where
  | getCrl (caId : String)
  | revokeCert (accountId : Option String) (keyMatches : Bool) (caId serial : String)
      (reason : Option ℕ) (now : Int)
  | postRevoke (certId : String) (reason : ℕ) (caScope : Option String) (now : Int)
  | postCrlForce (scope : Option String)
  | elapse (secs : ℕ)

/-- The table, the monotonic clock, and the cached list of each CA with its
expiry. -/
structure State where
  db : Db
  clock : ℕ
  caches : String → Option (Crl × ℕ)

/-- `invalidate_crl_cache` for one CA, or for all. -/
def invalidateCrlCache (caches : String → Option (Crl × ℕ)) (caId : Option String) :
    String → Option (Crl × ℕ) :=
  match caId with
  | some caId => Function.update caches caId none
  | none => fun _ ↦ none

def begun (sh : State) (caId : Option String) :
    Except AcmeError (List Akamu.Task) → Result State Task Output
  | .error e => .answer sh (.refused e)
  | .ok ts => ⟨sh, (ts.filterMap Task.revocation?).map fun r ↦ .revoke r caId, none⟩

def arrive (sh : State) : Arrival → Result State Task Output
  | .getCrl caId => .goOn sh (.lookup caId)
  | .revokeCert accountId keyMatches caId serial reason now =>
    begun sh (some caId) (beginRevokeCert sh.db now accountId keyMatches caId serial reason)
  | .postRevoke certId reason caScope now =>
    begun sh none (beginPostRevoke now certId reason caScope)
  | .postCrlForce scope => .idle { sh with caches := invalidateCrlCache sh.caches scope }
  | .elapse secs => .idle { sh with clock := sh.clock + secs }

def Task.act (env : Env) (lib : CrlLibrary) (sh : State) (now : Int) :
    Task → Result State Task Output
  | .lookup caId =>
    match env.config.getCa caId with
    | none => .answer sh (.crl caId (.error (.internal ("no CA for id '" ++ caId ++ "'"))))
    | some ca =>
      if ca.dogtag then .answer sh (.crl caId (.error .notFound))
      else
        match (sh.caches caId).filter fun entry ↦ decide (sh.clock < entry.2) with
        | some entry => .answer sh (.crl caId (.ok entry.1))
        | none => .goOn sh (.list caId ca)
  | .list caId ca =>
    match Certs.listRevoked sh.db caId with
    | .error e => .answer sh (.crl caId (.error e))
    | .ok rows => .goOn sh (.sign caId ca (rows.filterMap (CrlEntry.revokedEntry now)))
  | .sign caId ca revoked =>
    match buildCrl lib ca revoked now with
    | .error e => .answer sh (.crl caId (.error e))
    | .ok crl => .goOn sh (.store caId ca crl)
  | .store caId ca crl =>
    -- whatever has been invalidated since the table was read
    .answer { sh with
      caches := Function.update sh.caches caId (some (crl, sh.clock + ca.crlCacheTtl)) }
      (.crl caId (.ok crl))
  | .revoke r caId =>
    let done := Certs.revoke sh.db r.certId r.reason r.now r.scope
    if done.2 then
      .goOn { sh with db := done.1 }
        (caId.elim (.locate r.certId) fun caId ↦ .invalidate r.certId (some caId))
    else
      .answer { sh with db := done.1 }
        (.refused (if caId.isSome then .alreadyRevoked else .notFound))
  | .locate certId =>
    .goOn sh (.invalidate certId ((sh.db.certificates.find? certId).map CertificateRow.caId))
  | .invalidate certId caId =>
    .answer { sh with caches := invalidateCrlCache sh.caches caId } (.revoked certId)

def system (env : Env) (lib : CrlLibrary) : System State Task Arrival Int Output where
  arrive := arrive
  act sh task now := task.act env lib sh now

def boot (db : Db) : Pool State Task := ⟨⟨db, 0, fun _ ↦ none⟩, []⟩

/-! ## The side condition -/

def Task.rebuilds (caId : String) : Task → Bool
  | .sign id _ _ | .store id _ _ => id == caId
  | _ => false

def signsLocally (env : Env) (caId : String) : Bool :=
  (env.config.getCa caId).any fun ca ↦ !ca.dogtag

def RoomFor (db : Db) (r : Revocation) : Prop :=
  ∀ c ∈ db.certificates.rows, Certs.revocable r.certId r.scope c = true →
    db.certificates.countWhere (CertificateRow.onCrlOf c.caId) < maxCrlEntries

/-- A revocation commits while the list of its CA has room, and clears the
cache of a CA with a key of its own while no request rebuilds that CA's list. -/
def Task.Timely (env : Env) (s : Pool State Task) : Task → Prop
  | .revoke r _ => RoomFor s.shared.db r
  | .invalidate certId _ => ∀ c ∈ s.shared.db.certificates.find? certId,
      signsLocally env c.caId = true ∧ s.tasks.any (Task.rebuilds c.caId) = false
  | _ => True

instance (env : Env) (s : Pool State Task) (task : Task) : Decidable (task.Timely env s) := by
  unfold Task.Timely RoomFor
  split <;> infer_instance

def Timely (env : Env) (s : Pool State Task) : Move Arrival Int → Prop
  | .advance i _ => ∀ task ∈ s.tasks[i]?, task.Timely env s
  | _ => True

instance (env : Env) (s : Pool State Task) (e : Move Arrival Int) :
    Decidable (Timely env s e) := by
  unfold Timely
  split <;> infer_instance

/-! ## The cache as a read-through cache -/

/-- What a rebuild may get from the table. -/
def Reads (db : Db) (caId : String) (revoked : List RevokedEntry) : Prop :=
  ∃ rows now, Certs.listRevoked db caId = .ok rows ∧
    revoked = rows.filterMap (CrlEntry.revokedEntry now)

def State.Cached (sh : State) (caId : String) (revoked : List RevokedEntry) : Prop :=
  ∃ entry ∈ sh.caches caId, entry.1.tbs.revoked = revoked

def Task.Carries (task : Task) (caId : String) (revoked : List RevokedEntry) : Prop :=
  match task with
  | .sign id _ entries => id = caId ∧ entries = revoked
  | .store id _ crl => id = caId ∧ crl.tbs.revoked = revoked
  | _ => False

def view (s : Pool State Task) : ReadThrough.State Db String (List RevokedEntry) :=
  ReadThrough.view State.db State.Cached Task.Carries s

section Simulation

variable {env : Env} {lib : CrlLibrary} {sh : State} {now : Int} {task task' : Task}
  {caId : String} {revoked : List RevokedEntry}

theorem buildCrl_revoked {ca : CaState} {crl : Crl}
    (h : buildCrl lib ca revoked now = .ok crl) : crl.tbs.revoked = revoked := by
  obtain ⟨signature, -, rfl⟩ := Except.map_eq_ok h
  rfl

variable {scope : Option String}

theorem mem_invalidateCrlCache {caches : String → Option (Crl × ℕ)} {entry : Crl × ℕ}
    (h : entry ∈ invalidateCrlCache caches scope caId) :
    entry ∈ caches caId ∧ ∀ id ∈ scope, caId ≠ id := by
  cases scope with
  | none => simp [invalidateCrlCache] at h
  | some id =>
    by_cases heq : caId = id
    · simp [invalidateCrlCache, heq] at h
    · simpa [invalidateCrlCache, heq] using h

theorem mem_begun {begin : Except AcmeError (List Akamu.Task)}
    (h : task ∈ (begun sh scope begin).next) :
    ∃ ts, begin = .ok ts ∧ ∃ r ∈ ts.filterMap Task.revocation?, task = .revoke r scope := by
  cases begin with
  | error => cases h
  | ok ts =>
    obtain ⟨r, hr, rfl⟩ := mem_map.mp h
    exact ⟨ts, rfl, r, hr, rfl⟩

@[simp] theorem begun_shared (scope : Option String) (begin : Except AcmeError (List Akamu.Task)) :
    (begun sh scope begin).shared = sh := by
  cases begin <;> rfl

theorem not_carries_of_arrive {a : Arrival} (htask : task ∈ (arrive sh a).next) :
    ¬ task.Carries caId revoked := by
  cases a with
  | getCrl =>
    cases mem_singleton.mp htask
    exact id
  | revokeCert | postRevoke =>
    obtain ⟨ts, -, r, -, rfl⟩ := mem_begun htask
    exact id
  | postCrlForce | elapse => cases htask

theorem cached_of_arrive {a : Arrival} (h : (arrive sh a).shared.Cached caId revoked) :
    sh.Cached caId revoked := by
  cases a with
  | postCrlForce =>
    obtain ⟨entry, hentry, rfl⟩ := h
    exact ⟨entry, (mem_invalidateCrlCache hentry).1, rfl⟩
  | revokeCert | postRevoke => simpa only [arrive, begun_shared] using h
  | getCrl | elapse => exact h

theorem carries_of_act (htask : task' ∈ (task.act env lib sh now).next)
    (h : task'.Carries caId revoked) : task.Carries caId revoked ∨ Reads sh.db caId revoked := by
  cases task with
  | lookup =>
    simp only [Task.act] at htask
    repeat' split at htask
    all_goals cases htask
    · exact h.elim
    · rename_i hmem
      cases hmem
  | list =>
    simp only [Task.act] at htask
    split at htask
    · cases htask
    · rename_i rows hrows
      cases mem_singleton.mp htask
      obtain ⟨rfl, rfl⟩ := h
      exact .inr ⟨rows, now, hrows, rfl⟩
  | sign =>
    simp only [Task.act] at htask
    split at htask
    · cases htask
    · rename_i crl hcrl
      cases mem_singleton.mp htask
      exact .inl ⟨h.1, (buildCrl_revoked hcrl).symm.trans h.2⟩
  | revoke r id =>
    simp only [Task.act] at htask
    split at htask
    · cases mem_singleton.mp htask
      cases id <;> exact h.elim
    · cases htask
  | locate =>
    cases mem_singleton.mp htask
    exact h.elim
  | store | invalidate => cases htask

theorem cached_of_act (h : (task.act env lib sh now).shared.Cached caId revoked) :
    sh.Cached caId revoked ∨ task.Carries caId revoked := by
  cases task with
  | store id ca crl =>
    obtain ⟨entry, hentry, rfl⟩ := h
    simp only [Task.act, Result.answer] at hentry
    by_cases heq : caId = id
    · subst heq
      obtain rfl : (crl, sh.clock + ca.crlCacheTtl) = entry := by simpa using hentry
      exact .inr ⟨rfl, rfl⟩
    · exact .inl ⟨entry, by simpa [Function.update, heq] using hentry, rfl⟩
  | invalidate =>
    obtain ⟨entry, hentry, rfl⟩ := h
    exact .inl ⟨entry, (mem_invalidateCrlCache hentry).1, rfl⟩
  | lookup | list | sign | revoke | locate =>
    simp only [Task.act] at h
    repeat' split at h
    all_goals exact .inl h

theorem view_step (env : Env) (lib : CrlLibrary) (s : Pool State Task) (e : Move Arrival Int) :
    ReadThrough.Step Reads (view s) (view ((system env lib).step s e).1) :=
  ReadThrough.view_step (fun _ _ _ _ _ ↦ not_carries_of_arrive) (fun _ _ _ _ ↦ cached_of_arrive)
    (fun _ _ _ _ _ _ ↦ carries_of_act) (fun _ _ _ _ _ ↦ cached_of_act) s e

end Simulation

/-! ## The table and the list -/

def Known (c : CertificateRow) (db : Db) : Prop :=
  ∃ c' ∈ db.certificates.rows, c'.fixed = c.fixed

structure OnCrl (c : CertificateRow) (db : Db) : Prop where
  revoked : ∃ c' ∈ db.certificates.rows, c'.fixed = c.fixed ∧ c'.status = .revoked
  room : db.certificates.countWhere (CertificateRow.onCrlOf c.caId) ≤ maxCrlEntries

def Lists (serial : List UInt8) (revoked : List RevokedEntry) : Prop :=
  ∃ entry ∈ revoked, entry.serialBytes = serial

variable {caId : String}

section Table

variable {c : CertificateRow} {db : Db} {r : Revocation}

theorem listRevoked_of_room
    (h : db.certificates.countWhere (CertificateRow.onCrlOf caId) ≤ maxCrlEntries) :
    Certs.listRevoked db caId =
      .ok ((db.certificates.rows.filter (CertificateRow.onCrlOf caId)).map
        CertificateRow.crlEntry) := by
  have hlength : (db.certificates.rows.filter (CertificateRow.onCrlOf caId)).length ≤
      maxCrlEntries := by
    rw [← countP_eq_length_filter]
    exact h
  simp only [Certs.listRevoked]
  rw [take_of_length_le (by omega), length_map, if_neg (by omega)]

theorem OnCrl.lists {serial : List UInt8} {revoked : List RevokedEntry}
    (hserial : c.serialNumber = hexEncode serial) (h : OnCrl c db)
    (hreads : Reads db c.caId revoked) : Lists serial revoked := by
  obtain ⟨rows, now, hrows, rfl⟩ := hreads
  obtain ⟨c', hc', hfixed, hstatus⟩ := h.revoked
  have hca : c'.caId = c.caId := (congrArg CertificateRow.caId hfixed :)
  have hdecode : decodeHex c'.serialNumber = .ok serial := by
    have hsame : c'.serialNumber = c.serialNumber :=
      (congrArg CertificateRow.serialNumber hfixed :)
    rw [hsame, hserial, decodeHex_hexEncode]
  have hentry : c'.crlEntry.revokedEntry now = some
      ⟨serial, c'.revokedAt.getD now, c'.revocationReason.bind u8TryFrom⟩ := by
    simp only [CrlEntry.revokedEntry, CertificateRow.crlEntry, hdecode]
  have hlisted : c' ∈ db.certificates.rows.filter (CertificateRow.onCrlOf c.caId) :=
    mem_filter.mpr ⟨hc', by simp [CertificateRow.onCrlOf, hstatus, hca]⟩
  cases (listRevoked_of_room h.room).symm.trans hrows
  exact ⟨_, mem_filterMap.mpr ⟨_, mem_map_of_mem hlisted, hentry⟩, rfl⟩

theorem Known.revoke (h : Known c db) :
    Known c (Certs.revoke db r.certId r.reason r.now r.scope).1 := by
  obtain ⟨c', hc', hfixed⟩ := h
  refine ⟨_, mem_map.mpr ⟨c', hc', rfl⟩, ?_⟩
  split <;> exact hfixed

theorem room_of_revoke
    (hroom : db.certificates.countWhere (CertificateRow.onCrlOf caId) ≤ maxCrlEntries)
    (htimely : RoomFor db r) :
    (Certs.revoke db r.certId r.reason r.now r.scope).1.certificates.countWhere
      (CertificateRow.onCrlOf caId) ≤ maxCrlEntries := by
  set revoked : CertificateRow → CertificateRow := fun c ↦
    { c with status := .revoked, revokedAt := some r.now, revocationReason := r.reason }
  have hle := db.certificates.countWhere_updateWhere_le (Certs.revocable r.certId r.scope)
    (CertificateRow.onCrlOf caId) revoked fun _ ↦ rfl
  by_cases hhit : ∃ c ∈ db.certificates.rows,
      Certs.revocable r.certId r.scope c = true ∧ c.caId = caId
  · obtain ⟨c, hc, hrevocable, rfl⟩ := hhit
    have hlt := htimely c hc hrevocable
    have hone : db.certificates.countWhere (fun d ↦ Certs.revocable r.certId r.scope d &&
        CertificateRow.onCrlOf c.caId (revoked d)) ≤ 1 := by
      refine countWhere_le_one (k := r.certId) fun d hd ↦ ?_
      simp only [Certs.revocable, Bool.and_eq_true, beq_iff_eq] at hd
      exact hd.1.1.1
    exact hle.trans (by omega)
  · have hzero : db.certificates.countWhere (fun d ↦ Certs.revocable r.certId r.scope d &&
        CertificateRow.onCrlOf caId (revoked d)) = 0 := by
      refine KeyedTable.countWhere_eq_zero_iff.mpr fun d hd hboth ↦ hhit ⟨d, hd, ?_⟩
      simp only [Bool.and_eq_true, CertificateRow.onCrlOf, beq_iff_eq] at hboth
      exact ⟨hboth.1, hboth.2.2⟩
    exact hle.trans (by omega)

theorem OnCrl.revoke (h : OnCrl c db)
    (htimely : RoomFor db r) : OnCrl c (Certs.revoke db r.certId r.reason r.now r.scope).1 where
  revoked := by
    obtain ⟨c', hc', hfixed, hstatus⟩ := h.revoked
    refine ⟨c', mem_map.mpr ⟨c', hc', if_neg ?_⟩, hfixed, hstatus⟩
    simp [Certs.revocable, hstatus]
  room := room_of_revoke h.room htimely

theorem OnCrl.of_revoke (h : Known c db) (hid : r.certId = c.id)
    (hhit : (Certs.revoke db r.certId r.reason r.now r.scope).2 = true)
    (htimely : RoomFor db r) : OnCrl c (Certs.revoke db r.certId r.reason r.now r.scope).1 := by
  have hcount : db.certificates.countWhere (Certs.revocable r.certId r.scope) ≠ 0 := by
    simpa [Certs.revoke] using hhit
  obtain ⟨d, hd, hrevocable⟩ := KeyedTable.countWhere_ne_zero_iff.mp hcount
  obtain ⟨c', hc', hfixed⟩ := h
  have hdid : d.id = r.certId := by
    simp only [Certs.revocable, Bool.and_eq_true, beq_iff_eq] at hrevocable
    exact hrevocable.1.1
  have hsame : c' = d := by
    refine db.certificates.eq_of_mem_of_key_eq hc' hd ?_
    exact (congrArg CertificateRow.id hfixed :).trans (hid.symm.trans hdid.symm)
  subst hsame
  refine ⟨⟨_, mem_map.mpr ⟨c', hc', if_pos hrevocable⟩, hfixed, rfl⟩, ?_⟩
  refine room_of_revoke (le_of_lt ?_) htimely
  have hca : c'.caId = c.caId := (congrArg CertificateRow.caId hfixed :)
  exact hca ▸ htimely c' hc' hrevocable

end Table

/-! ## Revocations on their way -/

def Task.Sound (c : CertificateRow) (db : Db) : Task → Prop
  | .revoke r caId => r.certId = c.id → ∀ id ∈ caId, id = c.caId
  | .locate certId => certId = c.id → OnCrl c db
  | .invalidate certId caId => certId = c.id → OnCrl c db ∧ ∀ id ∈ caId, id = c.caId
  | _ => True

def Sound (c : CertificateRow) : Pool State Task → Prop :=
  Asserted (fun sh ↦ Known c sh.db) fun sh task ↦ task.Sound c sh.db

section Revocations

variable {env : Env} {lib : CrlLibrary} {sh : State} {s : Pool State Task} {now : Int}
  {task : Task} {c : CertificateRow} {e : Move Arrival Int} {db : Db}

theorem Task.Sound.mono {db' : Db} (h : task.Sound c db) (hkept : OnCrl c db → OnCrl c db') :
    task.Sound c db' := by
  cases task with
  | locate => exact fun hid ↦ hkept (h hid)
  | invalidate => exact fun hid ↦ ⟨hkept (h hid).1, (h hid).2⟩
  | _ => exact h

theorem arrive_db (sh : State) (a : Arrival) : (arrive sh a).shared.db = sh.db := by
  cases a with
  | revokeCert | postRevoke => simp only [arrive, begun_shared]
  | _ => rfl

theorem act_db : (task.act env lib sh now).shared.db = sh.db ∨ ∃ r caId, task = .revoke r caId ∧
    (task.act env lib sh now).shared.db =
      (Certs.revoke sh.db r.certId r.reason r.now r.scope).1 := by
  cases task with
  | revoke r caId =>
    refine .inr ⟨r, caId, rfl, ?_⟩
    simp only [Task.act]
    split <;> rfl
  | lookup | list | sign =>
    simp only [Task.act]
    repeat' split
    all_goals exact .inl rfl
  | _ => exact .inl rfl

theorem OnCrl.act (h : OnCrl c s.shared.db) (htimely : task.Timely env s) :
    OnCrl c (task.act env lib s.shared now).shared.db := by
  rcases @act_db env lib s.shared now task with hdb | ⟨r, caId, rfl, hdb⟩
  · exact hdb ▸ h
  · exact hdb ▸ h.revoke htimely

theorem Known.act (h : Known c sh.db) : Known c (task.act env lib sh now).shared.db := by
  rcases @act_db env lib sh now task with hdb | ⟨r, caId, rfl, hdb⟩
  · exact hdb ▸ h
  · exact hdb ▸ h.revoke

theorem OnCrl.step (h : OnCrl c s.shared.db) (htimely : Timely env s e) :
    OnCrl c ((system env lib).step s e).1.shared.db := by
  rw [System.step_shared]
  refine System.result_rule h (fun a _ ↦ arrive_db s.shared a ▸ h) ?_
  rintro i now task rfl htask
  exact h.act (htimely task htask)

theorem Known.caId_eq {d : CertificateRow} (h : Known c db) (hd : d ∈ db.certificates.rows)
    (hid : d.id = c.id) : d.caId = c.caId := by
  obtain ⟨c', hc', hfixed⟩ := h
  have hsame : d = c' := db.certificates.eq_of_mem_of_key_eq hd hc'
    (hid.trans (congrArg CertificateRow.id hfixed :).symm)
  exact hsame ▸ (congrArg CertificateRow.caId hfixed :)

theorem revocation_of_begin {accountId : Option String} {keyMatches : Bool} {serial : String}
    {reason : Option ℕ} {ts : List Akamu.Task} {r : Revocation}
    (h : beginRevokeCert db now accountId keyMatches caId serial reason = .ok ts)
    (hr : r ∈ ts.filterMap Task.revocation?) :
    ∃ d ∈ db.certificates.rows, d.id = r.certId ∧ d.caId = caId := by
  simp only [beginRevokeCert] at h
  split at h
  · cases h
  cases hfind : Certs.getBySerial db serial with
  | none => simp [hfind] at h
  | some d =>
    simp only [hfind] at h
    by_cases hca : d.caId ≠ caId
    · simp [hca] at h
    refine ⟨d, mem_of_find?_eq_some hfind, ?_, not_not.mp hca⟩
    repeat' split at h
    all_goals cases h
    all_goals simp [Task.revocation?] at hr
    all_goals rw [hr]

theorem sound_of_arrive {a : Arrival} (hknown : Known c sh.db)
    (htask : task ∈ (arrive sh a).next) : task.Sound c sh.db := by
  cases a with
  | getCrl =>
    cases mem_singleton.mp htask
    trivial
  | revokeCert =>
    obtain ⟨ts, hbegin, r, hr, rfl⟩ := mem_begun htask
    rintro hid id ⟨⟩
    obtain ⟨d, hd, hdid, rfl⟩ := revocation_of_begin hbegin hr
    exact hknown.caId_eq hd (hdid.trans hid)
  | postRevoke =>
    obtain ⟨ts, -, r, -, rfl⟩ := mem_begun htask
    rintro hid id ⟨⟩
  | postCrlForce | elapse => cases htask

theorem Task.Sound.act {task' : Task} (hknown : Known c s.shared.db)
    (h : task.Sound c s.shared.db) (htimely : task.Timely env s)
    (hnext : task' ∈ (task.act env lib s.shared now).next) :
    task'.Sound c (task.act env lib s.shared now).shared.db := by
  cases task with
  | lookup =>
    simp only [Task.act] at hnext
    repeat' split at hnext
    all_goals cases hnext
    · trivial
    · rename_i hmem
      cases hmem
  | list | sign =>
    simp only [Task.act] at hnext
    split at hnext
    · cases hnext
    · cases mem_singleton.mp hnext
      trivial
  | revoke r caId =>
    simp only [Task.act] at hnext ⊢
    split at hnext
    · rename_i hhit
      have hlisted : r.certId = c.id →
          OnCrl c (Certs.revoke s.shared.db r.certId r.reason r.now r.scope).1 := fun hid ↦
        OnCrl.of_revoke hknown hid hhit htimely
      rw [if_pos hhit]
      cases mem_singleton.mp hnext
      cases caId with
      | none => exact hlisted
      | some => exact fun hid ↦ ⟨hlisted hid, h hid⟩
    · cases hnext
  | locate =>
    cases mem_singleton.mp hnext
    intro hid
    refine ⟨h hid, fun id hmem ↦ ?_⟩
    obtain ⟨d, hd, rfl⟩ := map_eq_some_iff.mp hmem
    exact hknown.caId_eq (mem_of_find? hd) ((key_of_find? hd).trans hid)
  | store | invalidate => cases hnext

theorem Sound.step (h : Sound c s) (htimely : Timely env s e) :
    Sound c ((system env lib).step s e).1 := by
  refine Asserted.step h (fun a _ ↦ ?_) fun i now task he htask hsound ↦ ?_
  · have hdb := arrive_db s.shared a
    exact ⟨hdb ▸ h.shared, fun task htask ↦ hdb.symm ▸ htask, fun task htask ↦
      hdb.symm ▸ sound_of_arrive h.shared htask⟩
  · subst he
    have htask' : task.Timely env s := htimely task htask
    exact ⟨h.shared.act, fun t ht ↦ ht.mono fun hlisted ↦ hlisted.act htask',
      fun t ht ↦ hsound.act h.shared htask' ht⟩

end Revocations

/-! ## Freshness -/

section Fresh

variable {env : Env} {lib : CrlLibrary} {s : Pool State Task} {e : Move Arrival Int}
  {c : CertificateRow} {serial : List UInt8}

theorem exists_buildCrl (hsigns : ∀ ca tbs, ∃ signature, lib.signTbs ca tbs = .ok signature)
    (ca : CaState) (revoked : List RevokedEntry) (now : Int) :
    ∃ crl, buildCrl lib ca revoked now = .ok crl := by
  obtain ⟨signature, hsignature⟩ := hsigns ca _
  exact ⟨_, congrArg (Except.map _) hsignature⟩

theorem arrive_output {a : Arrival} {sh : State} {output : Output}
    (h : (arrive sh a).output = some output) : ∃ e, output = .refused e := by
  cases a with
  | revokeCert | postRevoke =>
    simp only [arrive, begun] at h
    split at h
    · exact ⟨_, (some.inj h).symm⟩
    · cases h
  | _ => cases h

theorem act_of_output {output : Output} (hrefused : ∀ e, output ≠ .refused e)
    (h : ((system env lib).step s e).2 = some output) :
    ∃ i now task, e = .advance i now ∧ s.tasks[i]? = some task ∧
      (task.act env lib s.shared now).output = some output := by
  rw [System.step_output] at h
  revert h
  refine System.result_rule (fun h ↦ ?_) (fun a _ h ↦ ?_) fun i now task he htask h ↦ ?_
  · cases h
  · obtain ⟨err, herr⟩ := arrive_output h
    exact absurd herr (hrefused err)
  · exact ⟨i, now, task, he, htask, h⟩

theorem invalidate_of_revoked {task : Task} {certId : String} {now : Int} {sh : State}
    (h : (task.act env lib sh now).output = some (.revoked certId)) :
    ∃ scope, task = .invalidate certId scope := by
  cases task with
  | invalidate id scope =>
    cases h
    exact ⟨scope, rfl⟩
  | lookup | list | sign | revoke =>
    simp only [Task.act] at h
    repeat' split at h
    all_goals cases h
  | store | locate => cases h

theorem reflects_of_revoked (hserial : c.serialNumber = hexEncode serial) (hsound : Sound c s)
    (htimely : Timely env s e) (h : ((system env lib).step s e).2 = some (.revoked c.id)) :
    signsLocally env c.caId = true ∧
      ReadThrough.Reflects (OnCrl c) (Lists serial) c.caId
        (view ((system env lib).step s e).1) := by
  obtain ⟨i, now, task, rfl, htask, hout⟩ := act_of_output (by simp) h
  obtain ⟨scope, rfl⟩ := invalidate_of_revoked hout
  obtain ⟨hlisted, hscope⟩ := hsound.tasks _ (mem_of_getElem? htask) rfl
  obtain ⟨c', hc', hfixed⟩ := hsound.shared
  have hid : c'.id = c.id := (congrArg CertificateRow.id hfixed :)
  have hca : c'.caId = c.caId := (congrArg CertificateRow.caId hfixed :)
  obtain ⟨hlocal, hidle⟩ := htimely _ htask c' (hid ▸ find?_of_mem hc')
  rw [hca] at hlocal hidle
  refine ⟨hlocal, .of_evict (view_step env lib s _) (fun db v ↦ OnCrl.lists hserial) hlisted
    (hlisted.step htimely) ?_ ?_⟩
  · rintro revoked ⟨task, hmem, hcarries⟩
    have hrebuilds := any_eq_false.mp hidle task hmem
    cases task with
    | sign | store => exact hrebuilds (by simpa [Task.rebuilds] using hcarries.1)
    | _ => exact hcarries
  · rintro revoked ⟨entry, hentry, -⟩
    simp only [System.step_shared, System.result, htask, elim_some] at hentry
    obtain ⟨-, hother⟩ := mem_invalidateCrlCache hentry
    cases scope with
    | none => cases hentry
    | some id => exact hother id rfl (hscope id rfl).symm

theorem lists_of_reflects (hsigns : ∀ ca tbs, ∃ signature, lib.signTbs ca tbs = .ok signature)
    (hlocal : signsLocally env c.caId = true)
    (h : ReadThrough.Reflects (OnCrl c) (Lists serial) c.caId (view s))
    {answer : Except AcmeError Crl}
    (hanswer : ((system env lib).step s e).2 = some (.crl c.caId answer)) :
    ∃ crl, answer = .ok crl ∧ Lists serial crl.tbs.revoked := by
  obtain ⟨i, now, task, rfl, htask, hout⟩ := act_of_output (by simp) hanswer
  have hmem : task ∈ s.tasks := mem_of_getElem? htask
  cases task with
  | lookup id =>
    simp only [Task.act] at hout
    cases hca : env.config.getCa id with
    | none =>
      simp only [hca] at hout
      cases hout
      simp [signsLocally, hca] at hlocal
    | some =>
      simp only [hca] at hout
      split at hout
      · rename_i hdogtag
        cases hout
        simp [signsLocally, hca, hdogtag] at hlocal
      · split at hout
        · rename_i entry hentry
          cases hout
          exact ⟨entry.1, rfl, h.cached _ ⟨entry, (filter_eq_some_iff.mp hentry).1, rfl⟩⟩
        · cases hout
  | list =>
    simp only [Task.act] at hout
    split at hout
    · rename_i err herr
      cases hout
      cases (listRevoked_of_room h.store.room).symm.trans herr
    · cases hout
  | sign id ca revoked =>
    simp only [Task.act] at hout
    split at hout
    · rename_i err herr
      obtain ⟨crl, hcrl⟩ := exists_buildCrl hsigns ca revoked now
      cases hcrl.symm.trans herr
    · cases hout
  | store id ca crl =>
    cases hout
    exact ⟨crl, rfl, h.filling _ ⟨_, hmem, rfl, rfl⟩⟩
  | revoke =>
    simp only [Task.act] at hout
    split at hout <;> cases hout
  | locate | invalidate => cases hout

/-- However requests and revocations interleave, as long as no rebuild of a CA's
list is under way when a revocation clears that CA's cache: once a revocation has
returned, every answer for its CA is a list with the serial on it, whether the
request came after the revocation or was open already. -/
theorem crl_lists_revoked
    (hsigns : ∀ ca tbs, ∃ signature, lib.signTbs ca tbs = .ok signature)
    {db : Db} (hc : c ∈ db.certificates.rows) (hserial : c.serialNumber = hexEncode serial)
    {es fs : List (Move Arrival Int)} {f : Move Arrival Int}
    (hmeets : Meets (system env lib).step (Timely env) (boot db) (es ++ e :: fs))
    (hrevoked : ((system env lib).step (run (system env lib).step (boot db) es) e).2 =
      some (.revoked c.id))
    {answer : Except AcmeError Crl}
    (hanswer : ((system env lib).step (run (system env lib).step (boot db) (es ++ e :: fs)) f).2 =
      some (.crl c.caId answer)) : ∃ crl, answer = .ok crl ∧ Lists serial crl.tbs.revoked := by
  obtain ⟨hes, htimely, hfs⟩ := meets_append.mp hmeets
  have hboot : Sound c (boot db) := ⟨⟨c, hc, rfl⟩, fun task htask ↦ by cases htask⟩
  have hsound : Sound c (run (system env lib).step (boot db) es) :=
    hes.invariant (Sound c) hboot fun s e h hok ↦ h.step hok
  obtain ⟨hlocal, hreflects⟩ := reflects_of_revoked hserial hsound htimely hrevoked
  rw [run_append, run_cons] at hanswer
  refine lists_of_reflects hsigns hlocal ?_ hanswer
  exact hreflects.run (view_step env lib) (fun db v ↦ OnCrl.lists hserial)
    (fun s e (h : Sound c s) hok ↦ h.step hok) (fun s e _ hok h ↦ OnCrl.step h hok) hfs
    (hsound.step htimely)

end Fresh

def sampleEnv : Env := ⟨.plain, .plain⟩

def sampleSigner : CrlLibrary := ⟨fun _ _ ↦ .ok []⟩

def sampleStep : Pool State Task → Move Arrival Int → Pool State Task × Option Output :=
  (system sampleEnv sampleSigner).step

def sampleRun (es : List (Move Arrival Int)) : Pool State Task :=
  run sampleStep (boot issuedByCa) es

def overtakenEvents : List (Move Arrival Int) :=
  [.arrive (.getCrl "ca"), .advance 0 0, .advance 0 1, .arrive (.postRevoke "cert-1" 1 none 2),
    .advance 1 2, .advance 1 3]

/-- The revocation returns, the rebuild stores the list it has, and the next
request is answered with it. -/
theorem crl_omits_revoked :
    (sampleStep (sampleRun overtakenEvents) (.advance 1 4)).2 = some (.revoked "cert-1") ∧
      (sampleStep (sampleRun (overtakenEvents ++ .advance 1 4 ::
          [.advance 0 5, .advance 0 6, .arrive (.getCrl "ca")])) (.advance 0 7)).2 =
        some (.crl "ca" (.ok ⟨⟨[], 5, 86405, [], 5⟩, []⟩)) ∧
      ¬ Lists [10] [] := by
  refine ⟨by decide +kernel, by decide +kernel, ?_⟩
  rintro ⟨entry, hentry, -⟩
  cases hentry

/-- The list from before is in the cache when the owner revokes the certificate. -/
def revokedEvents : List (Move Arrival Int) :=
  [.arrive (.getCrl "ca"), .advance 0 0, .advance 0 1, .advance 0 2, .advance 0 3,
    .arrive (.revokeCert (some "acct-1") false "ca" "0a" (some 1) 4), .advance 0 4]

theorem crl_lists_after_revoke :
    (sampleStep (sampleRun revokedEvents) (.advance 0 5)).2 = some (.revoked "cert-1") ∧
      ∃ crl, (sampleStep (sampleRun (revokedEvents ++ .advance 0 5 ::
          [.arrive (.getCrl "ca"), .advance 0 6, .advance 0 7, .advance 0 8])) (.advance 0 9)).2 =
        some (.crl "ca" (.ok crl)) ∧ Lists [10] crl.tbs.revoked := by
  have hrevoked : (sampleStep (sampleRun revokedEvents) (.advance 0 5)).2 =
      some (.revoked "cert-1") := by decide +kernel
  have hanswer : (sampleStep (sampleRun (revokedEvents ++ .advance 0 5 ::
      [.arrive (.getCrl "ca"), .advance 0 6, .advance 0 7, .advance 0 8])) (.advance 0 9)).2 =
      some (.crl "ca" (.ok ⟨⟨[], 8, 86408, [⟨[10], 4, some 1⟩], 8⟩, []⟩)) := by decide +kernel
  obtain ⟨crl, hcrl, hlists⟩ := @crl_lists_revoked sampleEnv sampleSigner _
    { id := "cert-1", orderId := "order-1", accountId := "acct-1", serialNumber := "0a"
      status := .valid, notBefore := 0, notAfter := 1000, revokedAt := none
      revocationReason := none, created := 0, replacedBy := none, caId := "ca" } [10]
    (fun _ _ ↦ ⟨[], rfl⟩) issuedByCa (by decide) (by decide) revokedEvents
    [.arrive (.getCrl "ca"), .advance 0 6, .advance 0 7, .advance 0 8] (.advance 0 9)
    (by decide +kernel) hrevoked _ hanswer
  cases hcrl
  exact ⟨hrevoked, _, hanswer, hlists⟩

end CrlServer

end Akamu
