import Akamu.Routes.Authentication

/-!
# The account key cache

Who is accepted after an account has been deactivated or has changed its key.
A call that has read the row may put it into the cache after the eviction.
-/

namespace Akamu

open KeyedTable List Machine Option Tasks

namespace AuthServer

/-! ## The side condition -/

def Task.fills (id : String) : Task → Bool
  | .insert _ id' _ => id' == id
  | _ => false

/-- A handler evicts an account while no call is about to insert it, and a key
change installs a key that the account has not had. -/
def Task.Timely (s : Pool State Task) : Task → Prop
  | .evict id _ => s.tasks.any (Task.fills id) = false
  | .write (.updateKey id publicKey _ _) _ => (id, publicKey) ∉ s.shared.replaced ∧
      ∀ row ∈ s.shared.db.accounts.find? id, row.publicKey ≠ publicKey
  | _ => True

instance (s : Pool State Task) (task : Task) : Decidable (task.Timely s) := by
  unfold Task.Timely
  split <;> infer_instance

def Timely (s : Pool State Task) : Move Arrival Int → Prop
  | .advance i _ => ∀ task ∈ s.tasks[i]?, task.Timely s
  | _ => True

instance (s : Pool State Task) (e : Move Arrival Int) : Decidable (Timely s e) := by
  unfold Timely
  split <;> infer_instance

/-! ## What a step can do -/

/-- The effect of one step of a task. -/
inductive Moves (lib : JoseLibrary) (sh : State) : Task → Result State Task Output → Prop where
  | idle {task} : Moves lib sh task (.idle sh)
  | reject {task number e} : Moves lib sh task (.answer sh (.rejected number e))
  | refuse {task e} : Moves lib sh task (.answer sh (.refused e))
  | hit {call id entry} (hentry : sh.spkiCache id = some entry) :
      Moves lib sh (.lookup call id)
        (.goOn sh (.verify call (some id) entry.spkiDer (some entry.jwkThumbprint)))
  | miss {call id} : Moves lib sh (.lookup call id) (.goOn sh (.load call id))
  | load {call id account} (haccount : sh.db.accounts.find? id = some account)
      (hvalid : account.status = .valid) :
      Moves lib sh (.load call id) (.goOn sh (.insert call id
        ⟨account.publicKey, account.jwkThumbprint, account.status, sh.clock⟩))
  | insert {call id entry} : Moves lib sh (.insert call id entry)
      (.goOn { sh with spkiCache := Function.update sh.spkiCache id (some entry) }
        (.verify call (some id) entry.spkiDer (some entry.jwkThumbprint)))
  | accept {call id spkiDer jwkThumbprint ctx} (hid : ctx.accountId = id)
      (hkey : ctx.spkiDer = spkiDer) (hverify : lib.verify call.jws spkiDer = .ok ()) :
      Moves lib sh (.verify call id spkiDer jwkThumbprint)
        ⟨sh, [.handle call ctx], some (.accepted call ctx)⟩
  /-- The handlers change the key of the account that signed, and of no other. -/
  | handle {call ctx} {ws : List AccountWrite} (hws : ∀ id publicKey jwkThumbprint now,
      .updateKey id publicKey jwkThumbprint now ∈ ws → ctx.accountId = some id) :
      Moves lib sh (.handle call ctx)
        ⟨sh, ws.map fun w ↦ .write w (some ctx.spkiDer), none⟩
  | deactivate {id now byOperator signedWith} :
      Moves lib sh (.write (.deactivate id now byOperator) signedWith)
        (.goOn { sh with db := (Accounts.updateStatus sh.db id .deactivated now).1 }
          (.evict id .deactivated))
  | deactivateNone {id now byOperator signedWith} :
      Moves lib sh (.write (.deactivate id now byOperator) signedWith)
        (.answer { sh with db := (Accounts.updateStatus sh.db id .deactivated now).1 }
          (.refused .notFound))
  | updateContact {id contact now signedWith} :
      Moves lib sh (.write (.updateContact id contact now) signedWith)
        (.idle { sh with db := (Accounts.updateContact sh.db id contact now).1 })
  | updateKey {id publicKey jwkThumbprint now signedWith done}
      (hdone : Accounts.updateKey sh.db id publicKey jwkThumbprint now = .ok done) :
      Moves lib sh (.write (.updateKey id publicKey jwkThumbprint now) signedWith)
        (.goOn
          { sh with
            db := done.1
            replaced := (replacedKey sh.db id).toList.map (id, ·) ++ sh.replaced }
          (.evict id (.keyChanged (signedWith.toList ++ (replacedKey sh.db id).toList))))
  | evict {id done} : Moves lib sh (.evict id done)
      (.answer { sh with spkiCache := Function.update sh.spkiCache id none } (.done id done))

/-- What an arrival leaves as it is. -/
structure SameAccounts (sh sh' : State) : Prop where
  db : sh'.db = sh.db
  replaced : sh'.replaced = sh.replaced
  spkiCache : sh'.spkiCache = sh.spkiCache
  calls : sh.calls ≤ sh'.calls

inductive Enters (sh : State) : Result State Task Output → Prop where
  | idle {sh'} (hsame : SameAccounts sh sh') : Enters sh (.idle sh')
  | reject {sh' number e} (hsame : SameAccounts sh sh') :
      Enters sh (.answer sh' (.rejected number e))
  | lookup {sh' call id} (hsame : SameAccounts sh sh') (hnumber : call.number < sh'.calls) :
      Enters sh (.goOn sh' (.lookup call id))
  | verify {sh' call spkiDer} (hsame : SameAccounts sh sh') (hnumber : call.number < sh'.calls) :
      Enters sh (.goOn sh' (.verify call none spkiDer none))
  | deactivate {id now} : Enters sh (.goOn sh (.write (.deactivate id now true) none))

variable {r : Result State Task Output} {call : Call}

section Moves

variable {cfg : Config} {lib : JoseLibrary} {sh : State} {now : Int} {w : AccountWrite}
  {ctx : JwsContext}

theorem moves_runWrite (signedWith : Option (List UInt8)) (w : AccountWrite) :
    Moves lib sh (.write w signedWith) (runWrite sh signedWith w) := by
  cases w with
  | deactivate =>
    simp only [runWrite]
    split
    · exact .deactivateNone
    · exact .deactivate
  | updateContact => exact .updateContact
  | updateKey =>
    simp only [runWrite]
    split
    · exact .refuse
    · exact .updateKey ‹_›

theorem moves_begun {begin : Except AcmeError (List Akamu.Task)}
    (h : ∀ ts, begin = .ok ts → ∀ id publicKey jwkThumbprint now,
      .updateKey id publicKey jwkThumbprint now ∈ ts.filterMap Task.accountWrite? →
        ctx.accountId = some id) :
    Moves lib sh (.handle call ctx) (begun sh ctx.spkiDer begin) := by
  cases begin with
  | error => exact .refuse
  | ok ts => exact .handle (h ts rfl)

variable {ts : List Akamu.Task}

theorem write_of_updateAccount {id : String} {db : Db}
    (h : handleUpdateAccount lib db now id ctx = .ok ts)
    (hw : w ∈ ts.filterMap Task.accountWrite?) :
    w = .deactivate id now false ∨ ∃ contact, w = .updateContact id contact now := by
  simp only [handleUpdateAccount, beginUpdateAccount] at h
  repeat' split at h
  all_goals cases h
  all_goals simp [Task.accountWrite?] at hw
  · exact .inl hw
  · exact .inr ⟨_, hw⟩

theorem write_of_keyChange {db : Db} {caId : String}
    (h : handleKeyChange cfg lib db now caId ctx = .ok ts)
    (hw : w ∈ ts.filterMap Task.accountWrite?) :
    ∃ accountId publicKey jwkThumbprint, ctx.accountId = some accountId ∧
      w = .updateKey accountId publicKey jwkThumbprint now := by
  simp only [handleKeyChange] at h
  cases haccount : ctx.accountId with
  | none => simp [haccount] at h
  | some accountId =>
    simp only [haccount, beginKeyChange] at h
    repeat' split at h
    all_goals cases h
    simp only [filterMap_cons, Task.accountWrite?, filterMap_nil,
      mem_singleton] at hw
    exact ⟨accountId, _, _, rfl, hw⟩

theorem moves_act (cfg : Config) (lib : JoseLibrary) (sh : State) (now : Int) (task : Task) :
    Moves lib sh task (task.act cfg lib sh now) := by
  cases task with
  | lookup =>
    simp only [Task.act]
    split
    · rename_i entry hentry
      split
      · exact .reject
      · exact .hit (filter_eq_some_iff.mp hentry).1
    · exact .miss
  | load =>
    simp only [Task.act]
    split
    · exact .reject
    · rename_i account haccount
      split
      · exact .reject
      · exact .load haccount (not_not.mp ‹_›)
  | insert => exact .insert
  | verify =>
    simp only [Task.act]
    split
    · exact .reject
    · exact .reject
    · exact .accept rfl rfl ‹_›
  | handle =>
    simp only [Task.act]
    split
    · refine moves_begun fun ts hts id publicKey jwkThumbprint now hw ↦ ?_
      rcases write_of_updateAccount hts hw with heq | ⟨contact, heq⟩ <;> cases heq
    · refine moves_begun fun ts hts id publicKey jwkThumbprint now hw ↦ ?_
      obtain ⟨accountId, publicKey', jwkThumbprint', haccount, heq⟩ := write_of_keyChange hts hw
      cases heq
      exact haccount
    · exact .idle
  | write w signedWith => exact moves_runWrite signedWith w
  | evict => exact .evict

theorem beginJws_eq_ok {task : Task} {expectedUrl : String}
    (h : (beginJws cfg lib sh call expectedUrl now).2 = .ok task) :
    (∃ id, task = .lookup call id) ∨ ∃ spki, task = .verify call none spki none := by
  simp only [beginJws] at h
  repeat' split at h
  · cases h
  · cases h
  · obtain ⟨spki, -, rfl⟩ := Except.map_eq_ok h
    exact .inr ⟨spki, rfl⟩
  · obtain ⟨id, -, rfl⟩ := Except.map_eq_ok h
    exact .inl ⟨id, rfl⟩
  · cases h

theorem enters_arrive (cfg : Config) (lib : JoseLibrary) (sh : State) (a : Arrival) :
    Enters sh (arrive cfg lib sh a) := by
  cases a with
  | request =>
    simp only [arrive]
    split
    · exact .reject ⟨rfl, rfl, rfl, Nat.le_succ _⟩
    · rename_i task hbegun
      rcases beginJws_eq_ok hbegun with ⟨id, rfl⟩ | ⟨spki, rfl⟩
      · exact .lookup ⟨rfl, rfl, rfl, Nat.le_succ _⟩ (Nat.lt_succ_self _)
      · exact .verify ⟨rfl, rfl, rfl, Nat.le_succ _⟩ (Nat.lt_succ_self _)
  | postAccountDeactivate => exact .deactivate
  | newNonce | elapse => exact .idle ⟨rfl, rfl, rfl, le_rfl⟩

end Moves

/-! ## What happens to the accounts -/

def Has (sh : State) (id : String) (key : List UInt8) : Prop :=
  (id, key) ∈ sh.replaced ∨ ∀ row ∈ sh.db.accounts.find? id, row.publicKey = key

def Closed (sh : State) (id : String) : Prop :=
  ∀ row ∈ sh.db.accounts.find? id, row.status ≠ .valid

/-- While the account is valid it has another key than this one, which it had
before. -/
def Superseded (sh : State) (id : String) (key : List UInt8) : Prop :=
  ∀ row ∈ sh.db.accounts.find? id, row.status = .valid →
    (id, key) ∈ sh.replaced ∧ row.publicKey ≠ key

/-- Accounts never become valid again, and a new key is one that the account has
not had. -/
structure Evolves (sh sh' : State) : Prop where
  calls : sh.calls ≤ sh'.calls
  replaced : ∀ entry ∈ sh.replaced, entry ∈ sh'.replaced
  row : ∀ id, ∀ row' ∈ sh'.db.accounts.find? id, ∃ row ∈ sh.db.accounts.find? id,
    (row'.status = .valid → row.status = .valid) ∧
      (row'.publicKey = row.publicKey ∨ (id, row.publicKey) ∈ sh'.replaced ∧
        (id, row'.publicKey) ∉ sh.replaced)

section Evolution

variable {sh sh' : State} {id : String} {key : List UInt8}

theorem Evolves.refl (sh : State) : Evolves sh sh :=
  ⟨le_refl _, fun _ h ↦ h, fun _ row hrow ↦ ⟨row, hrow, fun h ↦ h, .inl rfl⟩⟩

theorem Evolves.of_eq (hcalls : sh.calls ≤ sh'.calls) (hdb : sh'.db = sh.db)
    (hreplaced : sh'.replaced = sh.replaced) : Evolves sh sh' :=
  ⟨hcalls, fun _ h ↦ hreplaced ▸ h, fun _ row hrow ↦ ⟨row, hdb ▸ hrow, fun h ↦ h, .inl rfl⟩⟩

theorem Has.evolves (h : Has sh id key) (hstep : Evolves sh sh') : Has sh' id key := by
  rcases h with hmem | hrow
  · exact .inl (hstep.replaced _ hmem)
  · by_cases hmem : (id, key) ∈ sh'.replaced
    · exact .inl hmem
    · refine .inr fun row' hrow' ↦ ?_
      obtain ⟨row, hfind, -, hkey⟩ := hstep.row id row' hrow'
      rcases hkey with hsame | ⟨hold, -⟩
      · exact hsame.trans (hrow row hfind)
      · exact absurd (hrow row hfind ▸ hold) hmem

theorem Closed.evolves (h : Closed sh id) (hstep : Evolves sh sh') : Closed sh' id := by
  intro row' hrow' hvalid
  obtain ⟨row, hfind, hstatus, -⟩ := hstep.row id row' hrow'
  exact h row hfind (hstatus hvalid)

theorem Superseded.evolves (h : Superseded sh id key) (hstep : Evolves sh sh') :
    Superseded sh' id key := by
  intro row' hrow' hvalid
  obtain ⟨row, hfind, hstatus, hkey⟩ := hstep.row id row' hrow'
  obtain ⟨hmem, hne⟩ := h row hfind (hstatus hvalid)
  refine ⟨hstep.replaced _ hmem, ?_⟩
  rcases hkey with hsame | ⟨-, hnew⟩
  · exact hsame ▸ hne
  · intro heq
    exact hnew (heq ▸ hmem)

end Evolution

variable {publicKey : List UInt8} {jwkThumbprint : String}

section Writes

variable {lib : JoseLibrary} {sh : State} {s : Pool State Task} {task : Task} {id : String}

theorem evolves_updateWhere {guard : AccountRow → Bool} {f : AccountRow → AccountRow}
    {hf : ∀ row, (f row).id = row.id} (hkey : ∀ row, (f row).publicKey = row.publicKey)
    (hstatus : ∀ row, (f row).status = .valid → row.status = .valid) (sh : State) :
    Evolves sh { sh with db := { sh.db with
      accounts := sh.db.accounts.updateWhere guard f hf } } := by
  refine ⟨le_refl _, fun _ h ↦ h, fun id' row' hrow' ↦ ?_⟩
  simp only [find?_updateWhere, mem_def, map_eq_some_iff] at hrow'
  obtain ⟨row, hfind, rfl⟩ := hrow'
  refine ⟨row, hfind, ?_⟩
  split
  · exact ⟨hstatus row, .inl (hkey row)⟩
  · exact ⟨fun h ↦ h, .inl rfl⟩

theorem mem_replacedKey {db : Db} {row : AccountRow} (hfind : row ∈ db.accounts.find? id)
    (hvalid : row.status = .valid) : replacedKey db id = some row.publicKey := by
  rw [replacedKey, mem_def.mp hfind]
  simp [hvalid]

theorem row_of_updateKey {db : Db} {done : Db × Bool} {id' : String} {row' : AccountRow}
    (h : Accounts.updateKey db id publicKey jwkThumbprint now = .ok done)
    (hrow' : row' ∈ done.1.accounts.find? id') :
    ∃ row ∈ db.accounts.find? id', row'.status = row.status ∧
      (row' = row ∧ (id' = id → row.status ≠ .valid) ∨
        id' = id ∧ row.status = .valid ∧ row'.publicKey = publicKey) := by
  unfold Accounts.updateKey at h
  split at h
  · cases h
  cases h
  simp only [find?_updateWhere, mem_def, map_eq_some_iff] at hrow'
  obtain ⟨row, hfind, rfl⟩ := hrow'
  have hid : row.id = id' := key_of_find? hfind
  refine ⟨row, hfind, ?_⟩
  split
  · rename_i hhit
    simp only [Accounts.isValid, Bool.and_eq_true, beq_iff_eq] at hhit
    exact ⟨rfl, .inr ⟨hid.symm.trans hhit.1, hhit.2, rfl⟩⟩
  · rename_i hmiss
    simp only [Accounts.isValid, Bool.and_eq_true, beq_iff_eq, not_and] at hmiss
    exact ⟨rfl, .inl ⟨rfl, fun heq ↦ hmiss (hid.trans heq)⟩⟩

theorem evolves_moves (h : Moves lib s.shared task r) (htimely : task.Timely s) :
    Evolves s.shared r.shared := by
  cases h with
  | deactivate | deactivateNone =>
    apply evolves_updateWhere
    · exact fun _ ↦ rfl
    · intro row hvalid
      cases hvalid
  | updateContact =>
    apply evolves_updateWhere
    · exact fun _ ↦ rfl
    · exact fun _ h ↦ h
  | updateKey hdone =>
    refine ⟨le_refl _, fun _ h ↦ mem_append_right _ h, fun id' row' hrow' ↦ ?_⟩
    obtain ⟨row, hfind, hstatus, hcases⟩ := row_of_updateKey hdone hrow'
    refine ⟨row, hfind, fun h ↦ hstatus ▸ h, ?_⟩
    rcases hcases with ⟨rfl, -⟩ | ⟨rfl, hvalid, hkey⟩
    · exact .inl rfl
    · refine .inr ⟨?_, hkey ▸ htimely.1⟩
      simp [Result.goOn, mem_replacedKey hfind hvalid]
  | insert | evict => exact .of_eq (le_refl _) rfl rfl
  | _ => exact .refl _

theorem SameAccounts.evolves {sh' : State} (h : SameAccounts sh sh') : Evolves sh sh' :=
  .of_eq h.calls h.db h.replaced

theorem Enters.same (h : Enters sh r) : SameAccounts sh r.shared := by
  cases h with
  | deactivate => exact ⟨rfl, rfl, rfl, le_rfl⟩
  | _ => assumption

end Writes

/-! ## Requests on their way -/

def Task.number? : Task → Option ℕ
  | .lookup call _ | .load call _ | .insert call _ _ | .verify call _ _ _ => some call.number
  | _ => none

def Task.Uses (task : Task) (id : String) (key : List UInt8) : Prop :=
  match task with
  | .insert _ id' entry => id' = id ∧ entry.spkiDer = key
  | .verify _ id' spkiDer _ => id' = some id ∧ spkiDer = key
  | .handle _ ctx => ctx.accountId = some id ∧ ctx.spkiDer = key
  | .write (.updateKey id' _ _ _) signedWith => id' = id ∧ signedWith = some key
  | _ => False

def Done.Achieved (sh : State) (id : String) : Done → Prop
  | .deactivated => Closed sh id
  | .keyChanged keys => ∀ key ∈ keys, Superseded sh id key

structure Task.Sound (sh : State) (task : Task) : Prop where
  number : ∀ n ∈ task.number?, n < sh.calls
  uses : ∀ id key, task.Uses id key → Has sh id key
  evict : ∀ id done, task = .evict id done → done.Achieved sh id

def State.Sound (sh : State) : Prop :=
  ∀ id, ∀ entry ∈ sh.spkiCache id, Has sh id entry.spkiDer

def Sound : Pool State Task → Prop := Asserted State.Sound Task.Sound

section Assertions

variable {cfg : Config} {lib : JoseLibrary} {sh sh' : State} {s : Pool State Task} {now : Int}
  {task task' : Task} {id : String} {signedWith : Option (List UInt8)}

theorem Done.Achieved.evolves {done : Done} (h : done.Achieved sh id) (hstep : Evolves sh sh') :
    done.Achieved sh' id := by
  cases done with
  | deactivated => exact Closed.evolves h hstep
  | keyChanged => exact fun key hkey ↦ (h key hkey).evolves hstep

theorem Task.Sound.evolves (h : task.Sound sh) (hstep : Evolves sh sh') : task.Sound sh' :=
  ⟨fun n hn ↦ (h.number n hn).trans_le hstep.calls,
    fun id key huses ↦ (h.uses id key huses).evolves hstep,
    fun id done heq ↦ (h.evict id done heq).evolves hstep⟩

theorem achieved_of_updateKey {done : Db × Bool}
    (hdone : Accounts.updateKey s.shared.db id publicKey jwkThumbprint now = .ok done)
    (htimely : (Task.write (.updateKey id publicKey jwkThumbprint now) signedWith).Timely s)
    (hsigned : ∀ key ∈ signedWith, Has s.shared id key) :
    (Done.keyChanged (signedWith.toList ++ (replacedKey s.shared.db id).toList)).Achieved
      { s.shared with
        db := done.1
        replaced := (replacedKey s.shared.db id).toList.map (id, ·) ++ s.shared.replaced } id := by
  intro key hkey row' hrow' hvalid'
  obtain ⟨row, hfind, hstatus, hcases⟩ := row_of_updateKey hdone hrow'
  have hvalid : row.status = .valid := hstatus ▸ hvalid'
  have hpublic : row'.publicKey = publicKey := by
    rcases hcases with ⟨-, hnot⟩ | ⟨-, -, hkey⟩
    · exact absurd hvalid (hnot rfl)
    · exact hkey
  have hold := mem_replacedKey hfind hvalid
  rw [hpublic]
  have hrow : key = row.publicKey →
      (id, key) ∈ (replacedKey s.shared.db id).toList.map (id, ·) ++ s.shared.replaced ∧
        publicKey ≠ key := by
    rintro rfl
    exact ⟨by simp [hold], (htimely.2 row hfind).symm⟩
  rcases mem_append.mp hkey with hsign | hmem
  · rcases hsigned key (mem_toList.mp hsign) with hreplaced | hcurrent
    · exact ⟨mem_append_right _ hreplaced, fun heq ↦ htimely.1 (heq ▸ hreplaced)⟩
    · exact hrow (hcurrent row hfind).symm
  · rw [hold] at hmem
    exact hrow (mem_singleton.mp hmem)

theorem sound_of_moves (hmoves : Moves lib s.shared task r) (hshared : s.shared.Sound)
    (h : task.Sound s.shared) (htimely : task.Timely s) :
    ∀ task' ∈ r.next, task'.Sound r.shared := by
  have hevict : ∀ id done sh, done.Achieved sh id → (Task.evict id done).Sound sh := by
    intro id done sh hdone
    refine ⟨nofun, nofun, fun id' done' heq ↦ ?_⟩
    cases heq
    exact hdone
  cases hmoves with
  | hit hentry =>
    refine forall_mem_singleton.mpr ⟨h.number, ?_, nofun⟩
    rintro id' key ⟨⟨⟩, rfl⟩
    exact hshared _ _ hentry
  | miss => exact forall_mem_singleton.mpr ⟨h.number, nofun, nofun⟩
  | load haccount =>
    refine forall_mem_singleton.mpr ⟨h.number, ?_, nofun⟩
    rintro id' key ⟨rfl, rfl⟩
    refine .inr fun row hrow ↦ ?_
    cases haccount.symm.trans hrow
    rfl
  | insert =>
    refine forall_mem_singleton.mpr ⟨h.number, ?_, nofun⟩
    rintro id' key ⟨⟨⟩, rfl⟩
    exact h.uses _ _ ⟨rfl, rfl⟩
  | accept hid hkey =>
    subst hid hkey
    exact forall_mem_singleton.mpr ⟨nofun, fun id' key huses ↦ h.uses id' key huses, nofun⟩
  | handle hws =>
    intro task' htask'
    obtain ⟨w, hw, rfl⟩ := mem_map.mp htask'
    refine ⟨nofun, fun id key huses ↦ ?_, nofun⟩
    cases w with
    | updateKey =>
      obtain ⟨rfl, hkey⟩ := huses
      exact h.uses _ _ ⟨hws _ _ _ _ hw, some.inj hkey⟩
    | _ => exact huses.elim
  | @deactivate id =>
    refine forall_mem_singleton.mpr (hevict id _ _ fun row' hrow' ↦ ?_)
    simp only [Result.goOn, Accounts.updateStatus, find?_updateWhere,
      mem_def, map_eq_some_iff] at hrow'
    obtain ⟨row, hfind, rfl⟩ := hrow'
    have hid : row.id = id := key_of_find? hfind
    simp [hid]
  | @updateKey id _ _ _ _ _ hdone =>
    exact forall_mem_singleton.mpr (hevict id _ _ (achieved_of_updateKey hdone htimely
      fun key hkey ↦ h.uses id key ⟨rfl, hkey⟩))
  | _ => exact fun _ hnext ↦ absurd hnext not_mem_nil

theorem cached_of_moves {entry : CachedAccount} (hmoves : Moves lib sh task r)
    (h : entry ∈ r.shared.spkiCache id) :
    entry ∈ sh.spkiCache id ∨ ∃ call, task = .insert call id entry := by
  cases hmoves with
  | @insert call id' entry' =>
    simp only [Result.goOn] at h
    by_cases heq : id = id'
    · subst heq
      obtain rfl : entry' = entry := by simpa using h
      exact .inr ⟨call, rfl⟩
    · exact .inl (by simpa [Function.update, heq] using h)
  | @evict id' =>
    simp only [Result.answer] at h
    by_cases heq : id = id'
    · simp [heq] at h
    · exact .inl (by simpa [Function.update, heq] using h)
  | _ => exact .inl h

theorem State.Sound.moves (hshared : s.shared.Sound) (h : task.Sound s.shared)
    (hmoves : Moves lib s.shared task r) (htimely : task.Timely s) : r.shared.Sound := by
  intro id entry hentry
  refine Has.evolves ?_ (evolves_moves hmoves htimely)
  rcases cached_of_moves hmoves hentry with hold | ⟨call, rfl⟩
  · exact hshared id entry hold
  · exact h.uses id _ ⟨rfl, rfl⟩

theorem sound_of_enters (h : Enters sh r) : ∀ task ∈ r.next, task.Sound r.shared := by
  cases h with
  | lookup _ hnumber | verify _ hnumber =>
    refine forall_mem_singleton.mpr ⟨fun n hn ↦ ?_, nofun, nofun⟩
    cases hn
    exact hnumber
  | deactivate => exact forall_mem_singleton.mpr ⟨nofun, nofun, nofun⟩
  | _ => exact fun _ hnext ↦ absurd hnext not_mem_nil

variable {e : Move Arrival Int}

theorem Sound.step (h : Sound s) (htimely : Timely s e) : Sound ((system cfg lib).step s e).1 := by
  refine Asserted.step h (fun a _ ↦ ?_) fun i now task he htask hsound ↦ ?_
  · have henters := enters_arrive cfg lib s.shared a
    have hstep := henters.same.evolves
    refine ⟨fun id entry hentry ↦ ?_, fun task htask ↦ htask.evolves hstep,
      sound_of_enters henters⟩
    have hold : entry ∈ s.shared.spkiCache id := henters.same.spkiCache ▸ hentry
    exact (h.shared id entry hold).evolves hstep
  · subst he
    have htask' : task.Timely s := htimely task htask
    have hmoves := moves_act cfg lib s.shared now task
    exact ⟨h.shared.moves hsound hmoves htask', fun t ht ↦
      ht.evolves (evolves_moves hmoves htask'), sound_of_moves hmoves h.shared hsound htask'⟩

theorem evolves_step (htimely : Timely s e) :
    Evolves s.shared ((system cfg lib).step s e).1.shared := by
  rw [System.step_shared]
  refine System.result_rule (.refl _) (fun a _ ↦ ?_) ?_
  · exact (enters_arrive cfg lib s.shared a).same.evolves
  · rintro i now task rfl htask
    exact evolves_moves (moves_act cfg lib s.shared now task) (htimely task htask)

end Assertions

/-! ## The cache as a read-through cache -/

/-- What a call that misses the cache may get from the table. -/
def Reads (sh : State) (id : String) (key : List UInt8) : Prop :=
  ∃ row ∈ sh.db.accounts.find? id, row.status = .valid ∧ row.publicKey = key

def State.Cached (sh : State) (id : String) (key : List UInt8) : Prop :=
  ∃ entry ∈ sh.spkiCache id, entry.spkiDer = key

def Task.Carries (task : Task) (id : String) (key : List UInt8) : Prop :=
  ∃ call entry, task = .insert call id entry ∧ entry.spkiDer = key

def view (s : Pool State Task) : ReadThrough.State State String (List UInt8) :=
  ReadThrough.view (fun sh ↦ sh) State.Cached Task.Carries s

section Simulation

variable {lib : JoseLibrary} {sh : State} {task task' : Task} {id : String} {key : List UInt8}

theorem not_carries_of_enters (h : Enters sh r) : ∀ task ∈ r.next, ¬ task.Carries id key := by
  rintro _ hnext ⟨call, entry, rfl, -⟩
  cases h with
  | lookup | verify | deactivate => cases mem_singleton.mp hnext
  | _ => cases hnext

theorem reads_of_moves (hmoves : Moves lib sh task r) (hnext : task' ∈ r.next)
    (h : task'.Carries id key) : Reads sh id key := by
  obtain ⟨call, entry, rfl, rfl⟩ := h
  cases hmoves with
  | load haccount hvalid =>
    cases mem_singleton.mp hnext
    exact ⟨_, haccount, hvalid, rfl⟩
  | handle =>
    obtain ⟨w, -, heq⟩ := mem_map.mp hnext
    cases heq
  | hit | miss | insert | accept | deactivate | updateKey => cases mem_singleton.mp hnext
  | _ => cases hnext

theorem view_step (cfg : Config) (lib : JoseLibrary) (s : Pool State Task)
    (e : Move Arrival Int) :
    ReadThrough.Step Reads (view s) (view ((system cfg lib).step s e).1) := by
  refine ReadThrough.view_step (fun sh a task id key hnext ↦ ?_) ?_
    (fun sh task now task' id key hnext hcarries ↦ .inr ?_) ?_ s e
  · exact not_carries_of_enters (enters_arrive cfg lib sh a) task hnext
  · rintro sh a id key ⟨entry, hentry, rfl⟩
    exact ⟨entry, (enters_arrive cfg lib sh a).same.spkiCache ▸ hentry, rfl⟩
  · exact reads_of_moves (moves_act cfg lib sh now task) hnext hcarries
  · rintro sh task now id key ⟨entry, hentry, rfl⟩
    rcases cached_of_moves (moves_act cfg lib sh now task) hentry with hold | ⟨call, rfl⟩
    · exact .inl ⟨entry, hold, rfl⟩
    · exact .inr ⟨call, entry, rfl, rfl⟩

end Simulation

/-! ## Calls that begin after the handler has returned -/

/-- A call from the `n`-th on takes only good keys for the account's. -/
def Task.Fresh (id : String) (good : List UInt8 → Prop) (n : ℕ) (task : Task) : Prop :=
  ∀ m ∈ task.number?, n ≤ m → ∀ key, task.Uses id key → good key

section Calls

variable {cfg : Config} {lib : JoseLibrary} {s : Pool State Task} {task : Task}
  {id : String} {good : List UInt8 → Prop} {holds : State → Prop} {n : ℕ}

theorem fresh_of_enters {sh : State} (h : Enters sh r) : ∀ task ∈ r.next, task.Fresh id good n := by
  cases h with
  | lookup => exact forall_mem_singleton.mpr fun _ _ _ _ huses ↦ huses.elim
  | verify =>
    refine forall_mem_singleton.mpr ?_
    rintro - - - key ⟨⟨⟩, -⟩
  | deactivate => exact forall_mem_singleton.mpr nofun
  | _ => exact fun _ hnext ↦ absurd hnext not_mem_nil

theorem Task.Fresh.moves (hmoves : Moves lib s.shared task r)
    (hreads : ∀ key, Reads s.shared id key → good key)
    (hcached : ∀ key, s.shared.Cached id key → good key) (h : task.Fresh id good n) :
    ∀ task' ∈ r.next, task'.Fresh id good n := by
  cases hmoves with
  | hit hentry =>
    refine forall_mem_singleton.mpr ?_
    rintro - - - key ⟨⟨⟩, rfl⟩
    exact hcached _ ⟨_, hentry, rfl⟩
  | miss => exact forall_mem_singleton.mpr fun _ _ _ _ huses ↦ huses.elim
  | load haccount hvalid =>
    refine forall_mem_singleton.mpr ?_
    rintro - - - key ⟨rfl, rfl⟩
    exact hreads _ ⟨_, haccount, hvalid, rfl⟩
  | insert =>
    refine forall_mem_singleton.mpr fun m hm hle key huses ↦ ?_
    exact h m hm hle key ⟨some.inj huses.1, huses.2⟩
  | accept | deactivate | updateKey => exact forall_mem_singleton.mpr nofun
  | handle =>
    intro task' htask'
    obtain ⟨w, -, rfl⟩ := mem_map.mp htask'
    exact nofun
  | _ => exact fun _ hnext ↦ absurd hnext not_mem_nil

structure Current (id : String) (holds : State → Prop) (good : List UInt8 → Prop) (n : ℕ)
    (s : Pool State Task) : Prop where
  reflects : ReadThrough.Reflects holds good id (view s)
  fresh : ∀ task ∈ s.tasks, task.Fresh id good n

variable {e : Move Arrival Int} {done : Done}

theorem Current.step (hreads : ∀ sh key, holds sh → Reads sh id key → good key)
    (hkept : ∀ sh sh', holds sh → Evolves sh sh' → holds sh') (h : Current id holds good n s)
    (htimely : Timely s e) : Current id holds good n ((system cfg lib).step s e).1 := by
  refine ⟨h.reflects.step (view_step cfg lib s e) hreads
    (hkept _ _ h.reflects.store (evolves_step htimely)), fun task' htask' ↦ ?_⟩
  rcases System.mem_step_tasks htask' with hold | hnext
  · exact h.fresh task' hold
  · clear htask'
    revert hnext task'
    refine System.result_rule (fun _ hnext ↦ absurd hnext not_mem_nil) (fun a _ ↦ ?_)
      fun i now task _ htask ↦ ?_
    · exact fresh_of_enters (enters_arrive cfg lib s.shared a)
    · exact Task.Fresh.moves (moves_act cfg lib s.shared now task)
        (fun key ↦ hreads _ key h.reflects.store) (fun key ↦ h.reflects.cached key)
        (h.fresh task (mem_of_getElem? htask))

/-- An answer that is not an error comes from the step of a task. -/
theorem moves_of_output {o : Output} (h : ((system cfg lib).step s e).2 = some o)
    (hrejected : ∀ number err, o ≠ .rejected number err) :
    ∃ i now task r, e = .advance i now ∧ s.tasks[i]? = some task ∧ Moves lib s.shared task r ∧
      r.output = some o := by
  rw [System.step_output] at h
  revert h
  refine System.result_rule (fun h ↦ ?_) (fun a _ ↦ ?_) fun i now task he htask h ↦ ?_
  · cases h
  · have henters : Enters s.shared ((system cfg lib).arrive s.shared a) :=
      enters_arrive cfg lib s.shared a
    generalize (system cfg lib).arrive s.shared a = r at henters ⊢
    intro h
    cases henters with
    | reject => exact absurd (some.inj h).symm (hrejected _ _)
    | _ => cases h
  · exact ⟨i, now, task, _, he, htask, moves_act cfg lib s.shared now task, h⟩

theorem evict_of_done (h : ((system cfg lib).step s e).2 = some (.done id done)) :
    ∃ i now, e = .advance i now ∧ s.tasks[i]? = some (.evict id done) := by
  obtain ⟨i, now, task, r, rfl, htask, hmoves, hout⟩ := moves_of_output h nofun
  cases hmoves with
  | evict =>
    cases hout
    exact ⟨i, now, rfl, htask⟩
  | _ => cases hout

theorem current_of_done (hreads : ∀ sh key, holds sh → Reads sh id key → good key)
    (hkept : ∀ sh sh', holds sh → Evolves sh sh' → holds sh')
    (hachieved : ∀ sh, done.Achieved sh id → holds sh) (hsound : Sound s) (htimely : Timely s e)
    (h : ((system cfg lib).step s e).2 = some (.done id done)) :
    Current id holds good ((system cfg lib).step s e).1.shared.calls
      ((system cfg lib).step s e).1 := by
  have hsound' : Sound ((system cfg lib).step s e).1 := hsound.step htimely
  obtain ⟨i, now, rfl, htask⟩ := evict_of_done h
  have hholds : holds s.shared :=
    hachieved _ ((hsound.tasks _ (mem_of_getElem? htask)).evict id done rfl)
  refine ⟨.of_evict (view_step cfg lib s _) hreads hholds
    (hkept _ _ hholds (evolves_step htimely)) ?_ ?_, fun task htask' m hm hle ↦ ?_⟩
  · rintro key ⟨-, hmem, call, entry, rfl, -⟩
    have hfills := any_eq_false.mp (htimely _ htask) _ hmem
    simp [Task.fills] at hfills
  · rintro key ⟨entry, hentry, -⟩
    simp [System.step_shared, System.result, htask, system, Task.act, Result.answer] at hentry
  · exact absurd ((hsound'.tasks task htask').number m hm) (by omega)

theorem verify_of_accepted {ctx : JwsContext}
    (h : ((system cfg lib).step s e).2 = some (.accepted call ctx)) :
    ∃ jwkThumbprint, .verify call ctx.accountId ctx.spkiDer jwkThumbprint ∈ s.tasks ∧
      lib.verify call.jws ctx.spkiDer = .ok () := by
  obtain ⟨i, now, task, r, rfl, htask, hmoves, hout⟩ := moves_of_output h nofun
  cases hmoves with
  | accept hid hkey hverify =>
    cases hout
    subst hid hkey
    exact ⟨_, mem_of_getElem? htask, hverify⟩
  | _ => cases hout

theorem Current.good_of_accepted {ctx : JwsContext} (h : Current id holds good n s)
    (haccepted : ((system cfg lib).step s e).2 = some (.accepted call ctx))
    (hbegun : n ≤ call.number) (hid : ctx.accountId = some id) :
    good ctx.spkiDer ∧ lib.verify call.jws ctx.spkiDer = .ok () := by
  obtain ⟨jwkThumbprint, hmem, hverify⟩ := verify_of_accepted haccepted
  exact ⟨h.fresh _ hmem call.number rfl hbegun _ ⟨hid, rfl⟩, hverify⟩

theorem current_run {es fs : List (Move Arrival Int)} {db : Db} {prefixDot : String}
    (hreads : ∀ sh key, holds sh → Reads sh id key → good key)
    (hkept : ∀ sh sh', holds sh → Evolves sh sh' → holds sh')
    (hachieved : ∀ sh, done.Achieved sh id → holds sh)
    (hmeets : Meets (system cfg lib).step Timely (boot db prefixDot) (es ++ e :: fs))
    (hdone : ((system cfg lib).step (run (system cfg lib).step (boot db prefixDot) es) e).2 =
      some (.done id done)) :
    Current id holds good (run (system cfg lib).step (boot db prefixDot) (es ++ [e])).shared.calls
      (run (system cfg lib).step (boot db prefixDot) (es ++ e :: fs)) := by
  obtain ⟨hes, htimely, hfs⟩ := meets_append.mp hmeets
  have hboot : Sound (boot db prefixDot) := ⟨nofun, nofun⟩
  have hsound : Sound (run (system cfg lib).step (boot db prefixDot) es) :=
    hes.invariant Sound hboot fun s e h hok ↦ h.step hok
  rw [run_concat, run_append, run_cons]
  exact hfs.invariant _ (current_of_done hreads hkept hachieved hsound htimely hdone)
    fun s e h hok ↦ h.step hreads hkept hok

end Calls

/-- However calls and handlers interleave, as long as no call is about to insert
an account into the cache when a handler evicts it, and no key change brings back
a key that the account has had: a call that begins after a deactivation has
returned is not accepted for the account, and one that begins after a key change
has returned is not verified under the old key; where a signature verifies under
one key only, it then has none under the old key. -/
theorem outdated_calls_rejected {cfg : Config} {lib : JoseLibrary}
    {e f : Move Arrival Int} {es fs : List (Move Arrival Int)} {db : Db} {prefixDot : String}
    {id : String} {done : Done} {call : Call} {ctx : JwsContext}
    (hmeets : Meets (system cfg lib).step Timely (boot db prefixDot) (es ++ e :: fs))
    (hdone : ((system cfg lib).step (run (system cfg lib).step (boot db prefixDot) es) e).2 =
      some (.done id done))
    (hbegun : (run (system cfg lib).step (boot db prefixDot) (es ++ [e])).shared.calls ≤
      call.number)
    (haccepted : ((system cfg lib).step
      (run (system cfg lib).step (boot db prefixDot) (es ++ e :: fs)) f).2 =
      some (.accepted call ctx))
    (hid : ctx.accountId = some id) :
    done ≠ .deactivated ∧ ∀ keys, done = .keyChanged keys → ctx.spkiDer ∉ keys ∧
      ((∀ jws key key', lib.verify jws key = .ok () → lib.verify jws key' = .ok () → key = key') →
        ∀ key ∈ keys, lib.verify call.jws key ≠ .ok ()) := by
  constructor
  · rintro rfl
    have hclosed : ∀ sh key, Closed sh id → Reads sh id key → False :=
      fun sh key hclosed ⟨row, hrow, hvalid, _⟩ ↦ hclosed row hrow hvalid
    have hachieved : ∀ sh, Done.deactivated.Achieved sh id → Closed sh id := fun _ h ↦ h
    exact ((current_run hclosed (fun _ _ h ↦ h.evolves) hachieved hmeets hdone).good_of_accepted
      haccepted hbegun hid).1
  · rintro keys rfl
    have hcurrent : ∀ key ∈ keys, ctx.spkiDer ≠ key ∧ lib.verify call.jws ctx.spkiDer = .ok () := by
      intro key hkey
      have hother : ∀ sh key', Superseded sh id key → Reads sh id key' → key' ≠ key :=
        fun sh key' h ⟨row, hrow, hvalid, hpublic⟩ ↦ hpublic ▸ (h row hrow hvalid).2
      have hachieved : ∀ sh, (Done.keyChanged keys).Achieved sh id → Superseded sh id key :=
        fun _ h ↦ h key hkey
      exact (current_run hother (fun _ _ h ↦ h.evolves) hachieved hmeets hdone).good_of_accepted
        haccepted hbegun hid
    refine ⟨fun hmem ↦ (hcurrent _ hmem).1 rfl, fun hverify key hkey hold ↦ ?_⟩
    obtain ⟨hne, hnew⟩ := hcurrent key hkey
    exact hne (hverify call.jws _ _ hnew hold)

/-! ## Two runs -/

def sampleUrl : String := "https://acme.example.com/acme/account/a1"

/-- Every request is for account `a1`, with its nonce as header and its key as
signature; a key change is from `k1` to the key in the payload. -/
def sampleJose : JoseLibrary where
  decodeHeader jws := .ok ⟨"", jws.protected_, "", .kid sampleUrl⟩
  decodePayload jws := .ok (ascii jws.payload)
  toSpkiDer jwk := .ok (ascii jwk)
  verify jws key := if ascii jws.signature = key then .ok () else .error (.badRequest "signature")
  parseUpdate _ := .ok ⟨none, some "deactivated"⟩
  parseKeyChange payload := .ok ⟨payload, "t2", sampleUrl, .ok (ascii "k1")⟩

def sampleAccounts : Db :=
  { Db.empty with
    accounts := ⟨[
      { id := "a1", status := .valid, contact := none, publicKey := ascii "k1"
        jwkThumbprint := "t1", created := 0, updated := 0, profileGrants := none, caId := ""
        kerberosPrincipal := none }], by simp⟩ }

def sampleStep : Pool State Task → Move Arrival Int → Pool State Task × Option Output :=
  (system .plain sampleJose).step

def sampleRun (es : List (Move Arrival Int)) : Pool State Task :=
  run sampleStep (boot sampleAccounts "") es

/-- A request under nonce `n1`, up to its read of the row. -/
def readRow : List (Move Arrival Int) :=
  [.arrive (.newNonce "n1" 0), .arrive (.newNonce "n2" 0), .arrive (.newNonce "n3" 0),
    .arrive (.request ⟨"n1", "", "k1"⟩ "" .other "n4" 0), .advance 0 0, .advance 0 0]

def deactivate : List (Move Arrival Int) :=
  readRow ++ [.arrive (.postAccountDeactivate "a1" 0), .advance 1 0]

def changeKey : List (Move Arrival Int) :=
  [.arrive (.request ⟨"n2", "k2", "k1"⟩ "" (.keyChange "ca") "n5" 0), .advance 1 0, .advance 1 0,
    .advance 1 0, .advance 1 0, .advance 1 0, .advance 1 0]

def laterCall (key : String) : List (Move Arrival Int) :=
  [.advance 0 0, .arrive (.request ⟨"n3", "", key⟩ "" .other "n6" 0), .advance 1 0]

/-- A request that has read the row of an account inserts it after the account
has been deactivated, or has changed its key; the next request is accepted. -/
theorem outdated_calls_accepted :
    (sampleStep (sampleRun deactivate) (.advance 1 0)).2 = some (.done "a1" .deactivated) ∧
      (sampleRun (deactivate ++ [.advance 1 0])).shared.calls ≤ 1 ∧
      (sampleStep (sampleRun (deactivate ++ .advance 1 0 :: laterCall "k1")) (.advance 1 0)).2 =
        some (.accepted ⟨1, ⟨"n3", "", "k1"⟩, .other, "n6"⟩
          ⟨[], ascii "k1", some "a1", some "t1", "n6"⟩) ∧
      (sampleStep (sampleRun (readRow ++ changeKey)) (.advance 1 0)).2 =
        some (.done "a1" (.keyChanged [ascii "k1", ascii "k1"])) ∧
      (sampleRun (readRow ++ changeKey ++ [.advance 1 0])).shared.calls ≤ 2 ∧
      (sampleStep (sampleRun (readRow ++ changeKey ++ .advance 1 0 :: laterCall "k1"))
        (.advance 1 0)).2 =
        some (.accepted ⟨2, ⟨"n3", "", "k1"⟩, .other, "n6"⟩
          ⟨[], ascii "k1", some "a1", some "t1", "n6"⟩) := by
  refine ⟨?_, ?_, ?_, ?_, ?_, ?_⟩ <;> decide +kernel

def changeKeyAlone : List (Move Arrival Int) :=
  readRow ++ [.advance 0 0, .advance 0 0, .advance 0 0,
    .arrive (.request ⟨"n2", "k2", "k1"⟩ "" (.keyChange "ca") "n5" 0), .advance 0 0, .advance 0 0,
    .advance 0 0, .advance 0 0]

def newKeyCall : List (Move Arrival Int) :=
  [.arrive (.request ⟨"n3", "", "k2"⟩ "" .other "n6" 0), .advance 0 0, .advance 0 0, .advance 0 0]

/-- The new key is accepted, and the old one is not. -/
theorem old_key_rejected :
    (sampleStep (sampleRun (changeKeyAlone ++ .advance 0 0 :: newKeyCall)) (.advance 0 0)).2 =
        some (.accepted ⟨2, ⟨"n3", "", "k2"⟩, .other, "n6"⟩
          ⟨[], ascii "k2", some "a1", some "t2", "n6"⟩) ∧
      sampleJose.verify ⟨"n3", "", "k2"⟩ (ascii "k1") ≠ .ok () := by
  have hverify : ∀ jws key key', sampleJose.verify jws key = .ok () →
      sampleJose.verify jws key' = .ok () → key = key' := by
    intro jws key key' h h'
    simp only [sampleJose] at h h'
    split at h
    · split at h'
      · exact Eq.trans (Eq.symm ‹_›) ‹_›
      · cases h'
    · cases h
  have haccepted :
      (sampleStep (sampleRun (changeKeyAlone ++ .advance 0 0 :: newKeyCall)) (.advance 0 0)).2 =
        some (.accepted ⟨2, ⟨"n3", "", "k2"⟩, .other, "n6"⟩
          ⟨[], ascii "k2", some "a1", some "t2", "n6"⟩) := by decide +kernel
  have hrejected := @outdated_calls_rejected .plain sampleJose (.advance 0 0)
    (.advance 0 0) changeKeyAlone newKeyCall sampleAccounts "" "a1"
    (.keyChanged [ascii "k1", ascii "k1"]) _ _ (by decide +kernel) (by decide +kernel)
    (by decide +kernel) haccepted rfl
  exact ⟨haccepted, (hrejected.2 _ rfl).2 hverify _ List.mem_cons_self⟩

end AuthServer

end Akamu
