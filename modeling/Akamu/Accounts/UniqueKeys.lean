import Akamu.Db.Effects
import Akamu.Jose.Jwk
import Akamu.Lib.Machine

/-!
# One key, one account

The accounts table admits each thumbprint once.  Whether it admits each key
once depends on whether a key has one thumbprint.
-/

namespace Akamu.UniqueKeys

open Except Jose List Machine Option

/-! ## What binds keys to accounts -/

/-- The transactions of `new_account` and `key_change`, with the JWK that they
take the key and the thumbprint from, and all the others. -/
inductive Event where
  | newAccount (jwk : JwkPublic) (account : AccountRow) (eabKid : Option String) (now : Int)
  | keyChange (id : String) (jwk : JwkPublic) (now : Int)
  | other (t : Txn)

def bindsKey : Txn → Bool
  | .newAccount .. | .updateKey .. => true
  | _ => false

def keyMaterial (lib : KeyLibrary) (jwk : JwkPublic) : Except JoseError (List UInt8 × String) := do
  let spki ← jwk.toSpkiDer lib
  let thumbprint ← jwk.thumbprint lib
  return (spki, thumbprint)

def Event.txn? (lib : KeyLibrary) : Event → Option Txn
  | .newAccount jwk account eabKid now =>
    (keyMaterial lib jwk).toOption.map fun k ↦
      .newAccount { account with publicKey := k.1, jwkThumbprint := k.2 } eabKid now
  | .keyChange id jwk now =>
    (keyMaterial lib jwk).toOption.map fun k ↦ .updateKey id k.1 k.2 now
  | .other t => if bindsKey t then none else some t

/-- A transaction that fails leaves the database as it was. -/
def commit (decodeNull : Except AcmeError String) (db : Db) (t : Txn) : Db :=
  ((exec decodeNull db t).toOption.map Prod.fst).getD db

def step (lib : KeyLibrary) (decodeNull : Except AcmeError String) (db : Db) (e : Event) :
    Db × Unit :=
  (((e.txn? lib).map (commit decodeNull db)).getD db, ())

/-- No two accounts hold the same key. -/
def OneAccountEach (db : Db) : Prop :=
  ∀ a ∈ db.accounts.rows, ∀ b ∈ db.accounts.rows, a.publicKey = b.publicKey → a = b

/-- The key and the thumbprint of one accepted JWK, whose numbers are written
as they should. -/
def FromJwk (lib : KeyLibrary) (publicKey : List UInt8) (jwkThumbprint : String) : Prop :=
  ∃ jwk : JwkPublic, jwk.Canonical ∧ keyMaterial lib jwk = .ok (publicKey, jwkThumbprint)

/-- All JWKs are written as they should, those of the accounts that other nodes
have replicated included. -/
def CanonicalKeys (lib : KeyLibrary) : Event → Prop
  | .newAccount jwk _ _ _ | .keyChange _ jwk _ => jwk.Canonical
  | .other (.persist crdt) => ∀ e ∈ crdt.accounts.entries.rows,
      FromJwk lib e.2.value.publicKeyDer e.2.value.jwkThumbprint
  | .other _ => True

/-! ## The accounts table -/

section Table

variable {lib : KeyLibrary} {t : KeyedTable AccountRow AccountRow.id}

structure Sound (lib : KeyLibrary) (t : KeyedTable AccountRow AccountRow.id) : Prop where
  fromJwk : ∀ a ∈ t.rows, FromJwk lib a.publicKey a.jwkThumbprint
  unique : ∀ a ∈ t.rows, ∀ b ∈ t.rows, a.jwkThumbprint = b.jwkThumbprint → a.id = b.id

variable {t' : KeyedTable AccountRow AccountRow.id}

theorem Sound.of_kept (h : Sound lib t)
    (hkept : ∀ b ∈ t'.rows, ∃ a ∈ t.rows, b.id = a.id ∧ b.publicKey = a.publicKey ∧
    b.jwkThumbprint = a.jwkThumbprint) : Sound lib t' where
  fromJwk b hb := by
    obtain ⟨a, ha, -, hkey, hthumb⟩ := hkept b hb
    rw [hkey, hthumb]
    exact h.fromJwk a ha
  unique b hb c hc heq := by
    obtain ⟨a, ha, hid, -, hthumb⟩ := hkept b hb
    obtain ⟨a', ha', hid', -, hthumb'⟩ := hkept c hc
    rw [hid, hid']
    exact h.unique a ha a' ha' (hthumb.symm.trans (heq.trans hthumb'))

theorem Sound.insert {row : AccountRow} (h : Sound lib t) (hrows : t'.rows = t.rows ++ [row])
    (hfrom : FromJwk lib row.publicKey row.jwkThumbprint)
    (hnew : ∀ a ∈ t.rows, a.jwkThumbprint ≠ row.jwkThumbprint) : Sound lib t' where
  fromJwk a ha := by
    rw [hrows, mem_append, mem_singleton] at ha
    rcases ha with hold | rfl
    · exact h.fromJwk a hold
    · exact hfrom
  unique a ha b hb heq := by
    rw [hrows, mem_append, mem_singleton] at ha hb
    rcases ha with ha | rfl <;> rcases hb with hb | rfl
    · exact h.unique a ha b hb heq
    · exact absurd heq (hnew a ha)
    · exact absurd heq.symm (hnew b hb)
    · rfl

theorem Sound.persist {e : String × Crdt.OrMapEntry Crdt.AccountEntry} (h : Sound lib t)
    (hfrom : FromJwk lib e.2.value.publicKeyDer e.2.value.jwkThumbprint)
    (hpersist : persistAccount t e = .ok t') : Sound lib t' := by
  unfold persistAccount at hpersist
  split at hpersist
  · cases hpersist
  · split at hpersist
    · cases hpersist
    · rename_i hguard
      cases hpersist
      unfold KeyedTable.upsert
      split
      · rename_i t' hinsert
        obtain ⟨hfresh, hrows⟩ := KeyedTable.insert?_eq_some_iff.mp hinsert
        have habsent : t.find? e.1 = none := hfresh
        refine h.insert hrows hfrom ?_
        intro a ha heq
        apply hguard
        rw [habsent]
        exact any_eq_true.mpr ⟨a, ha, beq_iff_eq.mpr heq⟩
      · refine h.of_kept ?_
        intro b hb
        obtain ⟨a, ha, rfl⟩ := KeyedTable.mem_updateWhere.mp hb
        refine ⟨a, ha, ?_⟩
        split <;> exact ⟨rfl, rfl, rfl⟩

theorem Sound.persistAll {es : List (String × Crdt.OrMapEntry Crdt.AccountEntry)} (h : Sound lib t)
    (hfrom : ∀ e ∈ es, FromJwk lib e.2.value.publicKeyDer e.2.value.jwkThumbprint)
    (hpersist : es.foldlM persistAccount t = .ok t') : Sound lib t' := by
  induction es generalizing t with
  | nil =>
    cases hpersist
    exact h
  | cons e es ih =>
    obtain ⟨t₁, hfirst, hrest⟩ := bind_eq_ok hpersist
    exact ih (h.persist (hfrom e mem_cons_self) hfirst)
      (fun e' he' ↦ hfrom e' (mem_cons_of_mem e he')) hrest

end Table

/-! ## Transactions -/

section Transactions

variable {lib : KeyLibrary} {decodeNull : Except AcmeError String} {db db' : Db} {o : Outcome}

theorem Sound.newAccount {account : AccountRow} {eabKid : Option String} {now : Int}
    (h : Sound lib db.accounts)
    (hfrom : FromJwk lib account.publicKey account.jwkThumbprint)
    (hexec : exec decodeNull db (.newAccount account eabKid now) = .ok (db', o)) :
    Sound lib db'.accounts := by
  have heffect := (effect_of_exec hexec (by simp)).accounts
  have hrows : db'.accounts.rows = db.accounts.rows ++ [account] := by
    rw [heffect]
    exact congrArg (· ++ [account]) (map_id _)
  refine h.insert hrows hfrom ?_
  -- the insertion has passed the check of the thumbprint
  obtain ⟨db₁, hnew, -⟩ := map_eq_ok hexec
  obtain ⟨db₂, hinsert, -⟩ := bind_eq_ok hnew
  intro a ha heq
  have hused : (db.accounts.rows.any fun a ↦ a.jwkThumbprint == account.jwkThumbprint) = true :=
    any_eq_true.mpr ⟨a, ha, beq_iff_eq.mpr heq⟩
  rw [Accounts.insert, if_pos hused] at hinsert
  cases hinsert

theorem Sound.updateKey {id : String} {publicKey : List UInt8} {jwkThumbprint : String} {now : Int}
    (h : Sound lib db.accounts) (hfrom : FromJwk lib publicKey jwkThumbprint)
    (hexec : exec decodeNull db (.updateKey id publicKey jwkThumbprint now) = .ok (db', o)) :
    Sound lib db'.accounts := by
  have hrows : db'.accounts.rows =
      db.accounts.rows.map (Txn.updateKey id publicKey jwkThumbprint now).onAccount :=
    (effect_of_exec hexec (by simp)).accounts.trans (append_nil _)
  have hguard : ∀ b ∈ db.accounts.rows, Accounts.isValid id b = true →
      ∀ a ∈ db.accounts.rows, a.jwkThumbprint = jwkThumbprint → a.id = id := by
    intro b hb hvalid a ha heq
    obtain ⟨r, hupdate, -⟩ := map_eq_ok hexec
    unfold Accounts.updateKey at hupdate
    by_contra hne
    rw [if_pos] at hupdate
    · cases hupdate
    · rw [any_eq_true.mpr ⟨b, hb, hvalid⟩, Bool.true_and]
      exact any_eq_true.mpr ⟨a, ha, by simp [hne, heq]⟩
  have hrow : ∀ b ∈ db'.accounts.rows, ∃ a ∈ db.accounts.rows, b.id = a.id ∧
      ((b.publicKey = a.publicKey ∧ b.jwkThumbprint = a.jwkThumbprint) ∨
        (Accounts.isValid id a = true ∧ b.publicKey = publicKey ∧
          b.jwkThumbprint = jwkThumbprint)) := by
    intro b hb
    rw [hrows] at hb
    obtain ⟨a, ha, rfl⟩ := mem_map.mp hb
    refine ⟨a, ha, ?_⟩
    dsimp only [Txn.onAccount]
    split
    · rename_i hvalid
      exact ⟨rfl, .inr ⟨hvalid, rfl, rfl⟩⟩
    · exact ⟨rfl, .inl ⟨rfl, rfl⟩⟩
  have hid : ∀ a, Accounts.isValid id a = true → a.id = id := by
    intro a hvalid
    simp only [Accounts.isValid, Bool.and_eq_true, beq_iff_eq] at hvalid
    exact hvalid.1
  constructor
  · intro b hb
    obtain ⟨a, ha, -, ⟨hkey, hthumb⟩ | ⟨-, hkey, hthumb⟩⟩ := hrow b hb
    · rw [hkey, hthumb]
      exact h.fromJwk a ha
    · rw [hkey, hthumb]
      exact hfrom
  · intro b hb c hc heq
    obtain ⟨a, ha, hida, hcase⟩ := hrow b hb
    obtain ⟨a', ha', hida', hcase'⟩ := hrow c hc
    rw [hida, hida']
    rcases hcase with ⟨-, hthumb⟩ | ⟨hvalid, -, hthumb⟩ <;>
      rcases hcase' with ⟨-, hthumb'⟩ | ⟨hvalid', -, hthumb'⟩
    · exact h.unique a ha a' ha' (hthumb.symm.trans (heq.trans hthumb'))
    · rw [hid a' hvalid']
      exact hguard a' ha' hvalid' a ha (hthumb.symm.trans (heq.trans hthumb'))
    · rw [hid a hvalid]
      exact (hguard a ha hvalid a' ha' (hthumb'.symm.trans (heq.symm.trans hthumb))).symm
    · rw [hid a hvalid, hid a' hvalid']

variable {t : Txn}

theorem onAccount_keeps (h : bindsKey t = false) (a : AccountRow) :
    (t.onAccount a).id = a.id ∧ (t.onAccount a).publicKey = a.publicKey ∧
      (t.onAccount a).jwkThumbprint = a.jwkThumbprint := by
  cases t with
  | newAccount _ _ _ | updateKey _ _ _ _ => cases h
  | deactivateAccount _ _ _ | updateContact _ _ _ | setProfileGrants _ _ _ =>
    dsimp only [Txn.onAccount]
    split <;> exact ⟨rfl, rfl, rfl⟩
  | _ => exact ⟨rfl, rfl, rfl⟩

theorem Sound.other (h : Sound lib db.accounts) (hother : bindsKey t = false)
    (hnot : ∀ crdt, t ≠ .persist crdt) (hexec : exec decodeNull db t = .ok (db', o)) :
    Sound lib db'.accounts := by
  have hnone : t.newAccounts = [] := by
    cases t <;> first | rfl | cases hother
  have hrows := (effect_of_exec hexec hnot).accounts
  rw [hnone, append_nil] at hrows
  refine h.of_kept ?_
  intro b hb
  rw [hrows] at hb
  obtain ⟨a, ha, rfl⟩ := mem_map.mp hb
  exact ⟨a, ha, onAccount_keeps hother a⟩

theorem keyMaterial_eq_ok {jwk : JwkPublic} {k : List UInt8 × String}
    (h : keyMaterial lib jwk = .ok k) :
    jwk.toSpkiDer lib = .ok k.1 ∧ jwk.thumbprint lib = .ok k.2 := by
  obtain ⟨spki, hspki, h⟩ := bind_eq_ok h
  obtain ⟨thumbprint, hthumbprint, h⟩ := bind_eq_ok h
  cases h
  exact ⟨hspki, hthumbprint⟩

theorem Sound.commit (h : Sound lib db.accounts)
    (hexec : ∀ db' o, exec decodeNull db t = .ok (db', o) → Sound lib db'.accounts) :
    Sound lib (commit decodeNull db t).accounts := by
  unfold UniqueKeys.commit
  cases hresult : exec decodeNull db t with
  | error e => exact h
  | ok r => exact hexec r.1 r.2 hresult

theorem sound_step (h : Sound lib db.accounts) {e : Event} (he : CanonicalKeys lib e) :
    Sound lib (step lib decodeNull db e).1.accounts := by
  cases e with
  | newAccount jwk =>
    cases hkey : keyMaterial lib jwk with
    | error => simpa [step, Event.txn?, hkey, Except.toOption] using h
    | ok =>
      simp only [step, Event.txn?, hkey, Except.toOption, map_some, getD_some]
      exact h.commit fun _ _ hexec ↦ h.newAccount ⟨jwk, he, hkey⟩ hexec
  | keyChange id jwk =>
    cases hkey : keyMaterial lib jwk with
    | error => simpa [step, Event.txn?, hkey, Except.toOption] using h
    | ok =>
      simp only [step, Event.txn?, hkey, Except.toOption, map_some, getD_some]
      exact h.commit fun _ _ hexec ↦ h.updateKey ⟨jwk, he, hkey⟩ hexec
  | other t =>
    cases hbinds : bindsKey t with
    | true => simpa [step, Event.txn?, hbinds] using h
    | false =>
      simp only [step, Event.txn?, hbinds, Bool.false_eq_true, if_false, map_some,
        getD_some]
      refine h.commit fun db' o hexec ↦ ?_
      by_cases hpersist : ∃ crdt, t = .persist crdt
      · obtain ⟨crdt, rfl⟩ := hpersist
        obtain ⟨db₁, hwrite, heq⟩ := map_eq_ok hexec
        cases heq
        exact h.persistAll he (persistCrdtAcme_eq_ok hwrite).1
      · exact h.other hbinds (fun crdt heq ↦ hpersist ⟨crdt, heq⟩) hexec

theorem Sound.oneAccountEach (hlib : lib.Faithful) (h : Sound lib db.accounts) :
    OneAccountEach db := by
  intro a ha b hb hkey
  obtain ⟨j, hj, hmaterial⟩ := h.fromJwk a ha
  obtain ⟨k, hk, hmaterial'⟩ := h.fromJwk b hb
  obtain ⟨hspki, hthumb⟩ := keyMaterial_eq_ok hmaterial
  obtain ⟨hspki', hthumb'⟩ := keyMaterial_eq_ok hmaterial'
  have hsame := thumbprint_of_spki hlib hj hk (hspki.trans (congrArg _ hkey)) hspki'
  have hthumbs : a.jwkThumbprint = b.jwkThumbprint :=
    ok.inj (hthumb.symm.trans (hsame.trans hthumb'))
  exact db.accounts.eq_of_mem_of_key_eq ha hb (h.unique a ha b hb hthumbs)

end Transactions

/-- Among keys that are written as they should, thumbprints are equal just when
the keys are; and where all keys are, each has one account. -/
theorem one_key_one_account {lib : KeyLibrary} (hlib : lib.Faithful) :
    (∀ (j k : JwkPublic) (spki spki' : List UInt8), j.Canonical → k.Canonical →
      j.toSpkiDer lib = .ok spki → k.toSpkiDer lib = .ok spki' →
      (j.thumbprint lib = k.thumbprint lib ↔ spki = spki')) ∧
    ∀ (decodeNull : Except AcmeError String) (es : List Event),
      (∀ e ∈ es, CanonicalKeys lib e) →
      OneAccountEach (run (step lib decodeNull) Db.empty es) := by
  constructor
  · intro j k spki spki' hcj hck hj hk
    constructor
    · intro hthumb
      obtain ⟨thumb, hthumbj⟩ := exists_thumbprint hj
      exact spki_of_thumbprint hlib hj hk hthumbj (hthumb.symm.trans hthumbj)
    · rintro rfl
      exact thumbprint_of_spki hlib hcj hck hj hk
  · intro decodeNull es hes
    refine Sound.oneAccountEach hlib ?_
    have hstart : Sound lib Db.empty.accounts :=
      ⟨fun _ ha ↦ absurd ha List.not_mem_nil, fun _ ha ↦ absurd ha List.not_mem_nil⟩
    suffices hrun : ∀ db, Sound lib db.accounts →
        Sound lib (run (step lib decodeNull) db es).accounts from hrun _ hstart
    induction es with
    | nil => exact fun _ h ↦ h
    | cons e es ih =>
      intro db h
      exact ih (fun e' he' ↦ hes e' (List.mem_cons_of_mem e he')) _
        (sound_step h (hes e List.mem_cons_self))

/-! ## A modulus with a leading zero octet -/

namespace LeadingZero

def rsaSpki (n e : List UInt8) : List UInt8 :=
  [0x30, 0x00, 0x30, 0x00, 0x06, 0x09] ++ (rsaEncryption ++
    (List.replicate (octetsToNat n) 0 ++ 1 :: List.replicate (octetsToNat e) 0))

def lib : KeyLibrary where
  sha256 := id
  fromRsaComponents n e := .ok (rsaSpki n e)
  fromEcComponents _ _ _ := .error "no EC keys"
  decodeError _ := "Invalid padding"

theorem replicate_inj {a b c d : ℕ}
    (h : List.replicate a (0 : UInt8) ++ 1 :: List.replicate b 0 =
      List.replicate c 0 ++ 1 :: List.replicate d 0) : a = c ∧ b = d := by
  induction a generalizing c with
  | zero =>
    cases c with
    | zero => simpa using h
    | succ => simp [replicate_succ] at h
  | succ a ih =>
    cases c with
    | zero => simp [replicate_succ] at h
    | succ =>
      obtain ⟨rfl, hb⟩ := ih (by simpa [replicate_succ] using h)
      exact ⟨rfl, hb⟩

theorem faithful : lib.Faithful where
  sha256_injective := Function.injective_id
  rsa_oid h := by
    cases h
    rfl
  ec_oid h := nomatch h
  rsa_numbers h h' := by
    have hspki := ok.inj (h.trans h'.symm)
    exact replicate_inj (append_cancel_left (append_cancel_left hspki))
  ec_point h _ := nomatch h

def rsaKey (n e : String) : JwkPublic := ⟨"RSA", none, none, none, some n, some e, none, none⟩

def newAccount (id : String) (jwk : JwkPublic) : Event :=
  .newAccount jwk ⟨id, .valid, none, [], "", 1, 1, none, "", none⟩ none 1

def after (es : List Event) : Db := run (step lib (.ok "")) Db.empty es

instance (db : Db) : Decidable (OneAccountEach db) :=
  inferInstanceAs (Decidable (∀ a ∈ db.accounts.rows, ∀ b ∈ db.accounts.rows, _))

/-- The modulus 11 as one octet and as two: one key, two thumbprints and two
accounts. -/
theorem key_has_two_accounts :
    ((rsaKey "Cw" "Aw").toSpkiDer lib).toOption.isSome = true ∧
      ((rsaKey "Cw" "Aw").toSpkiDer lib).toOption = ((rsaKey "AAs" "Aw").toSpkiDer lib).toOption ∧
      ((rsaKey "Cw" "Aw").thumbprint lib).toOption ≠
        ((rsaKey "AAs" "Aw").thumbprint lib).toOption ∧
      ¬ OneAccountEach (after [newAccount "1" (rsaKey "Cw" "Aw"),
        newAccount "2" (rsaKey "AAs" "Aw")]) := by
  decide +kernel

instance (texts : KeyTexts) : Decidable texts.Canonical :=
  match texts with
  | .rsa n e => inferInstanceAs (Decidable (∀ s ∈ [n, e], ∀ bytes ∈ Base64Url.decode s, _))
  | .ec _ x y => inferInstanceAs (Decidable (∀ s ∈ [x, y], ∀ bytes ∈ Base64Url.decode s, _))
  | .okp _ _ | .akp _ _ => .isTrue trivial

instance (jwk : JwkPublic) : Decidable jwk.Canonical :=
  inferInstanceAs (Decidable (∀ texts ∈ jwk.texts?, texts.Canonical))

theorem second_key_has_one_account :
    OneAccountEach (after [newAccount "1" (rsaKey "Cw" "Aw"), newAccount "2" (rsaKey "DQ" "Aw"),
      .keyChange "1" (rsaKey "Dw" "Aw") 2, newAccount "3" (rsaKey "DQ" "Aw")]) := by
  have hcanonical : ∀ n ∈ ["Cw", "DQ", "Dw"], (rsaKey n "Aw").Canonical := by decide +kernel
  refine (one_key_one_account faithful).2 (.ok "") _ ?_
  simp only [List.mem_cons, List.not_mem_nil, or_false]
  rintro e (rfl | rfl | rfl | rfl)
  all_goals exact hcanonical _ (by decide)

end LeadingZero

end Akamu.UniqueKeys
