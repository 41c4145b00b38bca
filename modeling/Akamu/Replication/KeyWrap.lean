import Mathlib.Data.Fin.Tuple.Basic
import Mathlib.Logic.Equiv.Fin.Basic
import Mathlib.Data.List.FinRange
import Mathlib.Data.List.OfFn
import Mathlib.Data.Fintype.Basic

/-!
# AES key wrap

The content key of a gossip envelope is wrapped under a key-encryption key by
RFC 3394.  Arrays of fixed length are functions on their indices.
-/

namespace Akamu.KeyWrap

open Function List

/-- AES-256-ECB on one block, without padding. -/
structure BlockCipher where
  encrypt : (Fin 32 → UInt8) → (Fin 16 → UInt8) → Fin 16 → UInt8
  decrypt : (Fin 32 → UInt8) → (Fin 16 → UInt8) → Fin 16 → UInt8

inductive CmsError where
  | parseError
  | noMatchingRecipient
  deriving DecidableEq, Repr

structure WrapState where
  a : Fin 8 → UInt8
  r : Fin 4 → Fin 8 → UInt8

def toBeBytes (v : UInt64) : Fin 8 → UInt8 := fun k ↦ (v >>> UInt64.ofNat (56 - 8 * k)).toUInt8

def aesWrapIv : UInt64 := 0xA6A6A6A6A6A6A6A6

def counter (j : ℕ) (i : Fin 4) : Fin 8 → UInt8 := toBeBytes (UInt64.ofNat (4 * j + i + 1))

section Steps

variable (ecb : BlockCipher) (kek : Fin 32 → UInt8)

def wrapStep (j : ℕ) (s : WrapState) (i : Fin 4) : WrapState :=
  let b := ecb.encrypt kek (Fin.append s.a (s.r i))
  { a := fun k ↦ b (Fin.castAdd 8 k) ^^^ counter j i k
    r := Function.update s.r i fun k ↦ b (Fin.natAdd 8 k) }

def unwrapStep (j : ℕ) (s : WrapState) (i : Fin 4) : WrapState :=
  let b := ecb.decrypt kek (Fin.append (fun k ↦ s.a k ^^^ counter j i k) (s.r i))
  { a := fun k ↦ b (Fin.castAdd 8 k)
    r := Function.update s.r i fun k ↦ b (Fin.natAdd 8 k) }

def wrapRounds (s : WrapState) : WrapState :=
  (List.range 6).foldl (fun s j ↦ (List.finRange 4).foldl (wrapStep ecb kek j) s) s

def unwrapRounds (s : WrapState) : WrapState :=
  (List.range 6).reverse.foldl
    (fun s j ↦ (List.finRange 4).reverse.foldl (unwrapStep ecb kek j) s) s

/-- The key in four blocks of eight octets. -/
def blocks (cek : Fin 32 → UInt8) : Fin 4 → Fin 8 → UInt8 := fun i k ↦ cek (finProdFinEquiv (i, k))

def joined (r : Fin 4 → Fin 8 → UInt8) : Fin 32 → UInt8 :=
  fun k ↦ Function.uncurry r ((finProdFinEquiv (m := 4) (n := 8)).symm k)

def aesKeyWrap (cek : Fin 32 → UInt8) : Fin 40 → UInt8 :=
  let s := wrapRounds ecb kek ⟨toBeBytes aesWrapIv, blocks cek⟩
  Fin.append s.a (joined s.r)

/-- A slice as an array of length `n`. -/
def toArray? (n : ℕ) (bytes : List UInt8) : Option (Fin n → UInt8) :=
  if h : bytes.length = n then some fun k ↦ bytes.get (k.cast h.symm) else none

def aesKeyUnwrap (wrapped : List UInt8) : Except CmsError (Fin 32 → UInt8) :=
  match toArray? (8 + 32) wrapped with
  | none => .error .parseError
  | some w =>
    let s := unwrapRounds ecb kek
      ⟨fun k ↦ w (Fin.castAdd 32 k), blocks fun k ↦ w (Fin.natAdd 8 k)⟩
    if s.a = toBeBytes aesWrapIv then .ok (joined s.r) else .error .noMatchingRecipient

end Steps

/-! ## Undoing the rounds -/

theorem foldl_reverse_foldl {α β : Type*} {f g : β → α → β} (h : ∀ s i, g (f s i) i = s)
    (l : List α) (s : β) : l.reverse.foldl g (l.foldl f s) = s := by
  induction l generalizing s with
  | nil => rfl
  | cons i l ih =>
    simp only [reverse_cons, foldl_append, foldl_cons, foldl_nil, ih]
    exact h s i

/-- Decryption is the two-sided inverse of encryption. -/
structure BlockCipher.Inverse (ecb : BlockCipher) (kek : Fin 32 → UInt8) : Prop where
  decrypt_encrypt : ∀ b, ecb.decrypt kek (ecb.encrypt kek b) = b
  encrypt_decrypt : ∀ b, ecb.encrypt kek (ecb.decrypt kek b) = b

section

variable {ecb : BlockCipher} {kek : Fin 32 → UInt8} {s : WrapState}

theorem toArray?_eq_some {n : ℕ} {bytes : List UInt8} {w : Fin n → UInt8} :
    toArray? n bytes = some w ↔ bytes = List.ofFn w := by
  unfold toArray?
  constructor
  · intro h
    split at h
    · rename_i hlength
      subst hlength
      cases h
      exact (ofFn_get bytes).symm
    · cases h
  · rintro rfl
    rw [dif_pos length_ofFn]
    exact congrArg some (funext fun k ↦ get_ofFn w _)

theorem append_halves (b : Fin (8 + 8) → UInt8) :
    Fin.append (fun k ↦ b (Fin.castAdd 8 k)) (fun k ↦ b (Fin.natAdd 8 k)) = b :=
  Fin.append_castAdd_natAdd

theorem xor_xor_cancel (a t : Fin 8 → UInt8) : (fun k ↦ a k ^^^ t k ^^^ t k) = a := by
  funext k
  rw [UInt8.xor_assoc, UInt8.xor_self, UInt8.xor_zero]

theorem unwrapStep_wrapStep (h : ecb.Inverse kek) (j : ℕ) (s : WrapState) (i : Fin 4) :
    unwrapStep ecb kek j (wrapStep ecb kek j s i) i = s := by
  simp only [unwrapStep, wrapStep, update_self, xor_xor_cancel, append_halves,
    h.decrypt_encrypt, Fin.append_left, Fin.append_right, update_idem]
  exact congrArg (WrapState.mk s.a) (update_eq_self i s.r)

theorem wrapStep_unwrapStep (h : ecb.Inverse kek) (j : ℕ) (s : WrapState) (i : Fin 4) :
    wrapStep ecb kek j (unwrapStep ecb kek j s i) i = s := by
  simp only [unwrapStep, wrapStep, update_self, append_halves, h.encrypt_decrypt,
    Fin.append_left, Fin.append_right, update_idem, xor_xor_cancel]
  exact congrArg (WrapState.mk s.a) (update_eq_self i s.r)

theorem unwrapRounds_wrapRounds (h : ecb.Inverse kek) (s : WrapState) :
    unwrapRounds ecb kek (wrapRounds ecb kek s) = s := by
  refine foldl_reverse_foldl (fun s j ↦ ?_) _ s
  exact foldl_reverse_foldl (unwrapStep_wrapStep h j) _ s

theorem wrapRounds_unwrapRounds (h : ecb.Inverse kek) (s : WrapState) :
    wrapRounds ecb kek (unwrapRounds ecb kek s) = s := by
  have hinner : ∀ (s : WrapState) (j : ℕ),
      (List.finRange 4).foldl (wrapStep ecb kek j)
        ((List.finRange 4).reverse.foldl (unwrapStep ecb kek j) s) = s := by
    intro s j
    simpa using foldl_reverse_foldl (wrapStep_unwrapStep h j) (List.finRange 4).reverse s
  simpa [wrapRounds, unwrapRounds] using foldl_reverse_foldl hinner (List.range 6).reverse s

theorem blocks_joined (r : Fin 4 → Fin 8 → UInt8) : blocks (joined r) = r := by
  funext i k
  exact congrArg (Function.uncurry r) (finProdFinEquiv.symm_apply_apply (i, k))

theorem joined_blocks (cek : Fin 32 → UInt8) : joined (blocks cek) = cek := by
  funext k
  refine congrArg cek ?_
  rw [Prod.mk.eta, Equiv.apply_symm_apply]

/-- Unwrapping gives back the key that was wrapped, and succeeds on nothing but
what wrapping makes. -/
theorem key_wrap_exact (h : ecb.Inverse kek) :
    (∀ p, aesKeyUnwrap ecb kek (List.ofFn (aesKeyWrap ecb kek p)) = .ok p) ∧
      ∀ c p, aesKeyUnwrap ecb kek c = .ok p → c = List.ofFn (aesKeyWrap ecb kek p) := by
  refine ⟨fun p ↦ ?_, fun c p hc ↦ ?_⟩
  · have harray : toArray? (8 + 32) (List.ofFn (aesKeyWrap ecb kek p)) =
        some (aesKeyWrap ecb kek p) := toArray?_eq_some.mpr rfl
    rw [aesKeyUnwrap, harray]
    simp only [aesKeyWrap, Fin.append_left, Fin.append_right, blocks_joined,
      unwrapRounds_wrapRounds h, if_true, joined_blocks]
  · unfold aesKeyUnwrap at hc
    split at hc
    · cases hc
    · rename_i w hw
      dsimp only at hc
      split at hc
      · rename_i hiv
        obtain rfl := Except.ok.inj hc
        rw [toArray?_eq_some.mp hw, aesKeyWrap, ← hiv, blocks_joined, wrapRounds_unwrapRounds h,
          joined_blocks]
        exact congrArg List.ofFn Fin.append_castAdd_natAdd.symm
      · cases hc

end

/-- A cipher that flips every bit of the block. -/
def flipCipher : BlockCipher := ⟨fun _ b k ↦ ~~~ b k, fun _ b k ↦ ~~~ b k⟩

theorem flipped_key_unwrapped :
    aesKeyUnwrap flipCipher (fun _ ↦ 7) (List.ofFn (aesKeyWrap flipCipher (fun _ ↦ 7) fun _ ↦ 1)) =
      .ok fun _ ↦ 1 := by
  refine (key_wrap_exact ⟨fun b ↦ ?_, fun b ↦ ?_⟩).1 _
  all_goals
    funext k
    exact UInt8.not_not

end Akamu.KeyWrap
