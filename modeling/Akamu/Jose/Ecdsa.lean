import Akamu.Jose.Jwk
import Akamu.Lib.Attempt
import Akamu.Lib.Der

/-!
# ECDSA signatures

`jws.rs`: a signature as `r || s` of fixed length and as a SEQUENCE of two
INTEGERs.
-/

namespace Akamu.Jose

open Attempt Der Framing List

/-- `encode_asn1_integer` -/
def encodeAsn1Integer (bytes : List UInt8) : List UInt8 := tlv 0x02 (unsigned bytes)

def p1363ToDer (sig : List UInt8) (half : ℕ) : Except JoseError (List UInt8) :=
  if sig.length ≠ half * 2 then
    .error (.badRequest ("ECDSA P1363 signature length " ++ toString sig.length ++
      " is wrong for half-size " ++ toString half))
  else .ok (tlv 0x30 (encodeAsn1Integer (sig.take half) ++ encodeAsn1Integer (sig.drop half)))

/-- A computation that answers an `Option`: the error stands for `None`. -/
abbrev Parse := Attempt Unit

def ask {α : Type} : Option α → Parse α
  | some a => pure a
  | none => throw ()

/-- `buf[a..]` -/
def tail (buf : List UInt8) (a : ℕ) : Parse (List UInt8) := orPanic (sliceFrom buf a)

/-- `buf.get(..len)` -/
def front (buf : List UInt8) (len : ℕ) : Parse (List UInt8) := ask (slice buf 0 len)

def decodeDerLen (buf : List UInt8) : Parse (ℕ × List UInt8) := do
  let first ← ask buf.head?
  if first.toNat < 0x80 then return (first.toNat, ← tail buf 1)
  else if first = 0x81 then do
    let len ← ask buf[1]?
    return (len.toNat, ← tail buf 2)
  else if first = 0x82 then do
    let high ← ask buf[1]?
    let low ← ask buf[2]?
    return (high.toNat * 256 + low.toNat, ← tail buf 3)
  else ask none

def stripTlv (buf : List UInt8) (tag : UInt8) : Parse (List UInt8) := do
  if (← ask buf.head?) ≠ tag then ask none
  else do
    let (len, rest) ← decodeDerLen (← tail buf 1)
    front rest len

def stripInteger (buf : List UInt8) : Parse (List UInt8 × List UInt8) := do
  if (← ask buf.head?) ≠ 0x02 then ask none
  else do
    let (len, rest) ← decodeDerLen (← tail buf 1)
    let val ← front rest len
    return (dropZero val, ← tail rest len)

/-- `r` or `s`, copied to the right end of `half` zero octets. -/
def padded (half : ℕ) (val : List UInt8) : List UInt8 :=
  List.replicate (half - val.length) 0 ++ val

def ecdsaDerToP1363 (der : List UInt8) (half : ℕ) : Parse (List UInt8) := do
  let inner ← stripTlv der 0x30
  let (r, rest) ← stripInteger inner
  let (s, _) ← stripInteger rest
  if half < r.length ∨ half < s.length then ask none
  else return padded half r ++ padded half s

/-! ## No panics -/

section

variable {α β : Type} {P : α → Prop} {Q : β → Prop} {buf : List UInt8}

@[simp] theorem ask_some (a : α) : ask (some a) = pure a := rfl

theorem returns_ask (answer : Option α) : (ask answer).Returns (· ∈ answer) := by
  cases answer with
  | none => exact returns_throw ()
  | some a => exact returns_pure rfl

theorem tail_eq {a : ℕ} (h : a ≤ buf.length) : tail buf a = pure (buf.drop a) := by
  rw [tail, sliceFrom_eq_some h]
  rfl

theorem decodeDerLen_returns (buf : List UInt8) : (decodeDerLen buf).Returns fun _ ↦ True := by
  have hget {a : UInt8} {i : ℕ} (h : a ∈ buf[i]?) : i + 1 ≤ buf.length :=
    (List.getElem?_eq_some_iff.mp h).1
  refine (returns_ask _).bind fun first hfirst ↦ ?_
  rw [head?_eq_getElem?] at hfirst
  split_ifs
  · rw [tail_eq (hget hfirst)]
    exact returns_pure trivial
  · refine (returns_ask _).bind fun len hlen ↦ ?_
    rw [tail_eq (hget hlen)]
    exact returns_pure trivial
  · refine (returns_ask _).bind fun high _ ↦ (returns_ask _).bind fun low hlow ↦ ?_
    rw [tail_eq (hget hlow)]
    exact returns_pure trivial
  · exact returns_throw ()

/-- The step `strip_tlv` and `strip_integer` begin with. -/
theorem returns_of_head {tag : UInt8} {f : ℕ × List UInt8 → Parse β}
    (hf : ∀ p, (f p).Returns Q) :
    (do
      if (← ask buf.head?) ≠ tag then ask none
      else decodeDerLen (← tail buf 1) >>= f : Parse β).Returns Q := by
  refine (returns_ask _).bind fun first hfirst ↦ ?_
  split_ifs
  · exact returns_throw ()
  · rw [tail_eq (length_pos_of_mem (mem_of_mem_head? hfirst))]
    exact (decodeDerLen_returns _).bind fun p _ ↦ hf p

theorem stripTlv_returns (buf : List UInt8) (tag : UInt8) :
    (stripTlv buf tag).Returns fun _ ↦ True :=
  returns_of_head fun _ ↦ (returns_ask _).imp fun _ _ ↦ trivial

theorem stripInteger_returns (buf : List UInt8) : (stripInteger buf).Returns fun _ ↦ True := by
  refine returns_of_head fun p ↦ (returns_ask _).bind fun val hval ↦ ?_
  have hlen : p.1 ≤ p.2.length := (Option.ite_none_right_eq_some.mp hval).1.2
  rw [tail_eq hlen]
  exact returns_pure trivial

theorem length_padded {half : ℕ} {val : List UInt8} (h : val.length ≤ half) :
    (padded half val).length = half := by
  rw [padded, length_append, length_replicate]
  omega

theorem ecdsaDerToP1363_returns (der : List UInt8) (half : ℕ) :
    (ecdsaDerToP1363 der half).Returns fun sig ↦ sig.length = 2 * half := by
  refine (stripTlv_returns der 0x30).bind fun inner _ ↦ (stripInteger_returns inner).bind
    fun r _ ↦ (stripInteger_returns r.2).bind fun s _ ↦ ?_
  dsimp only
  split_ifs with hlong
  · exact returns_throw ()
  · refine returns_pure ?_
    rw [length_append, length_padded (by omega), length_padded (by omega)]
    omega

/-! ## The round trip -/

variable {rest content : List UInt8}

theorem decodeDerLen_lengthOctets {len : ℕ} (h : len < 65536) :
    decodeDerLen (lengthOctets len ++ rest) = pure (len, rest) := by
  unfold lengthOctets
  split_ifs with hshort hlong
  · have hnat := toNat_ofNat (n := len) (by omega)
    simp [decodeDerLen, tail_eq, hnat, hshort]
  · have hnat := toNat_ofNat hlong
    simp [decodeDerLen, tail_eq, hnat]
  · have hhigh := toNat_ofNat (n := len / 256) (by omega)
    have hlow := toNat_ofNat (n := len % 256) (by omega)
    have hsum : len / 256 * 256 + len % 256 = len := by omega
    simp [decodeDerLen, tail_eq, hhigh, hlow, hsum]

theorem front_append : front (content ++ rest) content.length = pure content := by
  have hle : content.length ≤ (content ++ rest).length := by simp
  rw [front, slice_eq_some (Nat.zero_le _) hle, drop_zero, Nat.sub_zero, take_left]
  rfl

theorem stripTlv_tlv (tag : UInt8) (h : content.length < 65536) :
    stripTlv (tlv tag content) tag = pure content := by
  have hfront : front content content.length = pure content := by
    simpa using @front_append [] content
  simp [stripTlv, tlv, tail_eq, decodeDerLen_lengthOctets h, hfront]

theorem stripInteger_tlv (h : content.length < 65536) :
    stripInteger (tlv 0x02 content ++ rest) = pure (dropZero content, rest) := by
  simp [stripInteger, tlv, tail_eq, decodeDerLen_lengthOctets h, front_append]

theorem padded_unsigned {bytes : List UInt8} (hne : bytes ≠ []) :
    (dropZero (unsigned bytes)).length ≤ bytes.length ∧
      padded bytes.length (dropZero (unsigned bytes)) = bytes := by
  obtain ⟨-, zeros, heq⟩ := unsigned_spec hne
  have hlength := congrArg List.length heq
  rw [length_append, length_replicate] at hlength
  refine ⟨by omega, ?_⟩
  rw [padded, show bytes.length - (dropZero (unsigned bytes)).length = zeros by omega]
  exact heq.symm

end

/-- What a strict reader takes as a SEQUENCE of two minimal INTEGERs. -/
def IsSignature (der : List UInt8) : Prop :=
  ∃ r s, readTlv 0x30 der = some (tlv 0x02 r ++ tlv 0x02 s, []) ∧
    readTlv 0x02 (tlv 0x02 r ++ tlv 0x02 s) = some (r, tlv 0x02 s) ∧
    readTlv 0x02 (tlv 0x02 s) = some (s, []) ∧ Minimal r ∧ Minimal s

theorem p1363_round_trip {half : ℕ} (hpos : 0 < half) (hle : half ≤ 66) {r s : List UInt8}
    (hr : r.length = half) (hs : s.length = half) :
    ∃ der, p1363ToDer (r ++ s) half = .ok der ∧ IsSignature der ∧
      ecdsaDerToP1363 der half = some (.ok (r ++ s)) := by
  have hrne : r ≠ [] := ne_nil_of_length_pos (by omega)
  have hsne : s ≠ [] := ne_nil_of_length_pos (by omega)
  have hrlen := length_unsigned_le hrne
  have hslen := length_unsigned_le hsne
  have hrtlv := length_tlv_le 0x02 (unsigned r)
  have hstlv := length_tlv_le 0x02 (unsigned s)
  have hinner : (tlv 0x02 (unsigned r) ++ tlv 0x02 (unsigned s)).length < 65536 := by
    rw [length_append]
    omega
  have hread := readTlv_tlv 0x30 [] hinner
  have hreads := readTlv_tlv 0x02 [] (show (unsigned s).length < 65536 by omega)
  rw [append_nil] at hread hreads
  refine ⟨tlv 0x30 (tlv 0x02 (unsigned r) ++ tlv 0x02 (unsigned s)), ?_, ⟨unsigned r, unsigned s,
    hread, readTlv_tlv 0x02 _ (by omega), hreads, (unsigned_spec hrne).1, (unsigned_spec hsne).1⟩,
    ?_⟩
  · rw [p1363ToDer, if_neg (by rw [length_append]; omega), ← hr, take_left,
      drop_left]
    rfl
  · obtain ⟨hrle, hrpad⟩ := padded_unsigned hrne
    obtain ⟨hsle, hspad⟩ := padded_unsigned hsne
    have hints := @stripInteger_tlv [] (unsigned s) (by omega)
    rw [append_nil] at hints
    rw [hr] at hrle hrpad
    rw [hs] at hsle hspad
    simp only [ecdsaDerToP1363, stripTlv_tlv 0x30 hinner, pure_bind, hints,
      stripInteger_tlv (show (unsigned r).length < 65536 by omega)]
    rw [if_neg (by omega), hrpad, hspad]
    rfl

/-- A signature of two coordinates is written as a SEQUENCE of two minimal
INTEGERs and read back, and octets that are read at all give two coordinates. -/
theorem ecdsa_conversions_agree {half : ℕ} (hhalf : half ∈ [32, 48, 66]) :
    (∀ r s : List UInt8, r.length = half → s.length = half →
      ∃ der, p1363ToDer (r ++ s) half = .ok der ∧ IsSignature der ∧
        ecdsaDerToP1363 der half = some (.ok (r ++ s))) ∧
      ∀ der, ∃ answer, ecdsaDerToP1363 der half = some answer ∧
        ∀ sig, answer = .ok sig → sig.length = 2 * half := by
  have hrange : 0 < half ∧ half ≤ 66 := by
    simp only [mem_cons, not_mem_nil, or_false] at hhalf
    omega
  exact ⟨fun _ _ ↦ p1363_round_trip hrange.1 hrange.2,
    fun der ↦ ecdsaDerToP1363_returns der half⟩

theorem p256_conversions_agree :
    ∃ der, p1363ToDer (List.replicate 32 0xff ++ List.replicate 32 0) 32 = .ok der ∧
      IsSignature der ∧
        ecdsaDerToP1363 der 32 = some (.ok (List.replicate 32 0xff ++ List.replicate 32 0)) :=
  (@ecdsa_conversions_agree 32 (by decide)).1 _ _ rfl rfl

end Akamu.Jose
