import Akamu.Lib.Der
import Akamu.Lib.Framing
import Akamu.Revocation.Crl
import Mathlib.Data.Finset.Dedup

/-!
# CRL numbers

`build_crl` numbers a list by the second in which it is signed.  The lists that
a run signs for one CA are collected in the order of signing.
-/

namespace Akamu

open Der Framing List Machine Tasks

/-- `encode_integer_der`; its length octet is the short form. -/
def encodeIntegerDer (n : ℕ) : List UInt8 :=
  0x02 :: UInt8.ofNat (unsigned (word64 n)).length :: unsigned (word64 n)

/-- The octets are an INTEGER without superfluous octets for the 64-bit number. -/
def IsMinimalInteger (n : ℕ) (der : List UInt8) : Prop :=
  ∃ content, readTlv 0x02 der = some (content, []) ∧ Minimal content ∧
    ∃ zeros, word64 n = List.replicate zeros 0 ++ dropZero content

theorem encodeIntegerDer_minimal (n : ℕ) : IsMinimalInteger n (encodeIntegerDer n) := by
  have hne : word64 n ≠ [] := ne_nil_of_length_pos (by rw [length_word64]; decide)
  have hlength := length_unsigned_le hne
  rw [length_word64] at hlength
  have hread := readTlv_tlv 0x02 [] (show (unsigned (word64 n)).length < 65536 by omega)
  rw [tlv, lengthOctets, if_pos (by omega), append_nil] at hread
  exact ⟨_, hread, unsigned_spec hne⟩

namespace CrlServer

/-- A call of `build_crl`: the second it reads from the clock, and what it is given. -/
structure Signing where
  now : Int
  ca : CaState
  revoked : List RevokedEntry

namespace Signing

variable {lib : CrlLibrary} {c : Signing} {crl : Crl}

def crl? (lib : CrlLibrary) (c : Signing) : Option Crl :=
  (buildCrl lib c.ca c.revoked c.now).toOption

theorem tbs_of_crl? (h : c.crl? lib = some crl) :
    crl.tbs.thisUpdate = c.now ∧ crl.tbs.revoked = c.revoked ∧
      crl.tbs.crlNumber = (c.now % 2 ^ 64).toNat := by
  obtain ⟨signature, -, rfl⟩ := Except.map_eq_ok (Except.toOption_eq_some_iff.mp h)
  exact ⟨rfl, rfl, rfl⟩

end Signing

/-- The call that a step makes for the CA. -/
def signingAt (caId : String) (s : Pool State Task) : Move Arrival Int → Option Signing
  | .advance i now =>
    match s.tasks[i]? with
    | some (.sign id ca revoked) => if id = caId then some ⟨now, ca, revoked⟩ else none
    | _ => none
  | _ => none

def signingsIn (env : Env) (lib : CrlLibrary) (caId : String) (s : Pool State Task) :
    List (Move Arrival Int) → List Signing
  | [] => []
  | e :: es =>
    (signingAt caId s e).toList ++ signingsIn env lib caId ((system env lib).step s e).1 es

/-- The lists that a run signs for the CA. -/
def signedIn (env : Env) (lib : CrlLibrary) (caId : String) (s : Pool State Task)
    (es : List (Move Arrival Int)) : List Crl :=
  (signingsIn env lib caId s es).filterMap (·.crl? lib)

/-- What the clock shows at the steps of a run. -/
def clockReadings (es : List (Move Arrival Int)) : List Int :=
  es.filterMap fun | .advance _ now => some now | _ => none

/-- Of two lists with different dates or different entries the later one has the
higher number. -/
def Numbered (a b : Crl) : Prop :=
  a.tbs.thisUpdate ≠ b.tbs.thisUpdate ∨ a.tbs.revoked.toFinset ≠ b.tbs.revoked.toFinset →
    a.tbs.crlNumber < b.tbs.crlNumber

/-- Two calls that both sign, for different entries, are not made in one second. -/
def Apart (lib : CrlLibrary) (a b : Signing) : Prop :=
  (a.crl? lib).isSome → (b.crl? lib).isSome → a.revoked.toFinset ≠ b.revoked.toFinset →
    a.now ≠ b.now

variable {env : Env} {lib : CrlLibrary} {caId : String} {s : Pool State Task}
  {es : List (Move Arrival Int)}

theorem signingAt_eq_some {e : Move Arrival Int} {c : Signing} (h : signingAt caId s e = some c) :
    ∃ i, e = .advance i c.now := by
  unfold signingAt at h
  split at h
  · split at h
    · obtain ⟨-, ⟨⟩⟩ := Option.ite_none_right_eq_some.mp h
      exact ⟨_, rfl⟩
    · cases h
  · cases h

theorem signings_sublist (s : Pool State Task) (es : List (Move Arrival Int)) :
    ((signingsIn env lib caId s es).map (·.now)).Sublist (clockReadings es) := by
  induction es generalizing s with
  | nil => exact .slnil
  | cons e es ih =>
    rw [signingsIn, map_append]
    cases hsigning : signingAt caId s e with
    | none => exact (ih _).trans ((sublist_cons_self e es).filterMap _)
    | some =>
      obtain ⟨i, rfl⟩ := signingAt_eq_some hsigning
      exact (ih _).cons_cons _

/-- For a pair of calls on a clock that does not go back. -/
theorem numbered_iff_apart {a b : Signing} (hle : a.now ≤ b.now) (ha : 0 ≤ a.now)
    (hb : b.now < 2 ^ 64) :
    (∀ x, a.crl? lib = some x → ∀ y, b.crl? lib = some y → Numbered x y) ↔ Apart lib a b := by
  constructor
  · intro h hsigna hsignb hdiffer hsame
    obtain ⟨x, hx⟩ := Option.isSome_iff_exists.mp hsigna
    obtain ⟨y, hy⟩ := Option.isSome_iff_exists.mp hsignb
    obtain ⟨-, hxrevoked, hxnumber⟩ := Signing.tbs_of_crl? hx
    obtain ⟨-, hyrevoked, hynumber⟩ := Signing.tbs_of_crl? hy
    have hlt := h x hx y hy (.inr (by rwa [hxrevoked, hyrevoked]))
    rw [hxnumber, hynumber, hsame] at hlt
    exact hlt.false
  · intro hapart x hx y hy hdiffer
    obtain ⟨hxdate, hxrevoked, hxnumber⟩ := Signing.tbs_of_crl? hx
    obtain ⟨hydate, hyrevoked, hynumber⟩ := Signing.tbs_of_crl? hy
    rw [hxdate, hydate, hxrevoked, hyrevoked] at hdiffer
    have hne : a.now ≠ b.now :=
      hdiffer.elim id (hapart (Option.isSome_of_eq_some hx) (Option.isSome_of_eq_some hy))
    rw [hxnumber, hynumber]
    omega

/-- A list is signed, a certificate is revoked and the next list is signed, at
the times given for the two lists. -/
def rebuiltEvents (first second : Int) : List (Move Arrival Int) :=
  [.arrive (.getCrl "ca"), .advance 0 first, .advance 0 first, .advance 0 first, .advance 0 first,
    .arrive (.postRevoke "cert-1" 1 none first), .advance 0 first, .advance 0 first,
    .advance 0 first, .arrive (.getCrl "ca"), .advance 0 second, .advance 0 second,
    .advance 0 second]

end CrlServer

end Akamu
