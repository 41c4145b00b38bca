import Mathlib.Algebra.Group.Nat.Defs
import Mathlib.Data.List.Basic

/-!
# Framed byte strings

Fields of a binary message: text behind an octet that gives its length, words
of either byte order, and slices that fail out of bounds.  What a frame holds
can be read back from any continuation.
-/

namespace Framing

open List

def utf8 (s : String) : List UInt8 := s.toUTF8.data.toList

theorem utf8_injective {s t : String} (h : utf8 s = utf8 t) : s = t := by
  have hdata : s.toUTF8.data = t.toUTF8.data := Array.toList_inj.mp h
  exact String.toByteArray_inj.mp (ByteArray.ext hdata)

theorem fromUTF8?_utf8 (s : String) : String.fromUTF8? ⟨(utf8 s).toArray⟩ = some s := by
  have harray : (⟨(utf8 s).toArray⟩ : ByteArray) = s.toUTF8 := rfl
  have hvalid : s.toUTF8.IsValidUTF8 := s.isValidUTF8
  rw [harray, String.fromUTF8?, dif_pos hvalid]
  rfl

theorem utf8_eq_flatMap (s : String) : utf8 s = s.toList.flatMap String.utf8EncodeChar := by
  rw [utf8, String.toUTF8, ← String.utf8Encode_toList, List.utf8Encode]
  simp

variable {data : List UInt8} {b : UInt8}

theorem eq_of_mem_utf8EncodeChar {c : Char} (h : b ∈ String.utf8EncodeChar c) (hb : b.toNat < 128) :
    b.toNat = c.toNat := by
  have hc : c.val.toNat = c.toNat := rfl
  unfold String.utf8EncodeChar at h
  dsimp only at h
  rw [hc] at h
  split_ifs at h <;> simp only [mem_cons, not_mem_nil, or_false] at h
  · subst h
    rw [UInt8.toNat_ofNat']
    omega
  -- the octets of a longer encoding all have the high bit
  all_goals
    exfalso
    rcases h with rfl | rfl | rfl | rfl <;> simp only [UInt8.toNat_ofNat'] at hb <;> omega

theorem exists_char_of_mem_utf8 {s : String} (h : b ∈ utf8 s) (hb : b.toNat < 128) :
    ∃ c ∈ s.toList, c.toNat = b.toNat := by
  rw [utf8_eq_flatMap] at h
  obtain ⟨c, hc, hmem⟩ := mem_flatMap.mp h
  exact ⟨c, hc, (eq_of_mem_utf8EncodeChar hmem hb).symm⟩

def word64 (n : ℕ) : List UInt8 := (List.range 8).map fun i ↦ UInt8.ofNat (n / 256 ^ (7 - i))

@[simp] theorem length_word64 (n : ℕ) : (word64 n).length = 8 := by simp [word64]

theorem word64_injective {m n : ℕ} (hm : m < 2 ^ 64) (hn : n < 2 ^ 64)
    (h : word64 m = word64 n) : m = n := by
  have hoctet : ∀ i < 8, m / 256 ^ (7 - i) % 256 = n / 256 ^ (7 - i) % 256 := by
    intro i hi
    have hget := congrArg (fun l ↦ (l[i]?).map UInt8.toNat) h
    simpa [word64, hi, UInt8.toNat_ofNat'] using hget
  have h₀ := hoctet 0 (by decide)
  have h₁ := hoctet 1 (by decide)
  have h₂ := hoctet 2 (by decide)
  have h₃ := hoctet 3 (by decide)
  have h₄ := hoctet 4 (by decide)
  have h₅ := hoctet 5 (by decide)
  have h₆ := hoctet 6 (by decide)
  have h₇ := hoctet 7 (by decide)
  omega

/-- The low `k` octets of a number, least significant first. -/
def wordLe : ℕ → ℕ → List UInt8
  | 0, _ => []
  | k + 1, n => UInt8.ofNat n :: wordLe k (n / 256)

def readWordLe : List UInt8 → ℕ
  | [] => 0
  | b :: bs => b.toNat + 256 * readWordLe bs

@[simp] theorem length_wordLe (k n : ℕ) : (wordLe k n).length = k := by
  induction k generalizing n with
  | zero => rfl
  | succ k ih => rw [wordLe, length_cons, ih]

theorem readWordLe_wordLe {k n : ℕ} (h : n < 256 ^ k) : readWordLe (wordLe k n) = n := by
  induction k generalizing n with
  | zero =>
    rw [Nat.pow_zero] at h
    rw [wordLe, readWordLe]
    omega
  | succ k ih =>
    have hrest : n / 256 < 256 ^ k := by
      rw [Nat.pow_succ] at h
      exact Nat.div_lt_of_lt_mul (by omega)
    rw [wordLe, readWordLe, ih hrest, UInt8.toNat_ofNat']
    omega

/-! ## Slices -/

/-- `data[a..b]`, which fails out of bounds. -/
def slice (data : List UInt8) (a b : ℕ) : Option (List UInt8) :=
  if a ≤ b ∧ b ≤ data.length then some ((data.drop a).take (b - a)) else none

/-- `data[a..]` -/
def sliceFrom (data : List UInt8) (a : ℕ) : Option (List UInt8) := slice data a data.length

theorem slice_eq_some {a b : ℕ} (hab : a ≤ b) (hb : b ≤ data.length) :
    slice data a b = some ((data.drop a).take (b - a)) := if_pos ⟨hab, hb⟩

theorem sliceFrom_eq_some {a : ℕ} (h : a ≤ data.length) :
    sliceFrom data a = some (data.drop a) := by
  rw [sliceFrom, slice_eq_some h (Nat.le_refl _), ← length_drop, take_length]

theorem slice_append (front mid back : List UInt8) :
    slice (front ++ (mid ++ back)) front.length (front.length + mid.length) = some mid := by
  have hbounds : front.length ≤ front.length + mid.length ∧
      front.length + mid.length ≤ (front ++ (mid ++ back)).length := by
    simp only [length_append]
    omega
  rw [slice, if_pos hbounds, drop_left, Nat.add_sub_cancel_left, take_left]

theorem sliceFrom_append (front back : List UInt8) :
    sliceFrom (front ++ back) front.length = some back := by
  have hslice := slice_append front back []
  rw [append_nil] at hslice
  rw [sliceFrom, length_append, hslice]

theorem findIdx?_append_cons {p : UInt8 → Bool} {front : List UInt8} (back : List UInt8)
    (hfront : ∀ x ∈ front, p x = false) (hb : p b = true) :
    (front ++ b :: back).findIdx? p = some front.length := by
  induction front with
  | nil => simp [findIdx?_cons, hb]
  | cons x front ih =>
    have hx : p x = false := hfront x mem_cons_self
    have htail := ih fun y hy ↦ hfront y (mem_cons_of_mem x hy)
    rw [cons_append, findIdx?_cons, hx, htail]
    rfl

def field (bytes : List UInt8) : List UInt8 := UInt8.ofNat bytes.length :: bytes

theorem field_append_inj {a b r s : List UInt8} (ha : a.length ≤ 255) (hb : b.length ≤ 255)
    (h : field a ++ r = field b ++ s) : a = b ∧ r = s := by
  rw [field, field, cons_append, cons_append] at h
  obtain ⟨hlength, hrest⟩ := List.cons.inj h
  have hnat : a.length = b.length := by
    have htoNat := congrArg UInt8.toNat hlength
    rw [UInt8.toNat_ofNat', UInt8.toNat_ofNat'] at htoNat
    omega
  exact append_inj hrest hnat

end Framing
