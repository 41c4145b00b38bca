import Mathlib.Data.List.Induction
import Mathlib.Tactic.Linarith

/-!
# Values in DER

A tag, the length in as few octets as possible, and the content.  The reader
takes exactly what the writer makes.
-/

namespace Der

open List

def lengthOctets (len : ℕ) : List UInt8 :=
  if len < 128 then [.ofNat len]
  else if len < 256 then [0x81, .ofNat len]
  else [0x82, .ofNat (len / 256), .ofNat (len % 256)]

def tlv (tag : UInt8) (content : List UInt8) : List UInt8 :=
  tag :: (lengthOctets content.length ++ content)

def readLong : UInt8 → List UInt8 → Option (ℕ × List UInt8)
  | 0x81, a :: rest => if a.toNat < 128 then none else some (a.toNat, rest)
  | 0x82, a :: b :: rest => if a.toNat = 0 then none else some (a.toNat * 256 + b.toNat, rest)
  | _, _ => none

def readLength : List UInt8 → Option (ℕ × List UInt8)
  | [] => none
  | a :: rest => if a.toNat < 128 then some (a.toNat, rest) else readLong a rest

/-- The content under the tag, and what follows it. -/
def readTlv (tag : UInt8) : List UInt8 → Option (List UInt8 × List UInt8)
  | [] => none
  | t :: rest =>
    if t = tag then
      (readLength rest).bind fun p ↦
        if p.1 ≤ p.2.length then some (p.2.take p.1, p.2.drop p.1) else none
    else none

section

variable {tag : UInt8} {bytes content rest : List UInt8}

theorem toNat_ofNat {n : ℕ} (h : n < 256) : (UInt8.ofNat n).toNat = n := by
  rw [UInt8.toNat_ofNat']
  omega

variable {len : ℕ}

theorem readLength_lengthOctets (h : len < 65536) :
    readLength (lengthOctets len ++ rest) = some (len, rest) := by
  unfold lengthOctets
  split_ifs with hshort hlong
  · have hnat := toNat_ofNat (n := len) (by omega)
    rw [singleton_append, readLength, if_pos (by omega), hnat]
  · have hnat := toNat_ofNat hlong
    rw [cons_append, singleton_append, readLength, if_neg (by decide), readLong,
      if_neg (by omega), hnat]
  · have hhigh := toNat_ofNat (n := len / 256) (by omega)
    have hlow := toNat_ofNat (n := len % 256) (by omega)
    have hsum : len / 256 * 256 + len % 256 = len := by omega
    rw [cons_append, cons_append, singleton_append, readLength,
      if_neg (by decide), readLong, if_neg (by omega), hhigh, hlow, hsum]

theorem readTlv_tlv (tag : UInt8) (rest : List UInt8) (h : content.length < 65536) :
    readTlv tag (tlv tag content ++ rest) = some (content, rest) := by
  simp [readTlv, tlv, readLength_lengthOctets h]

theorem length_tlv_le (tag : UInt8) (content : List UInt8) :
    (tlv tag content).length ≤ content.length + 4 := by
  unfold tlv lengthOctets
  split_ifs <;> simp

theorem eq_of_readLong {a : UInt8} (h : readLong a bytes = some (len, rest)) :
    a :: bytes = lengthOctets len ++ rest := by
  unfold readLong at h
  split at h
  · rename_i b tail
    have hb := b.toNat_lt
    split_ifs at h
    cases h
    rw [lengthOctets, if_neg (by omega), if_pos (by omega), UInt8.ofNat_toNat]
    rfl
  · rename_i b c tail
    have hc := c.toNat_lt
    split_ifs at h
    cases h
    have hhigh : (b.toNat * 256 + c.toNat) / 256 = b.toNat := by omega
    have hlow : (b.toNat * 256 + c.toNat) % 256 = c.toNat := by omega
    rw [lengthOctets, if_neg (by omega), if_neg (by omega), hhigh, hlow, UInt8.ofNat_toNat,
      UInt8.ofNat_toNat]
    rfl
  · cases h

theorem eq_of_readLength (h : readLength bytes = some (len, rest)) :
    bytes = lengthOctets len ++ rest := by
  cases bytes with
  | nil => cases h
  | cons =>
    rw [readLength] at h
    split at h
    · rename_i hshort
      cases h
      rw [lengthOctets, if_pos hshort, UInt8.ofNat_toNat]
      rfl
    · exact eq_of_readLong h

theorem eq_of_readTlv (h : readTlv tag bytes = some (content, rest)) :
    bytes = tlv tag content ++ rest := by
  unfold readTlv at h
  split at h
  · cases h
  · split_ifs at h with htag
    obtain ⟨⟨len, body⟩, hlen, h⟩ := Option.bind_eq_some_iff.mp h
    split_ifs at h with hle
    cases h
    rw [eq_of_readLength hlen, htag, tlv, length_take_of_le hle]
    simp

/-! ## Length octets of any form -/

def bigEndian (octets : List UInt8) : ℕ := octets.foldl (fun n b ↦ n * 256 + b.toNat) 0

theorem bigEndian_lt (octets : List UInt8) : bigEndian octets < 256 ^ octets.length := by
  induction octets using List.reverseRecOn with
  | nil => exact Nat.one_pos
  | append_singleton octets b ih =>
    have hb := b.toNat_lt
    rw [bigEndian, foldl_append, ← bigEndian, length_append, length_singleton,
      Nat.pow_succ]
    dsimp only [foldl_cons, foldl_nil]
    omega

/-- The length some octets give: one below 128, or their number and a
big-endian number. -/
def lengthOf : List UInt8 → Option ℕ
  | [] => none
  | a :: octets =>
    if a.toNat < 128 ∧ octets = [] then some a.toNat
    else if 128 < a.toNat ∧ a.toNat = 128 + octets.length then some (bigEndian octets)
    else none

/-- A tag of one octet, a length and as much content. -/
def IsElement (tag : UInt8) (content bytes : List UInt8) : Prop :=
  ∃ octets, lengthOf octets = some content.length ∧ bytes = tag :: (octets ++ content)

/-- An element in the middle of some octets. -/
theorem exists_element_slice {pos lb : ℕ}
    (hlen : lengthOf ((bytes.drop (pos + 1)).take lb) = some len)
    (h : pos + (1 + (lb + len)) ≤ bytes.length) :
    ∃ tag octets content, octets.length ≤ lb ∧ lengthOf octets = some content.length ∧
      content = (bytes.drop (pos + 1 + lb)).take len ∧
      (bytes.drop pos).take (1 + (lb + len)) = tag :: (octets ++ content) := by
  refine ⟨bytes.get ⟨pos, by omega⟩, (bytes.drop (pos + 1)).take lb, _, length_take_le _ _, ?_,
    rfl, ?_⟩
  · rw [hlen, length_take_of_le (by rw [length_drop]; omega)]
  · rw [drop_eq_getElem_cons (by omega), Nat.add_comm 1, take_succ_cons, take_add,
      drop_drop]
    rfl

/-- The octets of a length say where they end. -/
theorem lengthOf_append_inj {octets octets' tail tail' : List UInt8} {len' : ℕ}
    (h : lengthOf octets = some len) (h' : lengthOf octets' = some len')
    (heq : octets ++ tail = octets' ++ tail') : octets = octets' := by
  cases octets with
  | nil => cases h
  | cons a octets =>
    cases octets' with
    | nil => cases h'
    | cons a' octets' =>
      rw [cons_append, cons_append] at heq
      obtain ⟨rfl, htail⟩ := cons.inj heq
      rw [lengthOf] at h h'
      have hlength : octets.length = octets'.length := by
        split_ifs at h h' with hshort hshort' hlong hlong'
        · rw [hshort.2, hshort'.2]
        · omega
        · omega
        · omega
      rw [(append_inj htail hlength).1]

theorem IsElement.two_le_length (h : IsElement tag content bytes) : 2 ≤ bytes.length := by
  obtain ⟨octets, hlength, rfl⟩ := h
  cases octets with
  | nil => cases hlength
  | cons => simp

end

/-! ## Non-negative integers -/

/-- Big-endian octets without leading zeros, but at least one of them. -/
def trim : List UInt8 → List UInt8
  | 0 :: b :: bytes => trim (b :: bytes)
  | bytes => bytes

def unsigned (bytes : List UInt8) : List UInt8 :=
  if 128 ≤ ((trim bytes).headD 0).toNat then 0 :: trim bytes else trim bytes

/-- The shortest content of a non-negative INTEGER. -/
def Minimal : List UInt8 → Prop
  | [] => False
  | [a] => a.toNat < 128
  | a :: b :: _ => a.toNat < 128 ∧ (a = 0 → 128 ≤ b.toNat)

def dropZero : List UInt8 → List UInt8
  | 0 :: bytes => bytes
  | bytes => bytes

variable {bytes : List UInt8}

theorem trim_spec (h : bytes ≠ []) : ∃ zeros a rest,
    bytes = List.replicate zeros 0 ++ a :: rest ∧ trim bytes = a :: rest ∧ (a = 0 → rest = []) := by
  induction bytes using trim.induct with
  | case1 b bytes ih =>
    obtain ⟨zeros, a, rest, heq, htrim, hzero⟩ := ih (cons_ne_nil b bytes)
    exact ⟨zeros + 1, a, rest, by rw [heq]; rfl, htrim, hzero⟩
  | case2 bytes hstop =>
    obtain ⟨a, rest, rfl⟩ := exists_cons_of_ne_nil h
    refine ⟨0, a, rest, rfl, by rw [trim]; exact hstop, ?_⟩
    rintro rfl
    cases rest with
    | nil => rfl
    | cons b rest => exact absurd rfl (hstop b rest)

theorem unsigned_spec (h : bytes ≠ []) : Minimal (unsigned bytes) ∧
    ∃ zeros, bytes = List.replicate zeros 0 ++ dropZero (unsigned bytes) := by
  obtain ⟨zeros, a, rest, rfl, htrim, hzero⟩ := trim_spec h
  rw [unsigned, htrim, headD_cons]
  split
  next hhigh => exact ⟨⟨by decide, fun _ ↦ hhigh⟩, zeros, rfl⟩
  next hlow =>
    by_cases ha : a = 0
    · obtain rfl := hzero ha
      subst ha
      refine ⟨Nat.not_le.mp hlow, zeros + 1, ?_⟩
      rw [replicate_succ', append_assoc]
      rfl
    · refine ⟨?_, zeros, ?_⟩
      · cases rest with
        | nil => exact Nat.not_le.mp hlow
        | cons => exact ⟨Nat.not_le.mp hlow, fun h ↦ absurd h ha⟩
      · rw [dropZero]
        exact fun _ heq ↦ ha (List.cons.inj heq).1

theorem length_unsigned_le (h : bytes ≠ []) : (unsigned bytes).length ≤ bytes.length + 1 := by
  obtain ⟨-, zeros, heq⟩ := unsigned_spec h
  have hlength := congrArg List.length heq
  rw [length_append, length_replicate] at hlength
  have hdrop (l : List UInt8) : l.length ≤ (dropZero l).length + 1 := by
    unfold dropZero
    split <;> simp
  exact (hdrop _).trans (by omega)

end Der
