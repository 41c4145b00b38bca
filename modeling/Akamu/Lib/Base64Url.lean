import Mathlib.Data.List.Basic
import Mathlib.Tactic.SplitIfs

/-!
# Base64url without padding

The strict variant: a text whose last digit has bits to spare is accepted only
if these are zero.  So each list of octets has one text.
-/

namespace Base64Url

open List Option

/-! ## Digits -/

def alphabet : List Char :=
  "ABCDEFGHIJKLMNOPQRSTUVWXYZabcdefghijklmnopqrstuvwxyz0123456789-_".toList

def digit (v : ℕ) : Char := alphabet.getD v 'A'

def value (c : Char) : Option ℕ := alphabet.findIdx? (· == c)

variable {v : ℕ} {c : Char} {bytes : List UInt8} {vs : List ℕ} {s : String}

theorem getElem_of_value (h : value c = some v) : ∃ hlt : v < alphabet.length, alphabet[v] = c := by
  obtain ⟨hlt, hfound, -⟩ := findIdx?_eq_some_iff_getElem.mp h
  exact ⟨hlt, by simpa using hfound⟩

theorem value_lt (h : value c = some v) : v < 64 :=
  (getElem_of_value h).1

theorem digit_of_value (h : value c = some v) : digit v = c := by
  obtain ⟨hlt, rfl⟩ := getElem_of_value h
  rw [digit, getD_eq_getElem?_getD, getElem?_eq_getElem hlt, getD_some]

theorem mem_alphabet_of_value (h : value c = some v) : c ∈ alphabet := by
  obtain ⟨hlt, rfl⟩ := getElem_of_value h
  exact getElem_mem hlt

theorem value_digit (h : v < 64) : value (digit v) = some v := by
  revert v
  decide

/-! ## Groups of six and of eight bits -/

def sextets : List UInt8 → List ℕ
  | [] => []
  | [a] => [a.toNat / 4, a.toNat % 4 * 16]
  | [a, b] => [a.toNat / 4, a.toNat % 4 * 16 + b.toNat / 16, b.toNat % 16 * 4]
  | a :: b :: c :: rest =>
    a.toNat / 4 :: (a.toNat % 4 * 16 + b.toNat / 16) :: (b.toNat % 16 * 4 + c.toNat / 64) ::
      c.toNat % 64 :: sextets rest

def octets : List ℕ → Option (List UInt8)
  | [] => some []
  | [_] => none
  | [u, v] => if v % 16 = 0 then some [.ofNat (u * 4 + v / 16)] else none
  | [u, v, w] =>
    if w % 4 = 0 then some [.ofNat (u * 4 + v / 16), .ofNat (v % 16 * 16 + w / 4)] else none
  | u :: v :: w :: x :: rest =>
    (octets rest).map fun bytes ↦
      .ofNat (u * 4 + v / 16) :: .ofNat (v % 16 * 16 + w / 4) :: .ofNat (w % 4 * 64 + x) :: bytes

theorem sextets_lt (bytes : List UInt8) : ∀ v ∈ sextets bytes, v < 64 := by
  fun_induction sextets bytes with
  | case1 => simp
  | case2 a =>
    have ha := a.toNat_lt
    simp only [mem_cons, not_mem_nil, or_false]
    rintro v (rfl | rfl) <;> omega
  | case3 a b =>
    have ha := a.toNat_lt
    have hb := b.toNat_lt
    simp only [mem_cons, not_mem_nil, or_false]
    rintro v (rfl | rfl | rfl) <;> omega
  | case4 a b c rest ih =>
    have ha := a.toNat_lt
    have hb := b.toNat_lt
    have hc := c.toNat_lt
    simp only [mem_cons]
    rintro v (rfl | rfl | rfl | rfl | hrest)
    · omega
    · omega
    · omega
    · omega
    · exact ih v hrest

theorem ofNat_eq_of_toNat {a : UInt8} {n : ℕ} (h : n = a.toNat) : UInt8.ofNat n = a := by
  rw [h, UInt8.ofNat_toNat]

theorem octets_sextets (bytes : List UInt8) : octets (sextets bytes) = some bytes := by
  fun_induction sextets bytes with
  | case1 => rfl
  | case2 a =>
    have h1 : UInt8.ofNat (a.toNat / 4 * 4 + a.toNat % 4 * 16 / 16) = a :=
      ofNat_eq_of_toNat (by omega)
    rw [octets, if_pos (by omega), h1]
  | case3 a b =>
    have hb := b.toNat_lt
    have h1 : UInt8.ofNat (a.toNat / 4 * 4 + (a.toNat % 4 * 16 + b.toNat / 16) / 16) = a :=
      ofNat_eq_of_toNat (by omega)
    have h2 : UInt8.ofNat ((a.toNat % 4 * 16 + b.toNat / 16) % 16 * 16 +
        b.toNat % 16 * 4 / 4) = b := ofNat_eq_of_toNat (by omega)
    rw [octets, if_pos (by omega), h1, h2]
  | case4 a b c rest ih =>
    have hb := b.toNat_lt
    have hc := c.toNat_lt
    have h1 : UInt8.ofNat (a.toNat / 4 * 4 + (a.toNat % 4 * 16 + b.toNat / 16) / 16) = a :=
      ofNat_eq_of_toNat (by omega)
    have h2 : UInt8.ofNat ((a.toNat % 4 * 16 + b.toNat / 16) % 16 * 16 +
        (b.toNat % 16 * 4 + c.toNat / 64) / 4) = b := ofNat_eq_of_toNat (by omega)
    have h3 : UInt8.ofNat ((b.toNat % 16 * 4 + c.toNat / 64) % 4 * 64 + c.toNat % 64) = c :=
      ofNat_eq_of_toNat (by omega)
    rw [octets, ih, map_some, h1, h2, h3]

theorem sextets_of_octets (h : octets vs = some bytes) (hlt : ∀ v ∈ vs, v < 64) :
    sextets bytes = vs := by
  fun_induction octets vs generalizing bytes with
  | case1 =>
    cases h
    rfl
  | case2 | case4 | case6 => cases h
  | case3 u v =>
    cases h
    have hu := hlt u (by simp)
    have hv := hlt v (by simp)
    simp only [sextets, UInt8.toNat_ofNat', List.cons.injEq, and_true]
    omega
  | case5 u v w =>
    cases h
    have hu := hlt u (by simp)
    have hv := hlt v (by simp)
    have hw := hlt w (by simp)
    simp only [sextets, UInt8.toNat_ofNat', List.cons.injEq, and_true]
    omega
  | case7 u v w x rest ih =>
    obtain ⟨tail, htail, rfl⟩ := map_eq_some_iff.mp h
    have hu := hlt u (by simp)
    have hv := hlt v (by simp)
    have hw := hlt w (by simp)
    have hx := hlt x (by simp)
    have hrest := ih htail fun z hz ↦ hlt z (by simp [hz])
    simp only [sextets, UInt8.toNat_ofNat', List.cons.injEq, hrest, and_true]
    omega

/-! ## Texts -/

def encode (bytes : List UInt8) : String := String.ofList ((sextets bytes).map digit)

def decode (s : String) : Option (List UInt8) := (s.toList.mapM value).bind octets

theorem mapM_value_digit (h : ∀ v ∈ vs, v < 64) : (vs.map digit).mapM value = some vs := by
  induction vs with
  | nil => rfl
  | cons v vs ih =>
    rw [map_cons, mapM_cons, value_digit (h v mem_cons_self),
      ih fun w hw ↦ h w (mem_cons_of_mem v hw)]
    rfl

theorem map_digit_of_mapM {cs : List Char} (h : cs.mapM value = some vs) :
    vs.map digit = cs ∧ (∀ v ∈ vs, v < 64) ∧ ∀ c ∈ cs, c ∈ alphabet := by
  induction cs generalizing vs with
  | nil =>
    cases h
    simp
  | cons c cs ih =>
    rw [mapM_cons] at h
    obtain ⟨v, hv, h⟩ := bind_eq_some_iff.mp h
    obtain ⟨ws, hws, h⟩ := bind_eq_some_iff.mp h
    cases h
    obtain ⟨hmap, hlt, hmem⟩ := ih hws
    refine ⟨by rw [map_cons, digit_of_value hv, hmap], ?_, ?_⟩
    · exact forall_mem_cons.mpr ⟨value_lt hv, hlt⟩
    · exact forall_mem_cons.mpr ⟨mem_alphabet_of_value hv, hmem⟩

theorem decode_encode (bytes : List UInt8) : decode (encode bytes) = some bytes := by
  rw [decode, encode, String.toList_ofList, mapM_value_digit (sextets_lt bytes), bind_some,
    octets_sextets]

theorem encode_injective : Function.Injective encode := by
  intro a b h
  have hdecode := congrArg decode h
  rw [decode_encode, decode_encode] at hdecode
  exact some.inj hdecode

theorem encode_of_decode (h : decode s = some bytes) : encode bytes = s := by
  obtain ⟨vs, hvs, hbytes⟩ := bind_eq_some_iff.mp h
  obtain ⟨hmap, hlt, -⟩ := map_digit_of_mapM hvs
  rw [encode, sextets_of_octets hbytes hlt, hmap, String.ofList_toList]

theorem decode_injective {t : String} (hs : decode s = some bytes) (ht : decode t = some bytes) :
    s = t := by
  rw [← encode_of_decode hs, encode_of_decode ht]

theorem mem_alphabet_of_decode (h : decode s = some bytes) : ∀ c ∈ s.toList, c ∈ alphabet := by
  obtain ⟨vs, hvs, -⟩ := bind_eq_some_iff.mp h
  exact (map_digit_of_mapM hvs).2.2

end Base64Url
