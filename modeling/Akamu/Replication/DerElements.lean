import Akamu.Lib.Attempt
import Akamu.Lib.Der
import Akamu.Lib.Framing
import Akamu.Replication.KeyWrap

/-!
# The elements of a SET

`iter_der_elements` of `gossip/crypto.rs` cuts the recipients of an envelope
apart.  A panic is an index out of bounds or an overflow.
-/

namespace Akamu.Cms

open Attempt Der Framing KeyWrap List

/-- Addition on `usize`. -/
def addUsize (a b : ℕ) : Attempt CmsError ℕ :=
  orPanic (if a + b < 2 ^ 64 then some (a + b) else none)

/-- The length, and how many octets gave it. -/
def decodeDerLength (data : List UInt8) : Attempt CmsError (ℕ × ℕ) :=
  match data.head? with
  | none => throw .parseError
  | some first =>
    if first.toNat < 0x80 then pure (first.toNat, 1)
    else
      let n := (first &&& 0x7f).toNat
      if n = 0 ∨ 4 < n ∨ data.length < 1 + n then throw .parseError
      else do
        let octets ← orPanic (slice data 1 (1 + n))
        return (octets.foldl (fun len b ↦ len <<< 8 ||| b.toNat) 0, 1 + n)

/-- The `while` loop, with a bound on its turns. -/
def elementsFrom (setDer : List UInt8) (stop : ℕ) : ℕ → ℕ → Attempt CmsError (List (List UInt8))
  | 0, _ => orPanic none
  | turns + 1, pos =>
    if stop < pos + 2 then pure []
    else do
      let (elemLen, lb) ← decodeDerLength (← orPanic (sliceFrom setDer (pos + 1)))
      let next ← addUsize (pos + 1) (← addUsize lb elemLen)
      if stop < next then throw .parseError
      else do
        let element ← orPanic (slice setDer pos next)
        return element :: (← elementsFrom setDer stop turns next)

def iterDerElements (setDer : List UInt8) : Attempt CmsError (List (List UInt8)) :=
  if setDer.length < 2 then pure []
  else do
    let (outerLen, lb) ← decodeDerLength (← orPanic (sliceFrom setDer 1))
    let stop ← addUsize (1 + lb) outerLen
    if setDer.length < stop then throw .parseError
    else elementsFrom setDer stop setDer.length (1 + lb)

section

variable {a b pos stop : ℕ} {setDer : List UInt8}

theorem addUsize_eq (h : a + b < 2 ^ 64) : addUsize a b = pure (a + b) := by
  rw [addUsize, if_pos h, orPanic_some]

theorem toNat_and_127 (b : UInt8) : (b &&& 0x7f).toNat = b.toNat % 2 ^ 7 :=
  Nat.and_two_pow_sub_one_eq_mod b.toNat 7

theorem foldl_shift_eq (octets : List UInt8) :
    octets.foldl (fun len b ↦ len <<< 8 ||| b.toNat) 0 = bigEndian octets := by
  refine foldl_ext _ _ _ fun n b _ ↦ ?_
  rw [← Nat.shiftLeft_add_eq_or_of_lt b.toNat_lt, Nat.shiftLeft_eq]

theorem decodeDerLength_returns (data : List UInt8) : (decodeDerLength data).Returns
    fun (p : ℕ × ℕ) ↦ p.1 < 2 ^ 32 ∧ p.2 ≤ 5 ∧ lengthOf (data.take p.2) = some p.1 := by
  unfold decodeDerLength
  cases data with
  | nil => exact returns_throw _
  | cons first rest =>
    have hfirst := first.toNat_lt
    dsimp only [head?_cons]
    split_ifs with hshort hbad
    · exact returns_pure ⟨by omega, by omega, if_pos ⟨hshort, rfl⟩⟩
    · exact returns_throw _
    · have hn := toNat_and_127 first
      rw [length_cons] at hbad
      generalize (first &&& 0x7f).toNat = n at hn hbad ⊢
      rw [slice_eq_some (by omega) (by rw [length_cons]; omega), orPanic_some, pure_bind,
        foldl_shift_eq]
      rw [drop_one, tail_cons, Nat.add_sub_cancel_left]
      have hlength : (rest.take n).length = n := length_take_of_le (by omega)
      have hlt := bigEndian_lt (rest.take n)
      have hpow : 256 ^ (rest.take n).length ≤ 256 ^ 4 :=
        Nat.pow_le_pow_right (by omega) (by omega)
      apply returns_pure
      refine ⟨by omega, by omega, ?_⟩
      rw [Nat.add_comm, take_succ_cons, lengthOf, if_neg (by omega), if_pos (by omega)]

def Complete (elements : List (List UInt8)) : Prop :=
  ∀ e ∈ elements, ∃ tag content, IsElement tag content e

/-- An element whose length is given by at most five octets. -/
def Readable (content bytes : List UInt8) : Prop :=
  ∃ tag octets, octets.length ≤ 5 ∧ lengthOf octets = some content.length ∧
    bytes = tag :: (octets ++ content)

theorem Readable.isElement {content bytes : List UInt8} (h : Readable content bytes) :
    ∃ tag, IsElement tag content bytes := by
  obtain ⟨tag, octets, -, hlength, hbytes⟩ := h
  exact ⟨tag, octets, hlength, hbytes⟩

/-- All of `content` is cut up, but for an octet that may be left. -/
structure CutUp (content : List UInt8) (elements : List (List UInt8)) (lone : List UInt8) :
    Prop where
  readable : ∀ e ∈ elements, ∃ content, Readable content e
  length_le : lone.length ≤ 1
  eq : content = elements.flatten ++ lone

theorem CutUp.complete {content lone : List UInt8} {elements : List (List UInt8)}
    (h : CutUp content elements lone) : Complete elements := by
  intro e he
  obtain ⟨content, hread⟩ := h.readable e he
  obtain ⟨tag, helement⟩ := hread.isElement
  exact ⟨tag, content, helement⟩

theorem elementsFrom_returns {turns : ℕ} (hsize : setDer.length < 2 ^ 63)
    (hstop : stop ≤ setDer.length) (hpos : pos ≤ stop) (hturns : stop - pos < turns) :
    (elementsFrom setDer stop turns pos).Returns fun elements ↦
      ∃ lone, CutUp ((setDer.drop pos).take (stop - pos)) elements lone := by
  induction turns generalizing pos with
  | zero => omega
  | succ turns ih =>
    rw [elementsFrom]
    split
    next hend =>
      refine returns_pure ⟨_, forall_mem_nil _, ?_, rfl⟩
      rw [length_take]
      omega
    next hmore =>
      rw [sliceFrom_eq_some (by omega), orPanic_some, pure_bind]
      refine (decodeDerLength_returns _).bind fun ⟨elemLen, lb⟩ ⟨hlen, hlb, hread⟩ ↦ ?_
      dsimp only at hlen hlb hread ⊢
      rw [addUsize_eq (by omega), pure_bind, addUsize_eq (by omega), pure_bind]
      split
      next => exact returns_throw _
      next hfits =>
        rw [slice_eq_some (by omega) (by omega), orPanic_some, pure_bind]
        refine (ih (by omega) (by omega)).bind fun elements ⟨lone, hall, hlone, hrest⟩ ↦ ?_
        have hnext : pos + 1 + (lb + elemLen) - pos = 1 + (lb + elemLen) := by omega
        rw [hnext]
        obtain ⟨tag, octets, content, hoctets, hlength, -, helement⟩ :=
          exists_element_slice hread (by omega)
        have hfirst : Readable content _ := ⟨tag, octets, hoctets.trans hlb, hlength, helement⟩
        refine returns_pure ⟨lone, forall_mem_cons.mpr ⟨⟨content, hfirst⟩, hall⟩, hlone, ?_⟩
        have hsum : stop - pos = 1 + (lb + elemLen) + (stop - (pos + 1 + (lb + elemLen))) := by
          omega
        rw [flatten_cons, append_assoc, ← hrest, hsum, take_add, drop_drop,
          Nat.add_assoc pos]

theorem iterDerElements_returns (hsize : setDer.length < 2 ^ 63) :
    (iterDerElements setDer).Returns fun elements ↦ 2 ≤ setDer.length →
      ∃ content first rest lone, Readable content first ∧ setDer = first ++ rest ∧
        CutUp content elements lone := by
  unfold iterDerElements
  split
  next hshort => exact returns_pure fun h ↦ absurd hshort (by omega)
  next hlong =>
    rw [sliceFrom_eq_some (by omega), orPanic_some, pure_bind]
    refine (decodeDerLength_returns _).bind fun ⟨outerLen, lb⟩ ⟨hlen, hlb, hread⟩ ↦ ?_
    dsimp only at hlen hlb hread ⊢
    rw [addUsize_eq (by omega), pure_bind]
    split
    next => exact returns_throw _
    next hfits =>
      refine (elementsFrom_returns hsize (by omega) (by omega) (by omega)).imp
        fun elements ⟨lone, hcut⟩ _ ↦ ?_
      obtain ⟨tag, octets, content, hoctets, hlength, hcontent, houter⟩ :=
        @exists_element_slice setDer outerLen 0 lb hread (by omega)
      rw [Nat.add_sub_cancel_left, ← hcontent] at hcut
      exact ⟨content, _, _, lone, ⟨tag, octets, hoctets.trans hlb, hlength, houter⟩,
        (take_append_drop _ setDer).symm, hcut⟩

/-! ## What is cut up is returned -/

theorem decodeDerLength_append {octets : List UInt8} {len : ℕ} (tail : List UInt8)
    (hshort : octets.length ≤ 5) (h : lengthOf octets = some len) :
    decodeDerLength (octets ++ tail) = pure (len, octets.length) := by
  cases octets with
  | nil => cases h
  | cons first octets =>
    have hn := toNat_and_127 first
    have hfirst := first.toNat_lt
    rw [length_cons] at hshort
    rw [lengthOf] at h
    simp only [decodeDerLength, cons_append, head?_cons]
    split_ifs at h with hone hmany
    · cases h
      rw [if_pos hone.1, hone.2]
      rfl
    · cases h
      have hcount : (first &&& 0x7f).toNat = octets.length := by omega
      have hnonempty : octets.length ≠ 0 := by omega
      rw [hcount, if_neg (by omega), if_neg (by simp [hnonempty]; omega),
        slice_eq_some (by omega) (by simp; omega), orPanic_some, pure_bind, foldl_shift_eq,
        drop_one, tail_cons, Nat.add_sub_cancel_left, take_left, length_cons, Nat.add_comm]

theorem elementsFrom_cons {content front e after : List UInt8} (turns : ℕ) (he : Readable content e)
    (hstop : (front ++ e).length ≤ stop) (hsize : (front ++ (e ++ after)).length < 2 ^ 63) :
    elementsFrom (front ++ (e ++ after)) stop (turns + 1) front.length = (do
      return e :: (← elementsFrom (front ++ (e ++ after)) stop turns (front ++ e).length)) := by
  obtain ⟨tag, octets, hshort, hlength, rfl⟩ := he
  have hnonempty : octets ≠ [] := by
    rintro rfl
    cases hlength
  have hpos := length_pos_iff.mpr hnonempty
  have hbody := sliceFrom_append (front ++ [tag]) (octets ++ (content ++ after))
  have helement := slice_append front (tag :: (octets ++ content)) after
  have hbytes : front ++ [tag] ++ (octets ++ (content ++ after)) =
      front ++ (tag :: (octets ++ content) ++ after) := by simp
  have hnext : front.length + (tag :: (octets ++ content)).length =
      front.length + 1 + (octets.length + content.length) := by
    simp only [length_cons, length_append]
    omega
  rw [hbytes, length_append, length_singleton] at hbody
  rw [hnext] at helement
  rw [length_append, hnext] at hstop
  rw [length_append, length_append, ← Nat.add_assoc, hnext] at hsize
  rw [elementsFrom, if_neg (by omega), hbody, orPanic_some, pure_bind,
    decodeDerLength_append _ hshort hlength, pure_bind]
  dsimp only
  rw [addUsize_eq (by omega), pure_bind, addUsize_eq (by omega), pure_bind, if_neg (by omega),
    helement, orPanic_some, pure_bind, length_append, hnext]

theorem elementsFrom_eq {elements : List (List UInt8)} {content lone : List UInt8}
    (h : CutUp content elements lone) (front back : List UInt8) (turns : ℕ)
    (hsize : (front ++ (content ++ back)).length < 2 ^ 63) (hturns : content.length < turns) :
    elementsFrom (front ++ (content ++ back)) (front.length + content.length) turns front.length =
      pure elements := by
  obtain ⟨hread, hlone, rfl⟩ := h
  induction elements generalizing front turns with
  | nil =>
    obtain ⟨turns, rfl⟩ := Nat.exists_eq_succ_of_ne_zero (Nat.ne_zero_of_lt hturns)
    rw [elementsFrom, if_pos (by simp; omega)]
  | cons e elements ih =>
    obtain ⟨⟨content, he⟩, hread⟩ := forall_mem_cons.mp hread
    obtain ⟨turns, rfl⟩ := Nat.exists_eq_succ_of_ne_zero (Nat.ne_zero_of_lt hturns)
    obtain ⟨tag, helement⟩ := he.isElement
    have htwo := helement.two_le_length
    have hbytes : front ++ ((e :: elements).flatten ++ lone ++ back) =
        front ++ (e ++ (elements.flatten ++ lone ++ back)) := by simp
    have hlater := ih (front ++ e) turns
    rw [append_assoc front] at hlater
    rw [hbytes] at hsize ⊢
    rw [elementsFrom_cons turns he (by simp) hsize]
    simp only [flatten_cons, length_append] at hsize hturns hlater ⊢
    rw [← Nat.add_assoc, ← Nat.add_assoc, Nat.add_assoc, hlater hread (by omega) (by omega)]
    rfl

/-- A readable element with anything behind it, whose content is cut up. -/
theorem iterDerElements_eq {elements : List (List UInt8)} {content first rest lone : List UInt8}
    (hsize : (first ++ rest).length < 2 ^ 63) (hfirst : Readable content first)
    (hcut : CutUp content elements lone) : iterDerElements (first ++ rest) = pure elements := by
  obtain ⟨tag, helement⟩ := hfirst.isElement
  have htwo := helement.two_le_length
  obtain ⟨tag, octets, hshort, hlength, rfl⟩ := hfirst
  have hbody := sliceFrom_append [tag] (octets ++ (content ++ rest))
  have hloop :=
    elementsFrom_eq hcut (tag :: octets) rest (tag :: (octets ++ (content ++ rest))).length
  have hbytes : tag :: (octets ++ content) ++ rest = tag :: (octets ++ (content ++ rest)) := by simp
  rw [hbytes] at hsize ⊢
  simp only [cons_append, nil_append, length_cons, length_append, length_nil]
    at hbody hloop hsize htwo
  rw [iterDerElements, if_neg (by simp only [length_cons, length_append]; omega), hbody,
    orPanic_some, pure_bind, decodeDerLength_append _ hshort hlength, pure_bind]
  dsimp only
  rw [addUsize_eq (by omega), pure_bind, if_neg (by simp; omega), Nat.add_comm 1]
  simpa using hloop hsize (by omega)

/-- The input has a tag and a length; wherever it is a readable element that cuts
up, nothing follows it and no octet is left inside. -/
def NothingLeft (setDer : List UInt8) : Prop :=
  2 ≤ setDer.length ∧ ∀ content first rest elements lone, Readable content first →
    setDer = first ++ rest → CutUp content elements lone → rest = [] ∧ lone = []

/-- A slice has fewer than `2 ^ 63` octets. -/
theorem elements_consume_input (hsize : setDer.length < 2 ^ 63) :
    ((iterDerElements setDer).Returns fun (elements : List (List UInt8)) ↦
      (∃ tag, IsElement tag elements.flatten setDer) ∧ Complete elements) ↔ NothingLeft setDer := by
  constructor
  · rintro ⟨result, hrun, hresult⟩
    have hlong : 2 ≤ setDer.length := by
      by_contra hshort
      rw [iterDerElements, if_pos (by omega)] at hrun
      cases hrun
      obtain ⟨⟨tag, helement⟩, -⟩ := hresult [] rfl
      exact hshort helement.two_le_length
    refine ⟨hlong, ?_⟩
    rintro content first rest elements lone hfirst rfl hcut
    rw [iterDerElements_eq hsize hfirst hcut] at hrun
    cases hrun
    obtain ⟨⟨tag', octets', hlength', heq⟩, -⟩ := hresult elements rfl
    obtain ⟨tag, octets, -, hlength, rfl⟩ := hfirst
    rw [cons_append, append_assoc] at heq
    obtain ⟨-, htail⟩ := List.cons.inj heq
    obtain rfl := lengthOf_append_inj hlength hlength' htail
    have hcontent := Option.some.inj (hlength.symm.trans hlength')
    have hlone := congrArg List.length hcut.eq
    have hrest := congrArg List.length (append_cancel_left htail)
    rw [length_append] at hlone hrest
    exact ⟨eq_nil_of_length_eq_zero (by omega), eq_nil_of_length_eq_zero (by omega)⟩
  · rintro ⟨hlong, hnone⟩
    refine (iterDerElements_returns hsize).imp fun elements hread ↦ ?_
    obtain ⟨content, first, rest, lone, hfirst, heq, hcut⟩ := hread hlong
    obtain ⟨rfl, rfl⟩ := hnone content first rest elements lone hfirst heq hcut
    have hcontent := hcut.eq
    rw [List.append_nil] at heq hcontent
    exact ⟨heq ▸ hcontent ▸ hfirst.isElement, hcut.complete⟩

end

/-- A SET of one NULL. -/
def nullSet : List UInt8 := [0x31, 0x02, 0x05, 0x00]

theorem nothingLeft_nullSet : NothingLeft nullSet := by
  refine ⟨by decide, ?_⟩
  rintro content _ rest elements lone ⟨tag, octets, -, hlength, rfl⟩ heq hcut
  obtain rfl := lengthOf_append_inj (rfl : lengthOf [0x02] = some 2) hlength
    (List.cons.inj (heq.trans (by simp) : nullSet = tag :: (octets ++ (content ++ rest)))).2
  have hcontent : content.length = 2 := (Option.some.inj hlength).symm
  have htotal : 4 = (tag :: ([0x02] ++ content) ++ rest).length := congrArg List.length heq
  have hlone := congrArg List.length hcut.eq
  have hle := hcut.length_le
  simp only [length_append, length_cons, length_nil] at htotal hlone
  refine ⟨eq_nil_of_length_eq_zero (by omega), eq_nil_of_length_eq_zero ?_⟩
  -- an element has at least two octets
  cases elements with
  | nil =>
    rw [flatten_nil, length_nil] at hlone
    omega
  | cons e elements =>
    obtain ⟨_, _, he⟩ := hcut.complete e mem_cons_self
    have htwo := he.two_le_length
    rw [flatten_cons, length_append] at hlone
    omega

theorem null_consumed : (iterDerElements nullSet).run = some (.ok [[0x05, 0x00]]) ∧
    (∃ tag, IsElement tag [0x05, 0x00] nullSet) ∧ Complete [[0x05, 0x00]] := by
  obtain ⟨_, hrun, h⟩ := (@elements_consume_input nullSet (by decide)).mpr nothingLeft_nullSet
  cases hrun
  exact ⟨rfl, h _ rfl⟩

theorem lone_octet_dropped : (¬ (iterDerElements [0x31, 0x01, 0x05]).Returns fun elements ↦
      ∃ tag, IsElement tag elements.flatten [0x31, 0x01, 0x05]) ∧
    (iterDerElements [0x31, 0x00, 0x05]).run = some (.ok []) ∧
    (iterDerElements []).run = some (.ok []) := by
  refine ⟨?_, rfl, rfl⟩
  rintro ⟨_, hrun, h⟩
  cases hrun
  obtain ⟨tag, octets, hlength, heq⟩ := h [] rfl
  rw [List.flatten_nil, List.append_nil] at heq
  obtain rfl : [0x01, 0x05] = octets := (List.cons.inj heq).2
  cases hlength

end Akamu.Cms
