import Mathlib.Data.Nat.Bitwise
import Mathlib.Data.Nat.Log
import Mathlib.Data.Nat.Size

/-!
# Two subtrees over an interval

`subtrees_for_interval` of the validator, and the two checks of alignment that
subtrees have to pass.  Words are numbers below `2 ^ 64`, and `none` stands for
an overflow.
-/

namespace Akamu.Mtc.Interval

def checkedSub (a b : ℕ) : Option ℕ := if b ≤ a then some (a - b) else none

/-- `1u64 << k` -/
def shiftOne (k : ℕ) : Option ℕ := if k < 64 then some (2 ^ k) else none

def complement (x : ℕ) : ℕ := 2 ^ 64 - 1 - x

def leadingZeros (x : ℕ) : ℕ := 64 - x.size

structure Cover where
  start1 : ℕ
  end1 : ℕ
  start2 : ℕ
  end2 : ℕ
  deriving DecidableEq, Repr

def subtreesForInterval (start stop : ℕ) : Option (Except String Cover) := do
  if stop ≤ start then
    return .error ("invalid interval [" ++ toString start ++ ", " ++ toString stop ++ ")")
  else if (← checkedSub stop start) = 1 then return .ok ⟨start, stop, start, stop⟩
  else
    let last ← checkedSub stop 1
    let splitBits ← checkedSub 64 (leadingZeros (start ^^^ last))
    let mask ← checkedSub (← shiftOne (← checkedSub splitBits 1)) 1
    let mid := last &&& complement mask
    let leftSplitBits ← checkedSub 64 (leadingZeros (complement start &&& mask))
    let low ← checkedSub (← shiftOne leftSplitBits) 1
    return .ok ⟨start &&& complement low, mid, mid, stop⟩

def checkedNextPowerOfTwo (n : ℕ) : Option ℕ :=
  if 2 ^ Nat.clog 2 n < 2 ^ 64 then some (2 ^ Nat.clog 2 n) else none

def checkSubtreeAlignment (start stop : ℕ) : Option (Except String Unit) := do
  if stop ≤ start then
    return .error ("start " ++ toString start ++ " >= end " ++ toString stop)
  else
    let alignment ← checkedNextPowerOfTwo (stop - start)
    if start % alignment = 0 then return .ok ()
    else return .error ("[" ++ toString start ++ ", " ++ toString stop ++
      "): start not aligned to next_power_of_two(" ++ toString (stop - start) ++ ") = " ++
      toString alignment)

/-- The test in `get_subtree_root`. -/
def rootAligned (start stop : ℕ) : Bool :=
  decide (start < stop) &&
    start % (checkedNextPowerOfTwo (stop - start)).getD (2 ^ 64 - 1) == 0

/-- Both checks pass. -/
def Aligned (start stop : ℕ) : Prop :=
  checkSubtreeAlignment start stop = some (.ok ()) ∧ rootAligned start stop = true

/-! ## Bits -/

theorem checkedSub_leadingZeros {x : ℕ} (h : x < 2 ^ 64) :
    checkedSub 64 (leadingZeros x) = some x.size := by
  have hsize : x.size ≤ 64 := Nat.size_le.mpr h
  rw [checkedSub, leadingZeros, if_pos (by omega)]
  exact congrArg some (by omega)

theorem checkedSub_eq {a b : ℕ} (h : b ≤ a) : checkedSub a b = some (a - b) := if_pos h

variable {start k : ℕ}

theorem shiftOne_eq (h : k < 64) : shiftOne k = some (2 ^ k) := if_pos h

theorem and_complement_mask {x : ℕ} (hx : x < 2 ^ 64) (hk : k < 64) :
    x &&& complement (2 ^ k - 1) = x / 2 ^ k * 2 ^ k := by
  refine Nat.eq_of_testBit_eq fun i ↦ ?_
  have hmask : 2 ^ k - 1 < 2 ^ 64 := (Nat.sub_le _ _).trans_lt (Nat.pow_lt_pow_right (by omega) hk)
  rw [complement, Nat.sub_right_comm, Nat.sub_sub, Nat.testBit_and,
    Nat.testBit_two_pow_sub_succ hmask, Nat.testBit_two_pow_sub_one, Nat.testBit_mul_two_pow,
    Nat.testBit_div_two_pow]
  by_cases hi : k ≤ i
  · cases hbit : x.testBit i with
    | false => simp [hi, hbit]
    | true =>
      have hpow := (Nat.ge_two_pow_of_testBit hbit).trans_lt hx
      simp [hi, hbit, (Nat.pow_lt_pow_iff_right (by omega)).mp hpow]
  · simp [hi, Nat.not_le.mp hi]

/-- Above the first bit where two words differ they agree, and there the smaller
one has a zero. -/
theorem div_of_size_xor {a b : ℕ} (hlt : a < b) (hk : (a ^^^ b).size = k + 1) :
    ∃ h, a / 2 ^ k = 2 * h ∧ b / 2 ^ k = 2 * h + 1 := by
  have hone : a / 2 ^ k ^^^ b / 2 ^ k = 1 := by
    have hlow : 2 ^ k ≤ a ^^^ b := Nat.lt_size.mp (by omega)
    have hhigh : a ^^^ b < 2 ^ k * 2 := Nat.size_le.mp hk.le
    rw [← Nat.shiftRight_eq_div_pow, ← Nat.shiftRight_eq_div_pow, ← Nat.shiftRight_xor_distrib,
      Nat.shiftRight_eq_div_pow]
    exact Nat.div_eq_of_lt_le (by omega) (by omega)
  have hb : b / 2 ^ k = a / 2 ^ k ^^^ 1 := by rw [← hone, Nat.xor_xor_cancel_left]
  have hle : a / 2 ^ k ≤ b / 2 ^ k := Nat.div_le_div_right hlt.le
  rcases Nat.even_or_odd (a / 2 ^ k) with heven | hodd
  · rw [Nat.xor_one_of_even heven] at hb
    obtain ⟨h, ha⟩ := heven.two_dvd
    exact ⟨h, ha, by omega⟩
  · rw [Nat.xor_one_of_odd hodd] at hb
    obtain ⟨h, ha⟩ := hodd
    omega

theorem complement_and_mask (hstart : start < 2 ^ 64) (hk : k < 64) :
    (complement start &&& (2 ^ k - 1)) + start % 2 ^ k + 1 = 2 ^ k := by
  have hnot := congrArg BitVec.toNat (BitVec.setWidth_not (x := BitVec.ofNat 64 start) hk.le)
  simp only [BitVec.toNat_setWidth, BitVec.toNat_not, BitVec.toNat_ofNat,
    Nat.mod_eq_of_lt hstart] at hnot
  have hlt := Nat.mod_lt start (Nat.two_pow_pos k)
  rw [Nat.and_two_pow_sub_one_eq_mod, complement, hnot]
  omega

/-! ## The two subtrees -/

theorem aligned_of_dvd {stop : ℕ} (hlt : start < stop) (hsize : stop - start ≤ 2 ^ k) (hk : k < 64)
    (hdvd : 2 ^ k ∣ start) : Aligned start stop := by
  have hclog : Nat.clog 2 (stop - start) ≤ k := (Nat.clog_le_iff_le_pow (by omega)).mpr hsize
  have hfits : 2 ^ Nat.clog 2 (stop - start) < 2 ^ 64 := Nat.pow_lt_pow_right (by omega) (by omega)
  have hmod : start % 2 ^ Nat.clog 2 (stop - start) = 0 :=
    Nat.mod_eq_zero_of_dvd ((pow_dvd_pow 2 hclog).trans hdvd)
  have hchecked : checkedNextPowerOfTwo (stop - start) = some (2 ^ Nat.clog 2 (stop - start)) :=
    if_pos hfits
  simp [Aligned, checkSubtreeAlignment, rootAligned, hchecked, hlt, hmod]

/-- The word that is `u + 1` below `mid`, rounded down to the power of two that `u`
stays below. -/
theorem lower_subtree {mid u : ℕ} (hmid : start + u + 1 = mid) (hdvd : 2 ^ k ∣ mid)
    (hu : u.size ≤ k) :
    start / 2 ^ u.size * 2 ^ u.size + 2 ^ u.size = mid ∧
      2 * (start - start / 2 ^ u.size * 2 ^ u.size) < 2 ^ u.size := by
  have hlt : u < 2 ^ u.size := Nat.size_le.mp le_rfl
  have hhalf : 2 ^ u.size ≤ 2 * u + 1 := by
    cases hsize : u.size with
    | zero => omega
    | succ b =>
      have hle : 2 ^ b ≤ u := Nat.lt_size.mp (by omega)
      omega
  obtain ⟨q, hq⟩ := (pow_dvd_pow 2 hu).trans hdvd
  cases q with
  | zero => omega
  | succ q =>
    rw [Nat.mul_succ] at hq
    have hstart : start = (2 ^ u.size - 1 - u) + 2 ^ u.size * q := by omega
    have hdiv : start / 2 ^ u.size = q := by
      rw [hstart, Nat.add_mul_div_left _ _ (Nat.two_pow_pos _), Nat.div_eq_of_lt (by omega),
        Nat.zero_add]
    rw [hdiv, Nat.mul_comm q]
    omega

/-- What is computed for an interval of two words or more. -/
theorem subtreesForInterval_eq {stop : ℕ} (hlt : start + 1 < stop) (hstop : stop < 2 ^ 64) :
    ∃ k u, k < 64 ∧ u.size ≤ k ∧ start + u + 1 = (stop - 1) / 2 ^ k * 2 ^ k ∧
      subtreesForInterval start stop = some (.ok ⟨start / 2 ^ u.size * 2 ^ u.size,
        (stop - 1) / 2 ^ k * 2 ^ k, (stop - 1) / 2 ^ k * 2 ^ k, stop⟩) := by
  have hxor : start ^^^ (stop - 1) < 2 ^ 64 := Nat.xor_lt_two_pow (by omega) (by omega)
  obtain ⟨k, hk⟩ : ∃ k, (start ^^^ (stop - 1)).size = k + 1 := by
    refine Nat.exists_eq_succ_of_ne_zero fun hzero ↦ ?_
    have := Nat.xor_eq_zero_iff.mp (Nat.size_eq_zero.mp hzero)
    omega
  have hk64 : k < 64 := by
    have := Nat.size_le.mpr hxor
    omega
  obtain ⟨h, hstart, hlast⟩ := div_of_size_xor (show start < stop - 1 by omega) hk
  have hu := complement_and_mask (show start < 2 ^ 64 by omega) hk64
  have hsize : (complement start &&& (2 ^ k - 1)).size ≤ k := Nat.size_le.mpr (by omega)
  have hsum := Nat.div_add_mod start (2 ^ k)
  refine ⟨k, complement start &&& (2 ^ k - 1), hk64, hsize, ?_, ?_⟩
  · rw [hstart] at hsum
    rw [hlast, Nat.succ_mul, Nat.mul_comm (2 * h)]
    omega
  · unfold subtreesForInterval
    rw [if_neg (by omega)]
    simp only [checkedSub_eq (show start ≤ stop by omega), checkedSub_eq (show 1 ≤ stop by omega),
      checkedSub_leadingZeros hxor, hk, checkedSub_eq (show 1 ≤ k + 1 by omega),
      Nat.add_sub_cancel, shiftOne_eq hk64, checkedSub_eq (Nat.one_le_two_pow (n := k)),
      checkedSub_leadingZeros (Nat.size_le.mp (hsize.trans hk64.le)),
      shiftOne_eq (hsize.trans_lt hk64), checkedSub_eq Nat.one_le_two_pow, Option.bind_eq_bind,
      Option.bind_some, if_neg (show stop - start ≠ 1 by omega),
      and_complement_mask (show stop - 1 < 2 ^ 64 by omega) hk64,
      and_complement_mask (show start < 2 ^ 64 by omega) (hsize.trans_lt hk64)]
    rfl

/-- An interval of one word is its own cover.  Any other is covered by two aligned
subtrees side by side, of which the first overshoots by less than half of it. -/
theorem subtrees_cover_interval {start stop : ℕ} (hlt : start < stop) (hstop : stop < 2 ^ 64) :
    ∃ c, subtreesForInterval start stop = some (.ok c) ∧
      (stop = start + 1 → c = ⟨start, stop, start, stop⟩) ∧
      (stop ≠ start + 1 → c.end1 = c.start2 ∧ c.end2 = stop ∧ c.start1 ≤ start ∧ start < c.end1 ∧
        2 * (start - c.start1) < c.end1 - c.start1 ∧ Aligned c.start1 c.end1 ∧
        Aligned c.start2 c.end2) := by
  rcases Nat.lt_or_ge (start + 1) stop with hlong | hone
  · obtain ⟨k, u, hk, hu, hmid, heq⟩ := subtreesForInterval_eq hlong hstop
    have hdvd : 2 ^ k ∣ (stop - 1) / 2 ^ k * 2 ^ k := Dvd.intro_left _ rfl
    obtain ⟨hlower, hhalf⟩ := lower_subtree hmid hdvd hu
    have hrest := Nat.div_add_mod' (stop - 1) (2 ^ k)
    refine ⟨_, heq, fun hstop ↦ by omega, fun _ ↦ ⟨rfl, rfl, Nat.div_mul_le_self _ _,
      show start < (stop - 1) / 2 ^ k * 2 ^ k by omega, ?_, ?_, ?_⟩⟩
    · dsimp only
      omega
    · exact aligned_of_dvd (by dsimp only; omega) (by dsimp only; omega) (hu.trans_lt hk)
        (Dvd.intro_left _ rfl)
    · exact aligned_of_dvd (by dsimp only; omega) (by dsimp only; omega) hk hdvd
  · obtain rfl : stop = start + 1 := by omega
    simp [subtreesForInterval, checkedSub]

theorem small_interval_covered : ∃ c, subtreesForInterval 5 12 = some (.ok c) ∧
    Aligned c.start1 c.end1 ∧ Aligned c.start2 c.end2 := by
  obtain ⟨c, hc, -, hcover⟩ := @subtrees_cover_interval 5 12 (by decide) (by decide)
  exact ⟨c, hc, (hcover (by decide)).2.2.2.2.2⟩

example : subtreesForInterval 5 12 = some (.ok ⟨4, 8, 8, 12⟩) := by decide

end Akamu.Mtc.Interval
