import Mathlib.Data.Int.Order.Basic
import Mathlib.Tactic.NormNum

/-!
# Arithmetic of 64-bit integers

Seconds are kept in `i64`.  Sums and differences wrap around.
-/

namespace Akamu

def addI64 (a b : Int) : Int := (a + b).bmod (2 ^ 64)

def subI64 (a b : Int) : Int := (a - b).bmod (2 ^ 64)

/-- `as i64` of an unsigned 64-bit integer. -/
def asI64 (n : UInt64) : Int := (n.toNat : Int).bmod (2 ^ 64)

/-- The sum in `i64` of a time and a number of seconds.  Past the end of the
range it starts again at the other end. -/
def addSecs (t : Int) (secs : ℕ) : Int :=
  if t + secs < 2 ^ 63 then t + secs else t + secs - 2 ^ 64

/-- What `unix_now` can return: seconds since the epoch, none before it. -/
abbrev UnixTime : Type := { t : Int // 0 ≤ t ∧ t < 2 ^ 63 }

instance (a b : UnixTime) : Decidable (a < b) := Int.decLt a.1 b.1

instance (a b : UnixTime) : Decidable (a ≤ b) := Int.decLe a.1 b.1

theorem asI64_bounds (n : UInt64) : -2 ^ 63 ≤ asI64 n ∧ asI64 n < 2 ^ 63 := by
  unfold asI64
  rw [Int.bmod_def]
  constructor <;> split <;> omega

theorem subI64_cases {a b : Int} (ha : 0 ≤ a ∧ a < 2 ^ 63) (hb : -2 ^ 63 ≤ b ∧ b < 2 ^ 63) :
    a - b < 2 ^ 63 ∧ subI64 a b = a - b ∨ 2 ^ 63 ≤ a - b ∧ subI64 a b = a - b - 2 ^ 64 := by
  unfold subI64
  rw [Int.bmod_def]
  split <;> omega

def FitsI64 (v : Int) : Prop := -2 ^ 63 ≤ v ∧ v < 2 ^ 63

instance (v : Int) : Decidable (FitsI64 v) := inferInstanceAs (Decidable (_ ∧ _))

theorem addSecs_eq_addI64 {t : Int} (secs : UInt64) (ht : FitsI64 t) :
    addSecs t secs.toNat = addI64 t (asI64 secs) := by
  obtain ⟨hlo, hhi⟩ := ht
  have hsecs := secs.toNat_lt
  have hmod : addI64 t (asI64 secs) = (t + secs.toNat).bmod (2 ^ 64) := by
    unfold addI64 asI64
    exact Int.add_bmod_bmod
  rw [hmod, addSecs]
  split
  · exact (Int.bmod_eq_of_le (by omega) (by omega)).symm
  · rw [← Int.sub_bmod_right]
    exact (Int.bmod_eq_of_le (by omega) (by omega)).symm

theorem addSecs_le (t : Int) (secs : ℕ) : addSecs t secs ≤ t + secs := by
  unfold addSecs
  split <;> omega

theorem addI64_eq {a b : Int} (h : FitsI64 (a + b)) : addI64 a b = a + b := by
  obtain ⟨hlo, hhi⟩ := h
  exact Int.bmod_eq_of_le (by omega) (by omega)

end Akamu
