import Mathlib.Order.Lattice

/-!
# Stamped values

A value travels with the stamp it was written under, and stamps are linearly
ordered.  When two copies of one cell meet, the fresher one stays; on equal
stamps the local copy stays, so that the result is symmetric only where equal
stamps mean equal values.
-/

structure Stamped (L V : Type*) where
  stamp : L
  value : V
  deriving DecidableEq

namespace Stamped

variable {L V : Type*} [LinearOrder L] {a b c : Stamped L V}

/-- Our copy `a` meets another copy `b`. -/
def join (a b : Stamped L V) : Stamped L V := if a.stamp < b.stamp then b else a

theorem join_of_le (h : b.stamp ≤ a.stamp) : a.join b = a := if_neg (not_lt.mpr h)

theorem join_of_lt (h : a.stamp < b.stamp) : a.join b = b := if_pos h

theorem join_eq_or (a b : Stamped L V) : a.join b = a ∨ a.join b = b := by
  rcases le_or_gt b.stamp a.stamp with h | h
  · exact .inl (join_of_le h)
  · exact .inr (join_of_lt h)

@[simp] theorem stamp_join (a b : Stamped L V) : (a.join b).stamp = a.stamp ⊔ b.stamp := by
  rcases le_or_gt b.stamp a.stamp with h | h
  · rw [join_of_le h, sup_eq_left.mpr h]
  · rw [join_of_lt h, sup_eq_right.mpr h.le]

theorem join_self (a : Stamped L V) : a.join a = a := join_of_le le_rfl

theorem join_assoc (a b c : Stamped L V) : (a.join b).join c = a.join (b.join c) := by
  rcases le_or_gt b.stamp a.stamp with hab | hab
  · rw [join_of_le hab]
    rcases le_or_gt c.stamp b.stamp with hbc | hbc
    · rw [join_of_le hbc, join_of_le hab, join_of_le (hbc.trans hab)]
    · rw [join_of_lt hbc]
  · rw [join_of_lt hab]
    rcases le_or_gt c.stamp b.stamp with hbc | hbc
    · rw [join_of_le hbc, join_of_lt hab]
    · rw [join_of_lt hbc, join_of_lt (hab.trans hbc)]

theorem join_foldl (a b : Stamped L V) (l : List (Stamped L V)) :
    a.join (l.foldl join b) = l.foldl join (a.join b) := by
  induction l generalizing b with
  | nil => rfl
  | cons c l ih => rw [List.foldl_cons, List.foldl_cons, ih, join_assoc]

end Stamped
