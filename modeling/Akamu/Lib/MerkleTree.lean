import Akamu.Lib.ExceptOps
import Mathlib.Data.List.Forall2
import Mathlib.Data.Nat.Log
import Mathlib.Tactic.Ring

/-!
# Merkle tree hashes

The hash of a list of leaf hashes as RFC 9162 defines it: the list is cut at
the largest power of two below its length and the hashes of the two parts are
hashed together.  Hashing may fail.  The fact a tiled tree rests on is that the
hashes of complete subtrees can stand for their leaves.
-/

namespace MerkleTree

open List

universe u v

variable {ε : Type u} {α : Type v}

structure Hasher (ε : Type u) (α : Type v) where
  empty : Except ε α
  node : α → α → Except ε α

/-- The largest power of two below `n`, for `n ≥ 2`. -/
def splitPoint (n : ℕ) : ℕ := 2 ^ (n - 1).log2

theorem splitPoint_pos (n : ℕ) : 0 < splitPoint n := Nat.two_pow_pos _

variable {k n : ℕ} {subtrees : List (List α)} {hashes : List α}

theorem splitPoint_lt (h : 2 ≤ n) : splitPoint n < n := by
  have hle : splitPoint n ≤ n - 1 := Nat.log2_self_le (by omega)
  omega

theorem splitPoint_eq (hlow : 2 ^ k < n) (hhigh : n ≤ 2 ^ (k + 1)) : splitPoint n = 2 ^ k := by
  have hlog : (n - 1).log2 = k := (Nat.log2_eq_iff (by omega)).mpr (by omega)
  rw [splitPoint, hlog]

theorem lt_splitPoint (h : 2 ≤ n) : n ≤ 2 * splitPoint n := by
  have hlt : n - 1 < 2 ^ ((n - 1).log2 + 1) := Nat.lt_log2_self
  unfold splitPoint
  omega

def root (H : Hasher ε α) : List α → Except ε α
  | [] => H.empty
  | [a] => .ok a
  | a :: b :: l => do
      let k := splitPoint (a :: b :: l).length
      let left ← root H ((a :: b :: l).take k)
      let right ← root H ((a :: b :: l).drop k)
      H.node left right
  termination_by l => l.length
  decreasing_by
    · have := splitPoint_lt (n := (a :: b :: l).length) (by simp)
      rw [length_take]
      omega
    · have := splitPoint_pos (a :: b :: l).length
      rw [length_drop]
      simp only [length_cons] at *
      omega

variable {H : Hasher ε α}

@[simp] theorem root_singleton (a : α) : root H [a] = .ok a := by rw [root]

variable {l : List α} {f : List α → α}

theorem root_of_two_le (h : 2 ≤ l.length) :
    root H l = (do
      let left ← root H (l.take (splitPoint l.length))
      let right ← root H (l.drop (splitPoint l.length))
      H.node left right) := by
  match l, h with
  | a :: b :: l, _ => rw [root]

theorem root_append {left right : List α} (hleft : left.length = 2 ^ k) (hne : right ≠ [])
    (hle : right.length ≤ 2 ^ k) :
    root H (left ++ right) = (do
      let l ← root H left
      let r ← root H right
      H.node l r) := by
  have hpos := length_pos_iff.mpr hne
  have hcut : splitPoint (left ++ right).length = left.length := by
    rw [length_append, hleft]
    exact splitPoint_eq (by omega) (by rw [pow_succ]; omega)
  rw [root_of_two_le (by rw [length_append]; omega), hcut, take_left, drop_left]

theorem root_total (hempty : ∃ e, H.empty = .ok e) (hnode : ∀ a b, ∃ c, H.node a b = .ok c)
    (l : List α) : ∃ h, root H l = .ok h := by
  induction l using root.induct with
  | case1 =>
    rw [root]
    exact hempty
  | case2 a => exact ⟨a, root_singleton a⟩
  | case3 =>
    rename_i ihl ihr
    obtain ⟨left, hleft⟩ := ihl
    obtain ⟨right, hright⟩ := ihr
    rw [root_of_two_le (by simp), hleft, hright]
    exact hnode left right

/-- The tree hash by its defining equations: the left part of `n` leaves has the
power of two `2 ^ k` with `2 ^ k < n ≤ 2 * 2 ^ k`. -/
inductive TreeHash (H : Hasher ε α) : List α → α → Prop
  | nil {hash : α} (h : H.empty = .ok hash) : TreeHash H [] hash
  | leaf (a : α) : TreeHash H [a] a
  | node {left right : List α} {l r hash : α} {k : ℕ} (hleft : left.length = 2 ^ k)
      (hne : right ≠ []) (hle : right.length ≤ 2 ^ k) (hl : TreeHash H left l)
      (hr : TreeHash H right r) (h : H.node l r = .ok hash) : TreeHash H (left ++ right) hash

theorem root_eq_ok_iff {hash : α} : root H l = .ok hash ↔ TreeHash H l hash := by
  constructor
  · intro h
    induction l using root.induct generalizing hash with
    | case1 =>
      rw [root] at h
      exact .nil h
    | case2 a =>
      rw [root_singleton] at h
      cases h
      exact .leaf a
    | case3 a b l =>
      rename_i ihl ihr
      have htwo : 2 ≤ (a :: b :: l).length := by simp
      have hlt := splitPoint_lt htwo
      have hle := lt_splitPoint htwo
      rw [root_of_two_le htwo] at h
      obtain ⟨left, hleft, h⟩ := Except.bind_eq_ok h
      obtain ⟨right, hright, hnode⟩ := Except.bind_eq_ok h
      rw [← take_append_drop (splitPoint (a :: b :: l).length) (a :: b :: l)]
      refine .node (length_take_of_le hlt.le) ?_ ?_ (ihl hleft) (ihr hright) hnode
      · exact ne_nil_of_length_pos (by rw [length_drop]; omega)
      · rw [length_drop]
        change _ ≤ splitPoint _
        omega
  · intro htree
    induction htree with
    | nil h => rw [root, h]
    | leaf a => exact root_singleton a
    | node hleft hne hle _ _ hnode ihl ihr =>
      rw [root_append hleft hne hle, ihl, ihr]
      exact hnode

/-- Complete subtrees of `2 ^ k` leaves and their hashes. -/
def Roots (H : Hasher ε α) (k : ℕ) (subtrees : List (List α)) (hashes : List α) : Prop :=
  List.Forall₂ (fun subtree hash ↦ subtree.length = 2 ^ k ∧ root H subtree = .ok hash)
    subtrees hashes

/-- Subtrees of `2 ^ k` leaves and their hashes; the last one may have fewer. -/
inductive Blocks (H : Hasher ε α) (k : ℕ) : List (List α) → List α → Prop
  | last {tail : List α} {hash : α} (hne : tail ≠ []) (hle : tail.length ≤ 2 ^ k)
      (h : TreeHash H tail hash) : Blocks H k [tail] [hash]
  | cons {subtree : List α} {hash : α} {subtrees : List (List α)} {hashes : List α}
      (hfull : subtree.length = 2 ^ k) (h : TreeHash H subtree hash)
      (rest : Blocks H k subtrees hashes) : Blocks H k (subtree :: subtrees) (hash :: hashes)

theorem ne_nil_of_length_eq (h : l.length = 2 ^ k) : l ≠ [] :=
  ne_nil_of_length_pos (h ▸ Nat.two_pow_pos k)

theorem Roots.blocks (h : Roots H k subtrees hashes) (hne : hashes ≠ []) :
    Blocks H k subtrees hashes := by
  induction h with
  | nil => exact absurd rfl hne
  | @cons subtree hash subtrees hashes hhead htail ih =>
    cases htail with
    | nil =>
      exact .last (ne_nil_of_length_eq hhead.1) hhead.1.le (root_eq_ok_iff.mp hhead.2)
    | cons => exact .cons hhead.1 (root_eq_ok_iff.mp hhead.2) (ih (cons_ne_nil _ _))

theorem Blocks.flatten_ne_nil (h : Blocks H k subtrees hashes) : subtrees.flatten ≠ [] := by
  cases h with
  | last hne => simpa using hne
  | cons hfull => simp [ne_nil_of_length_eq hfull]

theorem Blocks.length_flatten_le (h : Blocks H k subtrees hashes) :
    subtrees.flatten.length ≤ hashes.length * 2 ^ k := by
  induction h with
  | last _ hle => simpa using hle
  | cons hfull =>
    rw [flatten_cons, length_append, hfull, length_cons, Nat.succ_mul]
    omega

theorem Blocks.split {left right : List α} (h : Blocks H k subtrees (left ++ right))
    (hleft : left ≠ []) (hright : right ≠ []) :
    ∃ front back, subtrees = front ++ back ∧ Blocks H k front left ∧ Blocks H k back right ∧
      front.flatten.length = left.length * 2 ^ k := by
  induction left generalizing subtrees with
  | nil => exact absurd rfl hleft
  | cons hash left ih =>
    generalize hl : hash :: left ++ right = l at h
    cases h with
    | last => simp_all
    | @cons subtree _ subtrees hashes hfull htree rest =>
      obtain ⟨rfl, rfl⟩ := List.cons.inj hl
      cases left with
      | nil =>
        exact ⟨[subtree], subtrees, rfl, .last (ne_nil_of_length_eq hfull) hfull.le htree, rest,
          by simpa using hfull⟩
      | cons =>
        obtain ⟨front, back, rfl, hfront, hback, hlength⟩ := ih rest (cons_ne_nil _ _)
        refine ⟨subtree :: front, back, rfl, .cons hfull htree hfront, hback, ?_⟩
        rw [flatten_cons, length_append, hlength, hfull, length_cons (a := hash),
          Nat.succ_mul, Nat.add_comm]

/-- The hashes of the subtrees can stand for their leaves. -/
theorem Blocks.treeHash {hash : α} (h : Blocks H k subtrees hashes)
    (htree : TreeHash H hashes hash) : TreeHash H subtrees.flatten hash := by
  induction htree generalizing subtrees with
  | nil => cases h
  | leaf a =>
    generalize hl : [a] = l at h
    cases h with
    | last _ _ htree =>
      cases hl
      simpa using htree
    | cons _ _ rest =>
      cases hl
      cases rest
  | @node left right _ _ _ j hleft hne hle _ _ hnode ihl ihr =>
    obtain ⟨front, back, rfl, hfront, hback, hlength⟩ := h.split (ne_nil_of_length_eq hleft) hne
    rw [flatten_append]
    refine .node (k := j + k) ?_ hback.flatten_ne_nil ?_ (ihl hfront) (ihr hback) hnode
    · rw [hlength, hleft, pow_add]
    · rw [pow_add]
      exact hback.length_flatten_le.trans (Nat.mul_le_mul_right _ hle)

/-- A list in pieces of `size`, of which the last may be shorter. -/
def blocks (size : ℕ) (l : List α) : List (List α) :=
  if l = [] ∨ size = 0 then [] else l.take size :: blocks size (l.drop size)
  termination_by l.length
  decreasing_by
    rename_i h
    have := length_pos_iff.mpr fun heq ↦ h (.inl heq)
    rw [length_drop]
    omega

@[simp] theorem blocks_nil (size : ℕ) : blocks size ([] : List α) = [] := by simp [blocks]

theorem blocks_of_ne_nil {size : ℕ} (hsize : 0 < size) (hne : l ≠ []) :
    blocks size l = l.take size :: blocks size (l.drop size) := by
  rw [blocks, if_neg (by simp [hne, hsize.ne'])]

theorem blocks_spec (hf : ∀ l, root H l = .ok (f l)) (hne : l ≠ []) :
    Blocks H k (blocks (2 ^ k) l) ((blocks (2 ^ k) l).map f) ∧ (blocks (2 ^ k) l).flatten = l := by
  have hpow := Nat.two_pow_pos k
  induction hlen : l.length using Nat.strong_induction_on generalizing l with
  | _ n ih =>
    rw [blocks_of_ne_nil hpow hne, map_cons, flatten_cons]
    have htree := root_eq_ok_iff.mp (hf (l.take (2 ^ k)))
    rcases Nat.lt_or_ge (2 ^ k) l.length with hlong | hshort
    · have hdrop : l.drop (2 ^ k) ≠ [] := by simpa using hlong
      obtain ⟨hrest, hflat⟩ := ih _ (by rw [length_drop]; omega) hdrop rfl
      rw [hflat, take_append_drop]
      exact ⟨.cons (length_take_of_le hlong.le) htree hrest, rfl⟩
    · rw [drop_eq_nil_of_le hshort, take_of_length_le hshort] at *
      rw [blocks_nil]
      exact ⟨.last hne hshort htree, append_nil l⟩

theorem root_blocks (hf : ∀ l, root H l = .ok (f l)) (k : ℕ) (l : List α) :
    root H ((blocks (2 ^ k) l).map f) = root H l := by
  by_cases hne : l = []
  · rw [hne, blocks_nil, map_nil]
  · obtain ⟨hblocks, hflat⟩ := blocks_spec (k := k) hf hne
    have htree := hblocks.treeHash (root_eq_ok_iff.mp (hf _))
    rw [hflat, ← root_eq_ok_iff] at htree
    rw [hf ((blocks (2 ^ k) l).map f), htree]

end MerkleTree
