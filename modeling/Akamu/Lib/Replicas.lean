import Mathlib.Data.Finset.Basic
import Mathlib.Data.Fintype.Defs
import Mathlib.Order.Bounds.Basic
import Akamu.Lib.Machine
import Akamu.Lib.Stamped

/-!
# State-based replication

Replicas that write locally and exchange whole copies of their state.  A copy
that was sent stays available, so it may arrive late, out of order, many times
or never.  Every local write is numbered, and a copy carries the numbers of the
writes that went into it.

A state is seen as a board of stamped cells.  Merging keeps the fresher copy of
every cell.  If every write goes beyond what its author holds, and either signs
its stamp with the author's name or agrees with all copies that carry the same
stamp, then two copies with the same writes in them are equal cell by cell.
-/

namespace Replicas

open Function

structure Copy (σ : Type*) where
  state : σ
  seen : Finset ℕ

structure Cluster (ι σ : Type*) where
  replica : ι → Copy σ
  sent : List (Copy σ)
  issued : ℕ

inductive Event (ι ω : Type*) where
  | write (node : ι) (op : ω)
  | send (node : ι)
  | deliver (node : ι) (index : ℕ)

structure Protocol (ι σ ω : Type*) where
  init : σ
  write : ι → ω → σ → σ
  merge : σ → σ → σ

variable {ι σ ω : Type*}

def Cluster.Holds (c : Cluster ι σ) (x : Copy σ) : Prop :=
  (∃ i, c.replica i = x) ∨ x ∈ c.sent

theorem Cluster.holds_replica (c : Cluster ι σ) (i : ι) : c.Holds (c.replica i) :=
  .inl ⟨i, rfl⟩

/-- Every replica and every message satisfies `p`. -/
def Cluster.All (c : Cluster ι σ) (p : Copy σ → Prop) : Prop :=
  (∀ i, p (c.replica i)) ∧ ∀ x ∈ c.sent, p x

instance [Fintype ι] {c : Cluster ι σ} {p : Copy σ → Prop} [DecidablePred p] :
    Decidable (c.All p) :=
  inferInstanceAs (Decidable (_ ∧ _))

theorem Cluster.All.holds {c : Cluster ι σ} {p : Copy σ → Prop} (h : c.All p) {x : Copy σ}
    (hx : c.Holds x) : p x := by
  rcases hx with ⟨i, rfl⟩ | hsent
  · exact h.1 i
  · exact h.2 x hsent

def Cluster.put [DecidableEq ι] (c : Cluster ι σ) (i : ι) (y : Copy σ) : Cluster ι σ :=
  { c with replica := Function.update c.replica i y }

namespace Protocol

variable (P : Protocol ι σ ω)

def start : Cluster ι σ where
  replica := fun _ ↦ ⟨P.init, ∅⟩
  sent := []
  issued := 0

def written (c : Cluster ι σ) (i : ι) (op : ω) : Copy σ where
  state := P.write i op (c.replica i).state
  seen := insert c.issued (c.replica i).seen

def merged (c : Cluster ι σ) (i : ι) (m : Copy σ) : Copy σ where
  state := P.merge (c.replica i).state m.state
  seen := (c.replica i).seen ∪ m.seen

def step [DecidableEq ι] (c : Cluster ι σ) : Event ι ω → Cluster ι σ × Unit
  | .write i op => (Cluster.put { c with issued := c.issued + 1 } i (P.written c i op), ())
  | .send i => ({ c with sent := c.replica i :: c.sent }, ())
  | .deliver i n =>
    match c.sent[n]? with
    | none => (c, ())
    | some m => (c.put i (P.merged c i m), ())

end Protocol

/-! ## Cells -/

variable {κ L : Type*} {V : κ → Type*} [LinearOrder L]

structure Joins (P : Protocol ι σ ω) (good : σ → Prop) (board : σ → (k : κ) → Stamped L (V k)) :
    Prop where
  good_init : good P.init
  good_merge : ∀ s t, good s → good t → good (P.merge s t)
  board_merge : ∀ s t k, good s → good t →
    board (P.merge s t) k = (board s k).join (board t k)

section Admits

variable (P : Protocol ι σ ω) (good : σ → Prop) (board : σ → (k : κ) → Stamped L (V k))
  (author : κ → L → Option ι)

/-- What makes a write safe: in each cell it changes, the stamp goes up, and
the new stamp is the writer's own or is agreed upon. -/
structure Admits (c : Cluster ι σ) (i : ι) (s : σ) : Prop where
  good : good s
  cell : ∀ k, board s k = board (c.replica i).state k ∨
    (board (c.replica i).state k).stamp < (board s k).stamp ∧
      (author k (board s k).stamp = some i ∨
        author k (board s k).stamp = none ∧ ∀ x, c.Holds x →
          (board x.state k).stamp = (board s k).stamp → board x.state k = board s k)

/-- The invariant, with `δ` the stamps that each write put on the board. -/
structure Sound (δ : ℕ → κ → L) (c : Cluster ι σ) : Prop where
  good : ∀ x, c.Holds x → good x.state
  issued : ∀ x, c.Holds x → ∀ u ∈ x.seen, u < c.issued
  lub : ∀ x, c.Holds x → ∀ k,
    IsLUB (insert (board P.init k).stamp ((fun u ↦ δ u k) '' (x.seen : Set ℕ)))
      (board x.state k).stamp
  agree : ∀ x y, c.Holds x → c.Holds y → ∀ k,
    (board x.state k).stamp = (board y.state k).stamp → board x.state k = board y.state k
  signed : ∀ x, c.Holds x → ∀ k n, author k (board x.state k).stamp = some n →
    (board x.state k).stamp ≤ (board (c.replica n).state k).stamp

end Admits

section Run

variable {P : Protocol ι σ ω} {good : σ → Prop} {board : σ → (k : κ) → Stamped L (V k)}
  {author : κ → L → Option ι} {δ : ℕ → κ → L} {c : Cluster ι σ} {i : ι}

theorem holds_put [DecidableEq ι] {x y : Copy σ} (h : (c.put i y).Holds x) : x = y ∨ c.Holds x := by
  rcases h with ⟨j, hj⟩ | hsent
  · by_cases hij : j = i
    · subst hij
      exact .inl (by simpa [Cluster.put] using hj.symm)
    · exact .inr (.inl ⟨j, by simpa [Cluster.put, hij] using hj⟩)
  · exact .inr (.inr hsent)

theorem Sound.start (hgood : good P.init) : Sound P good board author δ P.start := by
  have heq : ∀ x, (P.start : Cluster ι σ).Holds x → x = ⟨P.init, ∅⟩ := by
    rintro x (⟨_, rfl⟩ | hsent)
    · rfl
    · cases hsent
  refine ⟨fun x hx ↦ ?_, fun x hx ↦ ?_, fun x hx ↦ ?_, fun x y hx hy ↦ ?_, fun x hx ↦ ?_⟩
  · rw [heq x hx]
    exact hgood
  · rw [heq x hx]
    simp
  · rw [heq x hx]
    simp
  · rw [heq x hx, heq y hy]
    simp
  · rw [heq x hx]
    exact fun k n _ ↦ le_rfl

variable (h : Sound P good board author δ c)

include h

theorem Sound.issue (d : κ → L) :
    Sound P good board author (Function.update δ c.issued d) { c with issued := c.issued + 1 } where
  good := h.good
  issued x hx u hu := (h.issued x hx u hu).trans (Nat.lt_succ_self _)
  lub x hx k := by
    have himage : (fun u ↦ Function.update δ c.issued d u k) '' (x.seen : Set ℕ) =
        (fun u ↦ δ u k) '' (x.seen : Set ℕ) := by
      refine Set.image_congr fun u hu ↦ ?_
      rw [update_of_ne (h.issued x hx u (Finset.mem_coe.mp hu)).ne]
    rw [himage]
    exact h.lub x hx k
  agree := h.agree
  signed := h.signed

theorem Sound.board_eq {j : ι} (hseen : (c.replica i).seen = (c.replica j).seen) (k : κ) :
    board (c.replica i).state k = board (c.replica j).state k := by
  refine h.agree _ _ (c.holds_replica i) (c.holds_replica j) k ?_
  have hi := h.lub _ (c.holds_replica i) k
  rw [hseen] at hi
  exact hi.unique (h.lub _ (c.holds_replica j) k)

theorem Sound.send (i : ι) :
    Sound P good board author δ { c with sent := c.replica i :: c.sent } := by
  have hold : ∀ x, Cluster.Holds { c with sent := c.replica i :: c.sent } x → c.Holds x := by
    rintro x (hx | hx)
    · exact .inl hx
    · rcases List.mem_cons.mp hx with rfl | hx
      · exact c.holds_replica i
      · exact .inr hx
  exact ⟨fun x hx ↦ h.good x (hold x hx), fun x hx ↦ h.issued x (hold x hx),
    fun x hx ↦ h.lub x (hold x hx), fun x y hx hy ↦ h.agree x y (hold x hx) (hold y hy),
    fun x hx ↦ h.signed x (hold x hx)⟩

variable [DecidableEq ι]

theorem Sound.put {y : Copy σ} (hgood : good y.state) (hissued : ∀ u ∈ y.seen, u < c.issued)
    (hlub : ∀ k, IsLUB (insert (board P.init k).stamp ((fun u ↦ δ u k) '' (y.seen : Set ℕ)))
      (board y.state k).stamp)
    (hagree : ∀ x, c.Holds x → ∀ k,
      (board x.state k).stamp = (board y.state k).stamp → board x.state k = board y.state k)
    (hle : ∀ k, (board (c.replica i).state k).stamp ≤ (board y.state k).stamp)
    (hsigned : ∀ k n, author k (board y.state k).stamp = some n → n ≠ i →
      (board y.state k).stamp ≤ (board (c.replica n).state k).stamp) :
    Sound P good board author δ (c.put i y) := by
  have hself : (c.put i y).replica i = y := update_self ..
  have hgrows : ∀ n k, (board (c.replica n).state k).stamp ≤
      (board ((c.put i y).replica n).state k).stamp := by
    intro n k
    by_cases hn : n = i
    · subst hn
      rw [hself]
      exact hle k
    · exact (congrArg (fun x : Copy σ ↦ (board x.state k).stamp)
        (update_of_ne hn y c.replica)).ge
  refine ⟨fun x hx ↦ ?_, fun x hx ↦ ?_, fun x hx ↦ ?_, fun x z hx hz k ↦ ?_, fun x hx k n hn ↦ ?_⟩
  · rcases holds_put hx with rfl | hx
    · exact hgood
    · exact h.good x hx
  · rcases holds_put hx with rfl | hx
    · exact hissued
    · exact h.issued x hx
  · rcases holds_put hx with rfl | hx
    · exact hlub
    · exact h.lub x hx
  · rcases holds_put hx with hxy | hxOld <;> rcases holds_put hz with hzy | hzOld
    · rw [hxy, hzy]
      exact fun _ ↦ rfl
    · rw [hxy]
      exact fun heq ↦ (hagree z hzOld k heq.symm).symm
    · rw [hzy]
      exact hagree x hxOld k
    · exact h.agree x z hxOld hzOld k
  · rcases holds_put hx with rfl | hx
    · by_cases hni : n = i
      · subst hni
        rw [hself]
      · exact (hsigned k n hn hni).trans (hgrows n k)
    · exact (h.signed x hx k n hn).trans (hgrows n k)

theorem Sound.write {op : ω} (hadmits : Admits good board author c i (P.written c i op).state) :
    Sound P good board author
      (Function.update δ c.issued fun k ↦ (board (P.written c i op).state k).stamp)
      (P.step c (.write i op)).1 := by
  have hle : ∀ k, (board (c.replica i).state k).stamp ≤
      (board (P.written c i op).state k).stamp := by
    intro k
    rcases hadmits.cell k with heq | ⟨hlt, _⟩
    · rw [heq]
    · exact hlt.le
  refine (h.issue _).put hadmits.good ?_ (fun k ↦ ?_) (fun x hx k heq ↦ ?_) hle
    (fun k n hn hni ↦ ?_)
  · intro u hu
    rcases Finset.mem_insert.mp hu with rfl | hu
    · exact Nat.lt_succ_self _
    · exact ((h.issue fun k ↦ (board (P.written c i op).state k).stamp).issued _
        (Cluster.holds_replica _ i) u hu)
  · -- the stamps of all writes before, and now the one this write leaves behind
    have hold := ((h.issue fun k ↦ (board (P.written c i op).state k).stamp).lub _
      (Cluster.holds_replica _ i) k).insert (board (P.written c i op).state k).stamp
    have hsup : (board (P.written c i op).state k).stamp ⊔ (board (c.replica i).state k).stamp =
        (board (P.written c i op).state k).stamp := sup_eq_left.mpr (hle k)
    rw [hsup, Set.insert_comm] at hold
    rw [show ((P.written c i op).seen : Set ℕ) = insert c.issued ((c.replica i).seen : Set ℕ) from
      Finset.coe_insert .., Set.image_insert_eq, update_self]
    exact hold
  · rcases hadmits.cell k with hsame | ⟨hlt, hauthor | ⟨_, hagreed⟩⟩
    · rw [hsame] at heq ⊢
      exact h.agree x _ hx (c.holds_replica i) k heq
    · -- a copy with this stamp would be ahead of its own author
      have hbehind := h.signed x hx k i (heq ▸ hauthor)
      rw [heq] at hbehind
      exact absurd hlt (not_lt.mpr hbehind)
    · exact hagreed x hx heq
  · rcases hadmits.cell k with hsame | ⟨_, hauthor | ⟨hnone, _⟩⟩
    · rw [hsame] at hn ⊢
      exact h.signed _ (c.holds_replica i) k n hn
    · rw [hauthor] at hn
      exact absurd (Option.some.inj hn).symm hni
    · rw [hnone] at hn
      cases hn

theorem Sound.deliver (hjoins : Joins P good board) {m : Copy σ} (hm : m ∈ c.sent) :
    Sound P good board author δ (c.put i (P.merged c i m)) := by
  have hi : good (c.replica i).state := h.good _ (c.holds_replica i)
  have hmHeld : c.Holds m := .inr hm
  have hboard : ∀ k, board (P.merged c i m).state k =
      (board (c.replica i).state k).join (board m.state k) :=
    fun k ↦ hjoins.board_merge _ _ k hi (h.good m hmHeld)
  refine h.put (hjoins.good_merge _ _ hi (h.good m hmHeld)) ?_ (fun k ↦ ?_) (fun x hx k ↦ ?_)
    (fun k ↦ ?_) (fun k n ↦ ?_)
  · intro u hu
    rcases Finset.mem_union.mp hu with hu | hu
    · exact h.issued _ (c.holds_replica i) u hu
    · exact h.issued m hmHeld u hu
  · have hunion := (h.lub _ (c.holds_replica i) k).union (h.lub m hmHeld k)
    rw [← Set.insert_union_distrib, ← Set.image_union] at hunion
    rw [hboard k, Stamped.stamp_join, show ((P.merged c i m).seen : Set ℕ) =
      ↑(c.replica i).seen ∪ ↑m.seen from Finset.coe_union ..]
    exact hunion
  · rw [hboard k]
    rcases Stamped.join_eq_or (board (c.replica i).state k) (board m.state k) with hj | hj
    · rw [hj]
      exact h.agree x _ hx (c.holds_replica i) k
    · rw [hj]
      exact h.agree x m hx hmHeld k
  · rw [hboard k, Stamped.stamp_join]
    exact le_sup_left
  · rw [hboard k]
    rcases Stamped.join_eq_or (board (c.replica i).state k) (board m.state k) with hj | hj
    · rw [hj]
      exact fun hn _ ↦ h.signed _ (c.holds_replica i) k n hn
    · rw [hj]
      exact fun hn _ ↦ h.signed m hmHeld k n hn

theorem Sound.step (hjoins : Joins P good board) {e : Event ι ω}
    (hwrite : ∀ i op, e = .write i op → Admits good board author c i (P.written c i op).state) :
    ∃ δ', Sound P good board author δ' (P.step c e).1 := by
  cases e with
  | write i op => exact ⟨_, h.write (hwrite i op rfl)⟩
  | send i => exact ⟨δ, h.send i⟩
  | deliver =>
    dsimp only [Protocol.step]
    split
    · exact ⟨δ, h⟩
    · rename_i m hm
      exact ⟨δ, h.deliver hjoins (List.mem_of_getElem? hm)⟩

end Run

end Replicas
