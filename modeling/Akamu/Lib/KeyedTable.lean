import Mathlib.Data.List.Nodup
import Mathlib.Data.List.Forall2

/-!
# Finite tables with a primary key

A table is a list of rows in which no two rows have the same key.  The
operations are those of a relational store (insert, guarded update, upsert,
select) and of a hash map (insert, modify, retain); each comes with the
equation that says what a lookup by key sees afterwards.
-/

/-- Rows of type `ρ`, identified by `key`. -/
structure KeyedTable (ρ : Type*) {κ : Type*} (key : ρ → κ) where
  rows : List ρ
  nodup : (rows.map key).Nodup

namespace KeyedTable

open List

variable {ρ κ : Type*} {key : ρ → κ} {t t' : KeyedTable ρ key} {p : ρ → Bool} {f : ρ → ρ} {r s : ρ}
  {k : κ}

/-- The table without rows. -/
def empty : KeyedTable ρ key where
  rows := []
  nodup := by simp

instance : Inhabited (KeyedTable ρ key) := ⟨empty⟩

@[simp] theorem rows_empty : (empty : KeyedTable ρ key).rows = [] := rfl

@[ext] theorem ext_rows {s t : KeyedTable ρ key} (h : s.rows = t.rows) : s = t := by
  cases t
  cases h
  rfl

instance [DecidableEq ρ] : DecidableEq (KeyedTable ρ key) := fun s t ↦
  decidable_of_iff (s.rows = t.rows) ⟨ext_rows, fun h ↦ by rw [h]⟩

theorem eq_of_mem_of_key_eq (t : KeyedTable ρ key) (hr : r ∈ t.rows) (hs : s ∈ t.rows)
    (hkey : key r = key s) : r = s :=
  inj_on_of_nodup_map t.nodup hr hs hkey

/-! ## Lookup by key -/

section Find

variable [DecidableEq κ]

def find? (t : KeyedTable ρ key) (k : κ) : Option ρ :=
  t.rows.find? fun r ↦ decide (key r = k)

@[simp] theorem find?_empty (k : κ) : (empty : KeyedTable ρ key).find? k = none := rfl

theorem find?_eq_some_iff : t.find? k = some r ↔ r ∈ t.rows ∧ key r = k := by
  constructor
  · intro h
    exact ⟨mem_of_find?_eq_some h, by simpa using find?_some h⟩
  · rintro ⟨hr, rfl⟩
    cases hfind : t.find? (key r) with
    | none =>
      have hnone := find?_eq_none.mp hfind r hr
      simp at hnone
    | some s =>
      have hs : s ∈ t.rows := mem_of_find?_eq_some hfind
      have hkey : key s = key r := by simpa using find?_some hfind
      rw [t.eq_of_mem_of_key_eq hs hr hkey]

theorem find?_eq_none_iff : t.find? k = none ↔ ∀ r ∈ t.rows, key r ≠ k := by
  simp [find?, find?_eq_none]

theorem find?_of_mem (hr : r ∈ t.rows) : t.find? (key r) = some r :=
  find?_eq_some_iff.mpr ⟨hr, rfl⟩

theorem mem_of_find? (h : t.find? k = some r) : r ∈ t.rows :=
  (find?_eq_some_iff.mp h).1

theorem key_of_find? (h : t.find? k = some r) : key r = k :=
  (find?_eq_some_iff.mp h).2

theorem mem_rows_iff : r ∈ t.rows ↔ t.find? (key r) = some r := by
  simp [find?_eq_some_iff]

end Find

/-! ## Guarded update -/

theorem map_key_of_assign (p : ρ → Bool) (hf : ∀ r, key (f r) = key r) (rows : List ρ) :
    (rows.map fun r ↦ if p r then f r else r).map key = rows.map key := by
  rw [map_map]
  apply map_congr_left
  intro r _
  simp only [Function.comp_apply]
  split <;> simp [hf]

/-- What an assignment to other columns proves of the key. -/
theorem keeps_key (key : ρ → κ) (r : ρ) : key r = key r := rfl

/-- `UPDATE … SET f WHERE p`; the assignment keeps the key. -/
def updateWhere (t : KeyedTable ρ key) (p : ρ → Bool) (f : ρ → ρ)
    (hf : ∀ r, key (f r) = key r) : KeyedTable ρ key where
  rows := t.rows.map fun r ↦ if p r then f r else r
  nodup := by
    rw [map_key_of_assign p hf]
    exact t.nodup

theorem map_key_updateWhere (t : KeyedTable ρ key) (p : ρ → Bool) (f : ρ → ρ)
    (hf : ∀ r, key (f r) = key r) : (t.updateWhere p f hf).rows.map key = t.rows.map key :=
  map_key_of_assign p hf t.rows

def countWhere (t : KeyedTable ρ key) (p : ρ → Bool) : ℕ := t.rows.countP p

variable {hf : ∀ r, key (f r) = key r}

theorem mem_updateWhere :
    r ∈ (t.updateWhere p f hf).rows ↔ ∃ s ∈ t.rows, (if p s then f s else s) = r := by
  simp [updateWhere]

theorem countWhere_eq_zero_iff : t.countWhere p = 0 ↔ ∀ r ∈ t.rows, ¬ p r := by
  simp [countWhere, countP_eq_zero]

theorem countWhere_ne_zero_iff : t.countWhere p ≠ 0 ↔ ∃ r ∈ t.rows, p r := by
  rw [ne_eq, countWhere_eq_zero_iff]
  simp

theorem countWhere_le_one (h : ∀ r, p r = true → key r = k) : t.countWhere p ≤ 1 := by
  have hrows : ∀ rows : List ρ, (rows.map key).Nodup → rows.countP p ≤ 1 := by
    intro rows hnodup
    induction rows with
    | nil => simp
    | cons r rows ih =>
      simp only [map_cons, nodup_cons] at hnodup
      cases hr : p r with
      | false => simpa [hr] using ih hnodup.2
      | true =>
        have hrest : rows.countP p = 0 := by
          refine countP_eq_zero.mpr fun s hs hps ↦ hnodup.1 ?_
          rw [h r hr, ← h s hps]
          exact mem_map_of_mem hs
        simp [hr, hrest]
  exact hrows t.rows t.nodup

theorem countWhere_updateWhere_le (t : KeyedTable ρ key) (p q : ρ → Bool) (f : ρ → ρ)
    (hf : ∀ r, key (f r) = key r) :
    (t.updateWhere p f hf).countWhere q ≤
      t.countWhere q + t.countWhere fun r ↦ p r && q (f r) := by
  simp only [countWhere, updateWhere]
  induction t.rows with
  | nil => simp
  | cons r =>
    simp only [map_cons, countP_cons]
    cases p r <;> simp only [Bool.false_and, Bool.true_and, Bool.false_eq_true, if_true,
      if_false] <;> omega

theorem updateWhere_eq_self (h : t.countWhere p = 0) : t.updateWhere p f hf = t := by
  apply ext_rows
  have hnone := countWhere_eq_zero_iff.mp h
  calc
    (t.updateWhere p f hf).rows = t.rows.map id :=
      map_congr_left fun r hr ↦ by simp [hnone r hr]
    _ = t.rows := map_id _

section Find

variable [DecidableEq κ]

theorem find?_updateWhere (t : KeyedTable ρ key) (p : ρ → Bool) (f : ρ → ρ)
    (hf : ∀ r, key (f r) = key r) (k : κ) :
    (t.updateWhere p f hf).find? k = (t.find? k).map fun r ↦ if p r then f r else r := by
  have hkey : ∀ r, key (if p r then f r else r) = key r := by
    intro r
    split <;> simp [hf]
  simp only [find?, updateWhere, find?_map]
  congr 1
  apply congrArg (fun q ↦ List.find? q t.rows)
  funext r
  simp [hkey]

theorem find?_updateWhere_of_ne {k₀ k : κ} (hp : ∀ r, p r = true → key r = k₀) (hk : k₀ ≠ k) :
    (t.updateWhere p f hf).find? k = t.find? k := by
  rw [find?_updateWhere]
  cases hfind : t.find? k with
  | none => rfl
  | some r =>
    have hpr : ¬ p r = true := fun h ↦ hk ((hp r h).symm.trans (key_of_find? hfind))
    simp [hpr]

/-! ## Insertion and upsert -/

/-- `INSERT`; fails when the key is taken. -/
def insert? (t : KeyedTable ρ key) (r : ρ) : Option (KeyedTable ρ key) :=
  if h : key r ∈ t.rows.map key then none
  else some
    { rows := t.rows ++ [r]
      nodup := by
        rw [List.map_append]
        exact t.nodup.append (by simp) (by simpa using h) }

theorem insert?_eq_some_iff :
    t.insert? r = some t' ↔ t.find? (key r) = none ∧ t'.rows = t.rows ++ [r] := by
  unfold insert?
  split
  · rename_i hmem
    obtain ⟨s, hs, hkey⟩ := mem_map.mp hmem
    simp only [reduceCtorEq, false_iff, not_and]
    intro hnone
    exact (find?_eq_none_iff.mp hnone s hs hkey).elim
  · rename_i hmem
    have hnone : t.find? (key r) = none := by
      rw [find?_eq_none_iff]
      intro s hs hkey
      exact hmem (mem_map.mpr ⟨s, hs, hkey⟩)
    constructor
    · intro h
      cases h
      exact ⟨hnone, rfl⟩
    · rintro ⟨-, hrows⟩
      congr 1
      exact ext_rows hrows.symm

theorem exists_insert? (h : t.find? (key r) = none) : ∃ t', t.insert? r = some t' := by
  have hnew : key r ∉ t.rows.map key := fun hmem ↦ by
    obtain ⟨s, hs, hkey⟩ := mem_map.mp hmem
    exact find?_eq_none_iff.mp h s hs hkey
  exact ⟨_, dif_neg hnew⟩

theorem find?_insert? (h : t.insert? r = some t') (k : κ) :
    t'.find? k = if key r = k then some r else t.find? k := by
  obtain ⟨hnone, hrows⟩ := insert?_eq_some_iff.mp h
  have hfind : t'.find? k = (t.find? k).or (if key r = k then some r else none) := by
    simp only [find?, hrows, find?_append]
    by_cases hk : key r = k <;> simp [hk]
  rw [hfind]
  by_cases hk : key r = k
  · subst hk
    simp [hnone]
  · simp [hk]

theorem mem_insert? (h : t.insert? r = some t') : s ∈ t'.rows ↔ s ∈ t.rows ∨ s = r := by
  rw [(insert?_eq_some_iff.mp h).2]
  simp

/-- `INSERT … ON CONFLICT (key) DO UPDATE SET f`. -/
def upsert (t : KeyedTable ρ key) (r : ρ) (f : ρ → ρ) (hf : ∀ s, key (f s) = key s) :
    KeyedTable ρ key :=
  match t.insert? r with
  | some t' => t'
  | none => t.updateWhere (fun s ↦ decide (key s = key r)) f hf

theorem find?_upsert (t : KeyedTable ρ key) (r : ρ) (f : ρ → ρ)
    (hf : ∀ s, key (f s) = key s) (k : κ) :
    (t.upsert r f hf).find? k =
      if key r = k then some ((t.find? k).elim r f) else t.find? k := by
  unfold upsert
  split
  · rename_i t' hins
    rw [find?_insert? hins]
    by_cases hk : key r = k
    · have hnone := (insert?_eq_some_iff.mp hins).1
      rw [hk] at hnone
      simp [hk, hnone]
    · simp [hk]
  · rename_i hins
    rw [find?_updateWhere]
    by_cases hk : key r = k
    · subst hk
      cases hfind : t.find? (key r) with
      | some =>
        have hs := key_of_find? hfind
        simp [hs]
      | none =>
        obtain ⟨s, hs, hskey⟩ : ∃ s ∈ t.rows, key s = key r := by
          by_contra hno
          simp only [insert?, dite_eq_left_iff, reduceCtorEq, imp_false,
            not_not, mem_map] at hins
          exact hno hins
        exact (find?_eq_none_iff.mp hfind s hs hskey).elim
    · simp only [hk, if_false]
      cases hfind : t.find? k with
      | none => rfl
      | some s =>
        have hs : key s ≠ key r := by
          rw [key_of_find? hfind]
          exact fun h ↦ hk h.symm
        simp [hs]

/-- Replace the row under a key, or add it: the `insert` of a hash map. -/
def put (t : KeyedTable ρ key) (r : ρ) : KeyedTable ρ key :=
  t.upsert r (fun s ↦ if key s = key r then r else s) (by
    intro s
    split
    · rename_i h
      exact h.symm
    · rfl)

theorem find?_put (t : KeyedTable ρ key) (r : ρ) (k : κ) :
    (t.put r).find? k = if key r = k then some r else t.find? k := by
  unfold put
  rw [find?_upsert]
  by_cases hk : key r = k
  · subst hk
    cases hfind : t.find? (key r) with
    | none => simp
    | some => simp [key_of_find? hfind]
  · simp [hk]

theorem mem_put (h : s ∈ (t.put r).rows) : s = r ∨ s ∈ t.rows := by
  rw [mem_rows_iff, find?_put] at h
  split at h
  · exact .inl (Option.some.inj h).symm
  · exact .inr (mem_of_find? h)

theorem rows_put_of_none (h : t.find? (key r) = none) : (t.put r).rows = t.rows ++ [r] := by
  unfold put upsert
  split
  · rename_i t' hins
    exact (insert?_eq_some_iff.mp hins).2
  · rename_i hins
    have hfresh : key r ∉ t.rows.map key := by
      rintro hmem
      obtain ⟨s, hs, hkey⟩ := mem_map.mp hmem
      exact find?_eq_none_iff.mp h s hs hkey
    simp [insert?, hfresh] at hins

@[simp] theorem find?_put_self (t : KeyedTable ρ key) (r : ρ) :
    (t.put r).find? (key r) = some r := by
  simp [find?_put]

theorem find?_put_of_ne (t : KeyedTable ρ key) (h : key r ≠ k) : (t.put r).find? k = t.find? k := by
  simp [find?_put, h]

theorem exists_of_find?_foldl_put {χ : Type*} {xs : List χ} {f : χ → ρ}
    (h : (xs.foldl (fun t x ↦ t.put (f x)) t).find? k = some r) :
    t.find? k = some r ∨ ∃ x ∈ xs, f x = r := by
  induction xs generalizing t with
  | nil => exact .inl h
  | cons x xs ih =>
    rcases ih h with hput | ⟨y, hy, hfy⟩
    · rw [find?_put] at hput
      split at hput
      · exact .inr ⟨x, mem_cons_self, Option.some.inj hput⟩
      · exact .inl hput
    · exact .inr ⟨y, mem_cons_of_mem x hy, hfy⟩

omit [DecidableEq κ] in
/-- A loop that leaves alone what `get` reads. -/
theorem foldl_frame {σ β χ : Type*} {f : σ → χ → σ} (get : σ → β) {xs : List χ}
    (h : ∀ x ∈ xs, ∀ s, get (f s x) = get s) (s : σ) : get (xs.foldl f s) = get s := by
  induction xs generalizing s with
  | nil => rfl
  | cons x xs ih =>
    rw [foldl_cons, ih fun y hy ↦ h y (mem_cons_of_mem x hy), h x mem_cons_self]

theorem find?_foldl_put_of_mem {χ : Type*} {xs : List χ} {f : χ → ρ}
    (hnodup : (xs.map fun x ↦ key (f x)).Nodup) {x : χ} (hx : x ∈ xs) :
    (xs.foldl (fun t x ↦ t.put (f x)) t).find? (key (f x)) = some (f x) := by
  induction xs generalizing t with
  | nil => cases hx
  | cons y xs ih =>
    rw [map_cons, nodup_cons] at hnodup
    rw [foldl_cons]
    rcases mem_cons.mp hx with rfl | htail
    · rw [foldl_frame (find? · (key (f x))) fun z hz t ↦ find?_put_of_ne t fun heq ↦
        hnodup.1 (heq ▸ mem_map_of_mem hz), find?_put_self]
    · exact ih hnodup.2 htail

/-! ## Retaining rows -/

/-- Keep the rows that satisfy a predicate: `DELETE … WHERE ¬ p`, or `retain`. -/
def retain (t : KeyedTable ρ key) (p : ρ → Bool) : KeyedTable ρ key where
  rows := t.rows.filter p
  nodup := t.nodup.sublist (List.filter_sublist.map key)

omit [DecidableEq κ] in
@[simp] theorem mem_retain : r ∈ (t.retain p).rows ↔ r ∈ t.rows ∧ p r := by
  simp [retain]

omit [DecidableEq κ] in
theorem retain_eq_self (h : ∀ r ∈ t.rows, p r) : t.retain p = t :=
  ext_rows (filter_eq_self.mpr h)

theorem find?_retain (t : KeyedTable ρ key) (p : ρ → Bool) (k : κ) :
    (t.retain p).find? k = (t.find? k).filter p := by
  cases hfind : t.find? k with
  | none =>
    simp only [Option.filter_none, find?_eq_none_iff, mem_retain]
    rintro r ⟨hr, -⟩
    exact find?_eq_none_iff.mp hfind r hr
  | some r =>
    obtain ⟨hr, hkey⟩ := find?_eq_some_iff.mp hfind
    by_cases hp : p r
    · rw [Option.filter_some_pos hp]
      exact find?_eq_some_iff.mpr ⟨mem_retain.mpr ⟨hr, hp⟩, hkey⟩
    · rw [Option.filter_some_eq_none.mpr hp, find?_eq_none_iff]
      simp only [mem_retain]
      rintro s ⟨hs, hps⟩ hskey
      rw [t.eq_of_mem_of_key_eq hs hr (hskey.trans hkey.symm)] at hps
      exact hp hps

/-! ## Tables of pairs -/

section Pairs

variable {ν χ : Type*} {t : KeyedTable (κ × ν) Prod.fst} {v : ν} {xs : List χ} {g : χ → κ × ν}

theorem map_snd_find?_eq_some_iff : (t.find? k).map Prod.snd = some v ↔ (k, v) ∈ t.rows := by
  rw [Option.map_eq_some_iff]
  constructor
  · rintro ⟨⟨k', v'⟩, hfind, rfl⟩
    obtain ⟨hmem, rfl⟩ := find?_eq_some_iff.mp hfind
    exact hmem
  · intro hmem
    exact ⟨(k, v), find?_of_mem hmem, rfl⟩

theorem map_snd_find?_put (t : KeyedTable (κ × ν) Prod.fst) (k₀ : κ) (v : ν) (k : κ) :
    ((t.put (k₀, v)).find? k).map Prod.snd =
      if k₀ = k then some v else (t.find? k).map Prod.snd := by
  rw [find?_put]
  by_cases hk : k₀ = k <;> simp [hk]

theorem map_snd_find?_retain (t : KeyedTable (κ × ν) Prod.fst) (p : κ × ν → Bool) (k : κ) :
    ((t.retain p).find? k).map Prod.snd =
      ((t.find? k).map Prod.snd).filter fun v ↦ p (k, v) := by
  rw [find?_retain]
  cases hfind : t.find? k with
  | none => rfl
  | some e =>
    obtain ⟨k', v⟩ := e
    obtain rfl : k' = k := key_of_find? hfind
    by_cases hp : p (k', v) = true <;> simp [Option.filter, hp]

theorem exists_of_map_snd_foldl_put
    (h : ((xs.foldl (fun t x ↦ t.put (g x))
      (empty : KeyedTable (κ × ν) Prod.fst)).find? k).map Prod.snd = some v) :
    ∃ x ∈ xs, g x = (k, v) := by
  obtain ⟨e, hfind, rfl⟩ := Option.map_eq_some_iff.mp h
  obtain rfl : e.1 = k := key_of_find? hfind
  exact (exists_of_find?_foldl_put hfind).resolve_left nofun

theorem map_snd_find?_foldl_put {name : χ → κ} {value : χ → ν} (hnodup : (xs.map name).Nodup)
    (k : κ) :
    ((xs.foldl (fun t x ↦ t.put (name x, value x))
      (empty : KeyedTable (κ × ν) Prod.fst)).find? k).map Prod.snd =
        (xs.find? fun x ↦ decide (name x = k)).map value := by
  cases hfind : xs.find? fun x ↦ decide (name x = k) with
  | none =>
    rw [Option.map_none, Option.eq_none_iff_forall_ne_some]
    intro v hv
    obtain ⟨x, hx, heq⟩ := exists_of_map_snd_foldl_put hv
    exact find?_eq_none.mp hfind x hx (decide_eq_true (congrArg Prod.fst heq))
  | some x =>
    obtain rfl : name x = k := of_decide_eq_true (find?_some hfind :)
    have hput : (xs.foldl (fun t x ↦ t.put (name x, value x))
        (empty : KeyedTable (κ × ν) Prod.fst)).find? (name x) = some (name x, value x) :=
      find?_foldl_put_of_mem (f := fun x ↦ (name x, value x)) hnodup (mem_of_find?_eq_some hfind)
    rw [hput, Option.map_some, Option.map_some]

end Pairs

/-! ## Batches of statements -/

/-- A batch of statements, each of which touches only the row under the key of
its own entry, acts key by key: the order of the entries does not matter.
`effect` relates the row before and after the statement of one entry. -/
theorem find?_foldlM_of_keyed {ε χ : Type*} {ekey : ε → κ}
    {stmt : KeyedTable ρ key → ε → Except χ (KeyedTable ρ key)}
    (effect : ε → Option ρ → Option ρ → Prop) (hstmt : ∀ t e t', stmt t e = .ok t' →
      effect e (t.find? (ekey e)) (t'.find? (ekey e)) ∧
        ∀ k, ekey e ≠ k → t'.find? k = t.find? k) {es : List ε} (hnodup : (es.map ekey).Nodup)
    (h : es.foldlM stmt t = .ok t') :
    (∀ e ∈ es, effect e (t.find? (ekey e)) (t'.find? (ekey e))) ∧
      ∀ k, (∀ e ∈ es, ekey e ≠ k) → t'.find? k = t.find? k := by
  induction es generalizing t with
  | nil =>
    simp only [foldlM_nil, pure, Except.pure, Except.ok.injEq] at h
    simp [h]
  | cons e es ih =>
    rw [map_cons, nodup_cons] at hnodup
    rw [foldlM_cons] at h
    cases hs : stmt t e with
    | error =>
      rw [hs] at h
      cases h
    | ok t₁ =>
      rw [hs] at h
      obtain ⟨heffects, hframe⟩ := ih hnodup.2 h
      obtain ⟨heffect, hother⟩ := hstmt t e t₁ hs
      have hfresh : ∀ e' ∈ es, ekey e' ≠ ekey e := fun e' he' heq ↦
        hnodup.1 (heq ▸ mem_map_of_mem he')
      constructor
      · intro e' he'
        rcases mem_cons.mp he' with rfl | htail
        · rw [hframe _ hfresh]
          exact heffect
        · rw [← hother _ (hfresh e' htail).symm]
          exact heffects e' htail
      · intro k hk
        rw [hframe k fun e' he' ↦ hk e' (mem_cons_of_mem e he'),
          hother k (hk e mem_cons_self)]

theorem find?_foldlM_entries {ε χ : Type*} (m : KeyedTable (κ × ε) Prod.fst)
    {stmt : KeyedTable ρ key → κ × ε → Except χ (KeyedTable ρ key)}
    (effect : κ → ε → Option ρ → Option ρ → Prop) (hstmt : ∀ t e t', stmt t e = .ok t' →
      effect e.1 e.2 (t.find? e.1) (t'.find? e.1) ∧ ∀ k, e.1 ≠ k → t'.find? k = t.find? k)
    (h : m.rows.foldlM stmt t = .ok t') (k : κ) :
    ((m.find? k).map Prod.snd = none → t'.find? k = t.find? k) ∧
      ∀ e, (m.find? k).map Prod.snd = some e → effect k e (t.find? k) (t'.find? k) := by
  obtain ⟨heffects, hframe⟩ := find?_foldlM_of_keyed
    (fun e old new ↦ effect e.1 e.2 old new) hstmt m.nodup h
  constructor
  · intro hnone
    exact hframe k (find?_eq_none_iff.mp (Option.map_eq_none_iff.mp hnone))
  · intro e hsome
    obtain ⟨⟨k', e'⟩, hfind, rfl⟩ := Option.map_eq_some_iff.mp hsome
    obtain ⟨he, rfl⟩ := find?_eq_some_iff.mp hfind
    exact heffects _ he

/-! ## Loops over a table -/

section Loop

variable {σ β : Type*} {f : σ → ρ → σ} {clock : σ → ℕ}

omit [DecidableEq κ] in
theorem clock_le_foldl (hclock : ∀ s r, clock s ≤ clock (f s r)) (rows : List ρ) (s : σ) :
    clock s ≤ clock (rows.foldl f s) := by
  induction rows generalizing s with
  | nil => exact Nat.le_refl _
  | cons r rows ih => exact Nat.le_trans (hclock s r) (ih _)

omit [DecidableEq κ] in
theorem key_ne_of_split (t : KeyedTable ρ key) {pre post : List ρ} (h : t.rows = pre ++ r :: post) :
    ∀ r' ∈ pre ++ post, key r' ≠ key r := by
  have hnodup := t.nodup
  rw [h, map_append, map_cons, nodup_middle, nodup_cons] at hnodup
  intro r' hr' hkey
  refine hnodup.1 (hkey ▸ ?_)
  rw [← map_append]
  exact mem_map_of_mem hr'

theorem exists_split (t : KeyedTable ρ key) (h : t.find? k = some r) :
    ∃ pre post, t.rows = pre ++ r :: post ∧ ∀ r' ∈ pre ++ post, key r' ≠ k := by
  obtain ⟨hr, rfl⟩ := find?_eq_some_iff.mp h
  obtain ⟨pre, post, hrows⟩ := append_of_mem hr
  exact ⟨pre, post, hrows, t.key_ne_of_split hrows⟩

/-- A loop over the rows of `t` in which only the row under the key `k` touches what
`get` reads, with a clock that does not go back. -/
theorem foldl_rows_at (get : σ → β) (hclock : ∀ s r, clock s ≤ clock (f s r))
    (hother : ∀ r ∈ t.rows, key r ≠ k → ∀ s, get (f s r) = get s) (s : σ) (h : t.find? k = some r) :
    ∃ s', get s' = get s ∧ clock s ≤ clock s' ∧ get (t.rows.foldl f s) = get (f s' r) ∧
      clock (f s' r) ≤ clock (t.rows.foldl f s) := by
  obtain ⟨pre, post, hrows, houtside⟩ := t.exists_split h
  rw [hrows, foldl_append, foldl_cons]
  have hframe : ∀ r' ∈ pre ++ post, ∀ s, get (f s r') = get s := fun r' hr' ↦
    hother r' (hrows ▸ by grind) (houtside r' hr')
  exact ⟨pre.foldl f s, foldl_frame get (fun r' hr' ↦ hframe r' (mem_append_left post hr')) s,
    clock_le_foldl hclock pre s,
    foldl_frame get (fun r' hr' ↦ hframe r' (mem_append_right pre hr')) _,
    clock_le_foldl hclock post _⟩

end Loop

/-! ## Copying a table -/

omit [DecidableEq κ] in
theorem filterMap_keys_sublist {ρ' : Type*} {key' : ρ' → κ} {f : ρ → Option ρ'}
    (hf : ∀ r s, f r = some s → key' s = key r) (rows : List ρ) :
    ((rows.filterMap f).map key').Sublist (rows.map key) := by
  induction rows with
  | nil => exact List.Sublist.refl _
  | cons r rows ih =>
    cases hfr : f r with
    | none =>
      rw [filterMap_cons_none hfr]
      exact ih.cons _
    | some s =>
      rw [filterMap_cons_some hfr, map_cons, map_cons, hf r s hfr]
      exact ih.cons_cons _

/-- A table with a row for some of the rows of `t`, under the same keys. -/
def filterMapRows {ρ' : Type*} {key' : ρ' → κ} (t : KeyedTable ρ key) (f : ρ → Option ρ')
    (hf : ∀ r s, f r = some s → key' s = key r) : KeyedTable ρ' key' where
  rows := t.rows.filterMap f
  nodup := t.nodup.sublist (filterMap_keys_sublist hf t.rows)

theorem find?_filterMapRows {ρ' : Type*} {key' : ρ' → κ} (t : KeyedTable ρ key)
    (f : ρ → Option ρ') (hf : ∀ r s, f r = some s → key' s = key r) (k : κ) :
    (t.filterMapRows f hf).find? k = (t.find? k).bind f := by
  cases hfind : t.find? k with
  | none =>
    rw [Option.bind_none, find?_eq_none_iff]
    intro s hs hkey
    obtain ⟨r, hr, hfr⟩ := mem_filterMap.mp hs
    exact find?_eq_none_iff.mp hfind r hr ((hf r s hfr).symm.trans hkey)
  | some r =>
    obtain ⟨hr, hkey⟩ := find?_eq_some_iff.mp hfind
    rw [Option.bind_some]
    cases hfr : f r with
    | some s =>
      refine find?_eq_some_iff.mpr ⟨mem_filterMap.mpr ⟨r, hr, hfr⟩, ?_⟩
      rw [hf r s hfr, hkey]
    | none =>
      rw [find?_eq_none_iff]
      intro s hs hskey
      obtain ⟨r', hr', hfr'⟩ := mem_filterMap.mp hs
      have heq : r' = r :=
        t.eq_of_mem_of_key_eq hr' hr ((hf r' s hfr').symm.trans (hskey.trans hkey.symm))
      rw [heq, hfr] at hfr'
      cases hfr'

end Find

end KeyedTable
