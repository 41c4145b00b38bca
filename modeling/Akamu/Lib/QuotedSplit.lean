import Mathlib.Data.List.Basic
import Mathlib.Data.List.Count
import Mathlib.Data.List.Induction
import Mathlib.Algebra.Group.Nat.Even

/-!
# Splitting text at a delimiter outside quotes

A splitter reads a text from left to right and cuts it at every delimiter that
is not between quotes.  What a text leaves behind for the text after it is
whether it ends inside quotes, that is the parity of the number of its quotes.
-/

namespace QuotedSplit

open List

variable {α : Type*} [DecidableEq α]

structure Splitter (α : Type*) where
  parts : List (List α)
  current : List α
  inQuotes : Bool

def step (quote delim : α) (s : Splitter α) (ch : α) : Splitter α :=
  if ch = quote then { s with current := s.current ++ [ch], inQuotes := !s.inQuotes }
  else if ch = delim ∧ s.inQuotes = false then
    { s with parts := s.parts ++ [s.current], current := [] }
  else { s with current := s.current ++ [ch] }

def split (quote delim : α) (text : List α) : List (List α) :=
  let s := text.foldl (step quote delim) ⟨[], [], false⟩
  s.parts ++ [s.current]

section

variable {quote delim : α}

theorem inQuotes_foldl (text : List α) (s : Splitter α) :
    (text.foldl (step quote delim) s).inQuotes =
      if Even (text.count quote) then s.inQuotes else !s.inQuotes := by
  induction text generalizing s with
  | nil => simp
  | cons ch text ih =>
    rw [foldl_cons, ih]
    by_cases hquote : ch = quote
    · subst hquote
      simp only [count_cons_self, Nat.even_add_one, step, if_pos]
      by_cases heven : Even (text.count ch) <;> simp [heven]
    · have hstep : (step quote delim s ch).inQuotes = s.inQuotes := by
        rw [step, if_neg hquote]
        split <;> rfl
      rw [count_cons_of_ne hquote, hstep]

/-- No delimiter of the text is outside quotes, and its quotes are closed. -/
def Intact (quote delim : α) (text : List α) : Prop :=
  ∀ s : Splitter α, s.inQuotes = false →
    text.foldl (step quote delim) s = { s with current := s.current ++ text }

variable {parts : List (List α)}

namespace Intact

theorem nil : Intact quote delim [] := by
  intro s _
  simp

theorem append {xs ys : List α} (hxs : Intact quote delim xs) (hys : Intact quote delim ys) :
    Intact quote delim (xs ++ ys) := by
  intro s hs
  have hmid : ({ s with current := s.current ++ xs } : Splitter α).inQuotes = false := hs
  rw [foldl_append, hxs s hs, hys _ hmid, append_assoc]

theorem singleton {ch : α} (hquote : ch ≠ quote) (hdelim : ch ≠ delim) :
    Intact quote delim [ch] := by
  intro s _
  simp [step, hquote, hdelim]

variable {text : List α}

theorem of_plain (h : ∀ ch ∈ text, ch ≠ quote ∧ ch ≠ delim) : Intact quote delim text := by
  induction text with
  | nil => exact nil
  | cons ch text ih =>
    have hch := h ch mem_cons_self
    have htext := ih fun c hc ↦ h c (mem_cons_of_mem _ hc)
    exact (singleton hch.1 hch.2).append htext

theorem foldl_inside (delim : α) (h : ∀ ch ∈ text, ch ≠ quote) (s : Splitter α)
    (hs : s.inQuotes = true) :
    text.foldl (step quote delim) s = { s with current := s.current ++ text } := by
  induction text generalizing s with
  | nil => simp
  | cons ch text ih =>
    have hch : ch ≠ quote := h ch mem_cons_self
    have hstep : step quote delim s ch = { s with current := s.current ++ [ch] } := by
      simp [step, hch, hs]
    have hrest := ih (fun c hc ↦ h c (mem_cons_of_mem _ hc))
      { s with current := s.current ++ [ch] } hs
    rw [foldl_cons, hstep, hrest, append_assoc, singleton_append]

theorem quoted (h : ∀ ch ∈ text, ch ≠ quote) : Intact quote delim (quote :: text ++ [quote]) := by
  intro s hs
  have hopen : step quote delim s quote =
      { s with current := s.current ++ [quote], inQuotes := true } := by
    simp [step, hs]
  have htext := foldl_inside delim h
    { s with current := s.current ++ [quote], inQuotes := true } rfl
  rw [cons_append, foldl_cons, hopen, foldl_append, htext]
  simp [step, hs]

theorem intercalate {sep : α} (hquote : sep ≠ quote) (hdelim : sep ≠ delim)
    (h : ∀ p ∈ parts, Intact quote delim p) :
    Intact quote delim (List.intercalate [sep] parts) := by
  induction parts with
  | nil => exact nil
  | cons p parts ih =>
    cases parts with
    | nil => simpa [List.intercalate] using h p mem_cons_self
    | cons =>
      have hrest := ih fun p hp ↦ h p (mem_cons_of_mem _ hp)
      exact (h p mem_cons_self).append ((singleton hquote hdelim).append hrest)

end Intact

/-- After a text that does not end inside quotes, the delimiter is seen. -/
theorem getLast?_split {before after : List α} (hne : delim ≠ quote)
    (hbefore : Even (before.count quote)) (hafter : Intact quote delim after) :
    (split quote delim (before ++ delim :: after)).getLast? = some after := by
  have hout : (before.foldl (step quote delim) ⟨[], [], false⟩).inQuotes = false := by
    simp [inQuotes_foldl, hbefore]
  generalize hs : before.foldl (step quote delim) ⟨[], [], false⟩ = s at hout
  have hcut : step quote delim s delim =
      { s with parts := s.parts ++ [s.current], current := [] } := by
    simp [step, hne, hout]
  have hlast := hafter { s with parts := s.parts ++ [s.current], current := [] } hout
  simp [split, foldl_append, hs, hcut, hlast]

theorem split_of_intact {text : List α} (h : Intact quote delim text) :
    split quote delim text = [text] := by
  simp [split, h ⟨[], [], false⟩ rfl]

theorem parts_foldl_intercalate (hne : delim ≠ quote) (hparts : parts ≠ [])
    (h : ∀ p ∈ parts, Intact quote delim p) (before : List (List α)) :
    ((List.intercalate [delim] parts).foldl (step quote delim) ⟨before, [], false⟩).parts ++
      [((List.intercalate [delim] parts).foldl (step quote delim) ⟨before, [], false⟩).current] =
        before ++ parts := by
  induction parts generalizing before with
  | nil => exact (hparts rfl).elim
  | cons p parts ih =>
    have hp := h p mem_cons_self ⟨before, [], false⟩ rfl
    cases parts with
    | nil => simp [List.intercalate, hp]
    | cons q parts =>
      have hcut : step quote delim ⟨before, p, false⟩ delim = ⟨before ++ [p], [], false⟩ := by
        simp [step, hne]
      have hrest := ih (cons_ne_nil q parts)
        (fun p hp ↦ h p (mem_cons_of_mem _ hp)) (before ++ [p])
      rw [intercalate_cons_cons, append_assoc, foldl_append, hp,
        foldl_append, nil_append, foldl_cons, foldl_nil, hcut, hrest, append_assoc,
        singleton_append]

theorem split_intercalate (hne : delim ≠ quote) (hparts : parts ≠ [])
    (h : ∀ p ∈ parts, Intact quote delim p) :
    split quote delim (List.intercalate [delim] parts) = parts :=
  parts_foldl_intercalate hne hparts h []

/-! ## What the parts are -/

/-- Every delimiter of the text is between quotes. -/
def Inside (quote delim : α) (text : List α) : Prop :=
  ∀ before after, text = before ++ delim :: after → ¬ Even (before.count quote)

/-- The text is cut at the delimiters that an even number of quotes precedes. -/
inductive Cuts (quote delim : α) : List α → List (List α) → Prop where
  | last {text : List α} (inside : Inside quote delim text) : Cuts quote delim text [text]
  | cut {part rest : List α} {parts : List (List α)} (closed : Even (part.count quote))
      (inside : Inside quote delim part) (cuts : Cuts quote delim rest parts) :
      Cuts quote delim (part ++ delim :: rest) (part :: parts)

theorem Inside.of_concat {text : List α} {ch : α} (h : Inside quote delim (text ++ [ch])) :
    Inside quote delim text := by
  intro before after htext
  exact h before (after ++ [ch]) (by rw [htext, append_assoc, cons_append])

theorem Inside.concat {text : List α} {ch : α} (h : Inside quote delim text)
    (hch : ch = delim → ¬ Even (text.count quote)) : Inside quote delim (text ++ [ch]) := by
  intro before after htext
  rcases eq_nil_or_concat' after with rfl | ⟨after, d, rfl⟩
  · obtain ⟨rfl, rfl⟩ := append_singleton_inj.mp htext
    exact hch rfl
  · rw [← cons_append, ← append_assoc] at htext
    exact h before after (append_singleton_inj.mp htext).1

theorem foldl_of_inside {text : List α} (h : Inside quote delim text) (s : Splitter α)
    (hs : s.inQuotes = false) :
    text.foldl (step quote delim) s =
      { s with current := s.current ++ text, inQuotes := decide (¬ Even (text.count quote)) } := by
  induction text using List.reverseRecOn with
  | nil => simp [← hs]
  | append_singleton text ch ih =>
    rw [foldl_append, ih h.of_concat, foldl_cons, foldl_nil, step]
    by_cases hquote : ch = quote
    · subst hquote
      by_cases heven : Even (text.count ch) <;> simp [heven, Nat.even_add_one]
    · by_cases hdelim : ch = delim
      · have hodd : ¬ Even (text.count quote) := h text [] (by rw [hdelim])
        simp [hquote, hodd]
      · simp [hquote, hdelim]

theorem split_of_cuts (hne : delim ≠ quote) {text : List α} (h : Cuts quote delim text parts) :
    split quote delim text = parts := by
  suffices hall : ∀ before : List (List α),
      (text.foldl (step quote delim) ⟨before, [], false⟩).parts ++
        [(text.foldl (step quote delim) ⟨before, [], false⟩).current] = before ++ parts from hall []
  induction h with
  | last inside =>
    intro before
    rw [foldl_of_inside inside _ rfl, nil_append]
  | cut closed inside _ ih =>
    intro before
    rw [foldl_append, foldl_of_inside inside _ rfl, foldl_cons, step, if_neg hne]
    simp [closed, ih]

theorem Cuts.concat {text : List α} (h : Cuts quote delim text parts) (ch : α) :
    ∃ parts, Cuts quote delim (text ++ [ch]) parts := by
  induction h with
  | @last text inside =>
    by_cases hcut : ch = delim ∧ Even (text.count quote)
    · obtain ⟨rfl, heven⟩ := hcut
      exact ⟨_, .cut heven inside (.last fun before after hnil ↦ by simp at hnil)⟩
    · exact ⟨_, .last (inside.concat fun hch heven ↦ hcut ⟨hch, heven⟩)⟩
  | cut closed inside _ ih =>
    obtain ⟨parts, hparts⟩ := ih
    rw [append_assoc, cons_append]
    exact ⟨_, .cut closed inside hparts⟩

theorem exists_cuts (quote delim : α) (text : List α) : ∃ parts, Cuts quote delim text parts := by
  induction text using List.reverseRecOn with
  | nil => exact ⟨_, .last fun before after hnil ↦ by simp at hnil⟩
  | append_singleton text ch ih =>
    obtain ⟨parts, hparts⟩ := ih
    exact hparts.concat ch

theorem split_eq_iff (hne : delim ≠ quote) {text : List α} :
    split quote delim text = parts ↔ Cuts quote delim text parts := by
  constructor
  · rintro rfl
    obtain ⟨parts, hparts⟩ := exists_cuts quote delim text
    rwa [split_of_cuts hne hparts]
  · exact split_of_cuts hne

end

end QuotedSplit
