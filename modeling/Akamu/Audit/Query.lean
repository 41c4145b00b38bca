import Akamu.Audit.Journal
import Akamu.Ca.Validity
import Mathlib.Data.String.Basic

/-!
# Queries of the audit journal

The two places of `journal.rs` that keep events: the store of the built-in
daemon, which drops its oldest entries when it is full, and a file with one
event a line, read as the events that were written to it.
-/

namespace Akamu.Journal

open List Option

structure JournalEntry where
  occurredAt : String
  fields : Fields
  deriving DecidableEq

structure AuditQuery where
  eventType : Option String
  subject : Option String
  from' : Option String
  until' : Option String
  outcome : Option String
  limit : ℕ
  offset : ℕ

structure AuditEventRow where
  occurredAt : String
  eventType : String
  subject : Option String
  principal : Option String
  outcome : String
  detail : Option String
  deriving DecidableEq, Repr

/-- `DAEMON_STORE_CAP` -/
def daemonStoreCap : ℕ := 100000

/-- `MAX_QUERY_LINES` -/
def maxQueryLines : ℕ := 500000

def JournalEntry.get (e : JournalEntry) (key : String) : Option String :=
  (e.fields.find? key).map Prod.snd

/-- The filters by type, subject and outcome. -/
def matchesFields (q : AuditQuery) (e : JournalEntry) : Bool :=
  q.eventType.all (fun t ↦ e.get "AKAMU_EVENT_TYPE" == some t) &&
    q.subject.all (fun s ↦ e.get "AKAMU_SUBJECT" == some s) &&
    q.outcome.all (fun o ↦ e.get "AKAMU_OUTCOME" == some o)

/-- Timestamps are compared as texts. -/
def filterEntry (q : AuditQuery) (e : JournalEntry) : Bool :=
  matchesFields q e && q.from'.all (fun t ↦ !decide (e.occurredAt < t)) &&
    q.until'.all (fun t ↦ !decide (t < e.occurredAt))

def entryToRow (e : JournalEntry) : AuditEventRow where
  occurredAt := e.occurredAt
  eventType := (e.get "AKAMU_EVENT_TYPE").getD ""
  subject := e.get "AKAMU_SUBJECT"
  principal := e.get "AKAMU_PRINCIPAL"
  outcome := (e.get "AKAMU_OUTCOME").getD ""
  detail := e.get "AKAMU_DETAIL"

/-- The daemon receives an event. -/
def receive (store : List JournalEntry) (e : JournalEntry) : List JournalEntry :=
  (if daemonStoreCap ≤ store.length then store.drop (daemonStoreCap / 10) else store) ++ [e]

def daemonStore (history : List JournalEntry) : List JournalEntry := history.foldl receive []

def queryStore (store : List JournalEntry) (q : AuditQuery) : List AuditEventRow :=
  (((store.reverse.filter (filterEntry q)).drop q.offset).take q.limit).map entryToRow

def queryFile (lines : List JournalEntry) (q : AuditQuery) : List AuditEventRow :=
  (((((lines.take maxQueryLines).filter (filterEntry q)).map entryToRow).reverse).drop
    q.offset).take q.limit

/-! ## The store over any history -/

/-- The store evicts a tenth at a time, the oldest events first. -/
theorem daemonStore_suffix (history : List JournalEntry) :
    daemonStore history <:+ history ∧ (daemonStore history).length ≤ daemonStoreCap ∧
      min history.length (daemonStoreCap - daemonStoreCap / 10) ≤ (daemonStore history).length := by
  induction history using List.reverseRecOn with
  | nil => exact ⟨suffix_rfl, Nat.zero_le _, Nat.min_le_left _ _⟩
  | append_singleton history e ih =>
    obtain ⟨hsuffix, hcap, hrecent⟩ := ih
    have hcapacity : daemonStoreCap = 100000 := rfl
    rw [daemonStore, foldl_append, ← daemonStore, foldl_cons, foldl_nil, receive]
    split
    · refine ⟨(suffix_append_inj_of_length_eq rfl).mpr ⟨(drop_suffix _ _).trans hsuffix, rfl⟩, ?_⟩
      simp only [length_append, length_drop, length_singleton]
      omega
    · refine ⟨(suffix_append_inj_of_length_eq rfl).mpr ⟨hsuffix, rfl⟩, ?_⟩
      simp only [length_append, length_singleton]
      omega

/-- Whatever has been evicted: the newest nine tenths of the capacity are there,
and a page is the beginning of the page over the whole history. -/
theorem store_answers_newest (history : List JournalEntry) (q : AuditQuery) :
    (daemonStore history).length ≤ daemonStoreCap ∧
      history.drop (history.length - (daemonStoreCap - daemonStoreCap / 10)) <:+
        daemonStore history ∧
      queryStore (daemonStore history) q <+: queryStore history q := by
  obtain ⟨hsuffix, hcap, hrecent⟩ := daemonStore_suffix history
  refine ⟨hcap, ?_, ?_⟩
  · apply suffix_of_suffix_length_le (drop_suffix _ _) hsuffix
    rw [length_drop]
    omega
  · have hnewest := reverse_prefix.mpr hsuffix
    have hfiltered := hnewest.filter (filterEntry q)
    exact ((hfiltered.drop q.offset).take q.limit).map entryToRow

/-! ## Pages of a history that is only read in part -/

section Pages

variable {α β : Type}

/-- The elements at the places that are read. -/
def readAt (places : ℕ → Bool) : List α → List α
  | [] => []
  | a :: l => if places 0 then a :: readAt (fun i ↦ places (i + 1)) l
      else readAt (fun i ↦ places (i + 1)) l

theorem readAt_eq_nil {places : ℕ → Bool} (h : ∀ i, places i = false) (l : List α) :
    readAt places l = [] := by
  induction l generalizing places with
  | nil => rfl
  | cons a l ih =>
    rw [readAt, h 0]
    exact ih fun i ↦ h (i + 1)

theorem readAt_sublist (places : ℕ → Bool) (l : List α) : readAt places l <+ l := by
  induction l generalizing places with
  | nil => exact Sublist.refl _
  | cons a l ih =>
    rw [readAt]
    split
    · exact (ih _).cons_cons a
    · exact (ih _).cons a

theorem take_eq_readAt (n : ℕ) (l : List α) : l.take n = readAt (fun i ↦ decide (i < n)) l := by
  induction l generalizing n with
  | nil => simp [readAt]
  | cons a l ih =>
    cases n with
    | zero => exact (readAt_eq_nil (by simp) _).symm
    | succ n => simp [readAt, ih]

theorem drop_eq_readAt (n : ℕ) (l : List α) : l.drop n = readAt (fun i ↦ decide (n ≤ i)) l := by
  induction l generalizing n with
  | nil => simp [readAt]
  | cons a l ih =>
    cases n with
    | zero => simpa [readAt] using ih 0
    | succ n => simp [readAt, ih]

/-- Down to the `k`-th element that satisfies `s`, the elements that do are those
that are read and satisfy `p`. -/
def AgreeTo (k : ℕ) (s p : α → Bool) (places : ℕ → Bool) (l : List α) : Prop :=
  ∀ front a back, l = front ++ a :: back → (front.filter s).length < k →
    (s a = true ↔ places front.length = true ∧ p a = true)

variable {s p : α → Bool} {places : ℕ → Bool} {k : ℕ} {l : List α}

theorem agreeTo_nil : AgreeTo k s p places [] := by
  intro front a back hl
  simp at hl

theorem agreeTo_zero : AgreeTo 0 s p places l :=
  fun _ _ _ _ hk ↦ absurd hk (Nat.not_lt_zero _)

theorem agreeTo_cons_iff {a : α} : AgreeTo (k + 1) s p places (a :: l) ↔
    (s a = true ↔ places 0 = true ∧ p a = true) ∧
      AgreeTo (if s a then k else k + 1) s p (fun i ↦ places (i + 1)) l := by
  have hcount : ∀ front : List α, ((a :: front).filter s).length < k + 1 ↔
      (front.filter s).length < if s a then k else k + 1 := by
    intro front
    rw [filter_cons]
    split_ifs <;> simp
  constructor
  · intro h
    refine ⟨h [] a l rfl (Nat.succ_pos k), fun front b back hl hk ↦ ?_⟩
    exact h (a :: front) b back (by rw [hl, cons_append]) ((hcount front).mpr hk)
  · rintro ⟨hhead, htail⟩ front b back hl hk
    cases front with
    | nil =>
      cases hl
      exact hhead
    | cons c front =>
      cases hl
      exact htail front b back rfl ((hcount front).mp hk)

theorem filter_readAt_cons (a : α) : (readAt places (a :: l)).filter p =
    if places 0 = true ∧ p a = true then a :: (readAt (fun i ↦ places (i + 1)) l).filter p
      else (readAt (fun i ↦ places (i + 1)) l).filter p := by
  rw [readAt]
  by_cases hplace : places 0 = true <;> simp [hplace, filter_cons]

theorem take_filter_readAt (h : AgreeTo k s p places l) :
    ((readAt places l).filter p).take k = (l.filter s).take k := by
  induction l generalizing k places with
  | nil => rfl
  | cons a l ih =>
    cases k with
    | zero => rfl
    | succ k =>
      obtain ⟨hhead, htail⟩ := agreeTo_cons_iff.mp h
      have htail := ih htail
      rw [filter_readAt_cons, filter_cons]
      by_cases ha : s a = true
      · rw [if_pos ha] at htail
        rw [if_pos (hhead.mp ha), if_pos ha, take_succ_cons, take_succ_cons, htail]
      · rw [if_neg ha] at htail
        rw [if_neg (mt hhead.mpr ha), if_neg ha, htail]

/-- Where only the end of the list is not read and the rows tell which elements
satisfy either predicate, the pages differ from the first disagreement on. -/
theorem agreeTo_of_take {f : α → β} (hplaces : ∀ i, places (i + 1) = true → places i = true)
    (hs : ∀ a b, f a = f b → p a = true → s b = true → s a = true)
    (hp : ∀ a b, f a = f b → s a = true → p b = true → p a = true)
    (h : (((readAt places l).filter p).take k).map f = ((l.filter s).take k).map f) :
    AgreeTo k s p places l := by
  induction l generalizing k places with
  | nil => exact agreeTo_nil
  | cons a l ih =>
    cases k with
    | zero => exact agreeTo_zero
    | succ k =>
      rw [agreeTo_cons_iff]
      rw [filter_readAt_cons, filter_cons] at h
      have hnext : ∀ i, places (i + 1 + 1) = true → places (i + 1) = true :=
        fun i ↦ hplaces (i + 1)
      by_cases hread : places 0 = true ∧ p a = true <;> by_cases hsa : s a = true
      · rw [if_pos hread, if_pos hsa, take_succ_cons, take_succ_cons, map_cons, map_cons] at h
        rw [if_pos hsa]
        exact ⟨iff_of_true hsa hread, ih hnext (cons.inj h).2⟩
      · -- only the page that is read has `a`
        rw [if_pos hread, if_neg hsa, take_succ_cons, map_cons] at h
        obtain ⟨b, hb, hrow⟩ := mem_map.mp (h ▸ mem_cons_self)
        have hsb := (mem_filter.mp (mem_of_mem_take hb)).2
        exact absurd (hs a b hrow.symm hread.2 hsb) hsa
      · -- the row of `a` is that of an element read after it
        rw [if_neg hread, if_pos hsa, take_succ_cons, map_cons] at h
        obtain ⟨b, hb, hrow⟩ := mem_map.mp (h.symm ▸ mem_cons_self)
        obtain ⟨hb, hpb⟩ := mem_filter.mp (mem_of_mem_take hb)
        have hplace : ¬places 0 = true := fun hplace ↦
          hread ⟨hplace, hp a b hrow.symm hsa hpb⟩
        have hnone : ∀ i, ¬places i = true := by
          intro i
          induction i with
          | zero => exact hplace
          | succ i ihi => exact mt (hplaces i) ihi
        rw [readAt_eq_nil fun i ↦ Bool.eq_false_iff.mpr (hnone (i + 1))] at hb
        exact absurd hb not_mem_nil
      · rw [if_neg hread, if_neg hsa] at h
        rw [if_neg hsa]
        exact ⟨iff_of_false hsa hread, ih hnext h⟩

/-- Whichever places are read, all rows are the right ones only if each element is
judged rightly: an element that is not read is missing among those of its row. -/
theorem agreeTo_of_perm {f : α → β}
    (hs : ∀ a b, f a = f b → p a = true → s b = true → s a = true)
    (h : ((readAt places l).filter p).map f ~ (l.filter s).map f) : AgreeTo k s p places l := by
  classical
  induction l generalizing k places with
  | nil => exact agreeTo_nil
  | cons a l ih =>
    cases k with
    | zero => exact agreeTo_zero
    | succ k =>
      rw [agreeTo_cons_iff]
      rw [filter_readAt_cons, filter_cons] at h
      by_cases hread : places 0 = true ∧ p a = true <;> by_cases hsa : s a = true
      · rw [if_pos hread, if_pos hsa, map_cons, map_cons] at h
        exact ⟨iff_of_true hsa hread, ih h.cons_inv⟩
      · rw [if_pos hread, if_neg hsa, map_cons] at h
        obtain ⟨b, hb, hrow⟩ := mem_map.mp (h.subset mem_cons_self)
        exact absurd (hs a b hrow.symm hread.2 (mem_filter.mp hb).2) hsa
      · rw [if_neg hread, if_pos hsa, map_cons] at h
        have hcount := h.count_eq (f a)
        rw [count_cons_self, count_eq_countP, count_eq_countP, countP_map, countP_map,
          countP_filter, countP_filter] at hcount
        have hle := (readAt_sublist (fun i ↦ places (i + 1)) l).countP_le
          (p := fun b ↦ ((· == f a) ∘ f) b && p b)
        have hmono : l.countP (fun b ↦ ((· == f a) ∘ f) b && p b) ≤
            l.countP (fun b ↦ ((· == f a) ∘ f) b && s b) := by
          refine countP_mono_left fun b _ hb ↦ ?_
          simp only [Function.comp, Bool.and_eq_true, beq_iff_eq] at hb ⊢
          exact ⟨hb.1, hs b a hb.1 hb.2 hsa⟩
        omega
      · rw [if_neg hread, if_neg hsa] at h
        exact ⟨iff_of_false hsa hread, ih h⟩

theorem agreeTo_of_pages {f : α → β}
    (hs : ∀ a b, f a = f b → p a = true → s b = true → s a = true)
    (h : ∀ n, (((readAt places l).filter p).take n).map f = ((l.filter s).take n).map f) :
    AgreeTo k s p places l := by
  have hall := h (((readAt places l).filter p).length + (l.filter s).length)
  rw [take_of_length_le (Nat.le_add_right _ _), take_of_length_le (Nat.le_add_left _ _)] at hall
  exact agreeTo_of_perm hs (.of_eq hall)

end Pages

/-! ## Selection by instant -/

section Instants

variable {τ : Type} [LinearOrder τ] {history : List JournalEntry} {q : AuditQuery}

/-- An event that matches and occurred between the two instants. -/
def selects (instant : String → τ) (q : AuditQuery) (e : JournalEntry) : Bool :=
  matchesFields q e && q.from'.all (fun t ↦ decide (instant t ≤ instant e.occurredAt)) &&
    q.until'.all (fun t ↦ decide (instant e.occurredAt ≤ instant t))

/-- The page of the selected events, the newest first. -/
def newestPage (instant : String → τ) (history : List JournalEntry) (q : AuditQuery) :
    List AuditEventRow :=
  (((history.filter (selects instant q)).reverse.drop q.offset).take q.limit).map entryToRow

/-- Both places answer with the page by instant. -/
def Answered (instant : String → τ) (history : List JournalEntry) (q : AuditQuery) : Prop :=
  queryStore (daemonStore history) q = newestPage instant history q ∧
    queryFile history q = newestPage instant history q

/-- Among the events down to the `k`-th that is selected by instant, the newest
first: those that are selected are the ones that the texts select, are still in
the store and are read from the file. -/
def WellJudged (instant : String → τ) (history : List JournalEntry) (q : AuditQuery) (k : ℕ) :
    Prop :=
  AgreeTo k (selects instant q) (filterEntry q)
      (fun i ↦ decide (i < (daemonStore history).length)) history.reverse ∧
    AgreeTo k (selects instant q) (filterEntry q)
      (fun i ↦ decide (history.length - maxQueryLines ≤ i)) history.reverse

theorem reverse_daemonStore (history : List JournalEntry) :
    (daemonStore history).reverse = history.reverse.take (daemonStore history).length := by
  have hprefix := reverse_prefix.mpr (daemonStore_suffix history).1
  rw [prefix_iff_eq_take.mp hprefix, length_reverse]

theorem queryStore_eq (history : List JournalEntry) (q : AuditQuery) :
    queryStore (daemonStore history) q = ((((readAt
      (fun i ↦ decide (i < (daemonStore history).length)) history.reverse).filter
        (filterEntry q)).take (q.offset + q.limit)).drop q.offset).map entryToRow := by
  rw [queryStore, reverse_daemonStore, ← take_eq_readAt, drop_take, Nat.add_sub_cancel_left]

theorem queryFile_eq (history : List JournalEntry) (q : AuditQuery) :
    queryFile history q = ((((readAt
      (fun i ↦ decide (history.length - maxQueryLines ≤ i)) history.reverse).filter
        (filterEntry q)).take (q.offset + q.limit)).drop q.offset).map entryToRow := by
  rw [queryFile, ← drop_eq_readAt, ← reverse_take, ← map_reverse, ← map_drop, ← map_take,
    filter_reverse, drop_take, Nat.add_sub_cancel_left]

theorem newestPage_eq (instant : String → τ) (history : List JournalEntry) (q : AuditQuery) :
    newestPage instant history q = (((history.reverse.filter (selects instant q)).take
      (q.offset + q.limit)).drop q.offset).map entryToRow := by
  rw [newestPage, filter_reverse, drop_take, Nat.add_sub_cancel_left]

/-- The row of an event has its time, by which both filters go. -/
theorem selects_of_row {instant : String → τ} {q : AuditQuery} {a b : JournalEntry}
    (hrow : entryToRow a = entryToRow b) (ha : filterEntry q a = true)
    (hb : selects instant q b = true) : selects instant q a = true := by
  have htime : a.occurredAt = b.occurredAt := congrArg AuditEventRow.occurredAt hrow
  simp only [filterEntry, selects, Bool.and_eq_true] at ha hb ⊢
  rw [htime]
  exact ⟨⟨ha.1.1, hb.1.2⟩, hb.2⟩

theorem filterEntry_of_row {instant : String → τ} {q : AuditQuery} {a b : JournalEntry}
    (hrow : entryToRow a = entryToRow b) (ha : selects instant q a = true)
    (hb : filterEntry q b = true) : filterEntry q a = true := by
  have htime : a.occurredAt = b.occurredAt := congrArg AuditEventRow.occurredAt hrow
  simp only [filterEntry, selects, Bool.and_eq_true] at ha hb ⊢
  rw [htime]
  exact ⟨⟨ha.1.1, hb.1.2⟩, hb.2⟩

theorem answered_of_wellJudged {instant : String → τ}
    (h : WellJudged instant history q (q.offset + q.limit)) : Answered instant history q := by
  rw [Answered, queryStore_eq, queryFile_eq, newestPage_eq, take_filter_readAt h.1,
    take_filter_readAt h.2]
  exact ⟨rfl, rfl⟩

end Instants

namespace QueryExample

def newYear : JournalEntry := ⟨"2026-01-01T00:00:00Z", .empty⟩

def since (t : String) : AuditQuery := ⟨none, none, some t, none, none, 10, 0⟩

def instant (t : String) : Int :=
  match (parseRfc3339 t).run with
  | some (.ok unix) => unix
  | _ => 0

end QueryExample

end Akamu.Journal
