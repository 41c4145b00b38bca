import Akamu.Lib.Framing
import Akamu.Lib.KeyedTable
import Akamu.Text

/-!
# Journal datagrams

Audit records go to the journal as a datagram of fields.  A value without a
newline is written on a line behind its key; any other is written behind its
length.  A reader of the same process takes the datagram apart again.
-/

namespace Akamu.Journal

open Framing List Option

def newline : UInt8 := 10

def equals : UInt8 := 61

/-! ## Writing -/

def encodeField (key value : String) : List UInt8 :=
  if Text.contains value '\n' then
    utf8 key ++ newline :: (wordLe 8 (utf8 value).length ++ (utf8 value ++ [newline]))
  else utf8 key ++ equals :: (utf8 value ++ [newline])

/-- The datagram that `send` hands to the socket. -/
def send (fields : List (String × String)) : List UInt8 :=
  fields.flatMap fun f ↦ encodeField f.1 f.2

/-! ## Reading -/

/-- `String::from_utf8_lossy`: `replaced` is what becomes of other octets. -/
def fromUtf8Lossy (replaced : List UInt8 → String) (bytes : List UInt8) : String :=
  (String.fromUTF8? ⟨bytes.toArray⟩).getD (replaced bytes)

abbrev Fields : Type := KeyedTable (String × String) Prod.fst

inductive Progress where
  | goOn (fields : Fields) (pos : ℕ)
  | stop (fields : Fields)

def isSeparator (b : UInt8) : Bool := b == equals || b == newline

/-- A field on a line, whose key ends at `keyEnd`. -/
def readLine (replaced : List UInt8 → String) (data : List UInt8) (fields : Fields) (key : String)
    (keyEnd : ℕ) : Option Progress := do
  let start := keyEnd + 1
  let tail ← sliceFrom data start
  let stop := ((tail.findIdx? (· == newline)).map (start + ·)).getD data.length
  let value ← slice data start stop
  return .goOn (fields.put (key, fromUtf8Lossy replaced value)) (stop + 1)

def readCounted (replaced : List UInt8 → String) (data : List UInt8) (fields : Fields)
    (key : String) (start len : ℕ) : Option Progress :=
  if 2 ^ 64 ≤ start + len then some (.stop fields)
  else if data.length < start + len then some (.stop fields)
  else do
    let value ← slice data start (start + len)
    let next := if data[start + len]? = some newline then start + len + 1 else start + len
    return .goOn (fields.put (key, fromUtf8Lossy replaced value)) next

def readBinary (replaced : List UInt8 → String) (data : List UInt8) (fields : Fields)
    (key : String) (keyEnd : ℕ) : Option Progress :=
  if data.length < keyEnd + 1 + 8 then some (.stop fields)
  else do
    let len ← slice data (keyEnd + 1) (keyEnd + 1 + 8)
    readCounted replaced data fields key (keyEnd + 1 + 8) (readWordLe len)

/-- One turn of the loop; `none` is a panic. -/
def parseStep (replaced : List UInt8 → String) (data : List UInt8) (fields : Fields) (pos : ℕ) :
    Option Progress := do
  let rest ← sliceFrom data pos
  match rest.findIdx? isSeparator with
  | none => return .stop fields
  | some i => do
      let key ← slice data pos (pos + i)
      let separator ← data[pos + i]?
      if separator = equals then readLine replaced data fields (fromUtf8Lossy replaced key) (pos + i)
      else readBinary replaced data fields (fromUtf8Lossy replaced key) (pos + i)

inductive Outcome where
  | parsed (fields : Fields)
  | panicked
  | unfinished

def parseFrom (replaced : List UInt8 → String) (data : List UInt8) : ℕ → Fields → ℕ → Outcome
  | 0, _, _ => .unfinished
  | turns + 1, fields, pos =>
    if data.length ≤ pos then .parsed fields
    else
      match parseStep replaced data fields pos with
      | none => .panicked
      | some (.stop fields) => .parsed fields
      | some (.goOn fields pos) => parseFrom replaced data turns fields pos

/-- The loop, with as many turns as it may need. -/
def parseJournalDatagram (replaced : List UInt8 → String) (data : List UInt8) : Outcome :=
  parseFrom replaced data (data.length + 1) .empty 0

/-! ## The reader always comes to an end -/

section Total

variable {replaced : List UInt8 → String} {data : List UInt8} {fields : Fields} {key : String}
  {keyEnd pos : ℕ}

/-- A turn that does not panic and gets ahead. -/
def Advances (pos : ℕ) (r : Option Progress) : Prop :=
  ∃ p, r = some p ∧ ∀ fields pos', p = .goOn fields pos' → pos < pos'

theorem Advances.stop (fields : Fields) : Advances pos (some (.stop fields)) :=
  ⟨_, rfl, fun _ _ h ↦ nomatch h⟩

theorem Advances.goOn {pos' : ℕ} (h : pos < pos') (fields : Fields) :
    Advances pos (some (.goOn fields pos')) := by
  refine ⟨_, rfl, ?_⟩
  rintro _ _ ⟨⟩
  exact h

theorem advances_readLine (h : keyEnd < data.length) (hpos : pos ≤ keyEnd) :
    Advances pos (readLine replaced data fields key keyEnd) := by
  have hstop : ∀ stop, stop = (((data.drop (keyEnd + 1)).findIdx? (· == newline)).map
      (keyEnd + 1 + ·)).getD data.length → keyEnd + 1 ≤ stop ∧ stop ≤ data.length := by
    rintro stop rfl
    cases hfind : (data.drop (keyEnd + 1)).findIdx? (· == newline) with
    | none => exact ⟨h, le_refl _⟩
    | some j =>
      have hj : j < data.length - (keyEnd + 1) := by
        rw [← length_drop]
        exact (findIdx?_eq_some_iff_findIdx_eq.mp hfind).1
      simp only [map_some, getD_some]
      omega
  obtain ⟨hlo, hhi⟩ := hstop _ rfl
  have hstart : keyEnd + 1 ≤ data.length := h
  rw [readLine, sliceFrom_eq_some hstart]
  simp only [bind_eq_bind, bind_some, slice_eq_some hlo hhi]
  exact Advances.goOn (by omega) _

theorem advances_readCounted {start len : ℕ} (hpos : pos < start) :
    Advances pos (readCounted replaced data fields key start len) := by
  unfold readCounted
  split
  · exact .stop fields
  · split
    · exact .stop fields
    · rename_i _ hbound
      rw [slice_eq_some (Nat.le_add_right start len) (not_lt.mp hbound)]
      refine Advances.goOn ?_ _
      split <;> omega

theorem advances_readBinary (hpos : pos ≤ keyEnd) :
    Advances pos (readBinary replaced data fields key keyEnd) := by
  unfold readBinary
  split
  · exact .stop fields
  · rename_i hbound
    rw [slice_eq_some (Nat.le_add_right _ 8) (not_lt.mp hbound)]
    exact advances_readCounted (by omega)

theorem advances_parseStep (h : pos < data.length) :
    Advances pos (parseStep replaced data fields pos) := by
  rw [parseStep, sliceFrom_eq_some h.le]
  simp only [bind_eq_bind, bind_some]
  cases hfind : (data.drop pos).findIdx? isSeparator with
  | none => exact .stop fields
  | some i =>
    have hi : i < data.length - pos := by
      rw [← length_drop]
      exact (findIdx?_eq_some_iff_findIdx_eq.mp hfind).1
    have hend : pos + i < data.length := by omega
    simp only [slice_eq_some (Nat.le_add_right pos i) hend.le, getElem?_eq_getElem hend,
      bind_some]
    split
    · exact advances_readLine hend (Nat.le_add_right pos i)
    · exact advances_readBinary (Nat.le_add_right pos i)

/-- Each turn gets ahead, so that one turn for each octet that is left, and one
more, are enough; further turns change nothing. -/
theorem exists_parsed (replaced : List UInt8 → String) (data : List UInt8) (turns : ℕ)
    (fields : Fields) (pos : ℕ) (h : data.length ≤ pos + turns) :
    ∃ result, ∀ more, parseFrom replaced data (more + turns + 1) fields pos = .parsed result := by
  induction turns generalizing fields pos with
  | zero => exact ⟨fields, fun more ↦ if_pos h⟩
  | succ turns ih =>
    by_cases hdone : data.length ≤ pos
    · exact ⟨fields, fun more ↦ if_pos hdone⟩
    · have hturn : Advances pos (parseStep replaced data fields pos) :=
        advances_parseStep (not_le.mp hdone)
      obtain ⟨p, hstep, hahead⟩ := hturn
      cases p with
      | stop result =>
        refine ⟨result, fun more ↦ ?_⟩
        rw [parseFrom, if_neg hdone, hstep]
      | goOn fields' pos' =>
        have hpos : pos < pos' := hahead fields' pos' rfl
        obtain ⟨result, hresult⟩ := ih fields' pos' (by omega)
        refine ⟨result, fun more ↦ ?_⟩
        rw [parseFrom, if_neg hdone, hstep]
        exact hresult more

end Total

/-! ## What was written is read -/

section RoundTrip

variable {replaced : List UInt8 → String} {key value : String}

theorem fromUtf8Lossy_utf8 (s : String) : fromUtf8Lossy replaced (utf8 s) = s := by
  rw [fromUtf8Lossy, fromUTF8?_utf8, getD_some]

/-- A key that cannot be mistaken for the end of itself. -/
def CleanKey (key : String) : Prop := '=' ∉ key.toList ∧ '\n' ∉ key.toList

theorem notMem_utf8 {s : String} {c : Char} {b : UInt8} (hb : b.toNat = c.toNat)
    (hlt : b.toNat < 128) (h : c ∉ s.toList) : b ∉ utf8 s := by
  intro hmem
  obtain ⟨d, hd, hdb⟩ := exists_char_of_mem_utf8 hmem hlt
  have hcd : d = c := Char.toNat_inj.mp (hdb.trans hb)
  exact h (hcd ▸ hd)

theorem CleanKey.isSeparator_eq_false (h : CleanKey key) :
    ∀ b ∈ utf8 key, isSeparator b = false := by
  intro b hb
  have hequals : b ≠ equals := by
    rintro rfl
    exact notMem_utf8 rfl (by decide) h.1 hb
  have hnewline : b ≠ newline := by
    rintro rfl
    exact notMem_utf8 rfl (by decide) h.2 hb
  simp [isSeparator, hequals, hnewline]

theorem ne_newline_of_mem_utf8 (h : Text.contains value '\n' = false) :
    ∀ b ∈ utf8 value, (b == newline) = false := by
  intro b hb
  have hchar : '\n' ∉ value.toList := by simpa [Text.contains] using h
  have hnewline : b ≠ newline := by
    rintro rfl
    exact notMem_utf8 rfl (by decide) hchar hb
  simp [hnewline]

theorem parseStep_key (front rest : List UInt8) (fields : Fields) {separator : UInt8}
    (hkey : CleanKey key) (hsep : isSeparator separator = true) :
    parseStep replaced (front ++ (utf8 key ++ separator :: rest)) fields front.length =
      if separator = equals then
        readLine replaced (front ++ (utf8 key ++ separator :: rest)) fields key
          (front.length + (utf8 key).length)
      else readBinary replaced (front ++ (utf8 key ++ separator :: rest)) fields key
        (front.length + (utf8 key).length) := by
  have hfind : (utf8 key ++ separator :: rest).findIdx? isSeparator = some (utf8 key).length :=
    findIdx?_append_cons rest hkey.isSeparator_eq_false hsep
  have hget : (front ++ (utf8 key ++ separator :: rest))[front.length + (utf8 key).length]? =
      some separator := by
    rw [getElem?_append_right (Nat.le_add_right _ _), Nat.add_sub_cancel_left,
      getElem?_append_right (le_refl _), Nat.sub_self]
    rfl
  rw [parseStep, sliceFrom_append]
  simp only [bind_eq_bind, bind_some, hfind, slice_append, hget, fromUtf8Lossy_utf8]

theorem readLine_append (front back : List UInt8) (fields : Fields) {keyEnd : ℕ}
    (hfront : front.length = keyEnd + 1) (hvalue : Text.contains value '\n' = false) :
    readLine replaced (front ++ (utf8 value ++ newline :: back)) fields key keyEnd =
      some (.goOn (fields.put (key, value)) (front.length + (utf8 value).length + 1)) := by
  have hfind : (utf8 value ++ newline :: back).findIdx? (· == newline) =
      some (utf8 value).length :=
    findIdx?_append_cons back (ne_newline_of_mem_utf8 hvalue) (by decide)
  rw [readLine, ← hfront, sliceFrom_append]
  simp only [bind_eq_bind, bind_some, hfind, map_some, getD_some,
    slice_append, fromUtf8Lossy_utf8]
  rfl

theorem readCounted_append (front back : List UInt8) (fields : Fields)
    (hsize : (front ++ (utf8 value ++ newline :: back)).length < 2 ^ 63) :
    readCounted replaced (front ++ (utf8 value ++ newline :: back)) fields key front.length
        (utf8 value).length =
      some (.goOn (fields.put (key, value)) (front.length + (utf8 value).length + 1)) := by
  have hlength : (front ++ (utf8 value ++ newline :: back)).length =
      front.length + (utf8 value).length + 1 + back.length := by
    simp only [length_append, length_cons]
    omega
  have hget : (front ++ (utf8 value ++ newline :: back))[front.length + (utf8 value).length]? =
      some newline := by
    rw [getElem?_append_right (Nat.le_add_right _ _), Nat.add_sub_cancel_left,
      getElem?_append_right (le_refl _), Nat.sub_self]
    rfl
  rw [readCounted, if_neg (by omega), if_neg (by omega), slice_append, hget, if_pos rfl]
  simp only [bind_eq_bind, bind_some, fromUtf8Lossy_utf8]
  rfl

theorem readBinary_append (front back : List UInt8) (fields : Fields) {keyEnd : ℕ}
    (hfront : front.length = keyEnd + 1)
    (hsize : (front ++ (wordLe 8 (utf8 value).length ++ (utf8 value ++ newline :: back))).length <
      2 ^ 63) :
    readBinary replaced
        (front ++ (wordLe 8 (utf8 value).length ++ (utf8 value ++ newline :: back))) fields key
        keyEnd =
      some (.goOn (fields.put (key, value)) (front.length + 8 + (utf8 value).length + 1)) := by
  have hlength : (front ++ (wordLe 8 (utf8 value).length ++ (utf8 value ++ newline :: back))).length =
      front.length + 8 + (utf8 value).length + 1 + back.length := by
    simp only [length_append, length_cons, length_wordLe]
    omega
  have hcount : front.length + 8 = (front ++ wordLe 8 (utf8 value).length).length := by
    rw [length_append, length_wordLe]
  have hword : slice (front ++ (wordLe 8 (utf8 value).length ++ (utf8 value ++ newline :: back)))
      front.length (front.length + 8) = some (wordLe 8 (utf8 value).length) := by
    have hslice := slice_append front (wordLe 8 (utf8 value).length) (utf8 value ++ newline :: back)
    rwa [length_wordLe] at hslice
  have hread : readWordLe (wordLe 8 (utf8 value).length) = (utf8 value).length :=
    readWordLe_wordLe (by omega)
  rw [readBinary, ← hfront, if_neg (by omega), hword, bind_eq_bind, bind_some, hread,
    hcount, ← append_assoc]
  exact readCounted_append _ back fields (by rwa [append_assoc])

theorem parseStep_encodeField (front back : List UInt8) (fields : Fields) (hkey : CleanKey key)
    (hsize : (front ++ (encodeField key value ++ back)).length < 2 ^ 63) :
    parseStep replaced (front ++ (encodeField key value ++ back)) fields front.length =
      some (.goOn (fields.put (key, value)) (front ++ encodeField key value).length) := by
  cases hnewline : Text.contains value '\n' with
  | false =>
    have hfield : encodeField key value = utf8 key ++ equals :: (utf8 value ++ [newline]) := by
      rw [encodeField, hnewline]
      rfl
    have hdata : front ++ (encodeField key value ++ back) =
        front ++ (utf8 key ++ equals :: (utf8 value ++ newline :: back)) := by
      rw [hfield]
      simp
    have hshift : front ++ (utf8 key ++ equals :: (utf8 value ++ newline :: back)) =
        (front ++ (utf8 key ++ [equals])) ++ (utf8 value ++ newline :: back) := by
      simp
    rw [hdata, parseStep_key front _ fields hkey (by decide), if_pos rfl, hshift,
      readLine_append _ back fields (by simp; omega) hnewline, hfield]
    simp
    omega
  | true =>
    have hfield : encodeField key value = utf8 key ++ newline ::
        (wordLe 8 (utf8 value).length ++ (utf8 value ++ [newline])) := by
      rw [encodeField, hnewline]
      rfl
    have hdata : front ++ (encodeField key value ++ back) = front ++ (utf8 key ++ newline ::
        (wordLe 8 (utf8 value).length ++ (utf8 value ++ newline :: back))) := by
      rw [hfield]
      simp
    have hshift : front ++ (utf8 key ++ newline ::
        (wordLe 8 (utf8 value).length ++ (utf8 value ++ newline :: back))) =
        (front ++ (utf8 key ++ [newline])) ++
          (wordLe 8 (utf8 value).length ++ (utf8 value ++ newline :: back)) := by
      simp
    rw [hdata] at hsize ⊢
    rw [parseStep_key front _ fields hkey (by decide), if_neg (by decide), hshift,
      readBinary_append _ back fields (by simp; omega) (hshift ▸ hsize), hfield]
    simp
    omega

theorem encodeField_ne_nil (key value : String) : encodeField key value ≠ [] := by
  unfold encodeField
  split <;> simp

theorem parseFrom_send (replaced : List UInt8 → String) (read rest : List (String × String)) (fields : Fields)
    (hkeys : ((read ++ rest).map Prod.fst).Nodup) (hclean : ∀ f ∈ rest, CleanKey f.1)
    (hsize : (send (read ++ rest)).length < 2 ^ 63) (hfields : fields.rows = read) (more : ℕ) :
    ∃ result : Fields, result.rows = read ++ rest ∧
      parseFrom replaced (send (read ++ rest)) (more + rest.length + 1) fields (send read).length =
        .parsed result := by
  induction rest generalizing read fields with
  | nil =>
    refine ⟨fields, by simpa using hfields, ?_⟩
    rw [parseFrom, if_pos (by simp)]
  | cons f rest ih =>
    have hdata : send (read ++ f :: rest) =
        send read ++ (encodeField f.1 f.2 ++ send rest) := by
      simp [send]
    have hsplit : read ++ f :: rest = (read ++ [f]) ++ rest := by simp
    have hbehind : send read ++ encodeField f.1 f.2 = send (read ++ [f]) := by simp [send]
    have hnew : fields.find? f.1 = none := by
      rw [KeyedTable.find?_eq_none_iff, hfields]
      intro r hr heq
      rw [map_append, map_cons, nodup_append] at hkeys
      exact hkeys.2.2 _ (mem_map_of_mem hr) _ mem_cons_self heq
    have hrows : (fields.put f).rows = read ++ [f] := by
      rw [KeyedTable.rows_put_of_none hnew, hfields]
    have hopen : ¬ (send (read ++ f :: rest)).length ≤ (send read).length := by
      have hpos := length_pos_of_ne_nil (encodeField_ne_nil f.1 f.2)
      rw [hdata, length_append, length_append]
      omega
    have hturn : parseStep replaced (send (read ++ f :: rest)) fields (send read).length =
        some (.goOn (fields.put f) (send (read ++ [f])).length) := by
      rw [hdata, parseStep_encodeField _ _ fields (hclean f mem_cons_self) (hdata ▸ hsize),
        hbehind]
    obtain ⟨result, hresult, hrun⟩ := ih (read ++ [f]) (fields.put f) (hsplit ▸ hkeys)
      (fun g hg ↦ hclean g (mem_cons_of_mem f hg)) (hsplit ▸ hsize) hrows
    refine ⟨result, hresult.trans hsplit.symm, ?_⟩
    rw [length_cons, ← Nat.add_assoc, parseFrom, if_neg hopen, hturn]
    rw [← hsplit] at hrun
    exact hrun

end RoundTrip

/-- A datagram is read as the fields it was made from, whatever their values,
and no datagram keeps the reader from an answer.  A vector has less than `2 ^ 63`
octets. -/
theorem datagram_round_trip (replaced : List UInt8 → String) :
    (∀ fields : List (String × String), (fields.map Prod.fst).Nodup →
      (∀ f ∈ fields, CleanKey f.1) → (send fields).length < 2 ^ 63 →
      ∃ result : Fields, parseJournalDatagram replaced (send fields) = .parsed result ∧
        result.rows = fields) ∧
    ∀ data, ∃ result : Fields, parseJournalDatagram replaced data = .parsed result ∧
      ∀ turns, data.length < turns → parseFrom replaced data turns .empty 0 = .parsed result := by
  have htotal : ∀ data, ∃ result : Fields, parseJournalDatagram replaced data = .parsed result ∧
      ∀ turns, data.length < turns → parseFrom replaced data turns .empty 0 = .parsed result := by
    intro data
    obtain ⟨result, hresult⟩ := exists_parsed replaced data data.length .empty 0 (by omega)
    refine ⟨result, by simpa [parseJournalDatagram] using hresult 0, ?_⟩
    intro turns hturns
    have hsplit : turns = (turns - (data.length + 1)) + data.length + 1 := by omega
    rw [hsplit]
    exact hresult _
  refine ⟨?_, htotal⟩
  intro fields hkeys hclean hsize
  obtain ⟨result, hparse, hmore⟩ := htotal (send fields)
  -- The run over the fields takes fewer turns than there are octets, or not; with more turns
  -- than either needs, both come to the same answer.
  obtain ⟨result', hrows, hrun⟩ := parseFrom_send replaced [] fields .empty hkeys hclean
    hsize rfl (send fields).length
  have heq : Outcome.parsed result' = .parsed result := by
    rw [← hrun]
    exact hmore _ (by omega)
  cases heq
  exact ⟨result, hparse, hrows⟩

instance (key : String) : Decidable (CleanKey key) :=
  inferInstanceAs (Decidable ('=' ∉ key.toList ∧ '\n' ∉ key.toList))

def lookalike : List (String × String) :=
  [("AKAMU_OUTCOME", "failure"), ("AKAMU_DETAIL", "x\nAKAMU_OUTCOME=success\n"),
    ("AKAMU_SUBJECT", "a=b")]

theorem lookalike_read : ∃ result : Fields,
    parseJournalDatagram (fun _ ↦ "?") (send lookalike) = .parsed result ∧
      result.rows = lookalike :=
  (datagram_round_trip fun _ ↦ "?").1 lookalike (by decide) (by decide) (by decide +kernel)

end Akamu.Journal
