import Mathlib.Data.List.Basic
import Mathlib.Data.List.Infix
import Mathlib.Data.Nat.Digits.Defs

/-!
# String operations

The operations of Rust's `str` that the handlers apply to domain names, written
over the list of characters so that they compute by reduction.
-/

namespace Akamu.Text

def startsWith (s pat : String) : Bool := pat.toList.isPrefixOf s.toList

def endsWith (s pat : String) : Bool := pat.toList.isSuffixOf s.toList

def stripPrefix (s pat : String) : Option String :=
  if startsWith s pat then some (String.ofList (s.toList.drop pat.toList.length)) else none

def stripSuffix (s pat : String) : Option String :=
  if endsWith s pat then
    some (String.ofList (s.toList.take (s.toList.length - pat.toList.length)))
  else none

def toAsciiLowercase (s : String) : String := String.ofList (s.toList.map Char.toLower)

def contains (s : String) (c : Char) : Bool := s.toList.contains c

/-- The last piece of `s.rsplit('.')`, that is the first one it yields. -/
def lastLabel (s : String) : String :=
  String.ofList (s.toList.reverse.takeWhile (· != '.')).reverse

/-- The characters with the Unicode property `White_Space`. -/
def isWhitespace (c : Char) : Bool :=
  (decide (0x9 ≤ c.toNat) && decide (c.toNat ≤ 0xd)) || c.toNat == 0x20 || c.toNat == 0x85 ||
    c.toNat == 0xa0 || c.toNat == 0x1680 ||
    (decide (0x2000 ≤ c.toNat) && decide (c.toNat ≤ 0x200a)) || c.toNat == 0x2028 ||
    c.toNat == 0x2029 || c.toNat == 0x202f || c.toNat == 0x205f || c.toNat == 0x3000

def trimStartMatches (s : String) (p : Char → Bool) : String :=
  String.ofList (s.toList.dropWhile p)

def trimEndMatches (s : String) (p : Char → Bool) : String :=
  String.ofList (s.toList.reverse.dropWhile p).reverse

def trim (s : String) : String :=
  String.ofList ((s.toList.dropWhile isWhitespace).reverse.dropWhile isWhitespace).reverse

def eqIgnoreAsciiCase (s t : String) : Bool := toAsciiLowercase s == toAsciiLowercase t

/-- The pieces of `s.split(sep)`, without the strings around them. -/
def splitChars (sep : Char) : List Char → List (List Char)
  | [] => [[]]
  | c :: cs =>
    if c = sep then [] :: splitChars sep cs
    else
      match splitChars sep cs with
      | [] => [[c]]
      | p :: ps => (c :: p) :: ps

def split (s : String) (sep : Char) : List String :=
  (splitChars sep s.toList).map String.ofList

def digitsToNat (ds : List Char) : Option ℕ :=
  if ds.isEmpty || !ds.all Char.isDigit then none
  else some (ds.foldl (fun n c ↦ 10 * n + (c.toNat - '0'.toNat)) 0)

/-- `str::parse::<i64>`. -/
def parseI64 (s : String) : Option Int :=
  let value : Option Int := match s.toList with
    | '-' :: ds => (digitsToNat ds).map fun n ↦ -(n : Int)
    | '+' :: ds => (digitsToNat ds).map fun n ↦ (n : Int)
    | ds => (digitsToNat ds).map fun n ↦ (n : Int)
  value.filter fun n ↦ decide (-(2 ^ 63) ≤ n) && decide (n < 2 ^ 63)

theorem digitsToNat_toDigits (n : ℕ) : digitsToNat (Nat.toDigits 10 n) = some n := by
  have hdigits : ∀ c ∈ Nat.toDigits 10 n, c.isDigit = true :=
    fun c hc ↦ Nat.isDigit_of_mem_toDigits (by omega) (by omega) hc
  have hvalue : (Nat.toDigits 10 n).foldl (fun n c ↦ 10 * n + (c.toNat - '0'.toNat)) 0 = n := by
    exact Nat.ofDigitChars_toDigits (by omega) (by omega)
  have hall : (Nat.toDigits 10 n).all Char.isDigit = true := List.all_eq_true.mpr hdigits
  have hne : (Nat.toDigits 10 n).isEmpty = false := by
    simp
  rw [digitsToNat, hall, hne, hvalue]
  rfl

theorem toList_toString_ofNat (n : ℕ) : (toString (Int.ofNat n)).toList = Nat.toDigits 10 n :=
  Nat.toList_repr

theorem toList_toString_negSucc (n : ℕ) :
    (toString (Int.negSucc n)).toList = '-' :: Nat.toDigits 10 (n + 1) := by
  change ("-" ++ Nat.repr (n + 1)).toList = _
  rw [String.toList_append, Nat.toList_repr]
  rfl

theorem parseI64_toString {n : Int} (hlo : -(2 ^ 63) ≤ n) (hhi : n < 2 ^ 63) :
    parseI64 (toString n) = some n := by
  have hrange : (decide (-(2 ^ 63) ≤ n) && decide (n < 2 ^ 63)) = true := by
    rw [decide_eq_true hlo, decide_eq_true hhi]
    rfl
  cases n with
  | ofNat m =>
    have hdigits := digitsToNat_toDigits m
    rw [parseI64, toList_toString_ofNat]
    cases hchars : Nat.toDigits 10 m with
    | nil => exact absurd hchars Nat.toDigits_ne_nil
    | cons c =>
      -- the first character is a digit, so there is no sign to take off
      have hc : c.isDigit = true :=
        Nat.isDigit_of_mem_toDigits (b := 10) (n := m) (by omega) (by omega) (by simp [hchars])
      have hminus : c ≠ '-' := by
        rintro rfl
        cases hc
      have hplus : c ≠ '+' := by
        rintro rfl
        cases hc
      rw [hchars] at hdigits
      split
      · rename_i ds heq
        exact absurd (List.cons.inj heq).1 hminus
      · rename_i ds heq
        exact absurd (List.cons.inj heq).1 hplus
      · rw [hdigits]
        exact Option.filter_some_pos hrange
  | negSucc m =>
    rw [parseI64, toList_toString_negSucc]
    simp only [digitsToNat_toDigits]
    exact Option.filter_some_pos hrange

theorem startsWith_iff {s pat : String} :
    startsWith s pat = true ↔ ∃ rest, s.toList = pat.toList ++ rest := by
  rw [startsWith, List.isPrefixOf_iff_prefix]
  exact exists_congr fun _ ↦ eq_comm

theorem endsWith_iff {s pat : String} :
    endsWith s pat = true ↔ ∃ front, s.toList = front ++ pat.toList := by
  rw [endsWith, List.isSuffixOf_iff_suffix]
  exact exists_congr fun _ ↦ eq_comm

/-! ## Ancestors of a domain name -/

/-- The suffixes that start after a dot and still contain one: the candidates
that the ancestor search visits, from the longest to the shortest. -/
def ancestorSuffixes : List Char → List (List Char)
  | [] => []
  | c :: cs =>
    if c = '.' then
      if '.' ∈ cs then cs :: ancestorSuffixes cs else []
    else ancestorSuffixes cs

def ancestorDomains (domain : String) : List String :=
  (ancestorSuffixes domain.toList).map String.ofList

/-- `ancestor` is `domain` with at least its first label removed. -/
def IsLabelAncestor (ancestor domain : String) : Prop :=
  ∃ front, (toAsciiLowercase domain).toList = front ++ '.' :: (toAsciiLowercase ancestor).toList

theorem exists_front_of_mem_ancestorSuffixes {cs d : List Char} (h : d ∈ ancestorSuffixes cs) :
    ∃ front, cs = front ++ '.' :: d := by
  induction cs with
  | nil => simp [ancestorSuffixes] at h
  | cons c cs ih =>
    unfold ancestorSuffixes at h
    split at h
    · rename_i hc
      split at h
      · rcases List.mem_cons.mp h with rfl | htail
        · exact ⟨[], by simp [hc]⟩
        · obtain ⟨front, hfront⟩ := ih htail
          exact ⟨c :: front, by rw [hfront]; rfl⟩
      · cases h
    · obtain ⟨front, hfront⟩ := ih h
      exact ⟨c :: front, by rw [hfront]; rfl⟩

theorem isLabelAncestor_of_mem_ancestorDomains {domain ancestor : String}
    (h : ancestor ∈ ancestorDomains domain) : IsLabelAncestor ancestor domain := by
  obtain ⟨d, hd, rfl⟩ := List.mem_map.mp h
  obtain ⟨front, hfront⟩ := exists_front_of_mem_ancestorSuffixes hd
  refine ⟨front.map Char.toLower, ?_⟩
  have hdot : Char.toLower '.' = '.' := by decide
  simp [toAsciiLowercase, hfront, hdot]

end Akamu.Text

namespace Akamu

/-! ## Hexadecimal digits -/

def hexValue (c : Char) : Option ℕ :=
  if '0' ≤ c ∧ c ≤ '9' then some (c.toNat - 48)
  else if 'a' ≤ c ∧ c ≤ 'f' then some (c.toNat - 87)
  else if 'A' ≤ c ∧ c ≤ 'F' then some (c.toNat - 55)
  else none

/-- `u8::from_str_radix` to base 16 on two characters.  It takes a plus sign. -/
def u8FromHex (a b : Char) : Option UInt8 :=
  if a = '+' then (hexValue b).map UInt8.ofNat
  else do return UInt8.ofNat (16 * (← hexValue a) + (← hexValue b))

end Akamu
