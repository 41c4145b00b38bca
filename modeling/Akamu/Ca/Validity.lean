import Akamu.Ca.Csr
import Akamu.Lib.Attempt

/-!
# Validity windows

The window of a certificate against the dates of an order.  `parse_rfc3339`
checks the fields of a time from above only, the cap counts whole days, and the
end of a window is a sum that wraps around.
-/

namespace Akamu

open Attempt Option

def checkedI64 (v : Int) : Option Int := if FitsI64 v then some v else none

theorem checkedI64_eq_some {v w : Int} (h : checkedI64 v = some w) : w = v ∧ FitsI64 v := by
  unfold checkedI64 at h
  split at h
  · exact ⟨(some.inj h).symm, ‹_›⟩
  · cases h

/-! ## Dates of an order -/

structure DateFields where
  year : Int
  month : Int
  day : Int
  hour : Int
  minute : Int
  second : Int
  tzNegative : Bool
  tzHours : Int
  tzMins : Int
  deriving DecidableEq

def splitOnce (c : Char) (cs : List Char) : Option (List Char × List Char) :=
  if c ∈ cs then some (cs.takeWhile (· != c), (cs.dropWhile (· != c)).tail) else none

def rsplitOnce (c : Char) (cs : List Char) : Option (List Char × List Char) :=
  (splitOnce c cs.reverse).map fun p ↦ (p.2.reverse, p.1.reverse)

def parseField (cs : List Char) : Option Int := Text.parseI64 (String.ofList cs)

/-- The characters of the first `n` octets and the others, if an octet boundary
is one between characters. -/
def splitOctets : ℕ → List Char → Option (List Char × List Char)
  | 0, cs => some ([], cs)
  | _, [] => none
  | n, c :: cs =>
    if n < c.utf8Size then none
    else (splitOctets (n - c.utf8Size) cs).map fun p ↦ (c :: p.1, p.2)

/-- The trimmed text, with the zone of a final `Z` written out. -/
def normalized (text : String) : List Char :=
  let s := Text.trim text
  if Text.endsWith s "Z" || Text.endsWith s "z" then s.toList.dropLast ++ "+00:00".toList
  else s.toList

/-- The fields of a text in two parts.  The zone is what follows the first plus
sign of the second part, or else the last minus sign. -/
def dateFields (front back : List Char) : Option DateFields := do
  let (rest, tz, tzNegative) ← match splitOnce '+' back with
    | some (rest, tz) => some (rest, tz, false)
    | none => (rsplitOnce '-' back).map fun p ↦ (p.1, p.2, true)
  let (date, time) ← splitOnce 'T' (front ++ rest)
  match Text.splitChars '-' date, Text.splitChars ':' time with
  | [year, month, day], [hour, minute, second] =>
    return {
      year := ← parseField year, month := ← parseField month, day := ← parseField day
      hour := ← parseField hour, minute := ← parseField minute
      second := ← parseField (second.takeWhile (· != '.'))
      tzNegative := tzNegative
      tzHours := ((Text.splitChars ':' tz)[0]?.bind parseField).getD 0
      tzMins := ((Text.splitChars ':' tz)[1]?.bind parseField).getD 0 }
  | _, _ => none

def daysInMonth (year month : Int) : Int :=
  if month = 2 then
    if (year.tmod 4 = 0 ∧ year.tmod 100 ≠ 0) ∨ year.tmod 400 = 0 then 29 else 28
  else if month = 4 ∨ month = 6 ∨ month = 9 ∨ month = 11 then 30 else 31

def daysSinceEpoch (year month day : Int) : Option Int :=
  if month < 1 ∨ 12 < month ∨ day < 1 ∨ year < 1970 ∨ 9999 < year ∨
      daysInMonth year month < day then none
  else
    let m := if month ≤ 2 then month + 12 else month
    let y := if month ≤ 2 then year - 1 else year
    some (day + (153 * m - 457).tdiv 5 + 365 * y + y.tdiv 4 - y.tdiv 100 + y.tdiv 400 - 719469)

namespace DateFields

def tzSign (f : DateFields) : Int := if f.tzNegative then -1 else 1

/-- The seconds of the day and of the zone are computed without checks. -/
def toUnix (f : DateFields) : Option Int :=
  if 23 < f.hour ∨ 59 < f.minute ∨ 60 < f.second ∨ 23 < f.tzHours ∨ 59 < f.tzMins then none
  else do
    let days ← daysSinceEpoch f.year f.month f.day
    let midnight ← checkedI64 (days * 86400)
    let t ← checkedI64 (midnight + (f.hour * 3600 + f.minute * 60 + f.second).bmod (2 ^ 64))
    checkedI64 (t - (f.tzSign * (f.tzHours * 3600 + f.tzMins * 60)).bmod (2 ^ 64))

end DateFields

/-- `s[10..]` panics if the text has no ten octets or ends a character later. -/
def parseRfc3339 (text : String) : Attempt AcmeError Int := do
  let s := normalized text
  let (front, back) ← orPanic (splitOctets 10 s)
  match (dateFields front back).bind DateFields.toUnix with
  | some unix => return unix
  | none => throw (.badRequest ("invalid RFC 3339 date: '" ++ String.ofList s ++ "'"))

example : (parseRfc3339 "2025").run = none := by decide +kernel

theorem parseRfc3339_eq_ok {text : String} {v : Int} (h : (parseRfc3339 text).run = some (.ok v)) :
    ∃ front back f, splitOctets 10 (normalized text) = some (front, back) ∧
      dateFields front back = some f ∧ f.toUnix = some v := by
  cases hsplit : splitOctets 10 (normalized text) with
  | none => simp [parseRfc3339, hsplit, orPanic] at h
  | some parts =>
    obtain ⟨front, back⟩ := parts
    refine ⟨front, back, ?_⟩
    rw [parseRfc3339, hsplit, orPanic_some, pure_bind] at h
    dsimp only at h
    split at h
    · rename_i unix hunix
      obtain ⟨f, hf, hv⟩ := bind_eq_some_iff.mp hunix
      cases h
      exact ⟨f, rfl, hf, hv⟩
    · cases h

theorem DateFields.fits_of_toUnix {f : DateFields} {v : Int} (h : f.toUnix = some v) :
    FitsI64 v := by
  unfold DateFields.toUnix at h
  split at h
  · cases h
  · obtain ⟨days, -, h⟩ := bind_eq_some_iff.mp h
    obtain ⟨midnight, -, h⟩ := bind_eq_some_iff.mp h
    obtain ⟨t, -, h⟩ := bind_eq_some_iff.mp h
    obtain ⟨rfl, hfits⟩ := checkedI64_eq_some h
    exact hfits

/-- What `new_order` accepts as a date is in the range of its type. -/
theorem fitsI64_of_parseRfc3339 {text : String} {v : Int}
    (h : (parseRfc3339 text).run = some (.ok v)) : FitsI64 v := by
  obtain ⟨-, -, f, -, -, hv⟩ := parseRfc3339_eq_ok h
  exact f.fits_of_toUnix hv

/-! ## Windows -/

/-- Every sum, product and difference of the two functions, as it should be. -/
def validitySteps (ca : CaState) (now : Int) (notBefore notAfter : Option Int)
    (validityDays : UInt32) : List Int :=
  let window := resolveClampedValidity now notBefore notAfter validityDays
  [now - 300, validityDays.toNat * 86400, window.1 + validityDays.toNat * 86400] ++
    if ca.enforceValidityCap then [window.2 - window.1] else []

/-- Under the cap a requested end is not in the last day before the 201st, and
not so late that its distance from the start is not a number of seconds. -/
def MeetsCap (ca : CaState) (start : Int) (notAfter : Option Int) : Prop :=
  ca.enforceValidityCap = true → ∀ t ∈ notAfter, start < t →
    ¬ (200 * 86400 < t - start ∧ t - start < 201 * 86400) ∧ t - start < 2 ^ 63

/-- Without a requested end after the start, the end that is used comes later. -/
def HasFallback (start : Int) (notAfter : Option Int) (validityDays : UInt32) : Prop :=
  (∀ t ∈ notAfter, t ≤ start) →
    0 < validityDays.toNat ∧ start + validityDays.toNat * 86400 < 2 ^ 63

section

variable {now start last : Int} {notBefore notAfter : Option Int} {days : UInt32}

theorem lt_addSecs_iff :
    start < addSecs start (days.toNat * 86400) ↔
      0 < days.toNat ∧ start + days.toNat * 86400 < 2 ^ 63 := by
  have hdays := days.toNat_lt
  unfold addSecs
  push_cast
  split <;> omega

theorem checkValidityCap_eq_ok_iff {ca : CaState} {window : Int × Int} :
    checkValidityCap ca window = .ok () ↔
      (ca.enforceValidityCap = true → (subI64 window.2 window.1).tdiv 86400 ≤ 200) := by
  unfold checkValidityCap
  cases ca.enforceValidityCap with
  | false => simp
  | true =>
    dsimp only
    split
    · rename_i hdays
      simpa using hdays
    · rename_i hdays
      simpa using hdays

theorem subI64_eq {a b : Int} (h : FitsI64 (a - b)) : subI64 a b = a - b := by
  obtain ⟨hlo, hhi⟩ := h
  exact Int.bmod_eq_of_le (by omega) (by omega)

theorem certStart_bounds (hnow : 0 ≤ now ∧ now < 2 ^ 63) (hbefore : ∀ v ∈ notBefore, FitsI64 v) :
    now - 300 ≤ certStart now notBefore ∧ certStart now notBefore < 2 ^ 63 := by
  unfold certStart
  cases notBefore with
  | none =>
    rw [getD_none]
    omega
  | some v =>
    have hv : v < 2 ^ 63 := (hbefore v rfl).2
    rw [getD_some]
    omega

/-- The cap lets through what is shorter than 201 days, or so long that the
difference is negative. -/
theorem lt_of_cap {ca : CaState} (hcap : ca.enforceValidityCap = true)
    (hok : checkValidityCap ca (start, last) = .ok ()) (hlt : start < last)
    (hfits : last - start < 2 ^ 63) : last - start < 201 * 86400 := by
  have hdays := checkValidityCap_eq_ok_iff.mp hok hcap
  rw [subI64_eq ⟨by omega, hfits⟩, Int.tdiv_eq_ediv_of_nonneg (by omega)] at hdays
  omega

theorem le_of_cap_fallback {ca : CaState} (hcap : ca.enforceValidityCap = true)
    (hok : checkValidityCap ca (start, addSecs start (days.toNat * 86400)) = .ok ()) :
    addSecs start (days.toNat * 86400) - start ≤ 200 * 86400 := by
  have hbound := days.toNat_lt
  have hdays := checkValidityCap_eq_ok_iff.mp hok hcap
  unfold addSecs at hdays ⊢
  push_cast at hdays ⊢
  split
  · rename_i hsum
    rw [if_pos hsum, subI64_eq ⟨by omega, by omega⟩, Int.tdiv_eq_ediv_of_nonneg (by omega)] at hdays
    omega
  · omega

end

/-- The window of a certificate starts no earlier than five minutes ago, ends
later than it starts and keeps the cap exactly if a requested end after the start
meets the cap and the fallback has a length.  Nothing overflows exactly if the
period from the start, and under the cap the requested window, are in range. -/
theorem validity_windows_sane (lib : Library) (ca : CaState) (now : UnixTime) (csr : ValidatedCsr)
    (params : CertificateParameters) (notBefore notAfter : Option Int)
    (extraOtherNames : List (List UInt8)) (extraDnsNames : List String)
    (hbefore : ∀ v ∈ notBefore, FitsI64 v) (hafter : ∀ v ∈ notAfter, FitsI64 v) :
    (∀ cert, issueWithParams lib ca now.1 csr params notBefore notAfter extraOtherNames
        extraDnsNames = .ok cert →
      (now.1 - 300 ≤ cert.notBefore ∧ cert.notBefore < cert.notAfter ∧
        (ca.enforceValidityCap = true → cert.notAfter - cert.notBefore ≤ 200 * 86400) ↔
      MeetsCap ca (certStart now.1 notBefore) notAfter ∧
        HasFallback (certStart now.1 notBefore) notAfter params.validityDays)) ∧
    ((∀ v ∈ validitySteps ca now.1 notBefore notAfter params.validityDays, FitsI64 v) ↔
      certStart now.1 notBefore + params.validityDays.toNat * 86400 < 2 ^ 63 ∧
        (ca.enforceValidityCap = true → ∀ t ∈ notAfter, certStart now.1 notBefore < t →
          t - certStart now.1 notBefore < 2 ^ 63)) := by
  obtain ⟨hearly, hlate⟩ := certStart_bounds now.2 hbefore
  obtain ⟨hnow, hnow'⟩ := now.2
  have hdays := params.validityDays.toNat_lt
  obtain ⟨⟨first, last⟩, hresolve⟩ :
      ∃ window, window = resolveClampedValidity now.1 notBefore notAfter params.validityDays :=
    ⟨_, rfl⟩
  obtain ⟨hfirst, hlast⟩ := resolveClampedValidity_cases hresolve
  replace hfirst : first = certStart now.1 notBefore := hfirst
  rw [← hfirst] at hearly hlate ⊢
  refine ⟨fun cert hissue ↦ ?_, ?_⟩
  · obtain ⟨hwindow, -⟩ := issueWithParams_eq_ok hissue
    obtain ⟨⟨⟩, hok, -⟩ := Except.bind_eq_ok hissue
    rw [← hresolve] at hok
    rw [← hresolve, Prod.mk.injEq] at hwindow
    rw [hwindow.1, hwindow.2]
    rcases hlast with ⟨rfl, hle⟩ | ⟨hlt, rfl⟩
    · -- the end is the start and the validity period
      have hmeets : MeetsCap ca first notAfter := fun _ t ht hlt ↦ absurd (hle t ht) (by omega)
      have hfallback : HasFallback first notAfter params.validityDays ↔
          first < addSecs first (params.validityDays.toNat * 86400) := by
        rw [lt_addSecs_iff]
        exact ⟨fun h ↦ h hle, fun h _ ↦ h⟩
      rw [hfallback]
      exact ⟨fun h ↦ ⟨hmeets, h.2.1⟩,
        fun h ↦ ⟨hearly, h.2, fun hcap ↦ le_of_cap_fallback hcap hok⟩⟩
    · -- the end is the requested one
      have hfallback : HasFallback first (some last) params.validityDays :=
        fun hle ↦ absurd (hle last rfl) (by omega)
      have hfits := (hafter last rfl).2
      refine ⟨fun h ↦ ⟨fun hcap t ht _ ↦ ?_, hfallback⟩, fun h ↦ ⟨hearly, hlt, fun hcap ↦ ?_⟩⟩
      · obtain rfl := some.inj ht
        have := h.2.2 hcap
        omega
      · obtain ⟨hoff, hrange⟩ := h.1 hcap last rfl hlt
        have := lt_of_cap hcap hok hlt hrange
        omega
  · have hsum : (FitsI64 (now.1 - 300) ∧ FitsI64 (params.validityDays.toNat * 86400) ∧
        FitsI64 (first + params.validityDays.toNat * 86400)) ↔
        first + params.validityDays.toNat * 86400 < 2 ^ 63 := by
      unfold FitsI64
      omega
    have hcapped : first + params.validityDays.toNat * 86400 < 2 ^ 63 →
        (FitsI64 (last - first) ↔ ∀ t ∈ notAfter, first < t → t - first < 2 ^ 63) := by
      intro hrange
      rcases hlast with ⟨rfl, hle⟩ | ⟨hlt, rfl⟩
      · rw [addSecs, if_pos (by push_cast; omega)]
        refine iff_of_true ⟨by push_cast; omega, by push_cast; omega⟩ fun t ht hlt ↦ ?_
        exact absurd (hle t ht) (by omega)
      · constructor
        · rintro ⟨-, hfits⟩ t ht -
          obtain rfl := some.inj ht
          exact hfits
        · intro h
          exact ⟨by omega, h last rfl hlt⟩
    rw [validitySteps, ← hresolve, List.forall_mem_append]
    dsimp only
    rw [List.forall_mem_cons, List.forall_mem_cons, List.forall_mem_singleton, hsum]
    refine and_congr_right fun hrange ↦ ?_
    cases ca.enforceValidityCap with
    | false => simp
    | true => simpa using hcapped hrange

namespace ValidityExample

def cappedCa : CaState :=
  { caaIdentities := [], dogtag := false, validityDays := 90, enforceValidityCap := true }

def leafParams (validityDays : UInt32) : CertificateParameters :=
  { validityDays := validityDays, kpnSanTemplates := [], msUpnSanTemplate := none,
    injectAccountKpn := false }

def issueLeaf (validityDays : UInt32) (notAfter : Option Int) : Except AcmeError IssuedCert :=
  issueWithParams .plain cappedCa 0 ⟨⟨[], []⟩, [⟨.dns, "a.example"⟩], false, none⟩
    (leafParams validityDays) none notAfter [] []

/-- A certificate of a second less than 201 days passes the cap, one of no days
ends when it starts, and a zone of negative hours is a date near the end of the
range. -/
theorem sane_window_missed :
    (parseRfc3339 "1970-07-20T23:59:59Z").run = some (.ok 17366399) ∧
      (issueLeaf 90 (some 17366399)).toOption.map (fun c ↦ (c.notBefore, c.notAfter)) =
        some (0, 17366399) ∧ ¬ (17366399 : Int) ≤ 200 * 86400 ∧
      (issueLeaf 0 none).toOption.map (fun c ↦ (c.notBefore, c.notAfter)) = some (0, 0) ∧
      (parseRfc3339 "1970-01-01T00:00:00+-2562047788015215:00").run =
        some (.ok 9223372036854774000) ∧
      ∃ v ∈ validitySteps cappedCa 0 (some 9223372036854774000) none 90, ¬ FitsI64 v := by
  decide +kernel

theorem quarter_issued :
    (∃ cert, issueLeaf 90 (some 17280000) = .ok cert ∧
      0 - 300 ≤ cert.notBefore ∧ cert.notBefore < cert.notAfter ∧
      (cappedCa.enforceValidityCap = true → cert.notAfter - cert.notBefore ≤ 200 * 86400)) ∧
    ∀ v ∈ validitySteps cappedCa 0 none (some 17280000) (leafParams 90).validityDays,
      FitsI64 v := by
  have hsane := validity_windows_sane .plain cappedCa ⟨0, by decide⟩
    ⟨⟨[], []⟩, [⟨.dns, "a.example"⟩], false, none⟩ (leafParams 90) none (some 17280000) [] []
    (fun _ h ↦ by cases h) (fun _ h ↦ by cases h; decide)
  obtain ⟨cert, hcert⟩ : ∃ cert, issueLeaf 90 (some 17280000) = .ok cert := ⟨_, rfl⟩
  refine ⟨⟨cert, hcert, (hsane.1 cert hcert).mpr ⟨fun _ t ht _ ↦ ?_, fun hle ↦ ?_⟩⟩,
    hsane.2.mpr ⟨by decide, fun _ t ht _ ↦ ?_⟩⟩
  · cases ht
    decide
  · exact absurd (hle _ rfl) (by decide)
  · cases ht
    decide

end ValidityExample

end Akamu
