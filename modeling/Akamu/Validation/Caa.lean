import Akamu.Lib.ExceptOps
import Akamu.Config

/-!
# CAA checking

`validation/caa.rs`.  The resolver is a function from names to record sets; an
empty set stands for a name without CAA records.
-/

namespace Akamu.Caa

open List

inductive Tag where
  | issue
  | issuewild
  | iodef
  | unknown (name : String)
  deriving DecidableEq, Repr

inductive Value where
  | issuer (name : Option String) (params : List (String × String))
  | other
  deriving DecidableEq, Repr

structure Record where
  tag : Tag
  issuerCritical : Bool
  value : Value
  deriving DecidableEq, Repr

structure Params where
  domain : String
  caIdentities : List String
  isWildcard : Bool
  challengeType : String
  accountUrl : Option String
  deriving DecidableEq, Repr

abbrev Lookup := String → Except String (List Record)

/-- From the domain upwards, without the last label. -/
def buildNameWalk (domain : String) : List String :=
  let current := Text.trimEndMatches domain (· == '.')
  if Text.contains current '.' then current :: Text.ancestorDomains current else []

def normalizeIdentity (s : String) : String :=
  Text.toAsciiLowercase (Text.trimEndMatches s (· == '.'))

def methodsOf (value : String) : List String := (Text.split value ',').map Text.trim

def paramOk (challengeType : String) (accountUrl : Option String) (kv : String × String) : Bool :=
  if kv.1 = "validationmethods" then
    -- an empty challenge type skips the comparison
    challengeType == "" || (methodsOf kv.2).contains challengeType
  else if kv.1 = "accounturi" then accountUrl == some kv.2
  else true

def hasDuplicate (params : List (String × String)) : Bool :=
  decide (1 < params.countP fun kv ↦ kv.1 == "validationmethods") ||
    decide (1 < params.countP fun kv ↦ kv.1 == "accounturi")

def Record.namesCa (caIdentities : List String) (r : Record) : Bool :=
  match r.value with
  | .issuer (some name) _ =>
    caIdentities.any fun id ↦ normalizeIdentity id == normalizeIdentity name
  | _ => false

def Record.params (r : Record) : List (String × String) :=
  match r.value with
  | .issuer _ params => params
  | .other => []

def Record.authorizes (p : Params) (r : Record) : Bool :=
  r.namesCa p.caIdentities && !hasDuplicate r.params &&
    r.params.all (paramOk p.challengeType p.accountUrl)

/-- For a wildcard `issuewild` records take precedence over `issue` records. -/
def relevant (isWildcard : Bool) (records : List Record) : List Record :=
  let issuewild := records.filter fun r ↦ r.tag == .issuewild
  if isWildcard && !issuewild.isEmpty then issuewild
  else records.filter fun r ↦ r.tag == .issue

def unknownCritical (r : Record) : Option String :=
  match r.tag with
  | .unknown name => if r.issuerCritical then some name else none
  | _ => none

def evaluateCaaRecordSet (p : Params) (records : List Record) : Except AcmeError Unit :=
  match records.findSome? unknownCritical with
  | some tag => .error (.caa ("CAA record for '" ++ p.domain ++
      "' contains unknown property tag '" ++ tag ++ "' with critical flag set"))
  | none =>
    if (relevant p.isWildcard records).isEmpty then .ok ()
    else if (relevant p.isWildcard records).any (Record.authorizes p) then .ok ()
    else .error (.caa ("CAA policy denies issuance for " ++ p.domain))

def findRecordSet (lib : Library) (lookup : Lookup) :
    List String → Except AcmeError (Option (List Record))
  | [] => .ok none
  | name :: names =>
    match lib.parseDnsName (name ++ ".") with
    | .error e => .error (.internal ("invalid DNS name '" ++ name ++ ".': " ++ e))
    | .ok _ =>
      match lookup name with
      | .error e => .error (.caa ("CAA lookup failed for '" ++ name ++ "': " ++ e))
      | .ok [] => findRecordSet lib lookup names
      | .ok (r :: rs) => .ok (some (r :: rs))

def checkCaa (lib : Library) (lookup : Lookup) (p : Params) : Except AcmeError Unit :=
  if p.caIdentities.isEmpty then .ok ()
  else do
    match ← findRecordSet lib lookup (buildNameWalk p.domain) with
    | none => return ()
    | some records => evaluateCaaRecordSet p records

/-! ## What a passed check says -/

def Record.methods (r : Record) : List String :=
  (r.params.filter fun kv ↦ kv.1 == "validationmethods").flatMap fun kv ↦ methodsOf kv.2

def Record.hasMethods (r : Record) : Bool := r.params.any fun kv ↦ kv.1 == "validationmethods"

variable {records : List Record} {p : Params} {lookup : Lookup} {lib : Library}

theorem relevant_of_checkCaa (hids : p.caIdentities.isEmpty = false)
    (hset : findRecordSet lib lookup (buildNameWalk p.domain) = .ok (some records))
    (h : checkCaa lib lookup p = .ok ()) :
    relevant p.isWildcard records = [] ∨
      ∃ r ∈ relevant p.isWildcard records, r.authorizes p = true := by
  simp only [checkCaa, hids, hset, bind, Except.bind, Bool.false_eq_true, if_false] at h
  unfold evaluateCaaRecordSet at h
  split at h
  · cases h
  · split at h
    · rename_i hempty
      exact Or.inl (isEmpty_iff.mp hempty)
    · split at h
      · rename_i hany
        exact Or.inr (any_eq_true.mp hany)
      · cases h

variable {r : Record}

/-- A record that authorizes lists the method, unless no method was given. -/
theorem mem_methods_of_authorizes (h : r.authorizes p = true) (hmethods : r.hasMethods = true)
    (htype : p.challengeType ≠ "") : p.challengeType ∈ r.methods := by
  simp only [Record.authorizes, Bool.and_eq_true, all_eq_true] at h
  obtain ⟨kv, hkv, hkey⟩ := any_eq_true.mp hmethods
  have hkey' : kv.1 = "validationmethods" := by simpa using hkey
  have hok := h.2 kv hkv
  simp only [paramOk, hkey', if_true, Bool.or_eq_true, beq_iff_eq, htype, false_or] at hok
  rw [Record.methods, mem_flatMap]
  exact ⟨kv, mem_filter.mpr ⟨hkv, hkey⟩, by simpa using hok⟩

def Record.authorizesSomeMethod (p : Params) (r : Record) : Bool :=
  r.authorizes { p with challengeType := "" }

theorem authorizesSomeMethod_of_authorizes (h : r.authorizes p = true) :
    r.authorizesSomeMethod p = true := by
  simp only [Record.authorizesSomeMethod, Record.authorizes, Bool.and_eq_true,
    all_eq_true] at h ⊢
  refine ⟨h.1, fun kv hkv ↦ ?_⟩
  have hok := h.2 kv hkv
  unfold paramOk at hok ⊢
  split
  · rfl
  · rename_i hkey
    rwa [if_neg hkey] at hok

/-- The relevant records authorize the request only by listing methods. -/
def RestrictsMethods (p : Params) (records : List Record) : Prop :=
  relevant p.isWildcard records ≠ [] ∧
    ∀ r ∈ relevant p.isWildcard records, r.authorizesSomeMethod p = true → r.hasMethods = true

theorem listed_of_checkCaa (hids : p.caIdentities ≠ []) (htype : p.challengeType ≠ "")
    (hset : findRecordSet lib lookup (buildNameWalk p.domain) = .ok (some records))
    (hrestricts : RestrictsMethods p records) (h : checkCaa lib lookup p = .ok ()) :
    ∃ r ∈ relevant p.isWildcard records, r.authorizesSomeMethod p = true ∧
      p.challengeType ∈ r.methods := by
  rcases relevant_of_checkCaa (by simpa using hids) hset h with hnone | ⟨r, hr, hauth⟩
  · exact (hrestricts.1 hnone).elim
  · have hsome := authorizesSomeMethod_of_authorizes hauth
    exact ⟨r, hr, hsome, mem_methods_of_authorizes hauth (hrestricts.2 r hr hsome) htype⟩

/-! ## The rule of RFC 8659 and RFC 8657

The check departs from the rule in three places: a CA without identities is not
bound by CAA records, the top-level domain is not asked, and `validationmethods`
is left aside when the method is not known. -/

def parents : List Char → List (List Char)
  | [] => []
  | c :: cs => if c = '.' then cs :: parents cs else parents cs

/-- The domain and all its ancestors, the top-level domain the last. -/
def climb (domain : String) : List String :=
  let current := Text.trimEndMatches domain (· == '.')
  current :: (parents current.toList).map String.ofList

def firstRecordSet (records : String → List Record) (names : List String) : List Record :=
  ((names.map records).find? fun set ↦ !set.isEmpty).getD []

structure Satisfied (p : Params) (params : List (String × String)) : Prop where
  methods_once : (params.filter fun kv ↦ kv.1 == "validationmethods").length ≤ 1
  account_once : (params.filter fun kv ↦ kv.1 == "accounturi").length ≤ 1
  method : p.challengeType ≠ "" → ∀ kv ∈ params, kv.1 = "validationmethods" →
    p.challengeType ∈ methodsOf kv.2
  account : ∀ kv ∈ params, kv.1 = "accounturi" → p.accountUrl = some kv.2

structure Permits (p : Params) (records : List Record) : Prop where
  known : ∀ r ∈ records, unknownCritical r = none
  issuer : relevant p.isWildcard records = [] ∨ ∃ r ∈ relevant p.isWildcard records,
    r.namesCa p.caIdentities = true ∧ Satisfied p r.params

theorem parents_eq_nil {cs : List Char} (h : '.' ∉ cs) : parents cs = [] := by
  induction cs with
  | nil => rfl
  | cons c cs ih =>
    simp only [mem_cons, not_or] at h
    rw [parents, if_neg (Ne.symm h.1), ih h.2]

theorem parents_eq {cs : List Char} (h : '.' ∈ cs) :
    ∃ last, parents cs = Text.ancestorSuffixes cs ++ [last] := by
  induction cs with
  | nil => cases h
  | cons c cs ih =>
    unfold parents Text.ancestorSuffixes
    by_cases hc : c = '.'
    · by_cases hmem : '.' ∈ cs
      · obtain ⟨last, hlast⟩ := ih hmem
        exact ⟨last, by simp [hc, hmem, hlast]⟩
      · exact ⟨cs, by simp [hc, hmem, parents_eq_nil]⟩
    · obtain ⟨last, hlast⟩ := ih (by simpa [Ne.symm hc] using h)
      exact ⟨last, by simp [hc, hlast]⟩

/-- The walk of the source leaves out the last name. -/
theorem dropLast_climb (domain : String) : (climb domain).dropLast = buildNameWalk domain := by
  suffices hwalk : ∃ last, climb domain = buildNameWalk domain ++ [last] by
    obtain ⟨last, hwalk⟩ := hwalk
    rw [hwalk, dropLast_concat]
  unfold climb buildNameWalk
  dsimp only
  by_cases hdot : '.' ∈ (Text.trimEndMatches domain (· == '.')).toList
  · obtain ⟨last, hparents⟩ := parents_eq hdot
    rw [if_pos (by simpa [Text.contains] using hdot), hparents]
    simp [Text.ancestorDomains]
  · refine ⟨Text.trimEndMatches domain (· == '.'), ?_⟩
    rw [if_neg (by simpa [Text.contains] using hdot), parents_eq_nil hdot]
    rfl

theorem authorizes_iff :
    r.authorizes p = true ↔ r.namesCa p.caIdentities = true ∧ Satisfied p r.params := by
  have hparam : (∀ kv ∈ r.params, paramOk p.challengeType p.accountUrl kv = true) ↔
      (p.challengeType ≠ "" → ∀ kv ∈ r.params, kv.1 = "validationmethods" →
          p.challengeType ∈ methodsOf kv.2) ∧
        ∀ kv ∈ r.params, kv.1 = "accounturi" → p.accountUrl = some kv.2 := by
    have hswap : (p.challengeType ≠ "" → ∀ kv ∈ r.params, kv.1 = "validationmethods" →
        p.challengeType ∈ methodsOf kv.2) ↔ ∀ kv ∈ r.params, p.challengeType ≠ "" →
          kv.1 = "validationmethods" → p.challengeType ∈ methodsOf kv.2 :=
      ⟨fun h kv hkv htype ↦ h htype kv hkv, fun h htype kv hkv ↦ h kv hkv htype⟩
    rw [hswap, ← forall₂_and]
    refine forall₂_congr fun kv _ ↦ ?_
    unfold paramOk
    split_ifs with hmethods haccount
    · simp [hmethods, or_iff_not_imp_left]
    · simp [haccount]
    · simp [hmethods, haccount]
  simp only [Record.authorizes, Bool.and_eq_true, all_eq_true, hparam, hasDuplicate,
    Bool.not_eq_true', Bool.or_eq_false_iff, decide_eq_false_iff_not, not_lt,
    countP_eq_length_filter]
  exact ⟨fun h ↦ ⟨h.1.1, h.1.2.1, h.1.2.2, h.2.1, h.2.2⟩,
    fun h ↦ ⟨⟨h.1, h.2.1, h.2.2⟩, h.2.3, h.2.4⟩⟩

theorem evaluateCaaRecordSet_eq_ok_iff :
    evaluateCaaRecordSet p records = .ok () ↔ Permits p records := by
  have hissuer : (relevant p.isWildcard records).any (Record.authorizes p) = true ↔
      ∃ r ∈ relevant p.isWildcard records,
        r.namesCa p.caIdentities = true ∧ Satisfied p r.params := by
    rw [any_eq_true]
    exact exists_congr fun r ↦ and_congr_right fun _ ↦ authorizes_iff
  unfold evaluateCaaRecordSet
  split
  · rename_i tag htag
    obtain ⟨r, hr, hcritical⟩ := exists_of_findSome?_eq_some htag
    refine iff_of_false (by simp) fun h ↦ ?_
    rw [h.known r hr] at hcritical
    cases hcritical
  · rename_i hnone
    have hknown := findSome?_eq_none_iff.mp hnone
    split_ifs with hempty hany
    · exact iff_of_true rfl ⟨hknown, .inl (isEmpty_iff.mp hempty)⟩
    · exact iff_of_true rfl ⟨hknown, .inr (hissuer.mp hany)⟩
    · refine iff_of_false (by simp) fun h ↦ ?_
      rcases h.issuer with hrelevant | hrelevant
      · exact hempty (isEmpty_iff.mpr hrelevant)
      · exact hany (hissuer.mpr hrelevant)

theorem findRecordSet_eq {records : String → List Record}
    (hlookup : ∀ name, lookup name = .ok (records name)) {names : List String}
    (hparse : ∀ name ∈ names, lib.parseDnsName (name ++ ".") = .ok ()) :
    findRecordSet lib lookup names =
      .ok ((names.map records).find? fun set ↦ !set.isEmpty) := by
  induction names with
  | nil => rfl
  | cons name names ih =>
    have ih := ih fun n hn ↦ hparse n (mem_cons_of_mem name hn)
    rw [findRecordSet, hparse name mem_cons_self, hlookup name]
    cases hset : records name with
    | nil => simp [hset, ih]
    | cons => simp [hset]

theorem permits_nil (p : Params) : Permits p [] :=
  ⟨by simp, .inl (by simp [relevant])⟩

/-- A CA with identities follows the rule up to the top-level domain. -/
theorem checkCaa_eq_ok_iff (lib : Library) (lookup : Lookup) (records : String → List Record)
    (p : Params) (hlookup : ∀ name, lookup name = .ok (records name))
    (hparse : ∀ name ∈ climb p.domain, lib.parseDnsName (name ++ ".") = .ok ()) :
    checkCaa lib lookup p = .ok () ↔
      p.caIdentities = [] ∨ Permits p (firstRecordSet records (climb p.domain).dropLast) := by
  have hwalk : ∀ name ∈ buildNameWalk p.domain, lib.parseDnsName (name ++ ".") = .ok () := by
    rw [← dropLast_climb]
    exact fun name hname ↦ hparse name (List.dropLast_subset _ hname)
  by_cases hids : p.caIdentities = []
  · simp [checkCaa, hids]
  · rw [dropLast_climb, checkCaa, if_neg (by simpa using hids), findRecordSet_eq hlookup hwalk,
      or_iff_right hids]
    unfold firstRecordSet
    cases ((buildNameWalk p.domain).map records).find? fun set ↦ !set.isEmpty with
    | none => exact iff_of_true rfl (permits_nil p)
    | some => exact evaluateCaaRecordSet_eq_ok_iff

namespace CaaExample

def issueRecord (name : Option String) (params : List (String × String)) : Record :=
  ⟨.issue, false, .issuer name params⟩

def request : Params := ⟨"a.example.com", ["ca.example"], false, "dns-01", none⟩

/-- The top-level domain forbids every CA, and nobody asks it. -/
theorem topLevel_ignored :
    checkCaa .plain (fun name ↦ .ok (if name = "com" then [issueRecord none []] else [])) request =
        .ok () ∧
      ¬ Permits request (firstRecordSet
        (fun name ↦ if name = "com" then [issueRecord none []] else []) (climb request.domain)) := by
  refine ⟨by decide +kernel, fun h ↦ ?_⟩
  have hset : firstRecordSet (fun name ↦ if name = "com" then [issueRecord none []] else [])
      (climb request.domain) = [issueRecord none []] := by
    decide +kernel
  rw [hset] at h
  rcases h.issuer with h | ⟨r, hr, hname, -⟩
  · revert h
    decide
  · obtain rfl := List.mem_singleton.mp hr
    revert hname
    decide

theorem domain_asked :
    checkCaa .plain (fun name ↦ .ok (if name = "example.com" then
        [issueRecord (some "ca.example") [("validationmethods", "http-01, dns-01")]] else []))
        request = .ok () ↔
      request.caIdentities = [] ∨ Permits request (firstRecordSet (fun name ↦
        if name = "example.com" then
          [issueRecord (some "ca.example") [("validationmethods", "http-01, dns-01")]] else [])
        (climb request.domain).dropLast) :=
  checkCaa_eq_ok_iff .plain _ _ request (fun _ ↦ rfl) (fun _ _ ↦ rfl)

end CaaExample

end Akamu.Caa
