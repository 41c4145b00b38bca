import Akamu.Config

/-!
# The dns-persist-01 validator

`validation/dns_persist_01.rs`.  The answer of the resolver is an input; what is
modelled is which TXT records are accepted.
-/

namespace Akamu.DnsPersist01

/-- What the loop over the `;`-separated parts has seen. -/
structure Seen where
  accountUri : Bool
  wildcardPolicy : Bool
  persistUntilOk : Bool
  deriving DecidableEq, Repr

def isWildcardPolicy (val : String) : Bool :=
  Text.eqIgnoreAsciiCase (Text.trim val) "wildcard"

def scanPart (accountUri : String) (now : Int) (seen : Seen) (raw : String) : Seen :=
  let part := Text.trim raw
  match Text.stripPrefix part "accounturi=" with
  | some uri => if Text.trim uri = accountUri then { seen with accountUri := true } else seen
  | none =>
    match Text.stripPrefix part "policy=" with
    | some val => if isWildcardPolicy val then { seen with wildcardPolicy := true } else seen
    | none =>
      match Text.stripPrefix part "persistUntil=" with
      | some ts =>
        if (Text.parseI64 (Text.trim ts)).any fun expiry ↦ decide (now ≤ expiry) then seen
        else { seen with persistUntilOk := false }
      | none => seen

def normalizeIssuer (toLowercase : String → String) (s : String) : String :=
  toLowercase (Text.trimEndMatches (Text.trim s) (· == '.'))

def matchesRecord (toLowercase : String → String) (raw : String) (issuers : List String)
    (accountUri : String) (requireWildcardPolicy : Bool) (now : Int) : Bool :=
  match Text.split raw ';' with
  | [] => false
  | issuer :: parts =>
    if !issuers.any fun e ↦
        normalizeIssuer toLowercase e == normalizeIssuer toLowercase issuer then false
    else
      let seen := parts.foldl (scanPart accountUri now) ⟨false, false, true⟩
      seen.accountUri && (!requireWildcardPolicy || seen.wildcardPolicy) && seen.persistUntilOk

/-- The validator, given the TXT records found at `_validation-persist.<domain>`. -/
def validate (toLowercase : String → String) (domain accountUri : String) (issuers : List String)
    (records : List String) (now : Int) : Bool :=
  records.any fun value ↦
    matchesRecord toLowercase (Text.trim value) issuers accountUri (isWildcard domain) now

/-- The record has a `policy=wildcard` part. -/
def CarriesWildcardPolicy (raw : String) : Prop :=
  ∃ part ∈ (Text.split raw ';').tail, ∃ val,
    Text.stripPrefix (Text.trim part) "policy=" = some val ∧ isWildcardPolicy val = true

variable {accountUri : String} {now : Int}

theorem scanPart_wildcardPolicy {seen : Seen} {part : String}
    (h : (scanPart accountUri now seen part).wildcardPolicy = true) :
    seen.wildcardPolicy = true ∨ ∃ val,
      Text.stripPrefix (Text.trim part) "policy=" = some val ∧ isWildcardPolicy val = true := by
  unfold scanPart at h
  dsimp only at h
  split at h
  · left
    split at h <;> exact h
  · split at h
    · rename_i val hval
      split at h
      · rename_i hpolicy
        exact Or.inr ⟨val, hval, hpolicy⟩
      · exact Or.inl h
    · left
      split at h
      · split at h <;> exact h
      · exact h

theorem foldl_scanPart_wildcardPolicy {parts : List String} {seen : Seen}
    (h : (parts.foldl (scanPart accountUri now) seen).wildcardPolicy = true) :
    seen.wildcardPolicy = true ∨ ∃ part ∈ parts, ∃ val,
      Text.stripPrefix (Text.trim part) "policy=" = some val ∧ isWildcardPolicy val = true := by
  induction parts generalizing seen with
  | nil => exact Or.inl h
  | cons part parts ih =>
    rcases ih h with hseen | ⟨part', hmem, hval⟩
    · rcases scanPart_wildcardPolicy hseen with hseen | hval
      · exact Or.inl hseen
      · exact Or.inr ⟨part, List.mem_cons_self, hval⟩
    · exact Or.inr ⟨part', List.mem_cons_of_mem part hmem, hval⟩

variable {toLowercase : String → String} {issuers : List String}

theorem carriesWildcardPolicy_of_matchesRecord {raw : String}
    (h : matchesRecord toLowercase raw issuers accountUri true now = true) :
    CarriesWildcardPolicy raw := by
  unfold matchesRecord at h
  unfold CarriesWildcardPolicy
  split at h
  · cases h
  · rename_i issuer parts hsplit
    split at h
    · cases h
    · simp only [Bool.not_true, Bool.false_or, Bool.and_eq_true] at h
      rcases foldl_scanPart_wildcardPolicy h.1.2 with hfalse | hpart
      · cases hfalse
      · simpa [hsplit] using hpart

theorem exists_record_of_validate {domain : String} {records : List String}
    (hwild : isWildcard domain = true)
    (h : validate toLowercase domain accountUri issuers records now = true) :
    ∃ record ∈ records, matchesRecord toLowercase (Text.trim record) issuers accountUri true now ∧
      CarriesWildcardPolicy (Text.trim record) := by
  obtain ⟨record, hmem, hmatch⟩ := List.any_eq_true.mp h
  rw [hwild] at hmatch
  exact ⟨record, hmem, hmatch, carriesWildcardPolicy_of_matchesRecord hmatch⟩

end Akamu.DnsPersist01
