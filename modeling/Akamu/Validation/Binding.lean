import Akamu.Validation.TkAuth01

/-!
# Tokens and identifiers

For an identifier whose type has a claim encoder, a token has to carry
constraints that list the identifier's value under the registered claim.  The
validation also lets through a token that names the identifier directly.
Constraints that leave the claim open are taken to permit every value.
-/

namespace Akamu.TkAuth

/-! ## What a token says -/

def atcOf (lib : TkLibrary) (token : String) : Option Json :=
  (lib.decodeClaims token).toOption.bind fun claims ↦ (claims.get "atc").bind Json.asObject

def tokenJti (lib : TkLibrary) (token : String) : Option String :=
  (lib.decodeClaims token).toOption.bind fun claims ↦ claims.getStr "jti"

def tokenExp (lib : TkLibrary) (token : String) : Option Int :=
  (lib.decodeClaims token).toOption.bind fun claims ↦ (claims.get "exp").bind Json.asI64

def constraintsIn (lib : TkLibrary) (tkvalue : String) : Option Jwcc :=
  (lib.decodeUrlSafe tkvalue).bind (parseJwccDer lib)

def constraintsOf (lib : TkLibrary) (token : String) : Option Jwcc :=
  ((atcOf lib token).bind fun atc ↦ atc.getStr "tkvalue").bind (constraintsIn lib)

def Permits (lib : TkLibrary) (token claim value : String) : Prop :=
  ∃ jcc ∈ constraintsOf lib token, ∃ e ∈ jcc.permitted, e.1 = claim ∧ value ∈ e.2

/-- What a validation reads from the request and the token. -/
structure TokenParts where
  thumbprint : String
  spki : List UInt8
  claims : Json
  jti : String
  atc : Json
  exp : Int
  tktype : String
  tkvalue : String

/-- Every check is passed but that of the identifier. -/
structure Acceptable (lib : TkLibrary) (cfg : TkConfig) (req : TkRequest) (obs : Observed) (db : Db)
    (t : TokenParts) : Prop where
  thumbprint : thumbprintOf req.keyAuth = .ok t.thumbprint
  spki : obs.spki = .ok t.spki
  verified : verifyToken lib req.authorityToken t.spki obs.verified = .ok t.claims
  jti : t.claims.getStr "jti" = some t.jti
  atc : (t.claims.get "atc").bind Json.asObject = some t.atc
  exp : (t.claims.get "exp").bind Json.asI64 = some t.exp
  tktype : t.atc.getStr "tktype" = some t.tktype
  tkvalue : t.atc.getStr "tkvalue" = some t.tkvalue
  fingerprint : checkFingerprint lib t.atc t.thumbprint = .ok ()
  constraints : checkConstraints lib t.tktype t.tkvalue t.claims = .ok ()
  lifetime : checkLifetime cfg t.exp obs.capped = .ok ()
  unused : ∀ r ∈ db.tkauthJtiCache.rows, r.jti ≠ t.jti

/-- The token names the identifier as its own value.  Or it has constraints whose
first entry for the claim, if there is one, has no values. -/
def LeavesOpen (lib : TkLibrary) (req : TkRequest) (claim tktype tkvalue : String) : Prop :=
  (tktype = req.idType ∧ tkvalue = req.idValue) ∨
    (tktype ≠ req.idType ∧ tktype = "EnhancedJWTClaimConstraints" ∧
      ∃ jcc ∈ constraintsIn lib tkvalue, allowedValues jcc.permitted claim = [])

/-- No entry for the claim lists the value. -/
def Unlisted (lib : TkLibrary) (claim value tkvalue : String) : Prop :=
  ∀ jcc ∈ constraintsIn lib tkvalue, ∀ e ∈ jcc.permitted, e.1 = claim → value ∉ e.2

instance (lib : TkLibrary) (token claim value : String) :
    Decidable (Permits lib token claim value) :=
  inferInstanceAs (Decidable (∃ jcc ∈ constraintsOf lib token, ∃ e ∈ jcc.permitted,
    e.1 = claim ∧ value ∈ e.2))

theorem mem_allowedValues {permitted : List (String × List String)} {claim value : String}
    (h : value ∈ allowedValues permitted claim) : ∃ e ∈ permitted, e.1 = claim ∧ value ∈ e.2 := by
  unfold allowedValues at h
  cases hfind : permitted.find? fun e ↦ e.1 == claim with
  | none =>
    rw [hfind] at h
    cases h
  | some e =>
    rw [hfind] at h
    exact ⟨e, List.mem_of_find?_eq_some hfind, by simpa using List.find?_some hfind, h⟩

section Binding

variable {lib : TkLibrary} {cfg : TkConfig} {req : TkRequest} {obs : Observed} {db db' : Db}

theorem tokenExp_of_claims {token : String} {claims : Json}
    (h : lib.decodeClaims token = .ok claims) :
    tokenExp lib token = (claims.get "exp").bind Json.asI64 := by
  rw [tokenExp, h]
  rfl

theorem tokenJti_of_claims {token : String} {claims : Json}
    (h : lib.decodeClaims token = .ok claims) : tokenJti lib token = claims.getStr "jti" := by
  rw [tokenJti, h]
  rfl

theorem checkIdentifier_isOk_iff {registry : List (String × ClaimEncoder)}
    {claim tktype tkvalue : String} (hregistry : cfg.claimEncoderRegistry = some registry)
    (hclaim : findClaimForIdentifierType registry req.idType = some claim) :
    (∃ stored, checkIdentifier lib cfg req tktype tkvalue = .ok stored) ↔
      LeavesOpen lib req claim tktype tkvalue ∨
        (tktype ≠ req.idType ∧ tktype = "EnhancedJWTClaimConstraints" ∧
          ∃ jcc ∈ constraintsIn lib tkvalue, req.idValue ∈ allowedValues jcc.permitted claim) := by
  constructor
  · rintro ⟨stored, h⟩
    rcases checkIdentifier_eq_ok h with
      ⟨htype, hvalue, -⟩ | ⟨htype, henhanced, -, registry', claim', hregistry', hclaim', hverify⟩
    · exact .inl (.inl ⟨htype, hvalue⟩)
    · -- the claim that the validation looks up is the registered one
      cases hregistry.symm.trans hregistry'
      cases hclaim.symm.trans hclaim'
      obtain ⟨raw, jcc, hraw, hjcc, hallowed⟩ := verifyIdentifierInJcc_eq_ok hverify
      have hconstraints : jcc ∈ constraintsIn lib tkvalue := by
        rw [constraintsIn, hraw, Option.bind_some, hjcc]
        rfl
      rcases hallowed with hopen | hmem
      · exact .inl (.inr ⟨htype, henhanced, jcc, hconstraints, hopen⟩)
      · exact .inr ⟨htype, henhanced, jcc, hconstraints, hmem⟩
  · have hjcc : ∀ jcc ∈ constraintsIn lib tkvalue, tktype ≠ req.idType →
        tktype = "EnhancedJWTClaimConstraints" → (allowedValues jcc.permitted claim = [] ∨
          req.idValue ∈ allowedValues jcc.permitted claim) →
        ∃ stored, checkIdentifier lib cfg req tktype tkvalue = .ok stored := by
      intro jcc hmem htype henhanced hallowed
      obtain ⟨raw, hraw, hjcc⟩ := Option.bind_eq_some_iff.mp hmem
      have hverify : verifyIdentifierInJcc lib tkvalue claim req.idValue = .ok () := by
        simp only [verifyIdentifierInJcc, hraw, hjcc, require, bind, Except.bind]
        rcases hallowed with hopen | hvalue
        · simp [hopen]
        · simp [hvalue]
      refine ⟨some tkvalue, ?_⟩
      simp only [checkIdentifier, if_neg htype, if_pos henhanced, hregistry, hclaim, require, bind,
        Except.bind, hverify]
      rfl
    rintro ((⟨htype, hvalue⟩ | ⟨htype, henhanced, jcc, hmem, hopen⟩) |
      ⟨htype, henhanced, jcc, hmem, hvalue⟩)
    · exact ⟨none, by simp [checkIdentifier, htype, hvalue]⟩
    · exact hjcc jcc hmem htype henhanced (.inl hopen)
    · exact hjcc jcc hmem htype henhanced (.inr hvalue)

theorem validate_isOk_iff :
    (∃ db', validate lib cfg req obs db = .ok db') ↔
      ∃ t, Acceptable lib cfg req obs db t ∧
        ∃ stored, checkIdentifier lib cfg req t.tktype t.tkvalue = .ok stored := by
  constructor
  · rintro ⟨db', h⟩
    obtain ⟨thumbprint, spki, claims, accepted, hthumbprint, hspki, hverify, hcheck, hrecord⟩ :=
      validate_eq_ok h
    obtain ⟨jti, hjti, hcheck⟩ := Except.bind_eq_ok hcheck
    obtain ⟨atc, hatc, hcheck⟩ := Except.bind_eq_ok hcheck
    obtain ⟨exp, hexp, hcheck⟩ := Except.bind_eq_ok hcheck
    obtain ⟨tktype, htktype, hcheck⟩ := Except.bind_eq_ok hcheck
    obtain ⟨tkvalue, htkvalue, hcheck⟩ := Except.bind_eq_ok hcheck
    obtain ⟨stored, hstored, hcheck⟩ := Except.bind_eq_ok hcheck
    obtain ⟨⟨⟩, hfingerprint, hcheck⟩ := Except.bind_eq_ok hcheck
    obtain ⟨⟨⟩, hconstraints, hcheck⟩ := Except.bind_eq_ok hcheck
    obtain ⟨⟨⟩, hlifetime, hcheck⟩ := Except.bind_eq_ok hcheck
    cases hcheck
    exact ⟨⟨thumbprint, spki, claims, jti, atc, exp, tktype, tkvalue⟩,
      ⟨hthumbprint, hspki, hverify, require_eq_ok hjti, require_eq_ok hatc, require_eq_ok hexp,
        require_eq_ok htktype, require_eq_ok htkvalue, hfingerprint, hconstraints, hlifetime,
        (recordJti_eq_ok hrecord).1⟩, stored, hstored⟩
  · rintro ⟨t, h, stored, hstored⟩
    have hcheck : checkToken lib cfg req t.thumbprint t.claims obs.capped =
        .ok ⟨t.jti, t.exp, stored, ((t.atc.get "ca").bind Json.asBool).getD false⟩ := by
      simp only [checkToken, h.jti, h.atc, h.exp, h.tktype, h.tkvalue, hstored, h.fingerprint,
        h.constraints, h.lifetime, require, bind, Except.bind]
      rfl
    simp only [validate, h.thumbprint, h.spki, h.verified, hcheck, bind, Except.bind]
    exact exists_recordJti h.unused

theorem Acceptable.constraintsOf_eq {t : TokenParts} (h : Acceptable lib cfg req obs db t) :
    constraintsOf lib req.authorityToken = constraintsIn lib t.tkvalue := by
  have hclaims := (verifyToken_eq_ok h.verified).1
  simp [constraintsOf, atcOf, hclaims, Except.toOption, h.atc, h.tkvalue]

/-- A token validates an identifier only if its constraints list it, unless
everything else about the token is in order and it leaves the claim open. -/
theorem permits_of_validate {registry : List (String × ClaimEncoder)} {claim : String}
    (hregistry : cfg.claimEncoderRegistry = some registry)
    (hclaim : findClaimForIdentifierType registry req.idType = some claim) :
    ((∃ db', validate lib cfg req obs db = .ok db') →
        Permits lib req.authorityToken claim req.idValue) ↔
      ∀ t, Acceptable lib cfg req obs db t → LeavesOpen lib req claim t.tktype t.tkvalue →
        ¬ Unlisted lib claim req.idValue t.tkvalue := by
  constructor
  · intro h t hacceptable hopen hunlisted
    have hident := (checkIdentifier_isOk_iff hregistry hclaim).mpr (.inl hopen)
    obtain ⟨jcc, hjcc, e, he, hclaim, hvalue⟩ :=
      h (validate_isOk_iff.mpr ⟨t, hacceptable, hident⟩)
    rw [hacceptable.constraintsOf_eq] at hjcc
    exact hunlisted jcc hjcc e he hclaim hvalue
  · intro h hvalidate
    obtain ⟨t, hacceptable, hident⟩ := validate_isOk_iff.mp hvalidate
    rw [Permits, hacceptable.constraintsOf_eq]
    rcases (checkIdentifier_isOk_iff hregistry hclaim).mp hident with
      hopen | ⟨-, -, jcc, hjcc, hmem⟩
    · have hlisted := h t hacceptable hopen
      simp only [Unlisted] at hlisted
      push Not at hlisted
      exact hlisted
    · exact ⟨jcc, hjcc, mem_allowedValues hmem⟩

end Binding

namespace DnsTokens

def der : String → Option (List UInt8)
  | "qw" => some [0xAB]
  | "MAA" => some [48, 0]
  | "MA2hCzAJMAcWA3NhbjAA" => some [48, 13, 161, 11, 48, 9, 48, 7, 22, 3, 115, 97, 110, 48, 0]
  | "MBqhGDAWMBQWA3NhbjANDAtleGFtcGxlLmNvbQ" =>
    some [48, 26, 161, 24, 48, 22, 48, 20, 22, 3, 115, 97, 110, 48, 13, 12, 11, 101, 120, 97,
      109, 112, 108, 101, 46, 99, 111, 109]
  | _ => none

/-- The three blobs by their lengths: no constraints, an empty list under
`san`, and a list with one name. -/
def constraints (der : List UInt8) : Option ClaimConstraintsDer :=
  match der.length with
  | 2 => some ⟨none, none, none⟩
  | 15 => some ⟨none, some [("san", [])], none⟩
  | 28 => some ⟨none, some [("san", ["example.com"])], none⟩
  | _ => none

def claims (jti tktype tkvalue san : String) : Json :=
  .obj [("jti", .str jti), ("exp", .int 100), ("san", .str san),
    ("atc", .obj [("tktype", .str tktype), ("tkvalue", .str tkvalue),
      ("fingerprint", .str "SHA256 AB")])]

def lib : TkLibrary where
  decodeClaims
    | "direct" => .ok (claims "1" "dns" "other.example" "other.example")
    | "silent" => .ok (claims "2" "EnhancedJWTClaimConstraints" "MAA" "example.com")
    | "unlisted" => .ok (claims "3" "EnhancedJWTClaimConstraints" "MA2hCzAJMAcWA3NhbjAA"
        "example.com")
    | "listed" => .ok (claims "4" "EnhancedJWTClaimConstraints"
        "MBqhGDAWMBQWA3NhbjANDAtleGFtcGxlLmNvbQ" "example.com")
    | _ => .error "bad request: authority token: expected 3 '.' separated parts, got 1"
  verifyWithSpki _ _ := .ok ()
  decodeUrlSafe := der
  parseJson _ := none
  constraintsFromDer := constraints

def cfg : TkConfig := ⟨some [("san", .dnsSan)], some 3600⟩

def request (name token : String) : TkRequest := ⟨"dns", name, "tok.qw", token, "z"⟩

def seen : Observed := ⟨.ok [], 10, 10, 10⟩

/-- The token validates `other.example` without a word of it in its
constraints. -/
def SlipsThrough (token : String) : Prop :=
  (validate lib cfg (request "other.example" token) seen Db.empty).isOk = true ∧
    ¬ Permits lib token "san" "other.example"

instance (token : String) : Decidable (SlipsThrough token) :=
  inferInstanceAs (Decidable (_ ∧ ¬ _))

/-- A token of the identifier's own type. -/
theorem identifier_not_permitted : SlipsThrough "direct" := by
  decide +kernel

/-- Constraints without entries, and an entry without values. -/
example : SlipsThrough "silent" ∧ SlipsThrough "unlisted" := by
  decide +kernel

theorem identifier_permitted :
    (validate lib cfg (request "example.com" "listed") seen Db.empty).isOk = true ∧
      Permits lib "listed" "san" "example.com" := by
  have hok : (validate lib cfg (request "example.com" "listed") seen Db.empty).isOk = true := by
    decide +kernel
  have hlists : constraintsOf lib "listed" = some ⟨[], [("san", ["example.com"])], []⟩ := by
    decide +kernel
  have hiff : ((∃ db', validate lib cfg (request "example.com" "listed") seen Db.empty = .ok db') →
      Permits lib "listed" "san" "example.com") ↔ _ :=
    permits_of_validate rfl (by decide +kernel)
  refine ⟨hok, hiff.mpr ?_ ?_⟩
  · intro t ht _ hunlisted
    rw [Unlisted, ← ht.constraintsOf_eq] at hunlisted
    exact hunlisted _ hlists _ List.mem_cons_self rfl List.mem_cons_self
  · cases hvalidate : validate lib cfg (request "example.com" "listed") seen Db.empty with
    | error => simp [hvalidate, Except.isOk, Except.toBool] at hok
    | ok db' => exact ⟨db', rfl⟩

end DnsTokens

end Akamu.TkAuth
