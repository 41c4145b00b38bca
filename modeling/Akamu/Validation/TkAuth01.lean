import Akamu.Config
import Akamu.Db.Statements
import Akamu.Lib.Json

/-!
# tkauth-01

Validation of an authority token: the signature and the time claims, what the
token says about the identifier and the account, and the record of its id
against replays.
-/

namespace Akamu.TkAuth

open Except (bind_eq_ok)

/-! ## Parameters -/

/-- `EnhancedJwtClaimConstraints` as decoded. -/
structure ClaimConstraintsDer where
  mustInclude : Option (List String)
  permittedValues : Option (List (String × List String))
  mustExclude : Option (List String)
  deriving DecidableEq, Repr

structure TkLibrary where
  /-- The claims of a token in three parts, or what is wrong with its form. -/
  decodeClaims : String → Except String Json
  verifyWithSpki : String → List UInt8 → Except String Unit
  decodeUrlSafe : String → Option (List UInt8)
  parseJson : List UInt8 → Option Json
  constraintsFromDer : List UInt8 → Option ClaimConstraintsDer

structure TkConfig where
  claimEncoderRegistry : Option (List (String × ClaimEncoder))
  /-- `tkauth.max_validity_secs`, where `[tkauth]` is configured. -/
  maxValiditySecs : Option Int

structure TkRequest where
  idType : String
  idValue : String
  keyAuth : String
  authorityToken : String
  authzId : String
  deriving DecidableEq, Repr

def refuse {α : Type} (detail : String) : Except AcmeError α :=
  .error (.incorrectResponse ("tkauth-01: " ++ detail))

def require {α : Type} (detail : String) : Option α → Except AcmeError α
  | some a => .ok a
  | none => refuse detail

theorem require_eq_ok {α : Type} {detail : String} {o : Option α} {a : α}
    (h : require detail o = .ok a) : o = some a := by
  cases o with
  | none => cases h
  | some => exact congrArg some (Except.ok.inj h)

/-! ## Claim encoders -/

def authorizedIdentifierType : ClaimEncoder → Option String
  | .dnsSan => some "dns"
  | .krb5Kpn _ | .msUpn => none

def findClaimForIdentifierType (registry : List (String × ClaimEncoder)) (idType : String) :
    Option String :=
  (registry.find? fun e ↦ authorizedIdentifierType e.2 == some idType).map Prod.fst

/-! ## Constraints -/

def maxDerEntries : ℕ := 64

def maxDerStringBytes : ℕ := 256

def boundedNames (names : List String) : Bool :=
  names.length ≤ maxDerEntries && names.all fun s ↦ s.utf8ByteSize ≤ maxDerStringBytes

structure Jwcc where
  mustInclude : List String
  permitted : List (String × List String)
  mustExclude : List String
  deriving DecidableEq, Repr

/-- `parse_jwcc_der` -/
def parseJwccDer (lib : TkLibrary) (der : List UInt8) : Option Jwcc :=
  (lib.constraintsFromDer der).bind fun jcc ↦
    let mustInclude := jcc.mustInclude.getD []
    let permitted := jcc.permittedValues.getD []
    let mustExclude := jcc.mustExclude.getD []
    if boundedNames mustInclude && permitted.length ≤ maxDerEntries &&
        (permitted.all fun e ↦ e.1.utf8ByteSize ≤ maxDerStringBytes && boundedNames e.2) &&
        boundedNames mustExclude then
      some ⟨mustInclude, permitted, mustExclude⟩
    else none

def allowedValues (permitted : List (String × List String)) (claim : String) : List String :=
  ((permitted.find? fun e ↦ e.1 == claim).map Prod.snd).getD []

def notBase64 : String := "atc.tkvalue is not valid base64url for JWTClaimConstraints"

/-- `verify_identifier_in_jcc`: an empty list permits, and so does a claim that
is not there. -/
def verifyIdentifierInJcc (lib : TkLibrary) (tkvalue claimName idValue : String) :
    Except AcmeError Unit := do
  let raw ← require notBase64 (lib.decodeUrlSafe tkvalue)
  let jcc ← require "JWTClaimConstraints blob is not valid RFC 8226 DER" (parseJwccDer lib raw)
  let allowed := allowedValues jcc.permitted claimName
  if !allowed.isEmpty && !allowed.contains idValue then
    refuse ("identifier value '" ++ idValue ++ "' not in permittedValues['" ++ claimName ++ "']")
  else .ok ()

/-- One entry of a JSON `must-include` array. -/
def checkMustInclude (claims entry : Json) : Except AcmeError Unit := do
  let claim ← require "must-include entry missing 'claim' key" (entry.getStr "claim")
  let allowed ← require "must-include entry missing 'values' key"
    ((entry.get "values").bind Json.asArray)
  if 64 < allowed.length then refuse "must-include values array exceeds 64-entry limit"
  else do
    let actual ← require ("token missing required claim '" ++ claim ++ "'") (claims.get claim)
    if !allowed.all Json.isString then refuse "must-include values entry is not a string"
    -- all the values are strings, so only a string can equal one of them
    else if !(allowed.any fun v ↦ actual.isString && v.asStr == actual.asStr) then
      refuse ("claim '" ++ claim ++ "' value not in must-include allowed list")
    else .ok ()

def checkPermitted (claims : Json) (entry : String × List String) : Except AcmeError Unit := do
  let actual ← require ("token missing required claim '" ++ entry.1 ++ "'") (claims.get entry.1)
  let text ← require ("claim '" ++ entry.1 ++ "' value is not a string") actual.asStr
  if !entry.2.isEmpty && !entry.2.contains text then
    refuse ("claim '" ++ entry.1 ++ "' value not in permittedValues allowed list")
  else .ok ()

def checkDer (claims : Json) (jcc : Jwcc) : Except AcmeError Unit := do
  jcc.mustInclude.forM fun name ↦ do
    let _ ← require ("token missing required claim '" ++ name ++ "'") (claims.get name)
  jcc.permitted.forM (checkPermitted claims)
  jcc.mustExclude.forM fun name ↦
    if (claims.get name).isSome then refuse ("token contains excluded claim '" ++ name ++ "'")
    else .ok ()

/-- `check_jwt_claim_constraints`: JSON first, then DER. -/
def checkJwtClaimConstraints (lib : TkLibrary) (tkvalue : String) (claims : Json) :
    Except AcmeError Unit := do
  let raw ← require notBase64 (lib.decodeUrlSafe tkvalue)
  match lib.parseJson raw with
  | some constraints =>
    match (constraints.get "must-include").bind Json.asArray with
    | none => .ok ()
    | some entries =>
      if 64 < entries.length then refuse "must-include array exceeds 64-entry limit"
      else entries.forM (checkMustInclude claims)
  | none =>
    match parseJwccDer lib raw with
    | some jcc => checkDer claims jcc
    | none => refuse "JWTClaimConstraints blob is not valid JSON or RFC 8226 DER"

/-! ## Validation -/

def thumbprintOf (keyAuth : String) : Except AcmeError String :=
  match keyAuth.toList.dropWhile (· != '.') with
  | _ :: rest => .ok (String.ofList rest)
  | [] => .error (.internal "tkauth-01: malformed key_auth (no '.')")

def checkTimes (claims : Json) (now : Int) : Except String Unit :=
  match (claims.get "exp").bind Json.asI64 with
  | none => .error "bad request: authority token: missing or non-integer 'exp' claim"
  | some exp =>
    if exp ≤ now then
      .error ("bad request: authority token expired: exp=" ++ toString exp ++ ", now=" ++
        toString now)
    else
      match (claims.get "nbf").bind Json.asI64 with
      | none => .ok ()
      | some nbf =>
        if now < nbf then
          .error ("bad request: authority token not yet valid: nbf=" ++ toString nbf ++
            ", now=" ++ toString now)
        else .ok ()

/-- `AuthorityToken::decode_and_verify` -/
def decodeAndVerify (lib : TkLibrary) (token : String) (spki : List UInt8) (now : Int) :
    Except String Json := do
  let claims ← lib.decodeClaims token
  lib.verifyWithSpki token spki
  checkTimes claims now
  return claims

def verifyToken (lib : TkLibrary) (token : String) (spki : List UInt8) (now : Int) :
    Except AcmeError Json :=
  (decodeAndVerify lib token spki now).mapError fun e ↦
    .incorrectResponse ("tkauth-01: JWT verify: " ++ e)

def hexDigit (n : ℕ) : Char := if n < 10 then Char.ofNat (48 + n) else Char.ofNat (55 + n)

def hexByte (b : UInt8) : String := String.ofList [hexDigit (b.toNat / 16), hexDigit (b.toNat % 16)]

def expectedFingerprint (thumb : List UInt8) : String :=
  "SHA256 " ++ String.intercalate ":" (thumb.map hexByte)

/-- What the token says about the identifier: its value, or constraints that
permit it, which are then stored. -/
def checkIdentifier (lib : TkLibrary) (cfg : TkConfig) (req : TkRequest) (tktype tkvalue : String) :
    Except AcmeError (Option String) :=
  if tktype = req.idType then
    if tkvalue ≠ req.idValue then refuse "atc.tkvalue does not match identifier value"
    else .ok none
  else if tktype = "EnhancedJWTClaimConstraints" then do
    let registry ← require
      ("atc.tktype 'EnhancedJWTClaimConstraints' but no claim encoders configured " ++
        "for identifier type '" ++ req.idType ++ "'") cfg.claimEncoderRegistry
    let claimName ← require
      ("no claim encoder configured for identifier type '" ++ req.idType ++ "'")
      (findClaimForIdentifierType registry req.idType)
    verifyIdentifierInJcc lib tkvalue claimName req.idValue
    return some tkvalue
  else
    refuse ("atc.tktype '" ++ tktype ++ "' does not match identifier type '" ++ req.idType ++ "'")

def checkFingerprint (lib : TkLibrary) (atc : Json) (thumbprint : String) :
    Except AcmeError Unit := do
  let fingerprint ← require "atc missing 'fingerprint'" (atc.getStr "fingerprint")
  match lib.decodeUrlSafe thumbprint with
  | none => .error (.internal "tkauth-01: JWK thumbprint in key_auth is not valid base64url")
  | some thumb =>
    if fingerprint ≠ expectedFingerprint thumb then
      refuse "atc.fingerprint does not match account JWK thumbprint"
    else .ok ()

def checkConstraints (lib : TkLibrary) (tktype tkvalue : String) (claims : Json) :
    Except AcmeError Unit :=
  if tktype = "JWTClaimConstraints" ∨ tktype = "EnhancedJWTClaimConstraints" then
    checkJwtClaimConstraints lib tkvalue claims
  else .ok ()

def checkLifetime (cfg : TkConfig) (exp now : Int) : Except AcmeError Unit :=
  match cfg.maxValiditySecs with
  | none => .ok ()
  | some maxSecs =>
    -- the subtraction saturates
    let remaining := max (-2 ^ 63) (min (2 ^ 63 - 1) (exp - now))
    if maxSecs < remaining then
      refuse ("token lifetime (" ++ toString remaining ++ " s) exceeds max_validity_secs (" ++
        toString maxSecs ++ ")")
    else .ok ()

structure AcceptedToken where
  jti : String
  exp : Int
  tkvalue : Option String
  caFlag : Bool
  deriving DecidableEq, Repr

def checkToken (lib : TkLibrary) (cfg : TkConfig) (req : TkRequest) (thumbprint : String)
    (claims : Json) (now : Int) : Except AcmeError AcceptedToken := do
  let jti ← require "JWT missing required 'jti' claim" (claims.getStr "jti")
  let atc ← require "JWT missing required 'atc' claim" ((claims.get "atc").bind Json.asObject)
  let exp ← require "JWT missing 'exp' claim" ((claims.get "exp").bind Json.asI64)
  let tktype ← require "atc missing 'tktype'" (atc.getStr "tktype")
  let tkvalue ← require "atc missing 'tkvalue'" (atc.getStr "tkvalue")
  let stored ← checkIdentifier lib cfg req tktype tkvalue
  checkFingerprint lib atc thumbprint
  checkConstraints lib tktype tkvalue claims
  checkLifetime cfg exp now
  return ⟨jti, exp, stored, ((atc.get "ca").bind Json.asBool).getD false⟩

def AcceptedToken.row (t : AcceptedToken) (authzId : String) (created : Int) : TkauthJtiRow where
  jti := t.jti
  authzId := authzId
  expires := t.exp
  created := created
  tkvalue := t.tkvalue
  caFlag := t.caFlag

def recordJti (db : Db) (row : TkauthJtiRow) : Except AcmeError Db :=
  if (Tkauth.insertJti db row).2 then .ok (Tkauth.insertJti db row).1
  else refuse "authority token already used (jti replay)"

/-- What a validation learns on its way: the signing key, with its certificate
chain accepted where it has one, and the clock at three moments. -/
structure Observed where
  spki : Except AcmeError (List UInt8)
  created : Int
  verified : Int
  capped : Int

/-- `tkauth01::validate` -/
def validate (lib : TkLibrary) (cfg : TkConfig) (req : TkRequest) (obs : Observed) (db : Db) :
    Except AcmeError Db := do
  let thumbprint ← thumbprintOf req.keyAuth
  let spki ← obs.spki
  let claims ← verifyToken lib req.authorityToken spki obs.verified
  let accepted ← checkToken lib cfg req thumbprint claims obs.capped
  recordJti db (accepted.row req.authzId obs.created)

/-! ## What succeeds -/

section Inversion

variable {lib : TkLibrary} {cfg : TkConfig} {req : TkRequest}

theorem verifyIdentifierInJcc_eq_ok {tkvalue claimName idValue : String}
    (h : verifyIdentifierInJcc lib tkvalue claimName idValue = .ok ()) :
    ∃ raw jcc, lib.decodeUrlSafe tkvalue = some raw ∧ parseJwccDer lib raw = some jcc ∧
      (allowedValues jcc.permitted claimName = [] ∨
        idValue ∈ allowedValues jcc.permitted claimName) := by
  obtain ⟨raw, hraw, h⟩ := bind_eq_ok h
  obtain ⟨jcc, hjcc, h⟩ := bind_eq_ok h
  refine ⟨raw, jcc, require_eq_ok hraw, require_eq_ok hjcc, ?_⟩
  dsimp only at h
  split at h
  case isTrue => cases h
  case isFalse hallowed =>
      by_cases hempty : allowedValues jcc.permitted claimName = []
      · exact .inl hempty
      · exact .inr (by simpa [hempty] using hallowed)

theorem checkIdentifier_eq_ok {tktype tkvalue : String} {stored : Option String}
    (h : checkIdentifier lib cfg req tktype tkvalue = .ok stored) :
    (tktype = req.idType ∧ tkvalue = req.idValue ∧ stored = none) ∨
      (tktype ≠ req.idType ∧ tktype = "EnhancedJWTClaimConstraints" ∧ stored = some tkvalue ∧
        ∃ registry claimName, cfg.claimEncoderRegistry = some registry ∧
          findClaimForIdentifierType registry req.idType = some claimName ∧
          verifyIdentifierInJcc lib tkvalue claimName req.idValue = .ok ()) := by
  unfold checkIdentifier at h
  split_ifs at h with htype hvalue henhanced
  · cases h
  · cases h
    exact .inl ⟨htype, not_not.mp hvalue, rfl⟩
  · obtain ⟨registry, hregistry, h⟩ := bind_eq_ok h
    obtain ⟨claimName, hclaim, h⟩ := bind_eq_ok h
    obtain ⟨_, hverify, h⟩ := bind_eq_ok h
    cases h
    exact .inr ⟨htype, henhanced, rfl, registry, claimName, require_eq_ok hregistry,
      require_eq_ok hclaim, hverify⟩
  · cases h

theorem verifyToken_eq_ok {token : String} {spki : List UInt8} {now : Int} {claims : Json}
    (h : verifyToken lib token spki now = .ok claims) :
    lib.decodeClaims token = .ok claims ∧
      ∀ exp, (claims.get "exp").bind Json.asI64 = some exp → now < exp := by
  have hverify := Except.mapError_eq_ok_iff.mp h
  obtain ⟨claims', hclaims, hverify⟩ := bind_eq_ok hverify
  obtain ⟨_, -, hverify⟩ := bind_eq_ok hverify
  obtain ⟨_, htimes, hverify⟩ := bind_eq_ok hverify
  cases hverify
  refine ⟨hclaims, fun exp hexp ↦ ?_⟩
  simp only [checkTimes, hexp] at htimes
  split at htimes
  case isTrue => cases htimes
  case isFalse hlive => exact not_le.mp hlive

theorem checkToken_eq_ok {thumbprint : String} {claims : Json} {now : Int} {t : AcceptedToken}
    (h : checkToken lib cfg req thumbprint claims now = .ok t) :
    claims.getStr "jti" = some t.jti ∧ (claims.get "exp").bind Json.asI64 = some t.exp ∧
      ∃ atc tktype tkvalue, (claims.get "atc").bind Json.asObject = some atc ∧
        atc.getStr "tktype" = some tktype ∧ atc.getStr "tkvalue" = some tkvalue ∧
        checkIdentifier lib cfg req tktype tkvalue = .ok t.tkvalue := by
  obtain ⟨jti, hjti, h⟩ := bind_eq_ok h
  obtain ⟨atc, hatc, h⟩ := bind_eq_ok h
  obtain ⟨exp, hexp, h⟩ := bind_eq_ok h
  obtain ⟨tktype, htktype, h⟩ := bind_eq_ok h
  obtain ⟨tkvalue, htkvalue, h⟩ := bind_eq_ok h
  obtain ⟨stored, hstored, h⟩ := bind_eq_ok h
  obtain ⟨_, -, h⟩ := bind_eq_ok h
  obtain ⟨_, -, h⟩ := bind_eq_ok h
  obtain ⟨_, -, h⟩ := bind_eq_ok h
  cases h
  exact ⟨require_eq_ok hjti, require_eq_ok hexp, atc, tktype, tkvalue, require_eq_ok hatc,
    require_eq_ok htktype, require_eq_ok htkvalue, hstored⟩

theorem recordJti_eq_ok {db db' : Db} {row : TkauthJtiRow} (h : recordJti db row = .ok db') :
    (∀ r ∈ db.tkauthJtiCache.rows, r.jti ≠ row.jti) ∧
      db'.tkauthJtiCache.rows = db.tkauthJtiCache.rows ++ [row] := by
  unfold recordJti Tkauth.insertJti at h
  cases hinsert : db.tkauthJtiCache.insert? row with
  | none =>
    rw [hinsert] at h
    cases h
  | some =>
    rw [hinsert] at h
    cases h
    obtain ⟨hnone, hrows⟩ := KeyedTable.insert?_eq_some_iff.mp hinsert
    exact ⟨KeyedTable.find?_eq_none_iff.mp hnone, hrows⟩

theorem exists_recordJti {db : Db} {row : TkauthJtiRow}
    (h : ∀ r ∈ db.tkauthJtiCache.rows, r.jti ≠ row.jti) : ∃ db', recordJti db row = .ok db' := by
  cases hinsert : db.tkauthJtiCache.insert? row with
  | none =>
    have hrows : ¬ ∃ r ∈ db.tkauthJtiCache.rows, r.jti = row.jti := by simpa using h
    simp [KeyedTable.insert?, hrows] at hinsert
  | some => simp [recordJti, Tkauth.insertJti, hinsert]

theorem validate_eq_ok {obs : Observed} {db db' : Db}
    (h : validate lib cfg req obs db = .ok db') :
    ∃ thumbprint spki claims t, thumbprintOf req.keyAuth = .ok thumbprint ∧ obs.spki = .ok spki ∧
      verifyToken lib req.authorityToken spki obs.verified = .ok claims ∧
      checkToken lib cfg req thumbprint claims obs.capped = .ok t ∧
      recordJti db (t.row req.authzId obs.created) = .ok db' := by
  obtain ⟨thumbprint, hthumbprint, h⟩ := bind_eq_ok h
  obtain ⟨spki, hspki, h⟩ := bind_eq_ok h
  obtain ⟨claims, hclaims, h⟩ := bind_eq_ok h
  obtain ⟨t, ht, hrecord⟩ := bind_eq_ok h
  exact ⟨thumbprint, spki, claims, t, hthumbprint, hspki, hclaims, ht, hrecord⟩

end Inversion

end Akamu.TkAuth
