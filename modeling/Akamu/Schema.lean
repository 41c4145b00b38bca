import Akamu.Lib.KeyedTable
import Akamu.Status

/-!
# The database schema

Row types of `db/schema.rs` and the tables of the initial migration.  Columns
that no modelled function reads (DER and PEM blobs, log indices, renewal
windows) are left out.  JSON columns appear decoded: an identifier is the pair
that its JSON text stands for, and two JSON texts written by the server are
equal exactly when the decoded values are.
-/

namespace Akamu

/-- The `type` of an ACME identifier. -/
inductive IdType where
  | dns
  | ip
  | email
  | tnAuthList
  | jwtClaimConstraints
  | enhancedJwtClaimConstraints
  | other (name : String)
  deriving DecidableEq, Repr

def IdType.asStr : IdType → String
  | .dns => "dns"
  | .ip => "ip"
  | .email => "email"
  | .tnAuthList => "TNAuthList"
  | .jwtClaimConstraints => "JWTClaimConstraints"
  | .enhancedJwtClaimConstraints => "EnhancedJWTClaimConstraints"
  | .other name => name

structure Identifier where
  type : IdType
  value : String
  deriving DecidableEq, Repr

/-- The `type` of an ACME challenge. -/
inductive ChallengeType where
  | http01
  | dns01
  | tlsAlpn01
  | dnsPersist01
  | onionCsr01
  | emailReply00
  | tkauth01
  deriving DecidableEq, Repr

def ChallengeType.asStr : ChallengeType → String
  | .http01 => "http-01"
  | .dns01 => "dns-01"
  | .tlsAlpn01 => "tls-alpn-01"
  | .dnsPersist01 => "dns-persist-01"
  | .onionCsr01 => "onion-csr-01"
  | .emailReply00 => "email-reply-00"
  | .tkauth01 => "tkauth-01"

theorem ChallengeType.asStr_ne_empty (t : ChallengeType) : t.asStr ≠ "" := by
  cases t <;> decide

structure AccountRow where
  id : String
  status : AccountStatus
  contact : Option String
  publicKey : List UInt8
  jwkThumbprint : String
  created : Int
  updated : Int
  profileGrants : Option String
  caId : String
  kerberosPrincipal : Option String
  deriving DecidableEq, Repr

structure OrderRow where
  id : String
  accountId : String
  status : OrderStatus
  expires : Option Int
  identifiers : List Identifier
  notBefore : Option Int
  notAfter : Option Int
  error : Option String
  certificateId : Option String
  replaces : Option String
  created : Int
  updated : Int
  starStartDate : Option Int
  starEndDate : Option Int
  starLifetimeSecs : Option Int
  starLifetimeAdjustSecs : Int
  starCanceledAt : Option Int
  starCsrDer : Option (List UInt8)
  profile : Option String
  caId : String
  delegationId : Option String
  upstreamOrderUrl : Option String
  upstreamCertUrl : Option String
  deriving DecidableEq, Repr

/-- An order for the given identifiers that uses no optional feature. -/
def OrderRow.plain (id accountId caId : String) (status : OrderStatus)
    (identifiers : List Identifier) (created expires : Int) : OrderRow where
  id := id
  accountId := accountId
  status := status
  expires := some expires
  identifiers := identifiers
  notBefore := none
  notAfter := none
  error := none
  certificateId := none
  replaces := none
  created := created
  updated := created
  starStartDate := none
  starEndDate := none
  starLifetimeSecs := none
  starLifetimeAdjustSecs := 0
  starCanceledAt := none
  starCsrDer := none
  profile := none
  caId := caId
  delegationId := none
  upstreamOrderUrl := none
  upstreamCertUrl := none

def OrderRow.isStar (o : OrderRow) : Bool := o.starEndDate.isSome

structure AuthorizationRow where
  id : String
  /-- `NULL` for standalone pre-authorizations. -/
  orderId : Option String
  accountId : String
  status : AuthzStatus
  identifier : Identifier
  expires : Option Int
  wildcard : Bool
  subdomainAuthAllowed : Bool
  created : Int
  updated : Int
  caId : String
  deriving DecidableEq, Repr

structure ChallengeRow where
  id : String
  authzId : String
  type : ChallengeType
  status : ChallengeStatus
  token : String
  validated : Option Int
  error : Option String
  created : Int
  updated : Int
  emailMessageId : Option String
  deriving DecidableEq, Repr

structure CertificateRow where
  id : String
  orderId : String
  accountId : String
  serialNumber : String
  status : CertStatus
  notBefore : Int
  notAfter : Int
  revokedAt : Option Int
  revocationReason : Option Int
  created : Int
  replacedBy : Option String
  caId : String
  deriving DecidableEq, Repr

structure EabKeyRow where
  kid : String
  hmacKeyB64u : String
  created : Int
  usedAt : Option Int
  profileGrants : Option String
  boundPrincipal : Option String
  deriving DecidableEq, Repr

structure TkauthJtiRow where
  jti : String
  authzId : String
  expires : Int
  created : Int
  tkvalue : Option String
  caFlag : Bool
  deriving DecidableEq, Repr

structure Db where
  accounts : KeyedTable AccountRow AccountRow.id
  orders : KeyedTable OrderRow OrderRow.id
  authorizations : KeyedTable AuthorizationRow AuthorizationRow.id
  challenges : KeyedTable ChallengeRow ChallengeRow.id
  certificates : KeyedTable CertificateRow CertificateRow.id
  eabKeys : KeyedTable EabKeyRow EabKeyRow.kid
  tkauthJtiCache : KeyedTable TkauthJtiRow TkauthJtiRow.jti

def Db.empty : Db where
  accounts := .empty
  orders := .empty
  authorizations := .empty
  challenges := .empty
  certificates := .empty
  eabKeys := .empty
  tkauthJtiCache := .empty

end Akamu
