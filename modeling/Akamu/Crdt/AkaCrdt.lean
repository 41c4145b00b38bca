import Akamu.Schema
import Akamu.Crdt.OrMap
import Akamu.Crdt.Lww

/-!
# The replicated state

The ACME part of `AkaCrdt`: accounts, orders, authorizations, certificates as
observed-remove maps, challenges and external account binding keys as
last-write-wins maps.  Entries carry the status as text, because that is what
travels between nodes.
-/

namespace Akamu.Crdt

structure AccountEntry where
  accountId : String
  status : String
  contact : Option String
  publicKeyDer : List UInt8
  jwkThumbprint : String
  created : Int
  updated : Int
  profileGrants : Option String
  caId : String
  deriving DecidableEq, Repr, Inhabited

structure OrderEntry where
  orderId : String
  accountId : String
  status : String
  expires : Option Int
  identifiers : List Identifier
  notBefore : Option Int
  notAfter : Option Int
  error : Option String
  certificateId : Option String
  created : Int
  updated : Int
  caId : String
  deriving DecidableEq, Repr, Inhabited

structure AuthzEntry where
  authzId : String
  orderId : String
  accountId : String
  status : String
  identifier : Identifier
  expires : Option Int
  wildcard : Bool
  created : Int
  updated : Int
  caId : String
  deriving DecidableEq, Repr

structure ChallengeEntry where
  challengeId : String
  authzId : String
  challengeType : ChallengeType
  status : String
  token : String
  validated : Option Int
  error : Option String
  created : Int
  updated : Int
  deriving DecidableEq, Repr

structure CertEntry where
  certId : String
  orderId : String
  accountId : String
  serialNumber : String
  status : String
  notBefore : Int
  notAfter : Int
  revokedAt : Option Int
  revocationReason : Option Int
  created : Int
  caId : String
  deriving DecidableEq, Repr, Inhabited

structure EabKeyEntry where
  kid : String
  hmacKeyB64u : String
  created : Int
  usedAt : Option Int
  profileGrants : Option String
  deriving DecidableEq, Repr, Inhabited

structure AkaCrdt where
  accounts : OrMap String AccountEntry
  orders : OrMap String OrderEntry
  authorizations : OrMap String AuthzEntry
  challenges : LwwMap String ChallengeEntry
  certificates : OrMap String CertEntry
  eabKeys : LwwMap String EabKeyEntry
  deriving DecidableEq

namespace AkaCrdt

def empty : AkaCrdt := ⟨.empty, .empty, .empty, .empty, .empty, .empty⟩

def purgeOldTombstones (c : AkaCrdt) (cutoff : Int) : AkaCrdt where
  accounts := c.accounts.purgeOldTombstones cutoff
  orders := c.orders.purgeOldTombstones cutoff
  authorizations := c.authorizations.purgeOldTombstones cutoff
  challenges := c.challenges.purgeOldTombstones cutoff
  certificates := c.certificates.purgeOldTombstones cutoff
  eabKeys := c.eabKeys.purgeOldTombstones cutoff

def deltaSince (c : AkaCrdt) (gen : ℕ) : AkaCrdt where
  accounts := c.accounts.deltaSince gen
  orders := c.orders.deltaSince gen
  authorizations := c.authorizations.deltaSince gen
  challenges := c.challenges.deltaSince gen
  certificates := c.certificates.deltaSince gen
  eabKeys := c.eabKeys.deltaSince gen

def deltaRange (c : AkaCrdt) (since upTo : ℕ) : AkaCrdt where
  accounts := c.accounts.deltaRange since upTo
  orders := c.orders.deltaRange since upTo
  authorizations := c.authorizations.deltaRange since upTo
  challenges := c.challenges.deltaRange since upTo
  certificates := c.certificates.deltaRange since upTo
  eabKeys := c.eabKeys.deltaRange since upTo

def merge (c : AkaCrdt) (gen : ℕ) (other : AkaCrdt) : AkaCrdt × ℕ :=
  let accounts := c.accounts.merge gen other.accounts
  let orders := c.orders.merge accounts.2 other.orders
  let authorizations := c.authorizations.merge orders.2 other.authorizations
  let challenges := c.challenges.merge authorizations.2 other.challenges
  let certificates := c.certificates.merge challenges.2 other.certificates
  let eabKeys := c.eabKeys.merge certificates.2 other.eabKeys
  ({ accounts := accounts.1, orders := orders.1, authorizations := authorizations.1,
     challenges := challenges.1, certificates := certificates.1, eabKeys := eabKeys.1 },
    eabKeys.2)

end AkaCrdt

end Akamu.Crdt
