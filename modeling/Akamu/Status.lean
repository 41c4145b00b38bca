import Mathlib.Logic.Basic

/-!
# Lifecycle states and errors

The status enumerations of `status.rs`.  A table column holds one of the values
of its enumeration (the schema's `CHECK` constraint); the replicated entries of
the gossip layer hold the text instead, and `fromStr` is the way back.
-/

namespace Akamu

inductive OrderStatus where
  | pending
  | ready
  | processing
  | valid
  | invalid
  | canceled
  deriving DecidableEq, Repr

variable {text : String}

namespace OrderStatus

def asStr : OrderStatus → String
  | pending => "pending"
  | ready => "ready"
  | processing => "processing"
  | valid => "valid"
  | invalid => "invalid"
  | canceled => "canceled"

def fromStr (s : String) : Option OrderStatus :=
  if s = "pending" then some pending
  else if s = "ready" then some ready
  else if s = "processing" then some processing
  else if s = "valid" then some valid
  else if s = "invalid" then some invalid
  else if s = "canceled" then some canceled
  else none

@[simp] theorem fromStr_asStr (s : OrderStatus) : fromStr s.asStr = some s := by
  cases s <;> decide

theorem asStr_of_fromStr {s : OrderStatus} (h : fromStr text = some s) : s.asStr = text := by
  unfold fromStr at h
  repeat' split at h
  all_goals cases h
  all_goals exact Eq.symm ‹_›

end OrderStatus

inductive AccountStatus where
  | valid
  | deactivated
  | revoked
  deriving DecidableEq, Repr

namespace AccountStatus

def asStr : AccountStatus → String
  | valid => "valid"
  | deactivated => "deactivated"
  | revoked => "revoked"

def fromStr (s : String) : Option AccountStatus :=
  if s = "valid" then some valid
  else if s = "deactivated" then some deactivated
  else if s = "revoked" then some revoked
  else none

theorem asStr_of_fromStr {s : AccountStatus} (h : fromStr text = some s) : s.asStr = text := by
  unfold fromStr at h
  repeat' split at h
  all_goals cases h
  all_goals exact Eq.symm ‹_›

end AccountStatus

inductive AuthzStatus where
  | pending
  | valid
  | invalid
  | deactivated
  | expired
  | revoked
  deriving DecidableEq, Repr

namespace AuthzStatus

def asStr : AuthzStatus → String
  | pending => "pending"
  | valid => "valid"
  | invalid => "invalid"
  | deactivated => "deactivated"
  | expired => "expired"
  | revoked => "revoked"

def fromStr (s : String) : Option AuthzStatus :=
  if s = "pending" then some pending
  else if s = "valid" then some valid
  else if s = "invalid" then some invalid
  else if s = "deactivated" then some deactivated
  else if s = "expired" then some expired
  else if s = "revoked" then some revoked
  else none

@[simp] theorem fromStr_asStr (s : AuthzStatus) : fromStr s.asStr = some s := by
  cases s <;> decide

theorem asStr_of_fromStr {s : AuthzStatus} (h : fromStr text = some s) : s.asStr = text := by
  unfold fromStr at h
  repeat' split at h
  all_goals cases h
  all_goals exact Eq.symm ‹_›

end AuthzStatus

inductive ChallengeStatus where
  | pending
  | processing
  | valid
  | invalid
  deriving DecidableEq, Repr

namespace ChallengeStatus

def asStr : ChallengeStatus → String
  | pending => "pending"
  | processing => "processing"
  | valid => "valid"
  | invalid => "invalid"

def fromStr (s : String) : Option ChallengeStatus :=
  if s = "pending" then some pending
  else if s = "processing" then some processing
  else if s = "valid" then some valid
  else if s = "invalid" then some invalid
  else none

@[simp] theorem fromStr_asStr (s : ChallengeStatus) : fromStr s.asStr = some s := by
  cases s <;> decide

theorem asStr_of_fromStr {s : ChallengeStatus} (h : fromStr text = some s) : s.asStr = text := by
  unfold fromStr at h
  repeat' split at h
  all_goals cases h
  all_goals exact Eq.symm ‹_›

end ChallengeStatus

inductive CertStatus where
  | valid
  | revoked
  deriving DecidableEq, Repr

namespace CertStatus

def asStr : CertStatus → String
  | valid => "valid"
  | revoked => "revoked"

def fromStr (s : String) : Option CertStatus :=
  if s = "valid" then some valid
  else if s = "revoked" then some revoked
  else none

theorem asStr_of_fromStr {s : CertStatus} (h : fromStr text = some s) : s.asStr = text := by
  unfold fromStr at h
  repeat' split at h
  all_goals cases h
  all_goals exact Eq.symm ‹_›

end CertStatus

inductive AcmeError where
  | unauthorized (detail : String)
  | rejectedIdentifier (detail : String)
  | unsupportedIdentifier (detail : String)
  | orderNotReady
  | certAlreadyReplaced
  | badCsr (detail : String)
  | badRevocationReason
  | alreadyRevoked
  | caa (detail : String)
  | externalAccountRequired
  | dns (detail : String)
  | incorrectResponse (detail : String)
  | invalidProfile (detail : String)
  | accountDoesNotExist
  | builder (detail : String)
  | autoRenewalCanceled
  | autoRenewalCancellationInvalid
  | autoRenewalRevocationNotSupported
  | unknownDelegation
  | notFound
  | badNonce (next : String)
  | conflict (detail : String)
  | badRequest (detail : String)
  | crypto (detail : String)
  | database (detail : String)
  | internal (detail : String)
  | mtc (detail : String)
  | connection (detail : String)
  | tls (detail : String)
  | serviceUnavailable (detail : String)
  | badSignatureAlgorithm (detail : String)
  deriving DecidableEq, Repr

end Akamu
