import Mathlib.Data.String.Basic

/-!
# Operators of the admin interface
-/

namespace Akamu.Admin

inductive OperatorRole where
  | administrator
  | caOperations
  | caRa
  | auditor
  deriving DecidableEq, Repr

def OperatorRole.parse (s : String) : Option OperatorRole :=
  if s = "administrator" then some .administrator
  else if s = "ca_operations" then some .caOperations
  else if s = "ca_ra" then some .caRa
  else if s = "auditor" then some .auditor
  else none

/-- A row of `operators`. -/
structure Operator where
  id : Int
  name : String
  role : String
  certFingerprint : Option String
  gssapiPrincipal : Option String
  createdAt : String
  lastSeenAt : Option String
  active : Bool
  failedAttempts : Int
  lockedUntil : Option String
  caId : String
  deriving DecidableEq, Repr

def Operator.isLocked (op : Operator) (nowRfc3339 : String) : Bool :=
  op.lockedUntil.any fun until' ↦ decide (nowRfc3339 ≤ until')

structure Response where
  status : ℕ
  message : String
  deriving DecidableEq, Repr

end Akamu.Admin
