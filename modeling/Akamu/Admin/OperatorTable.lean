import Akamu.Admin.Operator
import Akamu.Lib.KeyedTable

/-!
# The table of operators
-/

namespace Akamu.Admin

open KeyedTable

/-- Only the fields that are given change. -/
structure OperatorUpdateParams where
  name : Option String := none
  role : Option String := none
  certFingerprint : Option String := none
  gssapiPrincipal : Option String := none
  caId : Option String := none
  deriving DecidableEq, Repr

def OperatorUpdateParams.assign (p : OperatorUpdateParams) (now : String) (op : Operator) :
    Operator :=
  { op with
    lastSeenAt := some now
    name := p.name.getD op.name
    role := p.role.getD op.role
    certFingerprint := p.certFingerprint.or op.certFingerprint
    gssapiPrincipal := p.gssapiPrincipal.or op.gssapiPrincipal
    caId := p.caId.getD op.caId }

/-- Names, fingerprints and principals are unique; `NULL` equals nothing. -/
def Operator.sharesKey (r op : Operator) : Bool :=
  r.name == op.name ||
    (op.certFingerprint.isSome && r.certFingerprint == op.certFingerprint) ||
    (op.gssapiPrincipal.isSome && r.gssapiPrincipal == op.gssapiPrincipal)

abbrev OperatorTable : Type := KeyedTable Operator Operator.id

namespace OperatorTable

variable (t : OperatorTable)

def getById (id : Int) : Option Operator := t.find? id

def getByFingerprint (fingerprint : String) : Option Operator :=
  t.rows.find? fun op ↦ op.certFingerprint == some fingerprint && op.active

def getByPrincipal (principal : String) : Option Operator :=
  t.rows.find? fun op ↦ op.gssapiPrincipal == some principal && op.active

def clashes (op : Operator) : Bool := t.rows.any fun r ↦ r.id != op.id && r.sharesKey op

/-- `none` is a violated constraint. -/
def insert (op : Operator) : Option OperatorTable :=
  if t.clashes op then none else t.insert? op

/-- `UPDATE operators SET … WHERE id = ?`. -/
def modify (id : Int) (f : Operator → Operator) (hf : ∀ op, (f op).id = op.id) : OperatorTable :=
  t.updateWhere (fun op ↦ op.id == id) f hf

def setActive (id : Int) (active : Bool) (now : String) : OperatorTable :=
  t.modify id (fun op ↦ { op with active := active, lastSeenAt := some now }) fun _ ↦ rfl

/-- `none` is a violated constraint; otherwise the table and whether there was
a row. -/
def update (id : Int) (params : OperatorUpdateParams) (now : String) :
    Option (OperatorTable × Bool) :=
  match t.getById id with
  | none => some (t, false)
  | some op =>
    if t.clashes (params.assign now op) then none
    else some (t.modify id (params.assign now) fun _ ↦ rfl, true)

def updateLastSeen (id : Int) (now : String) : OperatorTable :=
  t.modify id (fun op ↦ { op with lastSeenAt := some now }) fun _ ↦ rfl

def incrementFailed (id maxAttempts : Int) (lockUntil : String) : OperatorTable :=
  t.modify id (fun op ↦ { op with
    failedAttempts := op.failedAttempts + 1
    lockedUntil := if maxAttempts ≤ op.failedAttempts + 1 then some lockUntil
      else op.lockedUntil }) fun _ ↦ rfl

/-- `reset_failed` and `unlock` are one statement. -/
def resetFailed (id : Int) : OperatorTable :=
  t.modify id (fun op ↦ { op with failedAttempts := 0, lockedUntil := none }) fun _ ↦ rfl

variable {t} {id id' : Int} {f : Operator → Operator} {hf : ∀ op, (f op).id = op.id}

theorem getById_modify : (t.modify id f hf).getById id' =
    (t.getById id').map fun op ↦ if op.id == id then f op else op :=
  find?_updateWhere _ _ _ _ _

theorem getById_modify_of_ne (h : id ≠ id') : (t.modify id f hf).getById id' = t.getById id' :=
  find?_updateWhere_of_ne (fun _ hr ↦ by simpa using hr) h

theorem getById_of_find {p : Operator → Bool} {op : Operator} (h : t.rows.find? p = some op) :
    t.getById op.id = some op :=
  find?_of_mem (List.mem_of_find?_eq_some h)

theorem getById_of_update {params : OperatorUpdateParams} {now : String} {t' : OperatorTable}
    {found : Bool} (h : t.update id params now = some (t', found)) (hne : id ≠ id') :
    t'.getById id' = t.getById id' := by
  unfold update at h
  split at h
  · cases h
    rfl
  · split at h
    · cases h
    · cases h
      exact getById_modify_of_ne hne

end OperatorTable

end Akamu.Admin
