import Mathlib.Algebra.Group.Int.Defs
import Mathlib.Data.Fintype.Basic
import Akamu.Crdt.AkaCrdt
import Akamu.Crdt.Cells

/-!
# The whole replicated state

All fourteen components of `AkaCrdt` in `crdt.rs`: the ACME part together with
the cluster nodes, the administrative maps and the transparency-log state.
`OrField` and `LwwField` name the components, so that a statement about all of
them is one statement about a `Cell`.
-/

namespace Akamu.Crdt

structure AkaNodeEntry where
  nodeId : String
  gossipUrl : String
  kemPublicKeyDer : List UInt8
  gossipSigningPubKeyDer : List UInt8
  gossipSigningCertDer : List UInt8
  caIds : List String
  registeredAt : Int
  deriving DecidableEq, Repr, Inhabited

structure OperatorEntry where
  operatorId : Int
  name : String
  role : String
  caId : String
  created : Int
  deriving DecidableEq, Repr, Inhabited

structure DelegationEntry where
  delegationId : String
  accountId : String
  csrTemplate : String
  created : Int
  caId : String
  deriving DecidableEq, Repr, Inhabited

structure PolicyRuleEntry where
  id : String
  scope : String
  name : String
  ruleJson : String
  enabled : Bool
  createdAt : String
  updatedAt : String
  createdBy : Option String
  deriving DecidableEq, Repr, Inhabited

structure MtcCheckpointEntry where
  treeSize : UInt64
  rootHex : String
  signature : List UInt8
  createdAt : Int
  deriving DecidableEq, Repr

structure MtcCosigEntry where
  checkpointId : String
  cosignerUrl : String
  signature : List UInt8
  signedAt : Int
  deriving DecidableEq, Repr

structure OrderOwner where
  nodeId : String
  claimedAt : Int
  deriving DecidableEq, Repr

structure MtcWriter where
  nodeId : String
  claimedAt : Int
  deriving DecidableEq, Repr

/-- `AuthzEntry::default()`, whose identifier is the empty text. -/
instance : Inhabited AuthzEntry :=
  ⟨"", "", "", "", ⟨.other "", ""⟩, none, false, 0, 0, ""⟩

structure ClusterCrdt extends AkaCrdt where
  clusterNodes : OrMap String AkaNodeEntry
  operators : OrMap String OperatorEntry
  delegations : OrMap String DelegationEntry
  policyRules : OrMap String PolicyRuleEntry
  mtcCheckpoints : LwwMap UInt64 MtcCheckpointEntry
  mtcCosignatures : LwwMap (String × String) MtcCosigEntry
  orderOwners : LwwMap String OrderOwner
  mtcWriter : LwwRegister MtcWriter

/-- `i64::saturating_add`. -/
def saturatingAdd (a b : Int) : Int := max (-2 ^ 63) (min (2 ^ 63 - 1) (a + b))

namespace ClusterCrdt

def empty : ClusterCrdt where
  toAkaCrdt := .empty
  clusterNodes := .empty
  operators := .empty
  delegations := .empty
  policyRules := .empty
  mtcCheckpoints := .empty
  mtcCosignatures := .empty
  orderOwners := .empty
  mtcWriter := default

instance : Inhabited ClusterCrdt := ⟨empty⟩

def deltaSince (c : ClusterCrdt) (gen : ℕ) : ClusterCrdt where
  toAkaCrdt := c.toAkaCrdt.deltaSince gen
  clusterNodes := c.clusterNodes.deltaSince gen
  operators := c.operators.deltaSince gen
  delegations := c.delegations.deltaSince gen
  policyRules := c.policyRules.deltaSince gen
  mtcCheckpoints := c.mtcCheckpoints.deltaSince gen
  mtcCosignatures := c.mtcCosignatures.deltaSince gen
  orderOwners := c.orderOwners.deltaSince gen
  mtcWriter := (c.mtcWriter.deltaSince gen).getD default

def deltaRange (c : ClusterCrdt) (since upTo : ℕ) : ClusterCrdt where
  toAkaCrdt := c.toAkaCrdt.deltaRange since upTo
  clusterNodes := c.clusterNodes.deltaRange since upTo
  operators := c.operators.deltaRange since upTo
  delegations := c.delegations.deltaRange since upTo
  policyRules := c.policyRules.deltaRange since upTo
  mtcCheckpoints := c.mtcCheckpoints.deltaRange since upTo
  mtcCosignatures := c.mtcCosignatures.deltaRange since upTo
  orderOwners := c.orderOwners.deltaRange since upTo
  mtcWriter := (c.mtcWriter.deltaRange since upTo).getD default

/-- The writer register is not purged. -/
def purgeOldTombstones (c : ClusterCrdt) (cutoff : Int) : ClusterCrdt where
  toAkaCrdt := c.toAkaCrdt.purgeOldTombstones cutoff
  clusterNodes := c.clusterNodes.purgeOldTombstones cutoff
  operators := c.operators.purgeOldTombstones cutoff
  delegations := c.delegations.purgeOldTombstones cutoff
  policyRules := c.policyRules.purgeOldTombstones cutoff
  mtcCheckpoints := c.mtcCheckpoints.purgeOldTombstones cutoff
  mtcCosignatures := c.mtcCosignatures.purgeOldTombstones cutoff
  orderOwners := c.orderOwners.purgeOldTombstones cutoff
  mtcWriter := c.mtcWriter

/-- Claim an order for a node, unless another node holds it and its claim has
not lapsed. -/
def claimOrder (c : ClusterCrdt) (gen : ℕ) (orderId nodeId : String) (now ttl : Int) :
    (ClusterCrdt × ℕ) × Bool :=
  match c.orderOwners.get orderId with
  | some owner =>
    if owner.nodeId ≠ nodeId ∧ now ≤ saturatingAdd owner.claimedAt ttl then ((c, gen), false)
    else
      let s := c.orderOwners.set gen orderId ⟨nodeId, now⟩ now nodeId
      (({ c with orderOwners := s.1 }, s.2), true)
  | none =>
    let s := c.orderOwners.set gen orderId ⟨nodeId, now⟩ now nodeId
    (({ c with orderOwners := s.1 }, s.2), true)

def claimMtcWriter (c : ClusterCrdt) (gen : ℕ) (nodeId : String) (now ttl : Int) :
    (ClusterCrdt × ℕ) × Bool :=
  match c.mtcWriter.value with
  | some writer =>
    if writer.nodeId ≠ nodeId ∧ now ≤ saturatingAdd writer.claimedAt ttl then ((c, gen), false)
    else
      let s := c.mtcWriter.set gen ⟨nodeId, now⟩ now nodeId
      (({ c with mtcWriter := s.1 }, s.2), true)
  | none =>
    let s := c.mtcWriter.set gen ⟨nodeId, now⟩ now nodeId
    (({ c with mtcWriter := s.1 }, s.2), true)

/-- The components are merged one after the other, and so number their changes. -/
def merge (c : ClusterCrdt) (gen : ℕ) (other : ClusterCrdt) : ClusterCrdt × ℕ :=
  let clusterNodes := c.clusterNodes.merge gen other.clusterNodes
  let acme := c.toAkaCrdt.merge clusterNodes.2 other.toAkaCrdt
  let operators := c.operators.merge acme.2 other.operators
  let delegations := c.delegations.merge operators.2 other.delegations
  let policyRules := c.policyRules.merge delegations.2 other.policyRules
  let mtcCheckpoints := c.mtcCheckpoints.merge policyRules.2 other.mtcCheckpoints
  let mtcCosignatures := c.mtcCosignatures.merge mtcCheckpoints.2 other.mtcCosignatures
  let orderOwners := c.orderOwners.merge mtcCosignatures.2 other.orderOwners
  let mtcWriter := c.mtcWriter.merge orderOwners.2 other.mtcWriter
  ({ toAkaCrdt := acme.1, clusterNodes := clusterNodes.1, operators := operators.1,
     delegations := delegations.1, policyRules := policyRules.1,
     mtcCheckpoints := mtcCheckpoints.1, mtcCosignatures := mtcCosignatures.1,
     orderOwners := orderOwners.1, mtcWriter := mtcWriter.1 }, mtcWriter.2)

end ClusterCrdt

/-! ## Components -/

inductive OrField where
  | clusterNodes
  | accounts
  | orders
  | authorizations
  | certificates
  | operators
  | delegations
  | policyRules
  deriving DecidableEq, Repr

inductive LwwField where
  | challenges
  | eabKeys
  | mtcCheckpoints
  | mtcCosignatures
  | orderOwners
  deriving DecidableEq, Repr

instance : Fintype OrField where
  elems := {.clusterNodes, .accounts, .orders, .authorizations, .certificates, .operators,
    .delegations, .policyRules}
  complete f := by cases f <;> decide

instance : Fintype LwwField where
  elems := {.challenges, .eabKeys, .mtcCheckpoints, .mtcCosignatures, .orderOwners}
  complete f := by cases f <;> decide

def OrField.Value : OrField → Type
  | .clusterNodes => AkaNodeEntry
  | .accounts => AccountEntry
  | .orders => OrderEntry
  | .authorizations => AuthzEntry
  | .certificates => CertEntry
  | .operators => OperatorEntry
  | .delegations => DelegationEntry
  | .policyRules => PolicyRuleEntry

instance OrField.decEqValue : (f : OrField) → DecidableEq f.Value
  | .clusterNodes => inferInstanceAs (DecidableEq AkaNodeEntry)
  | .accounts => inferInstanceAs (DecidableEq AccountEntry)
  | .orders => inferInstanceAs (DecidableEq OrderEntry)
  | .authorizations => inferInstanceAs (DecidableEq AuthzEntry)
  | .certificates => inferInstanceAs (DecidableEq CertEntry)
  | .operators => inferInstanceAs (DecidableEq OperatorEntry)
  | .delegations => inferInstanceAs (DecidableEq DelegationEntry)
  | .policyRules => inferInstanceAs (DecidableEq PolicyRuleEntry)

instance OrField.inhabitedValue : (f : OrField) → Inhabited f.Value
  | .clusterNodes => inferInstanceAs (Inhabited AkaNodeEntry)
  | .accounts => inferInstanceAs (Inhabited AccountEntry)
  | .orders => inferInstanceAs (Inhabited OrderEntry)
  | .authorizations => inferInstanceAs (Inhabited AuthzEntry)
  | .certificates => inferInstanceAs (Inhabited CertEntry)
  | .operators => inferInstanceAs (Inhabited OperatorEntry)
  | .delegations => inferInstanceAs (Inhabited DelegationEntry)
  | .policyRules => inferInstanceAs (Inhabited PolicyRuleEntry)

def LwwField.Key : LwwField → Type
  | .challenges => String
  | .eabKeys => String
  | .mtcCheckpoints => UInt64
  | .mtcCosignatures => String × String
  | .orderOwners => String

instance LwwField.decEqKey : (f : LwwField) → DecidableEq f.Key
  | .challenges => inferInstanceAs (DecidableEq String)
  | .eabKeys => inferInstanceAs (DecidableEq String)
  | .mtcCheckpoints => inferInstanceAs (DecidableEq UInt64)
  | .mtcCosignatures => inferInstanceAs (DecidableEq (String × String))
  | .orderOwners => inferInstanceAs (DecidableEq String)

def LwwField.Value : LwwField → Type
  | .challenges => ChallengeEntry
  | .eabKeys => EabKeyEntry
  | .mtcCheckpoints => MtcCheckpointEntry
  | .mtcCosignatures => MtcCosigEntry
  | .orderOwners => OrderOwner

inductive Cell where
  | or (f : OrField) (key : String)
  | lww (f : LwwField) (key : f.Key)
  | writer

def Cell.Value : Cell → Type
  | .or f _ => f.Value
  | .lww f _ => f.Value
  | .writer => MtcWriter

namespace ClusterCrdt

def orMap (c : ClusterCrdt) : (f : OrField) → OrMap String f.Value
  | .clusterNodes => c.clusterNodes
  | .accounts => c.accounts
  | .orders => c.orders
  | .authorizations => c.authorizations
  | .certificates => c.certificates
  | .operators => c.operators
  | .delegations => c.delegations
  | .policyRules => c.policyRules

def setOrMap (c : ClusterCrdt) : (f : OrField) → OrMap String f.Value → ClusterCrdt
  | .clusterNodes, m => { c with clusterNodes := m }
  | .accounts, m => { c with accounts := m }
  | .orders, m => { c with orders := m }
  | .authorizations, m => { c with authorizations := m }
  | .certificates, m => { c with certificates := m }
  | .operators, m => { c with operators := m }
  | .delegations, m => { c with delegations := m }
  | .policyRules, m => { c with policyRules := m }

def lwwMap (c : ClusterCrdt) : (f : LwwField) → LwwMap f.Key f.Value
  | .challenges => c.challenges
  | .eabKeys => c.eabKeys
  | .mtcCheckpoints => c.mtcCheckpoints
  | .mtcCosignatures => c.mtcCosignatures
  | .orderOwners => c.orderOwners

def setLwwMap (c : ClusterCrdt) : (f : LwwField) → LwwMap f.Key f.Value → ClusterCrdt
  | .challenges, m => { c with challenges := m }
  | .eabKeys, m => { c with eabKeys := m }
  | .mtcCheckpoints, m => { c with mtcCheckpoints := m }
  | .mtcCosignatures, m => { c with mtcCosignatures := m }
  | .orderOwners, m => { c with orderOwners := m }

/-- The live view: what `get` returns in every map, and the register's value. -/
def view (c : ClusterCrdt) : (x : Cell) → Option x.Value
  | .or f key => (c.orMap f).get key
  | .lww f key => (c.lwwMap f).get key
  | .writer => c.mtcWriter.value

def slot (c : ClusterCrdt) : (x : Cell) → Slot x.Value
  | .or f key => (c.orMap f).slot key
  | .lww f key => (c.lwwMap f).slot key
  | .writer => c.mtcWriter.slot

theorem view_eq_value (c : ClusterCrdt) (x : Cell) : c.view x = (c.slot x).content.value := by
  cases x with
  | or f key => exact OrMap.get_eq_value _ key
  | lww f key => exact LwwMap.get_eq_value _ key
  | writer => rfl

@[simp] theorem orMap_setOrMap (c : ClusterCrdt) (f : OrField) (m : OrMap String f.Value) :
    (c.setOrMap f m).orMap f = m := by
  cases f <;> rfl

theorem orMap_setOrMap_of_ne (c : ClusterCrdt) {f f' : OrField} (m : OrMap String f.Value)
    (h : f ≠ f') : (c.setOrMap f m).orMap f' = c.orMap f' := by
  cases f <;> cases f' <;> first | rfl | exact absurd rfl h

@[simp] theorem lwwMap_setOrMap (c : ClusterCrdt) (f : OrField) (m : OrMap String f.Value)
    (f' : LwwField) : (c.setOrMap f m).lwwMap f' = c.lwwMap f' := by
  cases f <;> cases f' <;> rfl

@[simp] theorem lwwMap_setLwwMap (c : ClusterCrdt) (f : LwwField) (m : LwwMap f.Key f.Value) :
    (c.setLwwMap f m).lwwMap f = m := by
  cases f <;> rfl

theorem lwwMap_setLwwMap_of_ne (c : ClusterCrdt) {f f' : LwwField} (m : LwwMap f.Key f.Value)
    (h : f ≠ f') : (c.setLwwMap f m).lwwMap f' = c.lwwMap f' := by
  cases f <;> cases f' <;> first | rfl | exact absurd rfl h

@[simp] theorem orMap_setLwwMap (c : ClusterCrdt) (f : LwwField) (m : LwwMap f.Key f.Value)
    (f' : OrField) : (c.setLwwMap f m).orMap f' = c.orMap f' := by
  cases f <;> cases f' <;> rfl

@[simp] theorem mtcWriter_setOrMap (c : ClusterCrdt) (f : OrField) (m : OrMap String f.Value) :
    (c.setOrMap f m).mtcWriter = c.mtcWriter := by
  cases f <;> rfl

@[simp] theorem mtcWriter_setLwwMap (c : ClusterCrdt) (f : LwwField) (m : LwwMap f.Key f.Value) :
    (c.setLwwMap f m).mtcWriter = c.mtcWriter := by
  cases f <;> rfl

/-! ## Merging, cell by cell -/

/-- Each component numbers its changes between the counter's values before and
after its own turn, `g₁` to `g₁₃` in the order of the source. -/
theorem merge_entries (c : ClusterCrdt) (gen : ℕ) (other : ClusterCrdt) :
    gen ≤ (c.merge gen other).2 ∧
      (∀ f key, OrMapEntry.Joined gen (c.merge gen other).2 ((c.orMap f).lookup key)
        ((other.orMap f).lookup key) (((c.merge gen other).1.orMap f).lookup key)) ∧
      (∀ f key, Slot.Merged gen (c.merge gen other).2 ((c.lwwMap f).slot key)
        ((other.lwwMap f).slot key) (((c.merge gen other).1.lwwMap f).slot key)) ∧
      Slot.Merged gen (c.merge gen other).2 c.mtcWriter.slot other.mtcWriter.slot
        (c.merge gen other).1.mtcWriter.slot := by
  have h₁ := c.clusterNodes.gen_le_merge gen other.clusterNodes
  generalize hg₁ : (c.clusterNodes.merge gen other.clusterNodes).2 = g₁ at h₁
  have h₂ := c.accounts.gen_le_merge g₁ other.accounts
  generalize hg₂ : (c.accounts.merge g₁ other.accounts).2 = g₂ at h₂
  have h₃ := c.orders.gen_le_merge g₂ other.orders
  generalize hg₃ : (c.orders.merge g₂ other.orders).2 = g₃ at h₃
  have h₄ := c.authorizations.gen_le_merge g₃ other.authorizations
  generalize hg₄ : (c.authorizations.merge g₃ other.authorizations).2 = g₄ at h₄
  have h₅ := c.challenges.gen_le_merge g₄ other.challenges
  generalize hg₅ : (c.challenges.merge g₄ other.challenges).2 = g₅ at h₅
  have h₆ := c.certificates.gen_le_merge g₅ other.certificates
  generalize hg₆ : (c.certificates.merge g₅ other.certificates).2 = g₆ at h₆
  have h₇ := c.eabKeys.gen_le_merge g₆ other.eabKeys
  generalize hg₇ : (c.eabKeys.merge g₆ other.eabKeys).2 = g₇ at h₇
  have h₈ := c.operators.gen_le_merge g₇ other.operators
  generalize hg₈ : (c.operators.merge g₇ other.operators).2 = g₈ at h₈
  have h₉ := c.delegations.gen_le_merge g₈ other.delegations
  generalize hg₉ : (c.delegations.merge g₈ other.delegations).2 = g₉ at h₉
  have h₁₀ := c.policyRules.gen_le_merge g₉ other.policyRules
  generalize hg₁₀ : (c.policyRules.merge g₉ other.policyRules).2 = g₁₀ at h₁₀
  have h₁₁ := c.mtcCheckpoints.gen_le_merge g₁₀ other.mtcCheckpoints
  generalize hg₁₁ : (c.mtcCheckpoints.merge g₁₀ other.mtcCheckpoints).2 = g₁₁ at h₁₁
  have h₁₂ := c.mtcCosignatures.gen_le_merge g₁₁ other.mtcCosignatures
  generalize hg₁₂ : (c.mtcCosignatures.merge g₁₁ other.mtcCosignatures).2 = g₁₂ at h₁₂
  have h₁₃ := c.orderOwners.gen_le_merge g₁₂ other.orderOwners
  generalize hg₁₃ : (c.orderOwners.merge g₁₂ other.orderOwners).2 = g₁₃ at h₁₃
  have h₁₄ := c.mtcWriter.gen_le_merge g₁₃ other.mtcWriter
  simp only [merge, AkaCrdt.merge, hg₁, hg₂, hg₃, hg₄, hg₅, hg₆, hg₇, hg₈, hg₉, hg₁₀, hg₁₁,
    hg₁₂, hg₁₃]
  refine ⟨by omega, fun f key ↦ ?_, fun f key ↦ ?_, ?_⟩
  · cases f <;> dsimp only [orMap, OrField.Value] <;>
      exact (OrMap.lookup_merge _ _ _ key).mono (by omega) (by omega)
  · cases f with
    | challenges =>
      exact (c.challenges.slot_merge _ other.challenges key).mono (by omega) (by omega)
    | eabKeys => exact (c.eabKeys.slot_merge _ other.eabKeys key).mono (by omega) (by omega)
    | mtcCheckpoints =>
      exact (c.mtcCheckpoints.slot_merge _ other.mtcCheckpoints key).mono (by omega) (by omega)
    | mtcCosignatures =>
      exact (c.mtcCosignatures.slot_merge _ other.mtcCosignatures key).mono (by omega) (by omega)
    | orderOwners =>
      exact (c.orderOwners.slot_merge _ other.orderOwners key).mono (by omega) (by omega)
  · exact (LwwRegister.slot_merge _ _ _).mono (by omega) le_rfl

theorem slot_merge (c : ClusterCrdt) (gen : ℕ) (other : ClusterCrdt) (x : Cell) :
    Slot.Merged gen (c.merge gen other).2 (c.slot x) (other.slot x)
      ((c.merge gen other).1.slot x) := by
  obtain ⟨-, hor, hlww, hwriter⟩ := c.merge_entries gen other
  cases x with
  | or f key => exact (hor f key).merged
  | lww f key => exact hlww f key
  | writer => exact hwriter

theorem merge_spec (c : ClusterCrdt) (gen : ℕ) (other : ClusterCrdt) :
    gen ≤ (c.merge gen other).2 ∧ ∀ x, Slot.Merged gen (c.merge gen other).2 (c.slot x)
      (other.slot x) ((c.merge gen other).1.slot x) :=
  ⟨(c.merge_entries gen other).1, c.slot_merge gen other⟩

end ClusterCrdt

/-! ## Cells fit for merging -/

/-- The stamp of a cell that was never written. -/
def Cell.floor : Cell → Stamp
  | .or _ _ => ⊥
  | .lww _ _ => .at 0 ""
  | .writer => .at 0 ""

def Cell.Fit (x : Cell) (s : Content x.Value) : Prop :=
  x.floor ≤ s.stamp ∧ (s.Unset → s.stamp = x.floor)

namespace ClusterCrdt

variable {c other : ClusterCrdt} {x : Cell}

def Fit (c : ClusterCrdt) : Prop := ∀ x : Cell, x.Fit (c.slot x).content

theorem slot_empty (x : Cell) : empty.slot x = ⟨⟨x.floor, none⟩, 0⟩ := by
  cases x with
  | or f => cases f <;> rfl
  | lww f => cases f <;> rfl
  | writer => rfl

theorem fit_empty : empty.Fit := by
  intro x
  rw [slot_empty]
  exact ⟨le_rfl, fun _ ↦ rfl⟩

theorem content_merge (gen : ℕ) (hc : c.Fit) (hother : other.Fit) (x : Cell) :
    ((c.merge gen other).1.slot x).content =
      (c.slot x).content.join (other.slot x).content := by
  have hmerged := c.slot_merge gen other x
  generalize (c.merge gen other).1.slot x = new at hmerged
  cases hmerged with
  | kept h =>
    refine (Stamped.join_of_le ?_).symm
    rcases h with hle | hunset
    · exact hle
    · rw [(hother x).2 hunset]
      exact (hc x).1
  | taken g hlt => exact (Stamped.join_of_lt hlt).symm

theorem fit_merge (gen : ℕ) (hc : c.Fit) (other : ClusterCrdt) : (c.merge gen other).1.Fit := by
  intro x
  have hmerged := c.slot_merge gen other x
  generalize (c.merge gen other).1.slot x = new at hmerged
  cases hmerged with
  | kept => exact hc x
  | taken g hlt hset => exact ⟨(hc x).1.trans hlt.le, fun hunset ↦ absurd hunset hset⟩

end ClusterCrdt

end Akamu.Crdt
