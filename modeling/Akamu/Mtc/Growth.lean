import Akamu.Mtc.Steps

/-!
# What only grows

No step takes a leaf out of a log, a row out of the certificates, or a
standalone form out of a row.
-/

namespace Akamu.Mtc

open List Tasks

def CertRow.SameEntry (a b : CertRow) : Prop :=
  a.id = b.id ∧ a.caId = b.caId ∧ a.mtcLogIndex = b.mtcLogIndex ∧ a.leaf = b.leaf

structure CertRow.Extends (row' row : CertRow) : Prop where
  same : row'.SameEntry row
  der : row.mtcStandaloneDer.isSome → row'.mtcStandaloneDer.isSome

theorem CertRow.Extends.refl (row : CertRow) : row.Extends row := ⟨⟨rfl, rfl, rfl, rfl⟩, fun h ↦ h⟩

theorem CertRow.Extends.trans {a b c : CertRow} (hab : a.Extends b) (hbc : b.Extends c) :
    a.Extends c where
  same := ⟨hab.same.1.trans hbc.same.1, hab.same.2.1.trans hbc.same.2.1,
    hab.same.2.2.1.trans hbc.same.2.2.1, hab.same.2.2.2.trans hbc.same.2.2.2⟩
  der h := hab.der (hbc.der h)

structure Grows (s s' : Server) : Prop where
  logs : ∀ caId, s.logs caId <+: s'.logs caId
  certs : ∀ row ∈ s.certs.rows, ∃ row' ∈ s'.certs.rows, row'.Extends row

variable {r : Result Server Task Output} {caId : String}

namespace Grows

variable {s s' s'' : Server}

theorem refl (s : Server) : Grows s s :=
  ⟨fun _ ↦ prefix_rfl, fun row hrow ↦ ⟨row, hrow, .refl row⟩⟩

theorem trans (h : Grows s s') (h' : Grows s' s'') : Grows s s'' where
  logs caId := (h.logs caId).trans (h'.logs caId)
  certs row hrow := by
    obtain ⟨row', hrow', hext⟩ := h.certs row hrow
    obtain ⟨row'', hrow'', hext'⟩ := h'.certs row' hrow'
    exact ⟨row'', hrow'', hext'.trans hext⟩

theorem getElem? (hgrows : Grows s s') {index : ℕ} {leaf : Hash}
    (h : (s.logs caId)[index]? = some leaf) : (s'.logs caId)[index]? = some leaf := by
  obtain ⟨more, hmore⟩ := hgrows.logs caId
  have hlt : index < (s.logs caId).length := (List.getElem?_eq_some_iff.mp h).1
  rw [← hmore, getElem?_append_left hlt, h]

theorem length_le (hgrows : Grows s s') (caId : String) :
    (s.logs caId).length ≤ (s'.logs caId).length :=
  (hgrows.logs caId).length_le

theorem take_eq (hgrows : Grows s s') {stop : ℕ} (h : stop ≤ (s.logs caId).length) :
    (s'.logs caId).take stop = (s.logs caId).take stop := by
  obtain ⟨more, hmore⟩ := hgrows.logs caId
  rw [← hmore, take_append_of_le_length h]

end Grows

/-! ## Statements -/

theorem grows_appendLeaf (s : Server) (caId : String) (leaf : Hash) :
    Grows s (s.appendLeaf caId leaf) := by
  refine ⟨fun caId' ↦ ?_, fun row hrow ↦ ⟨row, hrow, .refl row⟩⟩
  change s.logs caId' <+: Function.update s.logs caId (s.logs caId ++ [leaf]) caId'
  by_cases hca : caId' = caId
  · subst hca
    rw [Function.update_self]
    exact prefix_append _ _
  · rewrite [Function.update_of_ne hca]
    exact prefix_rfl

variable {s s' : Server}

theorem grows_insert {row : CertRow} (h : Certs.insert s row = some s') : Grows s s' := by
  obtain ⟨certs, hinsert, rfl⟩ := Option.map_eq_some_iff.mp h
  refine ⟨fun _ ↦ prefix_rfl, fun r hr ↦ ⟨r, ?_, .refl r⟩⟩
  exact (KeyedTable.mem_insert? hinsert).mpr (.inl hr)

theorem grows_setMtcStandaloneDer (s : Server) (certId : String) (cert : StandaloneCert) :
    Grows s (Certs.setMtcStandaloneDer s certId cert) := by
  refine ⟨fun _ ↦ prefix_rfl, fun row hrow ↦ ⟨_, mem_map_of_mem hrow, ?_⟩⟩
  split
  · exact ⟨⟨rfl, rfl, rfl, rfl⟩, fun _ ↦ rfl⟩
  · exact .refl row

/-- Neither the logs nor the certificates change. -/
structure SameLogs (s s' : Server) : Prop where
  logs : s'.logs = s.logs
  certs : s'.certs = s.certs

theorem SameLogs.grows (h : SameLogs s s') : Grows s s' :=
  ⟨fun _ ↦ h.logs ▸ prefix_rfl, fun row hrow ↦ ⟨row, h.certs ▸ hrow, .refl row⟩⟩

theorem sameLogs_upsertCheckpoint (s : Server) (row : CheckpointRow) :
    SameLogs s (Checkpoints.upsert s row) := by
  unfold Checkpoints.upsert
  split <;> exact ⟨rfl, rfl⟩

theorem sameLogs_pruneCheckpoints (s : Server) (caId : String) (keepCount : ℕ) :
    SameLogs s (Checkpoints.pruneOldest s caId keepCount) := by
  unfold Checkpoints.pruneOldest
  split <;> exact ⟨rfl, rfl⟩

theorem sameLogs_insertLandmark {treeSize : ℕ} {created : Int}
    (h : Landmarks.insert s caId treeSize created = some s') : SameLogs s s' := by
  unfold Landmarks.insert at h
  split at h
  · cases h
  · cases h
    exact ⟨rfl, rfl⟩

theorem sameLogs_pruneLandmarks (s : Server) (caId : String) (keepCount : ℕ) :
    SameLogs s (Landmarks.pruneOldest s caId keepCount) := by
  unfold Landmarks.pruneOldest
  split <;> exact ⟨rfl, rfl⟩

/-! ## Steps -/

theorem grows_moves {env : MtcEnv} {input : Input} {t : Task} (h : Moves env s input t r) :
    Grows s r.shared := by
  cases h with
  | append => exact grows_appendLeaf s _ _
  | persist hinsert => exact grows_insert hinsert
  | store | storeNext => exact grows_setMtcStandaloneDer s _ _
  | record => exact (sameLogs_upsertCheckpoint s _).grows
  | insert hinsert => exact (sameLogs_insertLandmark hinsert).grows
  | certify => exact SameLogs.grows ⟨rfl, rfl⟩
  | prune => exact (sameLogs_pruneLandmarks s _ _).grows
  | _ => exact .refl s

theorem grows_enters (h : Enters s r) : Grows s r.shared := by
  cases h with
  | prune => exact (sameLogs_pruneCheckpoints s _ _).grows
  | _ => exact .refl s

theorem grows_result (env : MtcEnv) (s : Pool Server Task) (e : Move Arrival Input) :
    Grows s.shared ((system env).result s e).shared := by
  refine System.result_rule (.refl s.shared) (fun a _ ↦ ?_) fun i input t _ _ ↦ ?_
  · exact grows_enters (enters_arrive env s.shared a)
  · exact grows_moves (moves_act env s.shared t input)

theorem grows_run (env : MtcEnv) (s : Pool Server Task) (es : List (Move Arrival Input)) :
    Grows s.shared (Machine.run (system env).step s es).shared := by
  induction es generalizing s with
  | nil => exact .refl s.shared
  | cons e es ih => exact (grows_result env s e).trans (ih ((system env).step s e).1)

end Akamu.Mtc
