import Akamu.Mtc.Growth

/-!
# Artefacts and the log they come from

A standalone certificate, a landmark certificate or an inclusion proof should
be computed from the log of the CA that issued the certificate, at the entry
that was appended for it.  The assertions below follow the data of each task
from the row it was read from to the artefact it ends in.  They need one thing
of the other tasks: logs and rows only grow.
-/

namespace Akamu.Mtc

open Except List Tasks

/-! ## Entries of a log -/

def RowLogged (s : Server) (row : CertRow) : Prop :=
  ∀ index, row.mtcLogIndex = some index →
    ∃ leaf, row.leaf = some leaf ∧ (s.logs row.caId)[index]? = some leaf

/-- The certificate was issued by the CA, and what was appended for it is at
this index of the CA's log. -/
def OwnLeaf (s : Server) (caId certId : String) (index : ℕ) : Prop :=
  ∃ row ∈ s.certs.rows, row.id = certId ∧ row.caId = caId ∧ row.mtcLogIndex = some index ∧
    ∃ leaf, row.leaf = some leaf ∧ (s.logs caId)[index]? = some leaf

/-- The proof that an entry is among the leaves from `start` to `stop`. -/
def rangeProof (lib : MtcLibrary) (algorithm : HashAlgorithm) (leaves : List Hash)
    (start stop index : ℕ) : Except String (List Hash) :=
  if start = 0 then lib.generateProof algorithm (leaves.take stop) index
  else lib.generateInclusionProof algorithm (index - start)
    ((leaves.drop start).take (stop - start))

/-- The proof is made from the log of the certificate's CA, for its own entry. -/
structure OwnProof (env : MtcEnv) (s : Server) (caId certId : String) (start stop index : ℕ)
    (proof : List Hash) : Prop where
  leaf : OwnLeaf s caId certId index
  start_le : start ≤ index
  lt_stop : index < stop
  stop_le : stop ≤ (s.logs caId).length
  proof_eq : ∃ m, env.mtc caId = some m ∧
    rangeProof env.library m.algorithm (s.logs caId) start stop index = .ok proof

/-- Each artefact comes from the log of the CA that issued the certificate, at
the certificate's own entry. -/
def OwnLog (env : MtcEnv) (s : Server) : Output → Prop
  | .standaloneStored certId _ cert => ∃ caId proof,
      OwnProof env s caId certId cert.proof.start cert.proof.stop cert.logEntryIndex proof ∧
        cert.proof.inclusionProof = proof.flatten
  | .landmarkBuilt certId cert => ∃ caId m, env.mtc caId = some m ∧
      OwnLeaf s caId certId cert.logEntryIndex ∧ cert.logEntryIndex < cert.treeSize ∧
      cert.treeSize ≤ (s.logs caId).length ∧
      env.library.generateInclusionProof m.algorithm cert.logEntryIndex
        ((s.logs caId).take cert.treeSize) = .ok cert.inclusionProof
  | .proofServed certId answer => ∃ caId,
      OwnProof env s caId certId 0 answer.treeSize answer.leafIndex answer.proof
  | .refused _ => True

/-! ## Growth -/

variable {r : Result Server Task Output} {index prev : ℕ} {row : CertRow} {certId : String}
  {leaves : List Hash} {lib : MtcLibrary} {t : Task}

section Mono

variable {env : MtcEnv} {s s' : Server} (hgrows : Grows s s')

include hgrows

theorem RowLogged.mono (h : RowLogged s row) : RowLogged s' row := by
  intro index hindex
  obtain ⟨leaf, hleaf, hget⟩ := h index hindex
  exact ⟨leaf, hleaf, hgrows.getElem? hget⟩

variable {caId : String}

theorem OwnLeaf.mono (h : OwnLeaf s caId certId index) : OwnLeaf s' caId certId index := by
  obtain ⟨row, hrow, hid, hca, hindex, leaf, hleaf, hget⟩ := h
  obtain ⟨row', hrow', ⟨hid', hca', hindex', hleaf'⟩, -⟩ := hgrows.certs row hrow
  exact ⟨row', hrow', hid'.trans hid, hca'.trans hca, hindex'.trans hindex, leaf,
    hleaf'.trans hleaf, hgrows.getElem? hget⟩

theorem Grows.rangeProof_eq {algorithm : HashAlgorithm} {start stop : ℕ}
    (h : stop ≤ (s.logs caId).length) :
    rangeProof lib algorithm (s'.logs caId) start stop index =
      rangeProof lib algorithm (s.logs caId) start stop index := by
  unfold rangeProof
  rw [← drop_take, ← drop_take, hgrows.take_eq h]

theorem OwnProof.mono {start stop : ℕ} {proof : List Hash}
    (h : OwnProof env s caId certId start stop index proof) :
    OwnProof env s' caId certId start stop index proof where
  leaf := h.leaf.mono hgrows
  start_le := h.start_le
  lt_stop := h.lt_stop
  stop_le := h.stop_le.trans (hgrows.length_le caId)
  proof_eq := by
    obtain ⟨m, hm, hproof⟩ := h.proof_eq
    exact ⟨m, hm, (hgrows.rangeProof_eq h.stop_le).trans hproof⟩

end Mono

/-! ## What the tasks hold -/

def FromOwnLog (env : MtcEnv) (s : Server) : Task → Prop
  | .issue caId (.proving _ index leaf) => (s.logs caId)[index]? = some leaf
  | .issue _ (.persisting row _) => RowLogged s row
  | .checkpoint caId (.sized treeSize) | .checkpoint caId (.behind treeSize _) =>
    treeSize ≤ (s.logs caId).length
  | .checkpoint caId (.selected _ pending) => ∀ c ∈ pending, OwnLeaf s caId c.id c.logIndex
  | .checkpoint caId (.proved p) | .checkpoint caId (.recorded p) => ∀ c ∈ p.proofs,
      OwnProof env s caId c.certId c.subtreeStart p.treeSize c.leafIndex c.proof
  | .checkpoint caId (.storing _ certs) => ∀ c ∈ certs, ∃ proof,
      OwnProof env s caId c.1 c.2.proof.start c.2.proof.stop c.2.logEntryIndex proof ∧
        c.2.proof.inclusionProof = proof.flatten
  | .landmark caId _ (.sized treeSize) | .landmark caId _ (.behind treeSize) =>
    treeSize ≤ (s.logs caId).length
  | .landmark caId _ (.represented treeSize row index)
  | .landmark caId _ (.inserted treeSize row index _) =>
    OwnLeaf s caId row.id index ∧ index < treeSize ∧ treeSize ≤ (s.logs caId).length
  | .inclusionProof caId (.found row) => ∀ index, row.mtcLogIndex = some index →
      OwnLeaf s caId row.id index
  | _ => True

theorem OwnLeaf.lt_length {s : Server} {caId : String} (h : OwnLeaf s caId certId index) :
    index < (s.logs caId).length := by
  obtain ⟨-, -, -, -, -, leaf, -, hget⟩ := h
  exact (List.getElem?_eq_some_iff.mp hget).1

theorem FromOwnLog.mono {env : MtcEnv} {s s' : Server} (h : FromOwnLog env s t)
    (hgrows : Grows s s') : FromOwnLog env s' t := by
  cases t with
  | issue caId stage =>
    cases stage with
    | proving => exact hgrows.getElem? h
    | persisting => exact RowLogged.mono hgrows h
    | appending | storing => trivial
  | checkpoint caId stage =>
    cases stage with
    | sized | behind => exact Nat.le_trans h (hgrows.length_le caId)
    | selected | proved | recorded => exact fun c hc ↦ (h c hc).mono hgrows
    | storing =>
      intro c hc
      obtain ⟨proof, hproof, heq⟩ := h c hc
      exact ⟨proof, hproof.mono hgrows, heq⟩
    | start => trivial
  | landmark caId keepCount stage =>
    cases stage with
    | sized | behind => exact Nat.le_trans h (hgrows.length_le caId)
    | represented | inserted =>
      exact ⟨h.1.mono hgrows, h.2.1, h.2.2.trans (hgrows.length_le caId)⟩
    | start | built | certified => trivial
  | inclusionProof caId stage =>
    cases stage with
    | found => exact fun index hindex ↦ (h index hindex).mono hgrows
    | start => trivial

def RowsLogged (s : Server) : Prop := ∀ row ∈ s.certs.rows, RowLogged s row

theorem RowsLogged.ownLeaf {s : Server} (h : RowsLogged s) (hrow : row ∈ s.certs.rows)
    (hindex : row.mtcLogIndex = some index) : OwnLeaf s row.caId row.id index :=
  ⟨row, hrow, rfl, rfl, hindex, h row hrow index hindex⟩

structure Own (env : MtcEnv) (r : Result Server Task Output) : Prop where
  rows : RowsLogged r.shared
  next : ∀ t ∈ r.next, FromOwnLog env r.shared t
  output : ∀ o ∈ r.output, OwnLog env r.shared o

namespace Own

variable {env : MtcEnv} {s : Server}

theorem idle (hrows : RowsLogged s) : Own env (.idle s) :=
  ⟨hrows, fun _ ht ↦ absurd ht not_mem_nil, fun _ ho ↦ nomatch ho⟩

theorem goOn (hrows : RowsLogged s) (ht : FromOwnLog env s t) : Own env (.goOn s t) :=
  ⟨hrows, fun _ ht' ↦ mem_singleton.mp ht' ▸ ht, fun _ ho ↦ nomatch ho⟩

theorem answer (hrows : RowsLogged s) {o : Output} (ho : OwnLog env s o) : Own env (.answer s o) :=
  ⟨hrows, fun _ ht ↦ absurd ht not_mem_nil, fun _ ho' ↦ Option.some.inj ho' ▸ ho⟩

theorem keeps (h : Own env r) (hgrows : Grows s r.shared) :
    Keeps RowsLogged (FromOwnLog env) s r where
  shared := h.rows
  others _ ht := ht.mono hgrows
  next := h.next

end Own

theorem RowsLogged.of_same {s s' : Server} (h : RowsLogged s) (hsame : SameLogs s s') :
    RowsLogged s' :=
  fun row hrow ↦ (h row (hsame.certs ▸ hrow)).mono hsame.grows

theorem RowsLogged.setMtcStandaloneDer {s : Server} (h : RowsLogged s) (certId : String)
    (cert : StandaloneCert) : RowsLogged (Certs.setMtcStandaloneDer s certId cert) := by
  intro row' hrow'
  obtain ⟨row, hrow, rfl⟩ := mem_map.mp hrow'
  have hlogged := (h row hrow).mono (grows_setMtcStandaloneDer s certId cert)
  split <;> exact hlogged

/-! ## Issuance -/

section Issue

variable {env : MtcEnv} {s : Server}

theorem logs_appendLeaf_self (caId : String) (leaf : Hash) :
    ((s.appendLeaf caId leaf).logs caId)[(s.logs caId).length]? = some leaf := by
  change (Function.update s.logs caId (s.logs caId ++ [leaf]) caId)[(s.logs caId).length]? = _
  rw [Function.update_self, getElem?_concat_length]

theorem rowLogged_certRow {caId : String} (cert : Issued) {leaf : Hash}
    (h : (s.logs caId)[index]? = some leaf) :
    RowLogged s (certRow caId cert (some (index, leaf))) := by
  intro index' hindex
  cases hindex
  exact ⟨leaf, rfl, h⟩

theorem rowLogged_standaloneRow {caId : String} {cert : Issued} {leaf : Hash}
    {standalone : StandaloneCert}
    (h : env.standaloneRow leaves caId cert index leaf = some (row, standalone))
    (hleaf : (s.logs caId)[index]? = some leaf) : RowLogged s row := by
  obtain ⟨⟨m, signing⟩, -, hbuild⟩ := Option.bind_eq_some_iff.mp h
  have hbuild := toOption_eq_some_iff.mp hbuild
  obtain ⟨proof, -, hbuild⟩ := bind_eq_ok hbuild
  obtain ⟨cert', -, hbuild⟩ := bind_eq_ok hbuild
  cases hbuild
  exact rowLogged_certRow cert hleaf

end Issue

/-! ## What the statements return -/

/-- The rows of other CAs that the next statement of a task may return.  For a
landmark these are the ones that no row of the CA itself comes before. -/
def Task.foreignReads (s : Server) : Task → List CertRow
  | .checkpoint caId (.behind treeSize _) =>
    s.certs.rows.filter fun row ↦ row.caId != caId && (Certs.pending? treeSize row).isSome
  | .landmark caId _ (.behind treeSize) =>
    (s.certs.rows.filterMap (Certs.logged? treeSize)).filterMap fun (row, index) ↦
      if row.caId != caId && s.certs.rows.all fun own ↦
          own.caId != caId || own.mtcLogIndex.all fun first ↦ index ≤ first
      then some row else none
  | .inclusionProof caId (.start certId) =>
    (s.certs.find? certId).toList.filter fun row ↦ row.caId != caId
  | _ => []

/-- The step of a task returns rows of its own CA only. -/
def OwnReads (s : Pool Server Task) : Move Arrival Input → Prop
  | .advance i _ => ∀ t ∈ s.tasks[i]?, t.foreignReads s.shared = []
  | _ => True

instance (s : Pool Server Task) : ∀ e, Decidable (OwnReads s e)
  | .advance i _ => inferInstanceAs (Decidable (∀ t ∈ s.tasks[i]?, t.foreignReads s.shared = []))
  | .arrive _ => .isTrue trivial
  | .abandon _ => .isTrue trivial

variable {c : PendingCert}

section Reads

variable {s : Server} {caId : String} {treeSize : ℕ}

theorem Certs.logged?_eq_some {row' : CertRow}
    (h : Certs.logged? treeSize row = some (row', index)) :
    row' = row ∧ row.mtcLogIndex = some index ∧ index < treeSize := by
  obtain ⟨index', hindex, h⟩ := Option.bind_eq_some_iff.mp h
  split at h
  · next hlt =>
      cases h
      exact ⟨rfl, hindex, hlt⟩
  · cases h

theorem ownLeaf_of_mem_getPendingStandalone (hrows : RowsLogged s)
    (hown : (Task.checkpoint caId (.behind treeSize prev)).foreignReads s = [])
    (hc : c ∈ Certs.getPendingStandalone s treeSize) : OwnLeaf s caId c.id c.logIndex := by
  have hmem := (mem_insertionSort _).mp (mem_of_mem_take hc)
  obtain ⟨row, hrow, hpending⟩ := mem_filterMap.mp hmem
  obtain ⟨hindex, -, -, hid, -⟩ := Certs.pending?_eq_some hpending
  have hca : row.caId = caId := by
    by_contra hne
    refine filter_eq_nil_iff.mp hown row hrow ?_
    simp [hne, hpending]
  subst hca
  exact hid.symm ▸ hrows.ownLeaf hrow hindex

theorem ownLeaf_of_getRepresentativeForLandmark (hrows : RowsLogged s) {keepCount : ℕ}
    (hown : (Task.landmark caId keepCount (.behind treeSize)).foreignReads s = [])
    (h : Certs.getRepresentativeForLandmark s treeSize = some (row, index)) :
    OwnLeaf s caId row.id index ∧ index < treeSize := by
  have hmem := argmin_mem h
  obtain ⟨row', hrow, hlogged⟩ := mem_filterMap.mp hmem
  obtain ⟨rfl, hindex, hlt⟩ := Certs.logged?_eq_some hlogged
  have hca : row.caId = caId := by
    by_contra hne
    -- a foreign row that is first would be among the foreign reads
    have hskip := filterMap_eq_nil_iff.mp hown (row, index) hmem
    refine absurd hskip ?_
    have hfirst : s.certs.rows.all fun own ↦
        own.caId != caId || own.mtcLogIndex.all fun first ↦ decide (index ≤ first) := by
      refine all_eq_true.mpr fun own hownRow ↦ ?_
      cases hownIndex : own.mtcLogIndex with
      | none => simp
      | some first =>
        by_cases hbelow : first < treeSize
        · have hownLogged : (own, first) ∈ s.certs.rows.filterMap (Certs.logged? treeSize) :=
            mem_filterMap.mpr ⟨own, hownRow, by simp [Certs.logged?, hownIndex, hbelow]⟩
          have hle : index ≤ first := le_of_mem_argmin hownLogged h
          simp [hle]
        · have hle : index ≤ first := by omega
          simp [hle]
    simp [hne, hfirst]
  subst hca
  exact ⟨hrows.ownLeaf hrow hindex, hlt⟩

end Reads

/-! ## Checkpoints -/

section Checkpoint

variable {env : MtcEnv} {s : Server} {caId : String} {m : MtcState env.library.scheme}
  {signing : SigningConfig env.library.scheme}

theorem certProof_eq_some {m : MtcState lib.scheme} {start : ℕ} {p : CertProof}
    (h : certProof lib m leaves start c = some p) :
    p.certId = c.id ∧ p.leafIndex = c.logIndex ∧ p.subtreeStart = start ∧
      rangeProof lib m.algorithm leaves start leaves.length c.logIndex = .ok p.proof := by
  obtain ⟨proof, hproof, rfl⟩ := Option.map_eq_some_iff.mp h
  have hproof := toOption_eq_some_iff.mp hproof
  refine ⟨rfl, rfl, rfl, ?_⟩
  unfold rangeProof
  rw [hashRange_eq] at hproof
  rw [take_length]
  exact hproof

variable {pending : List PendingCert}

theorem subtreeStart_le {m : MtcState lib.scheme} {signing : SigningConfig lib.scheme} {now : Int}
    {p : Proved} (h : prove lib m signing leaves prev pending now = .ok p) (hc : c ∈ pending) :
    p.subtreeStart ≤ c.logIndex := by
  rw [(prove_eq_ok h).2.1]
  split
  · next huse =>
      simp only [useSubtree, Bool.and_eq_true, all_eq_true, decide_eq_true_eq] at huse
      exact huse.2 c hc
  · exact Nat.zero_le _

theorem ownProof_of_prove (hm : env.mtc caId = some m) {now : Int} {p : Proved}
    (hpending : ∀ c ∈ pending, OwnLeaf s caId c.id c.logIndex)
    (h : prove env.library m signing (s.logs caId) prev pending now = .ok p) {c : CertProof}
    (hc : c ∈ p.proofs) :
    OwnProof env s caId c.certId c.subtreeStart p.treeSize c.leafIndex c.proof := by
  obtain ⟨hsize, -, hproofs⟩ := prove_eq_ok h
  rw [hproofs] at hc
  obtain ⟨pend, hpend, hproof⟩ := mem_filterMap.mp hc
  obtain ⟨hid, hindex, hsub, hrange⟩ := certProof_eq_some hproof
  have hleaf := hpending pend hpend
  rw [hid, hindex, hsub, hsize]
  exact ⟨hleaf, subtreeStart_le h hpend, hleaf.lt_length, le_rfl, m, hm, hrange⟩

end Checkpoint

/-! ## Runs -/

section Run

variable {env : MtcEnv}

theorem own_enters {s : Server} (hrows : RowsLogged s) (h : Enters s r) : Own env r := by
  cases h with
  | idle => exact .idle hrows
  | refuse => exact .answer hrows trivial
  | prune => exact .idle (hrows.of_same (sameLogs_pruneCheckpoints s _ _))
  | _ => exact .goOn hrows trivial

theorem own_moves {s : Server} (hrows : RowsLogged s) {input : Input} (h : Moves env s input t r)
    (ht : FromOwnLog env s t) (hown : t.foreignReads s = []) : Own env r := by
  cases h with
  | idle => exact .idle hrows
  | skipLog => exact .goOn hrows fun index hindex ↦ nomatch hindex
  | @append caId _ _ leaf =>
    have hrows' : RowsLogged (s.appendLeaf caId leaf) := fun row hrow ↦
      (hrows row hrow).mono (grows_appendLeaf s caId leaf)
    refine .goOn hrows' ?_
    unfold afterAppend
    split
    · exact logs_appendLeaf_self _ _
    · exact rowLogged_certRow _ (logs_appendLeaf_self _ _)
  | build hrow => exact .goOn hrows (rowLogged_standaloneRow hrow ht)
  | persist hinsert =>
    have hgrows := grows_insert hinsert
    refine ⟨fun row' hrow' ↦ ?_, fun t htask ↦ ?_, fun _ ho ↦ nomatch ho⟩
    · obtain ⟨certs, hcerts, rfl⟩ := Option.map_eq_some_iff.mp hinsert
      rcases (KeyedTable.mem_insert? hcerts).mp hrow' with hold | rfl
      · exact (hrows row' hold).mono hgrows
      · exact RowLogged.mono hgrows ht
    · obtain ⟨c, -, rfl⟩ := mem_map.mp htask
      trivial
  | store => exact .idle (hrows.setMtcStandaloneDer _ _)
  | size | sizeLandmark => exact .goOn hrows (Nat.le_refl _)
  | compare | look => exact .goOn hrows ht
  | select => exact .goOn hrows fun c hc ↦ ownLeaf_of_mem_getPendingStandalone hrows hown hc
  | prove hsigning hprove =>
    exact .goOn hrows fun c hc ↦ ownProof_of_prove (mtc_of_signing hsigning) ht hprove hc
  | @record caId p =>
    have hsame := sameLogs_upsertCheckpoint s (checkpointRow caId p)
    exact .goOn (hrows.of_same hsame) (FromOwnLog.mono ht hsame.grows)
  | assemble _ hassemble =>
    refine .goOn hrows fun c hc ↦ ?_
    obtain ⟨-, hcerts⟩ := assemble_eq_ok hassemble
    rw [hcerts] at hc
    obtain ⟨proof, hproof, hcert⟩ := mem_filterMap.mp hc
    obtain ⟨hid, hbuild⟩ := standaloneOf_eq_some hcert
    obtain ⟨hindex, hcertProof⟩ := buildStandalone_eq_ok hbuild
    rw [hid, hindex, hcertProof]
    exact ⟨proof.proof, ht proof hproof, rfl⟩
  | passOver => exact .goOn hrows fun c hc ↦ ht c (mem_cons_of_mem _ hc)
  | @storeNext caId cosignatures certId cert rest =>
    have hgrows := grows_setMtcStandaloneDer s certId cert
    have hrest : FromOwnLog env s (.checkpoint caId (.storing cosignatures rest)) :=
      fun c hc ↦ ht c (mem_cons_of_mem _ hc)
    refine ⟨hrows.setMtcStandaloneDer certId cert, fun t htask ↦ ?_, fun o ho ↦ ?_⟩
    · rw [mem_singleton.mp htask]
      exact hrest.mono hgrows
    · cases ho
      obtain ⟨proof, hproof, heq⟩ := ht (certId, cert) mem_cons_self
      exact ⟨caId, proof, hproof.mono hgrows, heq⟩
  | represent hrow =>
    obtain ⟨hleaf, hlt⟩ := ownLeaf_of_getRepresentativeForLandmark hrows hown hrow
    exact .goOn hrows ⟨hleaf, hlt, ht⟩
  | insert hinsert =>
    have hsame := sameLogs_insertLandmark hinsert
    exact .goOn (hrows.of_same hsame) (FromOwnLog.mono ht hsame.grows)
  | @buildLandmark caId _ _ _ _ _ m _ _ hsigning hbuild =>
    obtain ⟨hsize, hindex, hproof⟩ := buildLandmarkCert_eq_ok hbuild
    refine ⟨hrows, fun t htask ↦ ?_, fun o ho ↦ ?_⟩
    · rw [mem_singleton.mp htask]
      trivial
    · cases ho
      refine ⟨caId, m, mtc_of_signing hsigning, ?_⟩
      rw [hsize, hindex]
      rw [hashRange_eq, drop_zero] at hproof
      exact ⟨ht.1, ht.2.1, ht.2.2, hproof⟩
  | @certify _ _ landmarkId cert =>
    have hrows' : RowsLogged (Landmarks.setCertDer s landmarkId cert) := hrows.of_same ⟨rfl, rfl⟩
    exact .goOn hrows' trivial
  | prune => exact .idle (hrows.of_same (sameLogs_pruneLandmarks s _ _))
  | refuse => exact .answer hrows trivial
  | @find caId _ row hfind =>
    refine .goOn hrows fun index hindex ↦ ?_
    have hca : row.caId = caId := by
      simpa [Task.foreignReads, hfind] using hown
    exact hca ▸ hrows.ownLeaf (KeyedTable.mem_of_find? hfind) hindex
  | @serve caId _ index m _ hm hindex hproof =>
    have hleaf := ht index hindex
    refine .answer hrows ⟨caId, hleaf, Nat.zero_le _, hleaf.lt_length, le_rfl, m, hm, ?_⟩
    rw [rangeProof, if_pos rfl, take_length]
    exact hproof

variable {s : Pool Server Task} {e : Move Arrival Input}

theorem own_result (h : Asserted RowsLogged (FromOwnLog env) s) (hok : OwnReads s e) :
    Own env ((system env).result s e) := by
  refine System.result_rule (.idle h.shared) (fun a _ ↦ ?_) ?_
  · exact own_enters h.shared (enters_arrive env s.shared a)
  · rintro i input t rfl htask
    exact own_moves h.shared (moves_act env s.shared t input)
      (h.tasks t (mem_of_getElem? htask)) (hok t htask)

theorem asserted_run (logs : String → List Hash) {es : List (Move Arrival Input)}
    (hok : Machine.Meets (system env).step OwnReads (fresh logs) es) :
    Asserted RowsLogged (FromOwnLog env) (Machine.run (system env).step (fresh logs) es) :=
  hok.invariant _ ⟨fun _ hrow ↦ absurd hrow not_mem_nil, fun _ ht ↦ absurd ht not_mem_nil⟩
    fun _ _ h hstep ↦ h.of_keeps ((own_result h hstep).keeps (grows_result env _ _))

end Run

/-- In a run in which the statements of each task find rows of its own CA only,
every artefact comes from the log of the CA that issued the certificate. -/
theorem artefacts_from_own_log (env : MtcEnv) (logs : String → List Hash)
    (es : List (Move Arrival Input)) (e : Move Arrival Input) (o : Output)
    (hok : Machine.Meets (system env).step OwnReads (fresh logs) (es ++ [e]))
    (ho : ((system env).step (Machine.run (system env).step (fresh logs) es) e).2 = some o) :
    OwnLog env (Machine.run (system env).step (fresh logs) (es ++ [e])).shared o := by
  obtain ⟨hes, he, -⟩ := Machine.meets_append.mp hok
  rw [Machine.run_concat]
  exact (own_result (asserted_run logs hes) he).output o ho

theorem OwnLeaf.length_lt {s : Server} {caId : String} {size : ℕ} (h : OwnLeaf s caId certId index)
    (hshort : ∀ row ∈ s.certs.rows, row.id = certId → (s.logs row.caId).length < size) :
    (s.logs caId).length < size := by
  obtain ⟨row, hrow, hid, rfl, -⟩ := h
  exact hshort row hrow hid

namespace TwoLogs

def mixed : List (Move Arrival Input) :=
  issue 0 "b" "cb" 2 ++ issue 0 "a" "ca1" 1 ++ issue 0 "a" "ca2" 3

def checkpointA : List (Move Arrival Input) :=
  [.arrive (.checkpoint "a"), .advance 0 {}, .advance 0 {}, .advance 0 {}, .advance 0 {},
    .advance 0 {}, .advance 0 {}]

def landmarkA : List (Move Arrival Input) :=
  [.arrive (.landmark "a" 0), .advance 0 {}, .advance 0 {}, .advance 0 {}, .advance 0 {}]

def proofA : List (Move Arrival Input) := [.arrive (.inclusionProof "a" "cb"), .advance 0 {}]

def reached (es : List (Move Arrival Input)) : Pool Server Task :=
  Machine.run (system env).step start es

/-- Log "b" has two entries; the artefacts for its certificate are over the
three of log "a". -/
theorem other_log_is_used :
    (∃ o, ((system env).step (reached (mixed ++ checkpointA)) (.advance 0 {})).2 = some o ∧
      ¬ OwnLog env ((system env).step (reached (mixed ++ checkpointA)) (.advance 0 {})).1.shared o) ∧
    (∃ o, ((system env).step (reached (mixed ++ landmarkA)) (.advance 0 {})).2 = some o ∧
      ¬ OwnLog env ((system env).step (reached (mixed ++ landmarkA)) (.advance 0 {})).1.shared o) ∧
    ∃ o, ((system env).step (reached (mixed ++ proofA)) (.advance 0 {})).2 = some o ∧
      ¬ OwnLog env ((system env).step (reached (mixed ++ proofA)) (.advance 0 {})).1.shared o := by
  refine ⟨⟨.standaloneStored "cb" [] ⟨[2], ⟨.sha256, [1]⟩, 1, 1, ⟨0, 3, [0, 3], []⟩⟩,
      by decide +kernel, ?_⟩,
    ⟨.landmarkBuilt "cb" ⟨[2], ⟨.sha256, [1]⟩, 3, 1, [[0], [3]], [2], [2]⟩, by decide +kernel, ?_⟩,
    ⟨.proofServed "cb" ⟨1, 3, [[0], [3]]⟩, by decide +kernel, ?_⟩⟩
  · rintro ⟨caId, proof, hown, -⟩
    exact absurd hown.stop_le (Nat.not_le.mpr (hown.leaf.length_lt (by decide +kernel)))
  · rintro ⟨caId, m, -, hleaf, -, hle, -⟩
    exact absurd hle (Nat.not_le.mpr (hleaf.length_lt (by decide +kernel)))
  · rintro ⟨caId, hown⟩
    exact absurd hown.stop_le (Nat.not_le.mpr (hown.leaf.length_lt (by decide +kernel)))

/-- With certificates of CA "a" alone the checkpoint's certificate is its own. -/
theorem own_log_is_used :
    let es := issue 0 "a" "ca1" 1 ++ checkpointA
    let o : Output := .standaloneStored "ca1" [] ⟨[1], ⟨.sha256, [1]⟩, 1, 1, ⟨0, 2, [0], []⟩⟩
    ((system env).step (reached es) (.advance 0 {})).2 = some o ∧
      OwnLog env (reached (es ++ [.advance 0 {}])).shared o :=
  ⟨by decide +kernel, artefacts_from_own_log env _ _ _ _ (by decide +kernel) (by decide +kernel)⟩

end TwoLogs

end Akamu.Mtc
