import Akamu.Mtc.Steps

/-!
# Cosignatures in standalone certificates

A checkpoint asks its cosigners for signatures and builds standalone
certificates with what it received.  A signature is taken over when it is for
the range of the inclusion proof.  That range is the whole tree or, for some
tree sizes, the leaves since the last checkpoint; a cosigner signs the whole
tree in either case.
-/

namespace Akamu.Mtc

open Except List Option Tasks

/-! ## The property -/

structure Embeds (lib : MtcLibrary) (cosignatures : List Cosignature) (cert : StandaloneCert) :
    Prop where
  /-- For each verified cosignature there is one, also verified and under the
  same id, whose signature is in the certificate. -/
  received : ∀ c ∈ cosignatures, c.verified = true → ∀ r, c.body = some r →
    ∃ c' ∈ cosignatures, c'.verified = true ∧ ∃ r', c'.body = some r' ∧
      lib.encodeOid r'.cosigner = lib.encodeOid r.cosigner ∧
      mtcSignature lib r' ∈ cert.proof.signatures
  sameRange : ∀ signature ∈ cert.proof.signatures, ∃ c ∈ cosignatures, ∃ r, c.body = some r ∧
    asU64 r.subtree.start = some cert.proof.start ∧
    asU64 r.subtree.stop = some cert.proof.stop ∧ mtcSignature lib r = signature

def Embedded (lib : MtcLibrary) : Output → Prop
  | .standaloneStored _ cosignatures cert => Embeds lib cosignatures cert
  | _ => True

/-! ## Replies -/

section Replies

variable (lib : MtcLibrary) (m : MtcState lib.scheme)
  (replies : List (Option (Option SubtreeSignature)))

def verifiedReplies : List SubtreeSignature :=
  match m.tlogOrigin with
  | none => []
  | some origin =>
    (m.cosignerClients.zip replies).filterMap fun (client, reply) ↦
      client.verifier.bind fun v ↦ reply.join.filter fun r ↦
        decide (verifySubtreeSignature lib.scheme r v origin = .ok ())

/-- The ids of cosignatures that nobody verifies: the CA's own, and those in
the replies of cosigners without a key. -/
def unverifiedIds : List RelativeOid :=
  m.trustAnchorId.toList ++ (m.cosignerClients.zip replies).filterMap fun (client, reply) ↦
    if client.verifier.isNone then reply.join.map SubtreeSignature.cosigner else none

variable {lib m replies} {c : Cosignature}

theorem postToCosigner_eq_some {origin : String} {client : CosignerClient}
    {reply : Option (Option SubtreeSignature)}
    (h : postToCosigner lib origin client reply = some c) :
    (client.verifier = none ∧ c.verified = false ∧ reply = some c.body) ∨
      ∃ v r, client.verifier = some v ∧ c.verified = true ∧ reply = some (some r) ∧
        c.body = some r ∧ verifySubtreeSignature lib.scheme r v origin = .ok () := by
  obtain ⟨body, hreply, hpost⟩ := bind_eq_some_iff.mp h
  subst hreply
  cases hverifier : client.verifier with
  | none =>
    rw [hverifier] at hpost
    cases hpost
    exact .inl ⟨rfl, rfl, rfl⟩
  | some v =>
    rw [hverifier] at hpost
    obtain ⟨r, rfl, hif⟩ := bind_eq_some_iff.mp hpost
    by_cases hverified : verifySubtreeSignature lib.scheme r v origin = .ok ()
    · rw [if_pos hverified] at hif
      cases hif
      exact .inr ⟨v, r, rfl, rfl, rfl, rfl, hverified⟩
    · rw [if_neg hverified] at hif
      cases hif

theorem gatherCosignatures_cases (h : c ∈ gatherCosignatures lib m replies) :
    (c.verified = false ∧ ∀ r, c.body = some r → r.cosigner ∈ unverifiedIds lib m replies) ∨
      (c.verified = true ∧ ∃ r ∈ verifiedReplies lib m replies, c.body = some r) := by
  unfold gatherCosignatures at h
  cases horigin : m.tlogOrigin with
  | none =>
    rw [horigin] at h
    cases h
  | some =>
    rw [horigin] at h
    obtain ⟨⟨client, reply⟩, hmem, hpost⟩ := mem_filterMap.mp h
    rcases postToCosigner_eq_some hpost with
      ⟨hnone, hfalse, rfl⟩ | ⟨v, r, hv, htrue, rfl, hbody, hok⟩
    · refine .inl ⟨hfalse, fun r hr ↦ mem_append_right _ ?_⟩
      exact mem_filterMap.mpr ⟨_, hmem, by simp [hnone, hr]⟩
    · refine .inr ⟨htrue, r, ?_, hbody⟩
      rw [verifiedReplies, horigin]
      exact mem_filterMap.mpr ⟨_, hmem, by simp [hv, hok]⟩

theorem selfCosignature_cases {signing : SigningConfig lib.scheme} {p : Proved}
    {self : List Cosignature} (h : selfCosignature lib m signing p = .ok self) (hc : c ∈ self) :
    c.verified = false ∧ ∀ r, c.body = some r → r.cosigner ∈ unverifiedIds lib m replies := by
  unfold selfCosignature at h
  split at h
  · next cosigner origin hanchor _ =>
      obtain ⟨r, hr, rfl⟩ := map_eq_ok h
      rw [mem_singleton.mp hc]
      refine ⟨rfl, fun r' hr' ↦ mem_append_left _ ?_⟩
      cases hr'
      obtain ⟨message, -, hr⟩ := bind_eq_ok hr
      obtain ⟨signature, -, hr⟩ := bind_eq_ok hr
      split at hr
      · cases hr
      · cases hr
        rw [hanchor]
        exact mem_singleton_self cosigner
  · cases h
    cases hc

theorem asU64_of_verified {r : SubtreeSignature} (h : r ∈ verifiedReplies lib m replies) {n : ℕ}
    (hn : r.subtree.stop = n) : asU64 r.subtree.stop = some n := by
  unfold verifiedReplies at h
  split at h
  · cases h
  · obtain ⟨⟨client, reply⟩, -, h⟩ := mem_filterMap.mp h
    obtain ⟨v, -, h⟩ := bind_eq_some_iff.mp h
    have hok := of_decide_eq_true (filter_eq_some_iff.mp h).2
    obtain ⟨message, hmessage, -⟩ := bind_eq_ok (mapError_eq_ok_iff.mp hok)
    unfold buildCosignedMessage at hmessage
    dsimp only at hmessage
    split at hmessage
    · cases hmessage
    split at hmessage
    · cases hmessage
    obtain ⟨start, -, hmessage⟩ := bind_eq_ok hmessage
    obtain ⟨stop, hstop, -⟩ := bind_eq_ok hmessage
    rw [hn] at hstop ⊢
    unfold asU64 at hstop ⊢
    split at hstop
    · next hrange => rw [if_pos hrange, Int.toNat_natCast]
    · cases hstop

end Replies

/-! ## When nothing is skipped -/

/-- The CA, the last checkpoint and what is pending, for a call that is about to
make its proofs. -/
def Task.selection : Task → Option (String × ℕ × List PendingCert)
  | .checkpoint caId (.selected prevTreeSize pending) => some (caId, prevTreeSize, pending)
  | _ => none

def Task.cosigning : Task → Option (String × ℕ)
  | .checkpoint caId (.recorded p) => some (caId, p.treeSize)
  | _ => none

/-- No key is configured for any cosigner. -/
def MtcState.Unpinned {S : SignatureScheme} (m : MtcState S) : Prop :=
  ∀ client ∈ m.cosignerClients, client.verifier = none

instance {S : SignatureScheme} (m : MtcState S) : Decidable m.Unpinned :=
  inferInstanceAs (Decidable (∀ client ∈ m.cosignerClients, client.verifier = none))

/-- Proofs are over the whole tree where cosigners have keys; what verifies is
over the whole tree, under an id that nothing unverified has. -/
def WholeTree (env : MtcEnv) (s : Pool Server Task) : Move Arrival Input → Prop
  | .advance i input =>
    (∀ x ∈ (s.tasks[i]?).bind Task.selection, ∀ ms ∈ env.signing x.1,
      useSubtree x.2.1 (s.shared.logs x.1).length x.2.2 = false ∨ ms.1.Unpinned) ∧
    ∀ x ∈ (s.tasks[i]?).bind Task.cosigning, ∀ ms ∈ env.signing x.1,
      ∀ r ∈ verifiedReplies env.library ms.1 input.replies,
        r.subtree.start = 0 ∧ r.subtree.stop = x.2 ∧
        ∀ id ∈ unverifiedIds env.library ms.1 input.replies,
          env.library.encodeOid id ≠ env.library.encodeOid r.cosigner
  | _ => True

instance (env : MtcEnv) (s : Pool Server Task) : ∀ e, Decidable (WholeTree env s e)
  | .advance i _ => inferInstanceAs (Decidable (
      (∀ x ∈ (s.tasks[i]?).bind Task.selection, ∀ ms ∈ env.signing x.1, _ ∨ ms.1.Unpinned) ∧
      ∀ x ∈ (s.tasks[i]?).bind Task.cosigning, ∀ ms ∈ env.signing x.1, _))
  | .arrive _ => .isTrue trivial
  | .abandon _ => .isTrue trivial

section Assemble

variable {lib : MtcLibrary} {m : MtcState lib.scheme} {signing : SigningConfig lib.scheme}

theorem verifiedReplies_of_unpinned (h : m.Unpinned)
    (replies : List (Option (Option SubtreeSignature))) : verifiedReplies lib m replies = [] := by
  unfold verifiedReplies
  split
  · rfl
  · refine filterMap_eq_nil_iff.mpr ?_
    rintro ⟨client, reply⟩ hmem
    dsimp only
    rw [h client (of_mem_zip hmem).1]
    rfl

theorem embeds_of_assemble {replies : List (Option (Option SubtreeSignature))} {p : Proved}
    {cosignatures : List Cosignature} {certs : List (String × StandaloneCert)}
    (h : assemble lib m signing replies p = .ok (cosignatures, certs))
    (hstart : ∀ c ∈ p.proofs, c.subtreeStart = 0 ∨ m.Unpinned)
    (hreplies : ∀ r ∈ verifiedReplies lib m replies,
      r.subtree.start = 0 ∧ r.subtree.stop = p.treeSize ∧
      ∀ id ∈ unverifiedIds lib m replies, lib.encodeOid id ≠ lib.encodeOid r.cosigner)
    {certId : String} {cert : StandaloneCert} (hcert : (certId, cert) ∈ certs) :
    Embeds lib cosignatures cert := by
  obtain ⟨⟨self, hself, hcosignatures⟩, hcerts⟩ := assemble_eq_ok h
  rw [hcerts] at hcert
  obtain ⟨entry, hentry, hof⟩ := mem_filterMap.mp hcert
  obtain ⟨-, hproof⟩ := buildStandalone_eq_ok (standaloneOf_eq_some hof).2
  -- what was gathered is unverified under an unverified id, or a verified reply
  have hcases : ∀ c ∈ cosignatures,
      (c.verified = false ∧ ∀ r, c.body = some r → r.cosigner ∈ unverifiedIds lib m replies) ∨
        (c.verified = true ∧ ∃ r ∈ verifiedReplies lib m replies, c.body = some r) := by
    intro c hc
    rw [hcosignatures] at hc
    rcases mem_append.mp hc with hc | hc
    · exact .inl (selfCosignature_cases hself hc)
    · exact gatherCosignatures_cases hc
  constructor
  · intro c hc hverified r hr
    obtain ⟨hfalse, -⟩ | ⟨-, r₀, hr₀, hbody⟩ := hcases c hc
    · rw [hverified] at hfalse
      cases hfalse
    rw [hr] at hbody
    cases hbody
    obtain ⟨hrstart, hrstop, hids⟩ := hreplies r hr₀
    obtain hzero | hunpinned := hstart entry hentry
    · have hsignature : ∃ signature ∈ cert.proof.signatures,
          signature.cosignerId = lib.encodeOid r.cosigner := by
        rw [hproof]
        refine exists_signature_of_body hc hr ?_ (asU64_of_verified hr₀ hrstop)
        rw [hrstart, hzero]
        rfl
      obtain ⟨signature, hmem, hid⟩ := hsignature
      have hmem' := hmem
      rw [hproof] at hmem'
      obtain ⟨c', hc', r', hr', -, -, rfl⟩ := exists_of_mem_signatures hmem'
      -- under this id only verified replies are taken over
      obtain ⟨-, hunverified⟩ | ⟨htrue, -⟩ := hcases c' hc'
      · exact absurd hid (hids _ (hunverified r' hr'))
      · exact ⟨c', hc', htrue, r', hr', hid, hmem⟩
    · rw [verifiedReplies_of_unpinned hunpinned] at hr₀
      cases hr₀
  · intro signature hsignature
    rw [hproof] at hsignature ⊢
    exact exists_of_mem_signatures hsignature

end Assemble

/-! ## Steps -/

def Gathered (env : MtcEnv) : Task → Prop
  | .checkpoint caId (.proved p) | .checkpoint caId (.recorded p) =>
    ∀ ms ∈ env.signing caId, ∀ c ∈ p.proofs, c.subtreeStart = 0 ∨ ms.1.Unpinned
  | .checkpoint _ (.storing cosignatures certs) => ∀ c ∈ certs, Embeds env.library cosignatures c.2
  | _ => True

structure Embedding (env : MtcEnv) (r : Result Server Task Output) : Prop where
  next : ∀ t ∈ r.next, Gathered env t
  output : ∀ o ∈ r.output, Embedded env.library o

namespace Embedding

variable {env : MtcEnv} {s : Server}

theorem idle : Embedding env (.idle s) :=
  ⟨fun _ ht ↦ absurd ht not_mem_nil, fun _ ho ↦ nomatch ho⟩

theorem goOn {t : Task} (ht : Gathered env t) : Embedding env (.goOn s t) :=
  ⟨fun _ ht' ↦ mem_singleton.mp ht' ▸ ht, fun _ ho ↦ nomatch ho⟩

theorem answer {o : Output} (ho : Embedded env.library o) : Embedding env (.answer s o) :=
  ⟨fun _ ht ↦ absurd ht not_mem_nil, fun _ ho' ↦ some.inj ho' ▸ ho⟩

variable {r : Result Server Task Output}

theorem of_moves {input : Input} {t : Task} (h : Moves env s input t r) (ht : Gathered env t)
    (hselection : ∀ x ∈ t.selection, ∀ ms ∈ env.signing x.1,
      useSubtree x.2.1 (s.logs x.1).length x.2.2 = false ∨ ms.1.Unpinned)
    (hcosigning : ∀ x ∈ t.cosigning, ∀ ms ∈ env.signing x.1,
      ∀ r ∈ verifiedReplies env.library ms.1 input.replies,
        r.subtree.start = 0 ∧ r.subtree.stop = x.2 ∧
        ∀ id ∈ unverifiedIds env.library ms.1 input.replies,
          env.library.encodeOid id ≠ env.library.encodeOid r.cosigner) : Embedding env r := by
  cases h with
  | idle | store | prune => exact idle
  | persist =>
    refine ⟨fun t ht ↦ ?_, fun _ ho ↦ nomatch ho⟩
    obtain ⟨c, -, rfl⟩ := mem_map.mp ht
    trivial
  | prove hsigning hprove =>
    refine goOn fun ms hms c hc ↦ ?_
    rw [hsigning] at hms
    cases hms
    obtain ⟨-, hstart, hproofs⟩ := prove_eq_ok hprove
    refine (hselection _ rfl _ hsigning).imp_left fun huse ↦ ?_
    rw [hproofs] at hc
    obtain ⟨pend, -, hproof⟩ := mem_filterMap.mp hc
    obtain ⟨proof, -, rfl⟩ := map_eq_some_iff.mp hproof
    exact hstart.trans (if_neg (by simp [huse]))
  | record => exact goOn ht
  | assemble hsigning hassemble =>
    exact goOn fun c hc ↦
      embeds_of_assemble hassemble (ht _ hsigning) (hcosigning _ rfl _ hsigning) hc
  | passOver => exact goOn fun c hc ↦ ht c (mem_cons_of_mem _ hc)
  | storeNext =>
    refine ⟨fun t ht' ↦ mem_singleton.mp ht' ▸ fun c hc ↦ ht c (mem_cons_of_mem _ hc),
      fun o ho ↦ ?_⟩
    cases ho
    exact ht _ mem_cons_self
  | buildLandmark =>
    refine ⟨fun t ht ↦ mem_singleton.mp ht ▸ trivial, fun o ho ↦ ?_⟩
    cases ho
    trivial
  | refuse | serve => exact answer trivial
  | append =>
    refine goOn ?_
    unfold afterAppend
    split <;> trivial
  | _ => exact goOn trivial

theorem of_enters (h : Enters s r) : Embedding env r := by
  cases h with
  | idle | prune => exact idle
  | refuse => exact answer trivial
  | _ => exact goOn trivial

theorem result {s : Pool Server Task} {e : Move Arrival Input}
    (h : ∀ t ∈ s.tasks, Gathered env t) (hok : WholeTree env s e) :
    Embedding env ((system env).result s e) := by
  refine System.result_rule idle (fun a _ ↦ of_enters (enters_arrive env s.shared a)) ?_
  rintro i input t rfl htask
  obtain ⟨hselection, hcosigning⟩ := hok
  rw [htask] at hselection hcosigning
  exact of_moves (moves_act env s.shared t input) (h t (mem_of_getElem? htask)) hselection
    hcosigning

end Embedding

/-- In a run whose proofs are over the whole tree wherever cosigners have keys,
and whose verified replies are over the whole tree under ids of their own, what
is stored embeds what was received. -/
theorem cosignatures_embedded (env : MtcEnv) (logs : String → List Hash)
    (es : List (Move Arrival Input)) (e : Move Arrival Input) (o : Output)
    (hok : Machine.Meets (system env).step (WholeTree env) (fresh logs) (es ++ [e]))
    (ho : ((system env).step (Machine.run (system env).step (fresh logs) es) e).2 = some o) :
    Embedded env.library o := by
  obtain ⟨hes, he, -⟩ := Machine.meets_append.mp hok
  have hgathered : ∀ t ∈ (Machine.run (system env).step (fresh logs) es).tasks, Gathered env t := by
    refine hes.invariant (fun s ↦ ∀ t ∈ s.tasks, Gathered env t)
      (fun _ ht ↦ absurd ht List.not_mem_nil) fun s e h hstep t ht ↦ ?_
    rcases System.mem_step_tasks ht with hold | hnext
    · exact h t hold
    · exact (Embedding.result h hstep).next t hnext
  exact (Embedding.result hgathered he).output o ho

namespace OneCosigner

def log : MtcState TwoLogs.library.scheme where
  algorithm := .sha256
  signing := some ⟨(), "sha256"⟩
  cosignerClients := [⟨"cosigner", some CosignExample.pinned⟩]
  logNumber := 1
  treeMinimumIndex := none
  trustAnchorId := some [32473, 2]
  tlogOrigin := some CosignExample.firstLog.origin

def env : MtcEnv where
  library := TwoLogs.library
  mtc caId := if caId = "a" then some log else none

/-- A cosigner that signs the whole tree under the origin of the log; signatures
here are the signed octets. -/
def cosign (checkpoint : Checkpoint) : Option SubtreeSignature :=
  let subtree : Subtree := ⟨0, checkpoint.treeSize, checkpoint.rootValue⟩
  (buildCosignedMessage [32473, 1] subtree checkpoint CosignExample.firstLog.origin).toOption.map
    fun message ↦ ⟨[32473, 1], subtree, checkpoint, [2], message⟩

def reply (leaves : List Hash) : Input where
  replies := [some (cosign
    ((log.caLog ⟨(), "sha256"⟩).checkpoint leaves.length leaves.flatten 0))]

def checkpoint (leaves : List Hash) : List (Move Arrival Input) :=
  [.arrive (.checkpoint "a"), .advance 0 {}, .advance 0 {}, .advance 0 {}, .advance 0 {},
    .advance 0 {}, .advance 0 (reply leaves)]

def first : List (Move Arrival Input) := TwoLogs.issue 0 "a" "c1" 1 ++ checkpoint [[0], [1]]

/-- The second one, at size 3: 2 is a multiple of 1, so the proofs are over the
leaf since the first. -/
def second : List (Move Arrival Input) :=
  first ++ [.advance 0 {}, .advance 0 {}] ++ TwoLogs.issue 0 "a" "c2" 2 ++
    checkpoint [[0], [1], [2]]

def reached (es : List (Move Arrival Input)) : Pool Server Task :=
  Machine.run (system env).step TwoLogs.start es

/-- A verified cosignature was received and no signature of the certificate is
of its cosigner. -/
def skipped (lib : MtcLibrary) : Output → Bool
  | .standaloneStored _ cosignatures cert =>
    cosignatures.any fun c ↦ c.verified && c.body.any fun r ↦
      cert.proof.signatures.all fun signature ↦ signature.cosignerId != lib.encodeOid r.cosigner
  | _ => false

/-- One verified cosignature was received, and the certificate has it and the
signature of the CA. -/
def taken : Output → Bool
  | .standaloneStored _ cosignatures cert =>
    (cosignatures.filter Cosignature.verified).length == 1 && cert.proof.signatures.length == 2
  | _ => false

theorem not_embedded_of_skipped {lib : MtcLibrary} {o : Output} (h : skipped lib o = true) :
    ¬ Embedded lib o := by
  cases o with
  | standaloneStored =>
    intro hembeds
    obtain ⟨c, hc, hboth⟩ := any_eq_true.mp h
    obtain ⟨hverified, hbody⟩ := Bool.and_eq_true_iff.mp hboth
    obtain ⟨r, hr, hall⟩ := (Option.any_eq_true _ _).mp hbody
    obtain ⟨-, -, -, r', -, hid, hmem⟩ := hembeds.received c hc hverified r hr
    exact bne_iff_ne.mp (all_eq_true.mp hall _ hmem) hid
  | landmarkBuilt | proofServed | refused => cases h

theorem verified_cosignature_skipped :
    ∃ o, ((system env).step (reached second) (.advance 0 {})).2 = some o ∧
      ¬ Embedded env.library o := by
  have hany : ((system env).step (reached second) (.advance 0 {})).2.any (skipped env.library) =
      true := by
    decide +kernel
  obtain ⟨o, ho, hskipped⟩ := (Option.any_eq_true _ _).mp hany
  exact ⟨o, ho, not_embedded_of_skipped hskipped⟩

theorem verified_cosignature_taken :
    ∃ o, ((system env).step (reached first) (.advance 0 {})).2 = some o ∧ taken o = true ∧
      Embedded env.library o := by
  have hany : ((system env).step (reached first) (.advance 0 {})).2.any taken = true := by
    decide +kernel
  obtain ⟨o, ho, htaken⟩ := (Option.any_eq_true _ _).mp hany
  exact ⟨o, ho, htaken, cosignatures_embedded env _ first (.advance 0 {}) o (by decide +kernel) ho⟩

end OneCosigner

end Akamu.Mtc
