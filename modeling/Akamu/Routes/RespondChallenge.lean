import Akamu.Node.Step

/-!
# Responses to challenges

`respond_challenge` sets the challenge to processing before it looks at the
payload, starts the validation and then builds its answer, which can fail.
-/

namespace Akamu

open KeyedTable List

/-- `serde_json::from_slice` for the two payloads: their only member, or the
text of the error. -/
structure PayloadLibrary where
  onionCsr : List UInt8 → Except String String
  tkauth : List UInt8 → Except String String

def checkPayload (lib : Library) (json : PayloadLibrary) (type : ChallengeType)
    (payload : List UInt8) : Except AcmeError Unit :=
  match type with
  | .onionCsr01 =>
    match json.onionCsr payload with
    | .error e => .error (.badRequest
        ("onion-csr-01: payload must be \x7b\"csr\":\"<base64url>\"\x7d: " ++ e))
    | .ok csr =>
      match lib.decodeUrlSafe csr with
      | .error e => .error (.badRequest ("onion-csr-01: csr field is not valid base64url: " ++ e))
      | .ok _ => .ok ()
  | .tkauth01 =>
    match json.tkauth payload with
    | .error e => .error (.badRequest
        ("tkauth-01: payload must be \x7b\"tkauth\":\"<JWT>\"\x7d: " ++ e))
    | .ok _ => .ok ()
  | _ => .ok ()

/-- An `email-reply-00` challenge that is not resolved names the sender of the
mail, which is configured with the feature. -/
def challengeResponse (cfg : Config) (challenge : ChallengeRow) : Except AcmeError Unit :=
  if challenge.type = .emailReply00 ∧ cfg.emailChallengeEnabled = false ∧
      challenge.status ≠ .valid ∧ challenge.status ≠ .invalid then
    .error (.internal ("email-reply-00 challenge cannot be served: " ++
      "email_challenge is not configured or enabled"))
  else .ok ()

theorem challengeResponse_processing (cfg : Config) (challenge : ChallengeRow) :
    challengeResponse cfg { challenge with status := .processing } = .ok () ↔
      (challenge.type = .emailReply00 → cfg.emailChallengeEnabled = true) := by
  have hiff : (challenge.type = .emailReply00 ∧ cfg.emailChallengeEnabled = false ∧
      ChallengeStatus.processing ≠ .valid ∧ ChallengeStatus.processing ≠ .invalid) ↔
      ¬ (challenge.type = .emailReply00 → cfg.emailChallengeEnabled = true) := by
    simp
  unfold challengeResponse
  split
  · rename_i h
    exact iff_of_false (fun hok ↦ by cases hok) (hiff.mp h)
  · rename_i h
    exact iff_of_true rfl (not_not.mp (mt hiff.mpr h))

/-- The challenge that a call is about, as it has read it. -/
def respondedChallenge (db : Db) (authzId : String) (type : ChallengeType) : Option ChallengeRow :=
  (Authz.getWithChallenges db authzId).bind fun p ↦ p.2.find? fun c ↦ c.type == type

namespace Node

/-- A call of `respond_challenge` with nothing in between: the node after it,
whose tasks are those that the call has started, and what the client is told. -/
def respondChallenge (env : Env) (json : PayloadLibrary) (s : Node) (now : Int) (input : Input)
    (accountId caId authzId : String) (type : ChallengeType) (payload : List UInt8) :
    Node × Except AcmeError Unit :=
  let verdict := checkPayload env.library json type payload
  let arrived := step env { s with tasks := [] }
    (.request (.respondChallenge accountId caId authzId type verdict) now)
  match arrived.2, respondedChallenge s.db authzId type with
  | .refused e, _ => (arrived.1, .error e)
  | _, none => (arrived.1, .error .notFound)
  | _, some challenge =>
    let written := step env arrived.1 (.advance 0 now input)
    match written.2 with
    | .refused e => (written.1, .error e)
    | .silent => (written.1, challengeResponse env.config challenge)
    | .committed _ o =>
      -- the hook, and then the payload and the validation
      let hooked := step env written.1 (.advance 0 now input)
      let ended := step env hooked.1 (.advance 0 now input)
      (ended.1,
        if o.hit then
          verdict.bind fun _ ↦
            challengeResponse env.config { challenge with status := .processing }
        else challengeResponse env.config challenge)

/-- The call sets a challenge to processing: a pending one, of a pending
authorization of the account. -/
def Answers (db : Db) (accountId caId authzId : String) (type : ChallengeType) : Prop :=
  ∃ r ∈ Authz.getWithChallenges db authzId, r.1.accountId = accountId ∧
    caScope r.1.caId caId = true ∧ r.1.status = .pending ∧
    ∃ c ∈ r.2.find? fun c ↦ c.type == type, c.status = .pending

instance (db : Db) (accountId caId authzId : String) (type : ChallengeType) :
    Decidable (Answers db accountId caId authzId type) :=
  inferInstanceAs (Decidable (∃ r ∈ Authz.getWithChallenges db authzId, _))

section

variable {env : Env} {json : PayloadLibrary} {s : Node} {now : Int} {input : Input}
  {accountId caId authzId : String} {type : ChallengeType} {payload : List UInt8}

theorem spawnedJob_ok (job : ValidationJob) : spawnedJob job (.ok ()) = some job := by
  unfold spawnedJob
  cases job.type <;> rfl

/-- A call that does not answer writes nothing. -/
theorem beginRespondChallenge_of_not_answers {db : Db} (env : Env) (now : Int)
    (verdict : Except AcmeError Unit) (h : ¬ Answers db accountId caId authzId type) :
    beginRespondChallenge env db now accountId caId authzId type verdict = .ok [] ∨
      ∃ e, beginRespondChallenge env db now accountId caId authzId type verdict = .error e := by
  unfold beginRespondChallenge
  split
  · exact .inr ⟨_, rfl⟩
  · rename_i authz challenges hfound
    split_ifs with haccount hscope
    · exact .inr ⟨_, rfl⟩
    · exact .inr ⟨_, rfl⟩
    · split
      · exact .inr ⟨_, rfl⟩
      · rename_i challenge hchallenge
        refine .inl (if_neg fun hpending ↦ h ⟨(authz, challenges), hfound, ?_⟩)
        exact ⟨not_not.mp haccount, by simpa using hscope, hpending.1, challenge, hchallenge,
          hpending.2⟩

theorem beginRespondChallenge_of_answers {db : Db} (env : Env) (now : Int)
    (verdict : Except AcmeError Unit) (h : Answers db accountId caId authzId type) :
    ∃ challenge job, respondedChallenge db authzId type = some challenge ∧
      challenge ∈ db.challenges.rows ∧ challenge.type = type ∧ challenge.status = .pending ∧
      job.challengeId = challenge.id ∧
      beginRespondChallenge env db now accountId caId authzId type verdict =
        .ok [.commit (.setProcessingIfPending challenge (spawnedJob job verdict) now)] := by
  obtain ⟨⟨authz, challenges⟩, hfound, haccount, hscope, hstatus, challenge, hchallenge,
    hpending⟩ := h
  have hmem : challenge ∈ db.challenges.rows := by
    obtain ⟨a, -, ha⟩ := Option.map_eq_some_iff.mp hfound
    have hrows := mem_of_find?_eq_some hchallenge
    rw [← (Prod.mk.inj ha).2] at hrows
    exact mem_of_mem_filter hrows
  refine ⟨challenge, validationJob env.config accountId caId authz challenge, ?_, hmem, ?_,
    hpending, rfl, ?_⟩
  · rw [respondedChallenge, Option.mem_def.mp hfound]
    exact hchallenge
  · simpa using find?_some hchallenge
  · simp only at haccount hscope hstatus hchallenge
    simp only [beginRespondChallenge, Option.mem_def.mp hfound]
    rw [if_neg (not_not.mpr haccount), if_neg (by simp [hscope]), Option.mem_def.mp hchallenge]
    exact if_pos ⟨hstatus, hpending⟩

theorem challengeId_of_processing {db : Db} {challenge c c' : ChallengeRow} {id : String}
    (hc : db.challenges.find? id = some c)
    (hc' : (Challenges.setProcessingIfPending db challenge.id now).1.challenges.find? id = some c')
    (hbefore : c.status ≠ .processing) (hafter : c'.status = .processing) :
    (Challenges.setProcessingIfPending db challenge.id now).2 ≠ 0 ∧ challenge.id = id := by
  simp only [Challenges.setProcessingIfPending, find?_updateWhere, hc, Option.map_some,
    Option.some.injEq] at hc'
  split at hc'
  · rename_i hstatus
    refine ⟨KeyedTable.countWhere_ne_zero_iff.mpr ⟨c, mem_of_find? hc, hstatus⟩, ?_⟩
    simp only [Challenges.inStatus, Bool.and_eq_true, beq_iff_eq] at hstatus
    rw [← hstatus.1]
    exact key_of_find? hc
  · subst hc'
    exact absurd hafter hbefore

/-- The node after a call that answers. -/
theorem respondChallenge_of_answers {r : Node × Except AcmeError Unit}
    (hr : r = s.respondChallenge env json now input accountId caId authzId type payload)
    (h : Answers s.db accountId caId authzId type) :
    ∃ challenge job, challenge ∈ s.db.challenges.rows ∧ challenge.type = type ∧
      challenge.status = .pending ∧ job.challengeId = challenge.id ∧
      r.1.db = (Challenges.setProcessingIfPending s.db challenge.id now).1 ∧
      r.1.tasks = ((spawnedJob job (checkPayload env.library json type payload)).map
        fun j ↦ Task.phase (.validate j)).toList ∧
      r.2 = (checkPayload env.library json type payload).bind fun _ ↦
        challengeResponse env.config { challenge with status := .processing } := by
  obtain ⟨challenge, job, hfound, hmem, htype, hpending, hjob, hbegin⟩ :=
    beginRespondChallenge_of_answers env now (checkPayload env.library json type payload) h
  have hcount : (Challenges.setProcessingIfPending s.db challenge.id now).2 ≠ 0 :=
    countWhere_ne_zero_iff.mpr ⟨challenge, hmem, by simp [Challenges.inStatus, hpending]⟩
  have hhit : ((Challenges.setProcessingIfPending s.db challenge.id now).2 != 0) = true := by
    simpa using hcount
  refine ⟨challenge, job, hmem, htype, hpending, hjob, ?_⟩
  simp [hr, respondChallenge, step, Request.begin, hbegin, hfound, advance, commit, exec, followUp,
    hhit]

/-- An error leaves database and replica as they were, and a challenge is set to
processing only with its validation started, exactly if a call that answers has a
payload that can be read and is not about a mail that cannot be sent. -/
theorem rejected_response_changes_nothing (env : Env) (json : PayloadLibrary) (s : Node) (now : Int)
    (input : Input) (accountId caId authzId : String) (type : ChallengeType)
    (payload : List UInt8) :
    let r := s.respondChallenge env json now input accountId caId authzId type payload
    ((∀ e, r.2 = .error e → r.1.db = s.db ∧ r.1.replica = s.replica) ∧
      ∀ id c c', s.db.challenges.find? id = some c → r.1.db.challenges.find? id = some c' →
        c.status ≠ .processing → c'.status = .processing →
        ∃ job, r.1.tasks = [.phase (.validate job)] ∧ job.challengeId = id) ↔
    (Answers s.db accountId caId authzId type →
      checkPayload env.library json type payload = .ok () ∧
        (type = .emailReply00 → env.config.emailChallengeEnabled = true)) := by
  intro r
  by_cases hanswers : Answers s.db accountId caId authzId type
  · obtain ⟨challenge, job, hmem, htype, hpending, hjob, hdb, htasks, hresult⟩ :=
      respondChallenge_of_answers (rfl : r = _) hanswers
    have hchanged : r.1.db ≠ s.db := fun hsame ↦ by
      have hfind : s.db.challenges.find? challenge.id = some challenge := find?_of_mem hmem
      have hafter : r.1.db.challenges.find? challenge.id =
          some { challenge with status := .processing, updated := now } := by
        rw [hdb, Challenges.setProcessingIfPending, find?_updateWhere, hfind, Option.map_some,
          if_pos (by simp [Challenges.inStatus, hpending])]
      rw [hsame, hfind, Option.some.injEq] at hafter
      have := congrArg ChallengeRow.status hafter
      simp [hpending] at this
    constructor
    · rintro ⟨hsame, -⟩ -
      -- the database has changed, so the answer is no error
      have hok : r.2 = .ok () := by
        cases hr : r.2 with
        | error e => exact absurd (hsame e hr).1 hchanged
        | ok => rfl
      rw [hok] at hresult
      obtain ⟨⟨⟩, hverdict, hresponse⟩ := Except.bind_eq_ok hresult.symm
      exact ⟨hverdict, htype ▸ (challengeResponse_processing _ _).mp hresponse⟩
    · intro h
      obtain ⟨hverdict, hemail⟩ := h hanswers
      refine ⟨fun e he ↦ ?_, fun id c c' hc hc' hbefore hafter ↦ ⟨job, ?_, ?_⟩⟩
      · have hok : r.2 = .ok () := by
          rw [hresult, hverdict]
          exact (challengeResponse_processing _ _).mpr fun h ↦ hemail (htype ▸ h)
        cases hok.symm.trans he
      · simp [htasks, hverdict, spawnedJob_ok]
      · rw [hdb] at hc'
        exact hjob.trans (challengeId_of_processing hc hc' hbefore hafter).2
  · refine iff_of_true ?_ fun h ↦ absurd h hanswers
    have hsame : r.1.db = s.db ∧ r.1.replica = s.replica := by
      cases hfound : respondedChallenge s.db authzId type <;>
        rcases beginRespondChallenge_of_not_answers env now
          (checkPayload env.library json type payload) hanswers with hbegin | ⟨e, hbegin⟩ <;>
        simp [r, respondChallenge, step, Request.begin, hbegin, hfound]
    refine ⟨fun _ _ ↦ hsame, fun id c c' hc hc' hbefore hafter ↦ ?_⟩
    rw [hsame.1] at hc'
    cases hc.symm.trans hc'
    exact absurd hafter hbefore

end

end Node

namespace RespondExample

/-- No payload can be read. -/
def json : PayloadLibrary := ⟨fun _ ↦ .error "expected value", fun _ ↦ .error "expected value"⟩

def node (type : ChallengeType) : Node where
  db := { Db.empty with
    authorizations := ⟨[
      { id := "authz-1", orderId := some "order-1", accountId := "acct-1", status := .pending
        identifier := ⟨.dns, "a.onion"⟩, expires := none, wildcard := false
        subdomainAuthAllowed := false, created := 1, updated := 1, caId := "ca" }], by simp⟩
    challenges := ⟨[Challenges.pendingRow "authz-1" "token" 1 ("challenge-1", type)], by simp⟩ }
  replica := ⟨.empty, 0⟩
  tasks := []
  upstream := []
  log := []

def respond (type : ChallengeType) : Node × Except AcmeError Unit :=
  (node type).respondChallenge ⟨.plain, .plain⟩ json 5 .plain "acct-1" "ca" "authz-1" type []

def statusAfter (type : ChallengeType) : Option ChallengeStatus :=
  ((respond type).1.db.challenges.find? "challenge-1").map ChallengeRow.status

/-- The client is told that its payload is malformed, and the challenge is
processing with nothing started.  So it is for an email challenge, whose answer
cannot be made when email is not configured any more. -/
theorem rejected_response_processing :
    ((respond .onionCsr01).2.isOk = false ∧ (respond .onionCsr01).1.tasks.length = 0 ∧
      ((node .onionCsr01).db.challenges.find? "challenge-1").map ChallengeRow.status =
        some .pending ∧ statusAfter .onionCsr01 = some .processing) ∧
    (respond .emailReply00).2.isOk = false ∧ statusAfter .emailReply00 = some .processing := by
  decide +kernel

theorem http_response_started :
    (∀ e, (respond .http01).2 = .error e → (respond .http01).1.db = (node .http01).db ∧
      (respond .http01).1.replica = (node .http01).replica) ∧
    statusAfter .http01 = some .processing :=
  ⟨((Node.rejected_response_changes_nothing ⟨.plain, .plain⟩ json (node .http01) 5 .plain "acct-1"
    "ca" "authz-1" .http01 []).mpr fun _ ↦ ⟨rfl, fun h ↦ by cases h⟩).1, by decide +kernel⟩

end RespondExample

end Akamu
