import Akamu.Issuance.CheckedNames

/-!
# The `validationmethods` parameter

A CAA record may restrict the challenge types by which a domain is validated.
The finalize call looks for the challenge type in the authorizations that name
the order; an identifier that no such row is tied to is checked without one.
-/

namespace Akamu

open KeyedTable List Option

/-! ## The map from identifiers to authorizations -/

/-- The row is recorded for the identifier: it is for the identifier itself, or
for a subdomain-enabled ancestor, compared as text. -/
def Ties (allowed : List Identifier) (a : AuthorizationRow) (id : Identifier) : Prop :=
  a.identifier = id ∨ (a.subdomainAuthAllowed = true ∧ a.identifier.type = .dns ∧
    id ∈ allowed ∧ isBelow a.identifier.value id = true)

theorem find?_orInsert (m : IdentifierMap) (id k : Identifier) (authzId : String) :
    (orInsert m id authzId).find? k =
      (m.find? k).or (if id = k then some (k, authzId) else none) := by
  unfold orInsert
  rw [find?_upsert]
  by_cases hk : id = k
  · subst hk
    cases m.find? id <;> simp
  · simp [hk]

theorem find?_foldl_orInsert (below : Identifier → Bool) (authzId : String)
    (ids : List Identifier) (m : IdentifierMap) (k : Identifier) :
    (ids.foldl (fun m id ↦ if below id then orInsert m id authzId else m) m).find? k =
      (m.find? k).or (if k ∈ ids ∧ below k = true then some (k, authzId) else none) := by
  induction ids generalizing m with
  | nil => simp
  | cons id ids ih =>
    rw [foldl_cons, ih]
    by_cases hbelow : below id = true
    · rw [if_pos hbelow, find?_orInsert, Option.or_assoc]
      by_cases hk : id = k
      · subst hk
        simp [hbelow]
      · simp [hk, Ne.symm hk]
    · rw [if_neg hbelow]
      by_cases hk : k = id
      · subst hk
        simp [hbelow]
      · simp [hk]

variable {allowed : List Identifier} {id k : Identifier} {a : AuthorizationRow} {db : Db}
  {env : Env} {m : IdentifierMap} {rows : List AuthorizationRow} {lookup : Caa.Lookup}
  {job : FinalizeJob} {e : Identifier × String}

theorem find?_recordAuthz (h : (recordAuthz allowed m a).find? k = some e) :
    m.find? k = some e ∨ (e = (k, a.id) ∧ Ties allowed a k) := by
  have hput : ∀ e', (m.put (a.identifier, a.id)).find? k = some e' →
      m.find? k = some e' ∨ (e' = (k, a.id) ∧ Ties allowed a k) := by
    intro e' he'
    rw [find?_put] at he'
    split_ifs at he' with hk
    · cases he'
      exact Or.inr ⟨by rw [← hk], Or.inl hk⟩
    · exact Or.inl he'
  unfold recordAuthz at h
  split at h
  · rename_i hflag
    rw [find?_foldl_orInsert, or_eq_some_iff] at h
    rcases h with hfound | ⟨-, hnew⟩
    · exact hput e hfound
    · split_ifs at hnew with hbelow
      cases hnew
      simp only [Bool.and_eq_true, beq_iff_eq] at hflag
      exact Or.inr ⟨rfl, Or.inr ⟨hflag.1, hflag.2, hbelow⟩⟩
  · exact hput e h

theorem find?_recordAuthz_eq_none_iff :
    (recordAuthz allowed m a).find? k = none ↔ m.find? k = none ∧ ¬ Ties allowed a k := by
  have hput : (m.put (a.identifier, a.id)).find? k = none ↔
      m.find? k = none ∧ a.identifier ≠ k := by
    rw [find?_put]
    by_cases hk : a.identifier = k <;> simp [hk]
  unfold recordAuthz Ties
  split
  · rename_i hflag
    simp only [Bool.and_eq_true, beq_iff_eq] at hflag
    rw [find?_foldl_orInsert, or_eq_none_iff, hput]
    simp [hflag.1, hflag.2, and_assoc]
  · rename_i hflag
    simp only [Bool.and_eq_true, beq_iff_eq, not_and] at hflag
    rw [hput]
    constructor
    · rintro ⟨hnone, hne⟩
      exact ⟨hnone, fun h ↦ h.elim hne fun h ↦ hflag h.1 h.2.1⟩
    · rintro ⟨hnone, hties⟩
      exact ⟨hnone, fun h ↦ hties (Or.inl h)⟩

theorem find?_foldl_recordAuthz : ((rows.foldl (recordAuthz allowed) m).find? k = none ↔
        m.find? k = none ∧ ∀ a ∈ rows, ¬ Ties allowed a k) ∧
      ∀ e, (rows.foldl (recordAuthz allowed) m).find? k = some e →
        m.find? k = some e ∨ ∃ a ∈ rows, e = (k, a.id) ∧ Ties allowed a k := by
  induction rows generalizing m with
  | nil => simp
  | cons a rows ih =>
    obtain ⟨ihnone, ihsome⟩ := ih (m := recordAuthz allowed m a)
    constructor
    · rw [foldl_cons, ihnone, find?_recordAuthz_eq_none_iff, forall_mem_cons, and_assoc]
    · intro e he
      rcases ihsome e he with hfound | ⟨b, hb, htie⟩
      · rcases find?_recordAuthz hfound with hold | hnew
        · exact Or.inl hold
        · exact Or.inr ⟨a, mem_cons_self, hnew⟩
      · exact Or.inr ⟨b, mem_cons_of_mem a hb, htie⟩

theorem find?_identifierToAuthz_eq_none_iff :
    (identifierToAuthz allowed rows).find? k = none ↔ ∀ a ∈ rows, ¬ Ties allowed a k := by
  unfold identifierToAuthz
  rw [find?_foldl_recordAuthz.1]
  simp

theorem ties_of_find?_identifierToAuthz (h : (identifierToAuthz allowed rows).find? k = some e) :
    ∃ a ∈ rows, e = (k, a.id) ∧ Ties allowed a k := by
  rcases find?_foldl_recordAuthz.2 e h with hempty | htie
  · cases hempty
  · exact htie

/-! ## Covering authorizations -/

/-- The authorization is for the identifier or for a subdomain-enabled ancestor
of it, without regard to case. -/
def CoversName (a : AuthorizationRow) (id : Identifier) : Prop :=
  a.identifier = id ∨ (a.subdomainAuthAllowed = true ∧ a.identifier.type = .dns ∧
    id.type = .dns ∧ Text.IsLabelAncestor a.identifier.value id.value)

/-- The authorizations that cover an identifier of the order: the order's own,
or, when it has none, the account's valid ones that it reuses. -/
def Covering (db : Db) (order : OrderRow) (id : Identifier) (a : AuthorizationRow) : Prop :=
  a ∈ db.authorizations.rows ∧ CoversName a id ∧
    (a.orderId = some order.id ∨
      ((∀ b ∈ Authz.listByOrder db order.id, ¬ CoversName b id) ∧
        a.accountId = order.accountId ∧ a.status = .valid ∧ caScope a.caId order.caId = true))

def TiedToOrder (db : Db) (job : FinalizeJob) (id : Identifier) : Prop :=
  ∃ a ∈ Authz.listByOrder db job.order.id, Ties job.allowed a id

theorem endsWith_of_bareName {value suffix : String}
    (h : Text.endsWith (bareName value) suffix = true) : Text.endsWith value suffix = true := by
  rw [Text.endsWith_iff] at h ⊢
  obtain ⟨front, hfront⟩ := h
  unfold bareName Text.stripPrefix at hfront
  split at hfront
  · rename_i hwild
    obtain ⟨rest, hrest⟩ := Text.startsWith_iff.mp hwild
    refine ⟨"*.".toList ++ front, ?_⟩
    rw [hrest] at hfront ⊢
    simp only [getD_some, String.toList_ofList, drop_left] at hfront
    rw [hfront, append_assoc]
  · exact ⟨front, hfront⟩

theorem isLabelAncestor_of_isBelow {ancestor : String} (h : isBelow ancestor id = true) :
    Text.IsLabelAncestor ancestor id.value := by
  simp only [isBelow, Bool.and_eq_true] at h
  obtain ⟨front, hfront⟩ := Text.endsWith_iff.mp (endsWith_of_bareName h.2)
  refine ⟨front.map Char.toLower, ?_⟩
  have hdot : Char.toLower '.' = '.' := by decide
  simp [Text.toAsciiLowercase, hfront, hdot]

theorem coversName_of_ties (h : Ties allowed a id) : CoversName a id := by
  rcases h with hid | ⟨hflag, htype, -, hbelow⟩
  · exact Or.inl hid
  · refine Or.inr ⟨hflag, htype, ?_, isLabelAncestor_of_isBelow hbelow⟩
    simp only [isBelow, Bool.and_eq_true, beq_iff_eq] at hbelow
    exact hbelow.1.1

theorem covering_of_ties {order : OrderRow} (ha : a ∈ Authz.listByOrder db order.id)
    (h : Ties allowed a id) : Covering db order id a := by
  obtain ⟨hrow, horder⟩ := mem_filter.mp ha
  exact ⟨hrow, coversName_of_ties h, Or.inl (by simpa using horder)⟩

/-! ## The check of one identifier -/

def caaCheck (env : Env) (db : Db) (lookup : Caa.Lookup) (job : FinalizeJob) (id : Identifier) :
    Except AcmeError Unit := do
  let m := identifierToAuthz job.allowed (Authz.listByOrder db job.order.id)
  let p ← caaParams env job m (validatedTypes db m) id
  Caa.checkCaa env.library lookup p

theorem caaCheck_of_checkCaaForOrder (hcaa : effectiveCaa env job.order.caId ≠ [])
    (h : checkCaaForOrder env db lookup job = .ok ()) (hid : id ∈ dnsIdentifiers job.allowed) :
    caaCheck env db lookup job id = .ok () := by
  obtain ⟨inputs, hinputs, hpassed⟩ := caaInputs_of_check hcaa h
  obtain ⟨p, hp, hparams⟩ := Except.exists_result_of_mem hinputs hid
  unfold caaCheck
  dsimp only
  rw [hparams]
  exact hpassed p hp

def recordSet (env : Env) (lookup : Caa.Lookup) (id : Identifier) :
    Except AcmeError (Option (List Caa.Record)) :=
  Caa.findRecordSet env.library lookup (Caa.buildNameWalk (bareName id.value))

/-- If the record set authorizes this CA only through records that list
methods, one of them lists the type of a valid challenge of an authorization
that covers the identifier. -/
def MethodEnforced (env : Env) (db : Db) (lookup : Caa.Lookup) (job : FinalizeJob)
    (id : Identifier) : Prop :=
  ∀ records, recordSet env lookup id = .ok (some records) →
    Caa.RestrictsMethods (caaQuery env job id "") records →
    ∃ a c r, Covering db job.order id a ∧ c ∈ db.challenges.rows ∧ c.authzId = a.id ∧
      c.status = .valid ∧ r ∈ Caa.relevant (isWildcard id.value) records ∧
      r.authorizesSomeMethod (caaQuery env job id "") = true ∧ c.type.asStr ∈ r.methods

def LooksUp (env : Env) (id : Identifier) : Prop :=
  ∃ name names, Caa.buildNameWalk (bareName id.value) = name :: names ∧
    env.library.parseDnsName (name ++ ".") = .ok ()

theorem methodEnforced_of_tied (hcaa : effectiveCaa env job.order.caId ≠ [])
    (htied : TiedToOrder db job id) (h : caaCheck env db lookup job id = .ok ()) :
    MethodEnforced env db lookup job id := by
  intro records hset hrestricts
  unfold recordSet at hset
  obtain ⟨p, hparams, hpassed⟩ := Except.bind_eq_ok h
  obtain ⟨challengeType, htype, rfl⟩ := Except.map_eq_ok hparams
  unfold caaChallengeType at htype
  split at htype
  · rename_i hnone
    obtain ⟨a, ha, hties⟩ := htied
    exact (find?_identifierToAuthz_eq_none_iff.mp hnone a ha hties).elim
  · rename_i k authzId hfind
    obtain ⟨a, ha, heq, hties⟩ := ties_of_find?_identifierToAuthz hfind
    cases heq
    split at htype
    · rename_i t hvalidated
      cases htype
      obtain ⟨c, hc, hctype⟩ := map_eq_some_iff.mp hvalidated
      have hwhere := find?_some hc
      simp only [Bool.and_eq_true, beq_iff_eq] at hwhere
      have hcmem : c ∈ db.challenges.rows := mem_reverse.mp (mem_of_find?_eq_some hc)
      obtain ⟨r, hr, hauth, hlisted⟩ :=
        Caa.listed_of_checkCaa (p := caaQuery env job id t.asStr) hcaa t.asStr_ne_empty hset
          hrestricts hpassed
      exact ⟨a, c, r, covering_of_ties ha hties, hcmem, hwhere.2, hwhere.1.1, hr, hauth,
        hctype ▸ hlisted⟩
    · cases htype

theorem recordSet_of_not_looksUp (h : ¬ LooksUp env id) (records : List Caa.Record) :
    recordSet env lookup id ≠ .ok (some records) := by
  unfold recordSet
  cases hwalk : Caa.buildNameWalk (bareName id.value) with
  | nil => simp [Caa.findRecordSet]
  | cons name names =>
    cases hparse : env.library.parseDnsName (name ++ ".") with
    | error => simp [Caa.findRecordSet, hparse]
    | ok => exact (h ⟨name, names, hwalk, hparse⟩).elim

/-- A record that names the CA and lists a method that does not exist. -/
def noMethodRecord (ca : String) : Caa.Record where
  tag := .issue
  issuerCritical := false
  value := .issuer (some ca) [("validationmethods", "")]

theorem noMethodRecord_authorizes {p : Caa.Params} {ca : String} (hca : ca ∈ p.caIdentities)
    (htype : p.challengeType = "") : (noMethodRecord ca).authorizes p = true := by
  have hnames : (noMethodRecord ca).namesCa p.caIdentities = true :=
    any_eq_true.mpr ⟨ca, hca, by simp⟩
  have hparams : (noMethodRecord ca).params = [("validationmethods", "")] := rfl
  simp [Caa.Record.authorizes, hnames, hparams, Caa.hasDuplicate, Caa.paramOk, htype]

theorem relevant_noMethodRecord (wildcard : Bool) (ca : String) :
    Caa.relevant wildcard [noMethodRecord ca] = [noMethodRecord ca] := by
  cases wildcard <;> rfl

/-- Without a tied authorization the check passes a record set that allows no
method at all. -/
theorem exists_unenforced (hcaa : effectiveCaa env job.order.caId ≠ [])
    (huntied : ¬ TiedToOrder db job id) (hlooks : LooksUp env id) :
    ∃ lookup, caaCheck env db lookup job id = .ok () ∧ ¬ MethodEnforced env db lookup job id := by
  obtain ⟨ca, hca⟩ := exists_mem_of_ne_nil _ hcaa
  obtain ⟨name, names, hwalk, hparse⟩ := hlooks
  have hauth := noMethodRecord_authorizes (p := caaQuery env job id "") hca rfl
  have hset : recordSet env (fun _ ↦ .ok [noMethodRecord ca]) id =
      .ok (some [noMethodRecord ca]) := by
    simp [recordSet, hwalk, Caa.findRecordSet, hparse]
  refine ⟨fun _ ↦ .ok [noMethodRecord ca], ?_, fun henforced ↦ ?_⟩
  · have hnone : (identifierToAuthz job.allowed
        (Authz.listByOrder db job.order.id)).find? id = none :=
      find?_identifierToAuthz_eq_none_iff.mpr fun a ha hties ↦ huntied ⟨a, ha, hties⟩
    have hevaluate : Caa.evaluateCaaRecordSet (caaQuery env job id "") [noMethodRecord ca] =
        .ok () := by
      have hknown : Caa.unknownCritical (noMethodRecord ca) = none := rfl
      simp [Caa.evaluateCaaRecordSet, relevant_noMethodRecord, hauth, hknown]
    simp only [caaCheck, caaParams, caaChallengeType, hnone, Except.map]
    change Caa.checkCaa env.library _ (caaQuery env job id "") = _
    unfold Caa.checkCaa
    rw [if_neg (by simpa [caaQuery] using hcaa)]
    change recordSet env _ id >>= _ = _
    rw [hset]
    exact hevaluate
  · obtain ⟨a, c, r, -, -, -, -, hr, -, hlisted⟩ := henforced _ hset
      ⟨by simp [relevant_noMethodRecord], fun r hr _ ↦ by
        rw [relevant_noMethodRecord, mem_singleton] at hr
        rw [hr]
        rfl⟩
    rw [relevant_noMethodRecord, mem_singleton] at hr
    have hmethods : (noMethodRecord ca).methods = [""] := rfl
    rw [hr, hmethods, mem_singleton] at hlisted
    exact c.type.asStr_ne_empty hlisted

/-- The parameter is enforced for an identifier, whatever the resolver answers,
exactly when an authorization of the order is tied to it or nothing is looked up;
if that holds of all dns identifiers, every certificate issued respects it. -/
theorem validationmethods_enforced_iff {env : Env} {reads : FinalizeReads} {req : FinalizeRequest}
    {job : FinalizeJob} (hcaa : effectiveCaa env job.order.caId ≠ []) :
    (∀ id ∈ dnsIdentifiers job.allowed,
      (∀ lookup, caaCheck env reads.caa lookup job id = .ok () →
        MethodEnforced env reads.caa lookup job id) ↔
      TiedToOrder reads.caa job id ∨ ¬ LooksUp env id) ∧
    ((∀ id ∈ dnsIdentifiers job.allowed, TiedToOrder reads.caa job id ∨ ¬ LooksUp env id) →
      ∀ lookup cert, finalizeOrder env reads lookup req = .ok (job, some cert) →
        ∀ id ∈ dnsIdentifiers job.allowed, MethodEnforced env reads.caa lookup job id) := by
  have hsufficient : ∀ lookup id, TiedToOrder reads.caa job id ∨ ¬ LooksUp env id →
      caaCheck env reads.caa lookup job id = .ok () →
      MethodEnforced env reads.caa lookup job id := by
    rintro lookup id (htied | hsilent) hpassed
    · exact methodEnforced_of_tied hcaa htied hpassed
    · exact fun records hset ↦ (recordSet_of_not_looksUp hsilent records hset).elim
  constructor
  · intro id _
    refine ⟨fun henforced ↦ ?_, fun hcond lookup ↦ hsufficient lookup id hcond⟩
    by_contra hcond
    rw [not_or, not_not] at hcond
    obtain ⟨lookup, hpassed, hunenforced⟩ := exists_unenforced hcaa hcond.1 hcond.2
    exact hunenforced (henforced lookup hpassed)
  · intro hcond lookup cert hissued id hid
    obtain ⟨-, -, hcaaPassed, -⟩ := finalizeOrder_issued hissued
    exact hsufficient lookup id (hcond id hid) (caaCheck_of_checkCaaForOrder hcaa hcaaPassed hid)

/-! An order for `www.a.example` under a subdomain authorization for `a.example`,
and a CAA record that asks for `dns-01`. -/

def methodsEnv : Env where
  config := { Config.plain with allowSubdomainAuth := true, caaIdentities := ["ca.example"] }
  library :=
    { Library.plain with
      parseCsr := fun der ↦
        if der = ascii "csr" then .ok
          { subject := ⟨[], []⟩, sans := [.dnsName (ascii "www.a.example")], caCert := false
            keyType := none }
        else .error (.badCsr "CSR does not decode") }

def methodsLookup : Caa.Lookup := fun name ↦
  if name = "www.a.example" then .ok
    [{ tag := .issue, issuerCritical := false
       value := .issuer (some "ca.example") [("validationmethods", "dns-01")] }]
  else .ok []

/-- The authorization belongs to `authzOrder` and was validated by `type`. -/
def methodsDb (authzOrder : String) (type : ChallengeType) : Db :=
  { Db.empty with
    orders :=
      { rows := [OrderRow.plain "order-1" "acct-1" "ca" .ready [⟨.dns, "www.a.example"⟩] 0 100]
        nodup := by simp }
    authorizations :=
      { rows :=
          [{ id := "authz-1", orderId := some authzOrder, accountId := "acct-1", status := .valid
             identifier := ⟨.dns, "a.example"⟩, expires := some 100, wildcard := false
             subdomainAuthAllowed := true, created := 0, updated := 0, caId := "ca" }]
        nodup := by simp }
    challenges :=
      { rows :=
          [{ id := "chall-1", authzId := "authz-1", type := type, status := .valid, token := "t"
             validated := some 1, error := none, created := 0, updated := 1
             emailMessageId := none }]
        nodup := by simp } }

def methodsReads (authzOrder : String) (type : ChallengeType) : FinalizeReads where
  checks := methodsDb authzOrder type
  caa := methodsDb authzOrder type
  sans := methodsDb authzOrder type

/-- The order reuses the authorization of an earlier order, validated by
`http-01`; a certificate is issued all the same. -/
theorem reused_authorization_unenforced :
    ∃ job cert, finalizeOrder methodsEnv (methodsReads "order-0" .http01) methodsLookup
        (tokenRequest "csr") = .ok (job, some cert) ∧
      effectiveCaa methodsEnv job.order.caId ≠ [] ∧
      ∃ id ∈ dnsIdentifiers job.allowed,
        ¬ MethodEnforced methodsEnv (methodsDb "order-0" .http01) methodsLookup job id := by
  refine ⟨_, _, rfl, by decide, ⟨.dns, "www.a.example"⟩, by decide, fun henforced ↦ ?_⟩
  obtain ⟨a, c, r, -, hc, -, -, hr, -, hlisted⟩ := henforced _ rfl ⟨by decide, by decide⟩
  cases List.mem_singleton.mp hc
  cases List.mem_singleton.mp hr
  exact absurd hlisted (by decide)

/-- With an authorization of its own the order is held to the record. -/
theorem own_authorization_enforced :
    ∃ job cert, finalizeOrder methodsEnv (methodsReads "order-1" .dns01) methodsLookup
        (tokenRequest "csr") = .ok (job, some cert) ∧
      MethodEnforced methodsEnv (methodsDb "order-1" .dns01) methodsLookup job
        ⟨.dns, "www.a.example"⟩ := by
  obtain ⟨job, cert, hissued, hcaa, hallowed, hid⟩ : ∃ job cert,
      finalizeOrder methodsEnv (methodsReads "order-1" .dns01) methodsLookup
        (tokenRequest "csr") = .ok (job, some cert) ∧
      effectiveCaa methodsEnv job.order.caId ≠ [] ∧
      job.allowed = [⟨.dns, "www.a.example"⟩] ∧ job.order.id = "order-1" :=
    ⟨_, _, rfl, by decide, rfl, rfl⟩
  refine ⟨job, cert, hissued, (validationmethods_enforced_iff hcaa).2 ?_ _ _ hissued _ ?_⟩
  · rw [hallowed]
    intro id hmem
    cases List.mem_singleton.mp hmem
    refine Or.inl ⟨_, by rw [hid]; exact List.mem_singleton_self _, Or.inr ?_⟩
    rw [hallowed]
    exact ⟨rfl, rfl, by decide, by decide⟩
  · rw [hallowed]
    decide

end Akamu
