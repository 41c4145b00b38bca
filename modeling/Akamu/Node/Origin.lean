import Akamu.Db.Effects
import Akamu.Node.Step

/-!
# Which tasks lead to which

The kinds of tasks that a request begins with, that follow a commit and that a
phase goes on to.  Most invariants only care about a few kinds; the others are
discharged here once.
-/

namespace Akamu

open Except (bind_eq_ok map_eq_ok)
open List

/-- A transaction that a request may begin with. -/
def Txn.begins : Txn → Bool
  | .newAccount .. | .deactivateAccount .. | .updateContact .. | .updateKey ..
  | .setProfileGrants .. | .newAuthz .. | .setProcessingIfPending .. | .onValid ..
  | .onInvalid .. | .setProcessingWithCsrDer .. | .cancelStar .. | .revoke .. | .insertEab ..
  | .insertEabIfAbsent .. | .deleteEab .. => true
  | _ => false

def Task.begins : Task → Bool
  | .commit t => t.begins
  | .phase (.rereadAccount _) | .phase (.cover _) | .phase (.checkCaa _) => true
  | _ => false

/-- A task that may follow a commit. -/
def Task.follows : Task → Bool
  | .hooks .. | .phase (.rereadAccount _) | .phase (.sendEmail _) | .phase (.eabCheck ..)
  | .commit (.onValid ..) | .commit (.onInvalid ..) => true
  | _ => false

def Txn.validates : Txn → Bool
  | .onValid .. | .onInvalid .. | .insertJti .. | .setEmailToken .. => true
  | _ => false

/-- A transaction that rests on no row that its handler has read. -/
def Txn.standalone : Txn → Bool
  | .newAccount .. | .deactivateAccount .. | .updateContact .. | .updateKey ..
  | .setProfileGrants .. | .cancelStar .. | .revoke .. | .insertEab .. | .insertEabIfAbsent ..
  | .deleteEab .. => true
  | _ => false

/-- The tasks that a request begins with, and what its handler has read. -/
inductive Request.Opens (env : Env) (db : Db) (now : Int) : Request → Task → Prop
  | cover {accountId caId payload fresh d}
      (h : newOrderChecks env db accountId caId payload fresh now = .ok d) :
      Opens env db now (.newOrder accountId caId payload fresh) (.phase (.cover d))
  | preAuthz {accountId caId identifier flag fresh} :
      Opens env db now (.newAuthz accountId caId identifier flag fresh)
        (.commit (.newAuthz (preAuthzPlan env accountId caId identifier flag fresh now)))
  | respond {accountId caId authzId type payload authz challenges c}
      (hrows : Authz.getWithChallenges db authzId = some (authz, challenges))
      (hc : c ∈ challenges) (hpending : c.status = .pending) :
      Opens env db now (.respondChallenge accountId caId authzId type payload)
        (.commit (.setProcessingIfPending c
          (spawnedJob (validationJob env.config accountId caId authz c) payload) now))
  | replied {inReplyTo verified c authz}
      (hfind : Challenges.getByEmailMessageId db inReplyTo = some c)
      (hauthz : Authz.getById env.decodeNull db c.authzId = .ok (some authz)) :
      Opens env db now (.emailReply inReplyTo verified) (.commit (.onValid
        { challengeId := c.id, authzId := c.authzId, orderId := authz.orderId.getD ""
          type := c.type, identifier := authz.identifier, accountId := authz.accountId
          accountUri := "" } [] now))
  | failed {inReplyTo error verified} {c : ChallengeRow} :
      Opens env db now (.emailReply inReplyTo verified)
        (.commit (.onInvalid c.id c.authzId none error now))
  | finalize {req job} (h : finalizeChecks env db req = .ok job) :
      Opens env db now (.finalize req) (.phase (.checkCaa job))
  | handOff {req job} (h : finalizeChecks env db req = .ok job) :
      Opens env db now (.finalize req)
        (.commit (.setProcessingWithCsrDer job.order.id job.csrDer now))
  | reread {r id} : Opens env db now r (.phase (.rereadAccount id))
  | standalone {r t} (h : t.standalone = true) : Opens env db now r (.commit t)

section Origin

variable {env : Env} {db : Db} {now : Int} {ts : List Task}

section Begin

variable {r : Request} (h : r.begin env db now = .ok ts)

include h

theorem opens_of_begin : ∀ task ∈ ts, r.Opens env db now task := by
  intro task htask
  cases r with
  | newOrder =>
    obtain ⟨d, hd, rfl⟩ := map_eq_ok h
    cases mem_singleton.mp htask
    exact .cover hd
  | newAuthz =>
    obtain ⟨⟨⟩, -, h⟩ := bind_eq_ok h
    obtain ⟨found, -, h⟩ := bind_eq_ok h
    cases found with
    | some =>
      cases h
      cases htask
    | none =>
      dsimp only at h
      split at h <;> cases h
      cases mem_singleton.mp htask
      exact .preAuthz
  | newAccount =>
    simp only [Request.begin, beginNewAccount] at h
    split_ifs at h
    · cases h
      cases htask
    · obtain ⟨key, -, rfl⟩ := map_eq_ok h
      cases mem_singleton.mp htask
      exact .standalone rfl
  | respondChallenge =>
    simp only [Request.begin, beginRespondChallenge] at h
    split at h
    · cases h
    · rename_i authz challenges hrows
      split_ifs at h
      split at h
      · cases h
      · rename_i c hfind
        split_ifs at h with hpending <;> cases h
        · cases mem_singleton.mp htask
          exact .respond hrows (mem_of_find?_eq_some hfind) hpending.2
        · cases htask
  | emailReply =>
    simp only [Request.begin, beginEmailReply] at h
    split at h
    · cases h
    · rename_i c hfind
      repeat' split at h
      all_goals cases h
      all_goals cases mem_singleton.mp htask
      all_goals first | exact .failed | exact .replied hfind ‹_›
  | finalize =>
    obtain ⟨job, hjob, rfl⟩ := map_eq_ok h
    split at htask <;> cases mem_singleton.mp htask
    · exact .handOff hjob
    · exact .finalize hjob
  | updateAccount | keyChange | cancelOrder | revokeCert | postRevoke =>
    simp only [Request.begin, beginUpdateAccount, beginKeyChange, beginCancelOrder,
      beginRevokeCert, beginPostRevoke] at h
    repeat' split at h
    all_goals cases h
    all_goals cases mem_singleton.mp htask
    all_goals first | exact .standalone rfl | exact .reread
  | postEab kid hmacKeyB64u grants principal derived =>
    cases h
    cases mem_singleton.mp htask
    cases derived <;> exact .standalone rfl
  | postAccountDeactivate | putProfileGrants | getEabIdentity | deleteEab =>
    cases h
    cases mem_singleton.mp htask
    exact .standalone rfl

theorem begins_of_begin : ∀ task ∈ ts, task.begins = true := by
  intro task htask
  cases opens_of_begin h task htask with
  | @standalone _ t ht => cases t <;> first | rfl | cases ht
  | _ => rfl

end Begin

theorem follows_of_followUp {lib : Library} {clock : Int} {t : Txn} {o : Outcome} :
    ∀ task ∈ followUp lib clock t o, task.follows = true := by
  cases t with
  | deactivateAccount | setProcessingIfPending | insertJti | onValid | finalize | revoke
  | insertEabIfAbsent =>
    simp only [followUp]
    split_ifs <;> simp [Task.follows, failChallenge]
  | _ => simp [followUp, Task.follows]

theorem commit_of_validate {job : ValidationJob} {input : Input} {task : Task}
    (h : task ∈ validateChallenge env db now input job) :
    ∃ t, task = .commit t ∧ t.validates = true := by
  unfold validateChallenge at h
  repeat' split at h
  all_goals
    cases mem_singleton.mp h
    exact ⟨_, rfl, rfl⟩

inductive Phase.Leads (env : Env) (db : Db) (now : Int) (input : Input) : Phase → Task → Prop
  | rereadAccount {id : String} {account : AccountRow} :
      Leads env db now input (.rereadAccount id) (.hooks [.accountUpsert account] none)
  | eabCheck {row : EabKeyRow} {inserted : Bool} :
      Leads env db now input (.eabCheck row inserted)
        (.hooks [.eabKeySet (eabKeyEntryOfRow row)] none)
  | cover {d d' : OrderDraft} {r : RequestedIdentifier} {rs : List RequestedIdentifier}
      (hremaining : d.remaining = r :: rs) (h : coverIdentifier env db d r = .ok d') :
      Leads env db now input (.cover d) (.phase (.cover { d' with remaining := rs }))
  | newOrder {d : OrderDraft} (hremaining : d.remaining = []) :
      Leads env db now input (.cover d)
        (.commit (.newOrder (draftOrderRow env d) d.plans d.covered))
  | validate {job : ValidationJob} {t : Txn}
      (h : .commit t ∈ validateChallenge env db now input job) (hkind : t.validates = true) :
      Leads env db now input (.validate job) (.commit t)
  | sendEmail {job : ValidationJob} {err : AcmeError} :
      Leads env db now input (.sendEmail job) (.commit (failChallenge env.library job err now))
  | checkCaa {job : FinalizeJob} (h : checkCaaForOrder env db input.lookup job = .ok ()) :
      Leads env db now input (.checkCaa job) (.phase (.issue job))
  | issue {job : FinalizeJob} {inj : SanInjection} {cert : IssuedCert}
      (hinj : injectTemplateAndTkauthSans env db job = .ok inj)
      (h : issueLeafCertificate env now job inj = .ok cert) :
      Leads env db now input (.issue job) (.phase (.persistCert job cert))
  | persistCert {job : FinalizeJob} {cert : IssuedCert} {pred : Option String}
      (h : predCertUuid env db job.order = .ok pred) :
      Leads env db now input (.persistCert job cert)
        (.commit (finalizeTxn env job cert pred now))
  | renewStar {order : OrderRow} {cert : CertificateRow}
      (h : starRunOnce env db now input.signedAt order = .ok [.commit (.starRenew cert now)]) :
      Leads env db now input (.renewStar order) (.commit (.starRenew cert now))

theorem leads_of_proceed {p : Phase} {input : Input} (h : p.proceed env db now input = .ok ts) :
    ∀ task ∈ ts, p.Leads env db now input task := by
  intro task htask
  cases p with
  | cover =>
    simp only [Phase.proceed] at h
    split at h
    · rename_i hremaining
      cases h
      cases mem_singleton.mp htask
      exact .newOrder hremaining
    · rename_i r rs hremaining
      obtain ⟨d', hcover, rfl⟩ := map_eq_ok h
      cases mem_singleton.mp htask
      exact .cover hremaining hcover
  | validate =>
    cases h
    obtain ⟨t, rfl, hkind⟩ := commit_of_validate htask
    exact .validate htask hkind
  | checkCaa =>
    obtain ⟨⟨⟩, hcaa, rfl⟩ := map_eq_ok h
    cases mem_singleton.mp htask
    exact .checkCaa hcaa
  | issue =>
    obtain ⟨inj, hinj, h⟩ := bind_eq_ok h
    obtain ⟨cert, hcert, h⟩ := bind_eq_ok h
    cases h
    cases mem_singleton.mp htask
    exact .issue hinj hcert
  | persistCert =>
    obtain ⟨pred, hpred, rfl⟩ := map_eq_ok h
    cases mem_singleton.mp htask
    exact .persistCert hpred
  | renewStar =>
    rcases starRunOnce_cases h with rfl | ⟨_, _, _, _, _, issued, -, -, -, -, -, rfl⟩
    · cases htask
    · cases mem_singleton.mp htask
      exact .renewStar h
  | sendEmail =>
    simp only [Phase.proceed] at h
    split at h
    · cases h
      cases mem_singleton.mp htask
      exact .sendEmail
    · cases h
      cases htask
  | rereadAccount =>
    simp only [Phase.proceed] at h
    split at h
    · cases h
    · cases h
      cases mem_singleton.mp htask
      exact .rereadAccount
  | eabCheck row inserted =>
    simp only [Phase.proceed] at h
    split at h
    · cases h
    · split at h
      · cases h
      · cases h
        cases inserted with
        | false => cases htask
        | true =>
          cases mem_singleton.mp htask
          exact .eabCheck

end Origin

theorem order_of_step {env : Env} {s : Node} {e : Event} {o : OrderRow}
    (ho : o ∈ s.db.orders.rows) : ∃ o' ∈ (Node.step env s e).1.db.orders.rows,
      o'.terms = o.terms := by
  exact Node.db_rule ⟨o, ho, rfl⟩ fun t out db' _ hexec ↦ order_of_exec hexec ho

end Akamu
