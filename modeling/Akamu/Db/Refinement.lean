import Akamu.Db.Coalescer

/-!
# The coalescer and the transactions of the node

Behind a coalescer the node's transactions are queued, batched and executed
statement by statement; those answered with a result take effect in turn.
-/

namespace Akamu.Coalescer

open List

/-- The operation that is queued for a transaction of the node. -/
inductive Queued : WriteOp → Txn → Prop
  | newOrder {order plans covered} : Queued (.newOrder order plans) (.newOrder order plans covered)
  | setProcessing {challenge job now} :
      Queued (.setProcessing challenge.id now) (.setProcessingIfPending challenge job now)
  | onValid {job evidence now} : Queued (.onValid job.challengeId job.authzId job.orderId now)
      (.onValid job evidence now)
  | onInvalid {challengeId authzId orderId error now} :
      Queued (.onInvalid challengeId authzId orderId error now)
        (.onInvalid challengeId authzId orderId error now)
  | finalize {order cert now pred csr} : Queued (.finalize cert cert.orderId now pred csr)
      (.finalize order cert now pred cert.id csr)
  | newAccount {account kid now} : Queued (.newAccount account kid now) (.newAccount account kid now)

/-- A batch together with the transactions its operations were queued for. -/
structure QueuedBatch extends Batch where
  txns : List Txn
  queued : Forall₂ (fun r t ↦ Queued r.op t) requests txns

def execAll (decodeNull : Except AcmeError String) (db : Db) (ts : List Txn) :
    Except AcmeError Db :=
  ts.foldlM (fun db t ↦ (exec decodeNull db t).map Prod.fst) db

/-- The transactions that are answered with a result. -/
def answered (txns : List Txn) (replies : List Reply) : List Txn :=
  (txns.zip replies).filterMap fun p ↦ p.2.toOption.map fun _ ↦ p.1

variable {decodeNull : Except AcmeError String} {db db' : Db}

theorem outcome_of_queued {op : WriteOp} {t : Txn} (h : Queued op t) (db : Db) :
    ((executeOp decodeNull op).outcome db).map Prod.snd = (exec decodeNull db t).map Prod.fst := by
  cases h <;> simp only [executeOp, exec, outcome_execNewOrder, outcome_execOnValid,
    outcome_execOnInvalid, outcome_execFinalize, outcome_execNewAccount, Except.map_eq_bind,
    bind_assoc] <;> rfl

theorem execAll_of_serial {requests : List Request} {txns : List Txn} {replies : List Reply}
    (hqueued : Forall₂ (fun r t ↦ Queued r.op t) requests txns)
    (h : Serial db (scripts decodeNull requests) replies db') :
    execAll decodeNull db (answered txns replies) = .ok db' := by
  induction hqueued generalizing db replies with
  | nil =>
    cases h
    rfl
  | @cons r t _ _ hqueued _ ih =>
    cases h with
    | ok hout hrest =>
      have hexec : _ = (exec decodeNull db t).map Prod.fst := outcome_of_queued hqueued db
      change ((exec decodeNull db t).map Prod.fst >>= fun db ↦ execAll decodeNull db _) = _
      rw [← hexec, hout]
      exact ih hrest
    | error _ hrest => exact ih hrest

/-- However the queue falls into batches and whatever fails, the database is the
one after the transactions that were answered with a result. -/
theorem coalesced_run_refines (decodeNull : Except AcmeError String) (db : Db)
    (batches : List QueuedBatch) :
    ∃ db' sent, coalesceLoop decodeNull ⟨db, none⟩ (batches.map (·.toBatch)) = (⟨db', none⟩, sent) ∧
      execAll decodeNull db (answered (batches.flatMap QueuedBatch.txns)
        (sent.flatten.map Prod.snd)) = .ok db' := by
  induction batches generalizing db with
  | nil => exact ⟨db, [], rfl, rfl⟩
  | cons batch batches ih =>
    obtain ⟨db₁, sent, hbatch, hids, hserial, -⟩ := coalesceBatch_spec decodeNull db batch.toBatch
    obtain ⟨db', later, hloop, hrest⟩ := ih db₁
    have hlength : batch.txns.length = (sent.map Prod.snd).length := by
      simpa [batch.queued.length_eq] using (congrArg length hids).symm
    refine ⟨db', sent :: later, by simp only [map_cons, coalesceLoop, hbatch, hloop], ?_⟩
    rw [flatMap_cons, flatten_cons, map_append, answered, zip_append hlength, filterMap_append,
      execAll, foldlM_append]
    have hfirst := execAll_of_serial batch.queued hserial
    rw [execAll, answered] at hfirst
    rw [hfirst]
    exact hrest

end Akamu.Coalescer
