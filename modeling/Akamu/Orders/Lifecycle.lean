import Akamu.Node.Pending

/-!
# The order state machine

Orders move from pending over ready and possibly processing to valid, or to
invalid, as long as no validation is decided after its order has moved on.
`on_valid` sets its order to ready and `on_invalid` sets it to invalid without
looking at the status it has.
-/

namespace Akamu

open Crdt List Machine Node

/-- One move of the order state machine, or none. -/
inductive OrderStatus.Moves : OrderStatus → OrderStatus → Prop
  | stay (a : OrderStatus) : Moves a a
  | validated : Moves .pending .ready
  | submitted : Moves .ready .processing
  | issued : Moves .ready .valid
  | completed : Moves .processing .valid
  | failed {a : OrderStatus} (h : a ≠ .valid) (h' : a ≠ .invalid) : Moves a .invalid

theorem OrderStatus.Moves.eq_of_final {a b : OrderStatus} (h : Moves a b)
    (hfinal : a = .valid ∨ a = .invalid) : b = a := by
  cases h with
  | stay => rfl
  | failed hvalid hinvalid => exact absurd hfinal (by simp [hvalid, hinvalid])
  | _ => simp at hfinal

/-- The transaction decides a validation whose order has moved on: a success
when the order is no longer pending or ready, a failure when it is valid. -/
def decidesLate (decodeNull : Except AcmeError String) (db : Db) (o : OrderRow) : Txn → Bool
  | .onValid job _ now =>
    readies db job now && o.id == job.orderId && o.status != .pending && o.status != .ready
  | .onInvalid challengeId authzId orderId _ _ =>
    takesDown decodeNull db challengeId authzId orderId o.id && o.status == .valid
  | _ => false

def DecidesInTime (env : Env) (s : Node) (e : Event) : Prop :=
  ∀ t ∈ s.attempt e, ∀ o ∈ s.db.orders.rows, decidesLate env.decodeNull s.db o t = false

instance (env : Env) (s : Node) (e : Event) : Decidable (DecidesInTime env s e) :=
  inferInstanceAs (Decidable (∀ t ∈ s.attempt e, ∀ o ∈ s.db.orders.rows,
    decidesLate env.decodeNull s.db o t = false))

/-! ## One transaction -/

section Transaction

variable {decodeNull : Except AcmeError String} {db : Db} {t : Txn} {o : OrderRow}

open OrderStatus

theorem moves_onOrder (hlate : decidesLate decodeNull db o t = false)
    (hup : ∀ id error now, t = .orderInvalid id error now → o.id = id → o.status ≠ .valid) :
    Moves o.status (t.onOrder decodeNull db o).status := by
  have hinvalid : o.status ≠ .valid → Moves o.status .invalid := by
    intro hne
    by_cases heq : o.status = .invalid
    · rw [heq]
      exact .stay _
    · exact .failed hne heq
  cases t with
  | onValid =>
    simp only [Txn.onOrder]
    split
    · rename_i hhit
      rw [Bool.and_eq_true] at hhit
      simp only [decidesLate, hhit.1, hhit.2, Bool.true_and, Bool.and_eq_false_iff, bne_eq_false_iff_eq]
        at hlate
      rcases hlate with hpending | hready
      · rw [hpending]
        exact .validated
      · rw [hready]
        exact .stay _
    · exact .stay _
  | onInvalid =>
    simp only [Txn.onOrder]
    split
    · rename_i hhit
      refine hinvalid ?_
      simpa [decidesLate, hhit] using hlate
    · exact .stay _
  | finalize | setProcessingWithCsrDer | completeOrder =>
    simp only [Txn.onOrder]
    split
    · rename_i hhit
      simp only [Bool.and_eq_true, beq_iff_eq] at hhit
      rw [hhit.2]
      constructor
    · exact .stay _
  | orderInvalid id error now =>
    simp only [Txn.onOrder]
    split
    · rename_i hhit
      exact hinvalid (hup id error now rfl (beq_iff_eq.mp hhit))
    · exact .stay _
  | cancelStar | starRenew | setUpstreamOrderUrl =>
    simp only [Txn.onOrder]
    split <;> exact .stay _
  | _ => exact .stay _

theorem completes_of_valid (h : o.status = .processing)
    (hvalid : (t.onOrder decodeNull db o).status = .valid) :
    ∃ cert certUrl now, t = .completeOrder cert certUrl now ∧ o.id = cert.orderId := by
  cases t with
  | completeOrder cert certUrl now =>
    simp only [Txn.onOrder] at hvalid
    split at hvalid
    · rename_i hhit
      simp only [Bool.and_eq_true, beq_iff_eq] at hhit
      exact ⟨cert, certUrl, now, rfl, hhit.1⟩
    · simp [h] at hvalid
  | onValid | onInvalid | orderInvalid | setProcessingWithCsrDer | cancelStar | starRenew
  | setUpstreamOrderUrl =>
    simp only [Txn.onOrder] at hvalid
    split at hvalid <;> simp_all
  | _ => simp [Txn.onOrder, h] at hvalid

end Transaction

variable {c : CertificateRow}

theorem Txn.eq_of_mem_newCerts {t : Txn} {out : Outcome} {c' : CertificateRow}
    (h : c ∈ t.newCerts out) (h' : c' ∈ t.newCerts out) : c = c' := by
  cases t with
  | finalize | completeOrder => simp_all [Txn.newCerts]
  | starRenew =>
    simp only [Txn.newCerts] at h h'
    split at h <;> simp_all
  | _ => simp [Txn.newCerts] at h

/-- A stored certificate is a renewal, or its order goes from ready or
processing to valid in the same transaction. -/
theorem order_of_newCert {env : Env} {H : Assumed} {db db' : Db} {t : Txn} {out : Outcome}
    (hexec : exec env.decodeNull db t = .ok (db', out)) (hsound : TxnSound env H db t)
    (hc : c ∈ t.newCerts out) :
    ∃ o ∈ db.orders.rows, o.id = c.orderId ∧
      (o.isStar = true ∨
        o.status ≠ .valid ∧ (t.onOrder env.decodeNull db o).status = .valid) := by
  cases t with
  | finalize order cert now pred replacedBy csr =>
    obtain ⟨-, o, ho, hid, hready⟩ : Effect env.decodeNull db
        (.finalize order cert now pred replacedBy csr) out db' ∧ _ := effect_finalize hexec
    rw [mem_singleton.mp hc, Txn.orderId_onCert]
    exact ⟨o, ho, hid, .inr ⟨by simp [hready], by simp [Txn.onOrder, hid, hready]⟩⟩
  | completeOrder cert certUrl now =>
    obtain ⟨db₁, hexec, -⟩ := Except.map_eq_ok hexec
    obtain ⟨-, o, ho, hid, hproc⟩ : Effect env.decodeNull db
        (.completeOrder cert certUrl now) out db₁ ∧ _ := effect_completeOrder hexec
    rw [mem_singleton.mp hc]
    exact ⟨o, ho, hid, .inr ⟨by simp [hproc], by simp [Txn.onOrder, hid, hproc]⟩⟩
  | starRenew =>
    obtain ⟨o, ho, hid, hstar⟩ := hsound
    simp only [Txn.newCerts] at hc
    split at hc
    · rw [mem_singleton.mp hc]
      exact ⟨o, ho, hid, .inl hstar⟩
    · cases hc
  | _ => simp [Txn.newCerts] at hc

/-! ## Certificates and the orders they are for -/

/-- Certificates belong to orders; an order that is not a STAR order has at
most one, and none before it is valid. -/
structure Issued (db : Db) : Prop where
  order : ∀ c ∈ db.certificates.rows, ∃ o ∈ db.orders.rows, o.id = c.orderId
  once : ∀ o ∈ db.orders.rows, o.isStar = false → ∀ c ∈ db.certificates.rows,
    ∀ c' ∈ db.certificates.rows, c.orderId = o.id → c'.orderId = o.id → c = c'
  unissued : ∀ o ∈ db.orders.rows, o.isStar = false → o.status ≠ .valid →
    ∀ c ∈ db.certificates.rows, c.orderId ≠ o.id

variable {o : OrderRow}

section IssuedStep

variable {env : Env} {H : Assumed} {db db' : Db} {t : Txn} {out : Outcome}

theorem orderId_ne_of_not_valid (h : Issued db) (hexec : exec env.decodeNull db t = .ok (db', out))
    (hsound : TxnSound env H db t) (ht : ∀ crdt, t ≠ .persist crdt) (ho : o ∈ db.orders.rows)
    (hstar : o.isStar = false) (hvalid : o.status ≠ .valid)
    (hvalid' : (t.onOrder env.decodeNull db o).status ≠ .valid) (hc : c ∈ db'.certificates.rows) :
    c.orderId ≠ o.id := by
  rw [(effect_of_exec hexec ht).certificates, mem_append, mem_map] at hc
  rcases hc with ⟨c₀, hc₀, rfl⟩ | hnew
  · rw [t.orderId_onCert]
    exact h.unissued o ho hstar hvalid c₀ hc₀
  · intro heq
    obtain ⟨o', ho', hid, hcase⟩ := order_of_newCert hexec hsound hnew
    obtain rfl : o' = o := db.orders.eq_of_mem_of_key_eq ho' ho (hid.trans heq)
    rcases hcase with hstar' | ⟨-, hbecomes⟩
    · simp [hstar] at hstar'
    · exact hvalid' hbecomes

theorem Issued.exec (h : Issued db) (hexec : exec env.decodeNull db t = .ok (db', out))
    (hsound : TxnSound env H db t) (ht : ∀ crdt, t ≠ .persist crdt)
    (hmoves : ∀ o ∈ db.orders.rows,
      OrderStatus.Moves o.status (t.onOrder env.decodeNull db o).status) : Issued db' := by
  have heffect := effect_of_exec hexec ht
  have hcerts : ∀ c, c ∈ db'.certificates.rows ↔
      (∃ c₀ ∈ db.certificates.rows, t.onCert c₀ = c) ∨ c ∈ t.newCerts out := by
    simp [heffect.certificates]
  have horders : ∀ o, o ∈ db'.orders.rows ↔
      (∃ o₀ ∈ db.orders.rows, t.onOrder env.decodeNull db o₀ = o) ∨ o ∈ t.newOrders := by
    simp [heffect.orders]
  have hid := t.id_onOrder env.decodeNull db
  have hstar : ∀ o, (t.onOrder env.decodeNull db o).isStar = o.isStar :=
    fun o ↦ (congrArg OrderRow.isStar (t.fixed_onOrder env.decodeNull db o) :)
  -- the order of a certificate, old or new, was there before the transaction
  have hold : ∀ c ∈ db'.certificates.rows, ∃ o ∈ db.orders.rows, o.id = c.orderId := by
    intro c hc
    rcases (hcerts c).mp hc with ⟨c₀, hc₀, rfl⟩ | hnew
    · rw [t.orderId_onCert]
      exact h.order c₀ hc₀
    · obtain ⟨o, ho, hoid, -⟩ := order_of_newCert hexec hsound hnew
      exact ⟨o, ho, hoid⟩
  have hnewOrder : ∀ o ∈ t.newOrders, ∀ c ∈ db'.certificates.rows, c.orderId ≠ o.id := by
    intro o ho c hc heq
    obtain ⟨o', ho', hid'⟩ := hold c hc
    exact heffect.fresh_order ho' ho (hid'.trans heq)
  refine ⟨fun c hc ↦ ?_, fun o ho hns c hc c' hc' hco hco' ↦ ?_, fun o ho hns hnv c hc ↦ ?_⟩
  · obtain ⟨o, ho, hoid⟩ := hold c hc
    exact ⟨_, (horders _).mpr (.inl ⟨o, ho, rfl⟩), (hid o).trans hoid⟩
  · rcases (horders o).mp ho with ⟨o₀, ho₀, rfl⟩ | hnew
    · rw [hid] at hco hco'
      rw [hstar] at hns
      -- a new certificate next to an old one would be for an order without any
      have hmixed : ∀ c₁ ∈ t.newCerts out, c₁.orderId = o₀.id →
          ∀ c₂ ∈ db.certificates.rows, c₂.orderId ≠ o₀.id := by
        intro c₁ hc₁ hid₁
        obtain ⟨o₁, ho₁, hoid₁, hcase⟩ := order_of_newCert hexec hsound hc₁
        obtain rfl : o₁ = o₀ := db.orders.eq_of_mem_of_key_eq ho₁ ho₀ (hoid₁.trans hid₁)
        rcases hcase with hstar' | ⟨hnotValid, -⟩
        · simp [hns] at hstar'
        · exact h.unissued o₁ ho₁ hns hnotValid
      rcases (hcerts c).mp hc with ⟨c₀, hc₀, rfl⟩ | hnew <;>
        rcases (hcerts c').mp hc' with ⟨c₀', hc₀', rfl⟩ | hnew'
      · rw [t.orderId_onCert] at hco hco'
        rw [h.once o₀ ho₀ hns c₀ hc₀ c₀' hc₀' hco hco']
      · rw [t.orderId_onCert] at hco
        exact absurd hco (hmixed c' hnew' hco' c₀ hc₀)
      · rw [t.orderId_onCert] at hco'
        exact absurd hco' (hmixed c hnew hco c₀' hc₀')
      · exact Txn.eq_of_mem_newCerts hnew hnew'
    · exact absurd hco (hnewOrder o hnew c hc)
  · rcases (horders o).mp ho with ⟨o₀, ho₀, rfl⟩ | hnew
    · rw [hid]
      rw [hstar] at hns
      refine orderId_ne_of_not_valid h hexec hsound ht ho₀ hns (fun hvalid ↦ hnv ?_) hnv hc
      rw [(hmoves o₀ ho₀).eq_of_final (.inl hvalid), hvalid]
    · exact hnewOrder o hnew c hc

end IssuedStep

/-! ## The orders that the upstream loop drives -/

structure Driving (s : Node) : Prop where
  unfinished : ∀ d ∈ s.upstream, ∃ o ∈ s.db.orders.rows, o.id = d.order.id ∧
    (o.status = .processing ∨ o.status = .invalid)
  distinct : (s.upstream.map fun d ↦ d.order.id).Nodup

section Run

variable {env : Env} {H : Assumed} {s : Node} {e : Event} {t : Txn}

theorem moves_of_attempt (hsound : s.Sound env H) (hdriving : Driving s)
    (hok : DecidesInTime env s e) (hattempt : s.attempt e = some t) (ho : o ∈ s.db.orders.rows) :
    OrderStatus.Moves o.status (t.onOrder env.decodeNull s.db o).status := by
  refine moves_onOrder (hok t hattempt o ho) ?_
  rintro id error now rfl hid
  obtain ⟨d, rest, answer, now', hqueue, -, hdrive⟩ := hsound.attempt_upstream hattempt rfl
  obtain rfl : id = d.order.id := by
    rcases drive_fst hdrive with ⟨_, h⟩ | ⟨_, h⟩ | ⟨_, _, h⟩ <;> cases h
    rfl
  obtain ⟨o', ho', hid', hstatus⟩ := hdriving.unfinished d (by simp [hqueue])
  obtain rfl : o' = o := s.db.orders.eq_of_mem_of_key_eq ho' ho (hid'.trans hid.symm)
  rcases hstatus with h | h <;> simp [h]

/-- An unfinished order stays unfinished unless its certificate arrives. -/
theorem unfinished_of_attempt (hsound : s.Sound env H) (hdriving : Driving s)
    (hok : DecidesInTime env s e) (hattempt : s.attempt e = some t) (ho : o ∈ s.db.orders.rows)
    (hstatus : o.status = .processing ∨ o.status = .invalid)
    (hopen : ∀ cert certUrl now, t = .completeOrder cert certUrl now → o.id ≠ cert.orderId) :
    (t.onOrder env.decodeNull s.db o).status = .processing ∨
      (t.onOrder env.decodeNull s.db o).status = .invalid := by
  have hmoves := moves_of_attempt hsound hdriving hok hattempt ho
  rcases hstatus with hproc | hinvalid
  · by_cases hvalid : (t.onOrder env.decodeNull s.db o).status = .valid
    · obtain ⟨cert, certUrl, now, ht, hid⟩ := completes_of_valid hproc hvalid
      exact absurd hid (hopen cert certUrl now ht)
    · rw [hproc] at hmoves
      generalize (t.onOrder env.decodeNull s.db o).status = status at hmoves hvalid ⊢
      cases hmoves with
      | stay => exact .inl rfl
      | completed => exact absurd rfl hvalid
      | failed => exact .inr rfl
  · rw [hmoves.eq_of_final (.inr hinvalid)]
    exact .inr hinvalid

theorem driven_of_step {d : Driven} (hdriving : Driving s)
    (hd : d ∈ (Node.step env s e).1.upstream) :
    (∃ d' ∈ s.upstream, d'.order = d.order ∧
        ∀ t, s.attempt e = some t → s.Sound env H →
          ∀ cert certUrl now, t = .completeOrder cert certUrl now → d.order.id ≠ cert.orderId) ∨
      (Node.step env s e).1.db = s.db ∧ d.order ∈ Orders.listPendingDelegationOrders s.db := by
  rcases upstream_of_step env s e with
    ⟨d₀, rest, answer, now, rfl, hqueue, hnext⟩ | ⟨hidle, hsame | hnil | ⟨hdb, hlist⟩⟩
  · left
    have hdistinct := hdriving.distinct
    rw [hqueue, map_cons, nodup_cons] at hdistinct
    have hattempt : s.attempt (.upstream answer now) = (Node.drive d₀ rest answer now).1 := by
      simp [Node.attempt, hqueue]
    rw [hnext] at hd
    rcases drive_snd d₀ rest answer now with hrest | ⟨hstarted, url, hurl⟩
    · rw [hrest] at hd
      refine ⟨d, by simp [hqueue, hd], rfl, ?_⟩
      rintro t ht - cert certUrl now' rfl heq
      rw [hattempt] at ht
      obtain ⟨issued, _, h⟩ : ∃ issued certUrl',
          Txn.completeOrder cert certUrl now' = .completeOrder (certRow d₀.order issued now)
            certUrl' now := by
        rcases drive_fst ht with ⟨_, h⟩ | ⟨_, h⟩ | h
        · cases h
        · cases h
        · exact h
      cases h
      exact hdistinct.1 (mem_map.mpr ⟨d, hd, heq⟩)
    · rw [hstarted] at hd
      have hmem : ∃ d' ∈ s.upstream, d'.order = d.order := by
        rcases mem_cons.mp hd with rfl | hd
        · exact ⟨d₀, by simp [hqueue], rfl⟩
        · exact ⟨d, by simp [hqueue, hd], rfl⟩
      obtain ⟨d', hd', horder⟩ := hmem
      refine ⟨d', hd', horder, ?_⟩
      rintro t ht - cert certUrl now' rfl
      rw [hattempt, hurl] at ht
      cases ht
  · left
    rw [hsame] at hd
    refine ⟨d, hd, rfl, ?_⟩
    rintro t ht hsound cert certUrl now rfl
    obtain ⟨d₀, rest, answer, now', hqueue, he, -⟩ := hsound.attempt_upstream ht rfl
    simp [hidle answer now' he] at hqueue
  · rw [hnil] at hd
    cases hd
  · right
    rw [hlist] at hd
    obtain ⟨o, ho, rfl⟩ := mem_map.mp hd
    exact ⟨hdb, ho⟩

theorem Driving.distinct_step (hdriving : Driving s) :
    ((Node.step env s e).1.upstream.map fun d ↦ d.order.id).Nodup := by
  rcases upstream_of_step env s e with
    ⟨d₀, rest, answer, now, -, hqueue, hnext⟩ | ⟨-, hsame | hnil | ⟨-, hlist⟩⟩
  · have hdistinct := hdriving.distinct
    rw [hqueue] at hdistinct
    rw [hnext]
    rcases drive_snd d₀ rest answer now with hrest | ⟨hstarted, -⟩
    · rw [hrest]
      exact (nodup_cons.mp hdistinct).2
    · rw [hstarted]
      exact hdistinct
  · rw [hsame]
    exact hdriving.distinct
  · simp [hnil]
  · rw [hlist, map_map]
    exact s.db.orders.nodup.sublist (filter_sublist.map _)

theorem Driving.step (hsound : s.Sound env H) (hgossip : env.config.gossip = false)
    (hdriving : Driving s) (hok : DecidesInTime env s e) : Driving (Node.step env s e).1 := by
  refine ⟨fun d hd ↦ ?_, hdriving.distinct_step⟩
  rcases driven_of_step (H := H) hdriving hd with ⟨d', hd', horder, hopen⟩ | ⟨hdb, hlisted⟩
  · obtain ⟨o, ho, hid, hstatus⟩ := hdriving.unfinished d' hd'
    rw [horder] at hid
    refine db_rule ⟨o, ho, hid, hstatus⟩ fun t out db' hattempt hexec ↦ ?_
    have heffect := effect_of_exec hexec (hsound.ne_persist hgossip hattempt)
    refine ⟨t.onOrder env.decodeNull s.db o, mem_of_map_append heffect.orders ho,
      (t.id_onOrder _ _ o).trans hid, ?_⟩
    refine unfinished_of_attempt hsound hdriving hok hattempt ho hstatus ?_
    intro cert certUrl now ht
    rw [hid]
    exact hopen t hattempt hsound cert certUrl now ht
  · simp only [Orders.listPendingDelegationOrders, mem_filter, Bool.and_eq_true,
      beq_iff_eq] at hlisted
    rw [hdb]
    exact ⟨d.order, hlisted.1, rfl, .inl hlisted.2.1.2⟩

/-! ## Whole runs -/

structure Orderly (env : Env) (s : Node) : Prop where
  sound : s.Sound env .nothing
  driving : Driving s
  issued : Issued s.db

theorem orderly_boot (env : Env) (now : Int) : Orderly env (.boot env now) where
  sound := sound_boot env _ now
  driving := ⟨by simp [Node.boot], by simp [Node.boot]⟩
  issued := ⟨by simp [Node.boot, Db.empty], by simp [Node.boot, Db.empty],
    by simp [Node.boot, Db.empty]⟩

theorem quiet_of_attempt (hsound : s.Sound env H) (hgossip : env.config.gossip = false) :
    ∀ t ∈ s.attempt e, Quiet s.db t :=
  fun _ ht ↦ quiet_of_ne_persist (hsound.ne_persist hgossip ht)

theorem Orderly.step (hgossip : env.config.gossip = false) (h : Orderly env s)
    (hok : DecidesInTime env s e) : Orderly env (Node.step env s e).1 where
  sound := h.sound.step (admits_nothing env s e)
    (extends_of_step (quiet_of_attempt h.sound hgossip)) fun _ _ _ ↦ trivial
  driving := h.driving.step h.sound hgossip hok
  issued := by
    refine db_rule h.issued fun t out db' hattempt hexec ↦ ?_
    exact h.issued.exec hexec (h.sound.attempt hattempt) (h.sound.ne_persist hgossip hattempt)
      fun o ho ↦ moves_of_attempt h.sound h.driving hok hattempt ho

theorem Orderly.moves (hgossip : env.config.gossip = false) (h : Orderly env s)
    (hok : DecidesInTime env s e) (ho : o ∈ s.db.orders.rows) :
    ∃ o' ∈ (Node.step env s e).1.db.orders.rows, o'.id = o.id ∧
      OrderStatus.Moves o.status o'.status := by
  refine db_rule ⟨o, ho, rfl, .stay _⟩ fun t out db' hattempt hexec ↦ ?_
  have heffect := effect_of_exec hexec (h.sound.ne_persist hgossip hattempt)
  exact ⟨t.onOrder env.decodeNull s.db o, mem_of_map_append heffect.orders ho,
    t.id_onOrder _ _ o, moves_of_attempt h.sound h.driving hok hattempt ho⟩

theorem Orderly.final (hgossip : env.config.gossip = false) (h : Orderly env s) {fs : List Event}
    (hmeets : Meets (Node.step env) (DecidesInTime env) s fs) (ho : o ∈ s.db.orders.rows)
    (hfinal : o.status = .valid ∨ o.status = .invalid) :
    ∃ o' ∈ (run (Node.step env) s fs).db.orders.rows, o'.id = o.id ∧ o'.status = o.status := by
  refine (hmeets.invariant (fun s ↦ Orderly env s ∧
    ∃ o' ∈ s.db.orders.rows, o'.id = o.id ∧ o'.status = o.status) ⟨h, o, ho, rfl, rfl⟩ ?_).2
  rintro s e ⟨hs, o₁, ho₁, hid₁, hstatus₁⟩ hok
  obtain ⟨o₂, ho₂, hid₂, hmoves⟩ := hs.moves hgossip hok ho₁
  refine ⟨hs.step hgossip hok, o₂, ho₂, hid₂.trans hid₁, ?_⟩
  rw [hmoves.eq_of_final (by rwa [hstatus₁]), hstatus₁]

end Run

/-- In every run in which validations are decided in time: each step moves each
order along the state machine, a valid or invalid order stays so, and an order
that is not a STAR order has at most one certificate. -/
theorem order_lifecycle {env : Env} (hgossip : env.config.gossip = false) (now : Int) :
    (∀ es e, Meets (Node.step env) (DecidesInTime env) (.boot env now) (es ++ [e]) →
        ∀ o ∈ (run (Node.step env) (.boot env now) es).db.orders.rows,
          ∃ o' ∈ (run (Node.step env) (.boot env now) (es ++ [e])).db.orders.rows,
            o'.id = o.id ∧ OrderStatus.Moves o.status o'.status) ∧
      (∀ es fs, Meets (Node.step env) (DecidesInTime env) (.boot env now) (es ++ fs) →
        ∀ o ∈ (run (Node.step env) (.boot env now) es).db.orders.rows,
          o.status = .valid ∨ o.status = .invalid →
          ∃ o' ∈ (run (Node.step env) (.boot env now) (es ++ fs)).db.orders.rows,
            o'.id = o.id ∧ o'.status = o.status) ∧
      ∀ es, Meets (Node.step env) (DecidesInTime env) (.boot env now) es →
        ∀ o ∈ (run (Node.step env) (.boot env now) es).db.orders.rows, o.isStar = false →
          ∀ c ∈ (run (Node.step env) (.boot env now) es).db.certificates.rows,
            ∀ c' ∈ (run (Node.step env) (.boot env now) es).db.certificates.rows,
              c.orderId = o.id → c'.orderId = o.id → c = c' := by
  have horderly : ∀ es, Meets (Node.step env) (DecidesInTime env) (.boot env now) es →
      Orderly env (run (Node.step env) (.boot env now) es) := fun es hmeets ↦
    hmeets.invariant (Orderly env) (orderly_boot env now) fun s e h hok ↦ h.step hgossip hok
  refine ⟨fun es e hmeets o ho ↦ ?_, fun es fs hmeets o ho hfinal ↦ ?_, fun es hmeets ↦ ?_⟩
  · rw [meets_append] at hmeets
    rw [run_concat]
    exact (horderly es hmeets.1).moves hgossip hmeets.2.1 ho
  · rw [meets_append] at hmeets
    rw [run_append]
    exact (horderly es hmeets.1).final hgossip hmeets.2 ho hfinal
  · exact (horderly es hmeets).issued.once

/-! ## Two challenges of one authorization -/

def plainEnv : Env := ⟨Config.plain, Library.numbered⟩

def runPlain (es : List Event) : Node := run (Node.step plainEnv) (.boot plainEnv 0) es

/-- The dns-01 challenge has succeeded but is not yet recorded when the http-01
challenge is answered, recorded, and the order finalized. -/
def raceEvents : List Event :=
  accountEvents ++ orderEvents ++
    [.request (.respondChallenge "acct-1" "ca" "authz-1-0" .dns01 (.ok ())) 3] ++ drain 4 3 ++
    [.request (.respondChallenge "acct-1" "ca" "authz-1-0" .http01 (.ok ())) 3] ++
    List.replicate 7 (.advance 1 3 Input.plain) ++
    [.request (.finalize
      { accountId := "acct-1", caId := "ca", orderId := "order-1", csr := "1a.example" }) 4] ++
    List.replicate 7 (.advance 1 4 Input.plain)

/-- The second success makes the valid order ready again, and it can be
finalized once more. -/
theorem valid_order_ready_again :
    (runPlain raceEvents).db.orders.rows.map (fun o ↦ (o.id, o.status)) =
        [("order-1", .valid)] ∧
      (runPlain (raceEvents ++ drain 1 5)).db.orders.rows.map (fun o ↦ (o.id, o.status)) =
        [("order-1", .ready)] ∧
      (runPlain (raceEvents ++ drain 3 5 ++ finalizeEvents "2" 6)).db.orders.rows.map
          OrderRow.isStar = [false] ∧
      (runPlain (raceEvents ++ drain 3 5 ++ finalizeEvents "2" 6)).db.certificates.rows.map
          (fun c ↦ (c.id, c.orderId)) = [("cert-1", "order-1"), ("cert-2", "order-1")] := by
  decide +kernel

def issueEvents : List Event :=
  accountEvents ++ orderEvents ++ validateEvents ++ finalizeEvents "1" 4

/-- With one challenge the order stays valid, here over a restart. -/
theorem single_challenge_stays_valid :
    ∃ o ∈ (runPlain (issueEvents ++ [.restart 0 5])).db.orders.rows,
      o.id = "order-1" ∧ o.status = .valid := by
  have hissued : ∃ o ∈ (runPlain issueEvents).db.orders.rows,
      o.id = "order-1" ∧ o.status = .valid := by decide +kernel
  obtain ⟨o, ho, hid, hvalid⟩ := hissued
  have hmeets : Meets (Node.step plainEnv) (DecidesInTime plainEnv) (.boot plainEnv 0)
      (issueEvents ++ [.restart 0 5]) := by decide +kernel
  obtain ⟨o', ho', hid', hstatus⟩ :=
    (order_lifecycle rfl 0).2.1 issueEvents [.restart 0 5] hmeets o ho (.inl hvalid)
  exact ⟨o', ho', hid'.trans hid, hstatus.trans hvalid⟩

end Akamu
