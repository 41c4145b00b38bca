import Akamu.Orders.Star

/-!
# Renewals of STAR orders

Which certificate is served while the renewal loop runs, and how far a renewal
moves the expiry on.
-/

namespace Akamu

open List Machine Option

def serveStarCert (db : Db) (order : OrderRow) (now : Int) : Except AcmeError CertificateRow :=
  if order.starCanceledAt.isSome then .error .autoRenewalCanceled
  else if order.status ≠ .valid then
    .error (.badRequest ("STAR order is not yet valid (status: " ++ order.status.asStr ++ ")"))
  else match Certs.getLatestForOrder db order.id with
    | none => .error .notFound
    | some cert =>
      if order.starEndDate.any fun d ↦ decide (d ≤ now) then
        .error (.badRequest "STAR order end-date has passed")
      else .ok cert

/-! ## The latest certificate -/

def newer (best : Option CertificateRow) (c : CertificateRow) : Option CertificateRow :=
  match best with
  | none => some c
  | some b => if b.created < c.created then some c else some b

theorem newer_cases (best : Option CertificateRow) (c : CertificateRow) :
    newer best c = best ∨ newer best c = some c := by
  unfold newer
  cases best with
  | none => exact .inr rfl
  | some =>
    dsimp only
    split
    · exact .inr rfl
    · exact .inl rfl

theorem foldl_newer_cases (rows : List CertificateRow) (best : Option CertificateRow) :
    rows.foldl newer best = best ∨ ∃ c ∈ rows, rows.foldl newer best = some c := by
  induction rows generalizing best with
  | nil => exact .inl rfl
  | cons c rows ih =>
    rw [foldl_cons]
    rcases ih (newer best c) with h | ⟨d, hd, h⟩
    · rw [h]
      exact (newer_cases best c).imp id fun hc ↦ ⟨c, mem_cons_self, hc⟩
    · exact .inr ⟨d, mem_cons_of_mem c hd, h⟩

/-- The certificates of an order, oldest row first. -/
def starCerts (db : Db) (orderId : String) : List CertificateRow :=
  db.certificates.rows.filter fun c ↦ c.orderId == orderId

theorem getLatestForOrder_eq (db : Db) (orderId : String) :
    Certs.getLatestForOrder db orderId = (starCerts db orderId).foldl newer none := rfl

theorem getLatestForOrder_of_append {db db' : Db} {cert : CertificateRow} {orderId : String}
    (hrows : starCerts db' orderId = starCerts db orderId ++ [cert])
    (hnewer : ∀ c ∈ starCerts db orderId, c.created < cert.created) :
    Certs.getLatestForOrder db' orderId = some cert := by
  rw [getLatestForOrder_eq, hrows, foldl_concat]
  rcases foldl_newer_cases (starCerts db orderId) none with h | ⟨c, hc, h⟩
  · rw [h]
    rfl
  · rw [h]
    exact if_pos (hnewer c hc)

/-! ## One renewal -/

section Renewal

variable {env : Env} {db : Db} {now signedAt endDate lifetime : Int} {order : OrderRow}
  {latest cert : CertificateRow}

/-- The window of a renewal: from the clamped start to the end that the loop asks
for, or a validity period long if that end has passed. -/
structure RenewalWindow (ca : CaState) (order : OrderRow) (endDate lifetime now signedAt : Int)
    (latest cert : CertificateRow) : Prop where
  active : now < endDate
  due : latest.notAfter - lifetime.tdiv 2 ≤ now
  row : cert.orderId = order.id ∧ cert.created = now ∧ cert.replacedBy = none
  first : cert.notBefore = max (renewalStart order latest now) (signedAt - 300)
  last : cert.notAfter = min (addI64 (renewalStart order latest now) lifetime) endDate ∨
    cert.notAfter = addSecs cert.notBefore (ca.validityDays.toNat * 86400) ∧
      min (addI64 (renewalStart order latest now) lifetime) endDate ≤ cert.notBefore

theorem renewalWindow_of_run (hend : order.starEndDate = some endDate)
    (hlife : order.starLifetimeSecs = some lifetime)
    (hlatest : Certs.getLatestForOrder db order.id = some latest)
    (h : starRunOnce env db now signedAt order = .ok [.commit (.starRenew cert now)]) :
    ∃ ca issued, env.config.getCa order.caId = some ca ∧ cert = certRow order issued now ∧
      env.library.lintIssuedCert signedAt issued = .ok () ∧
      RenewalWindow ca order endDate lifetime now signedAt latest cert := by
  obtain hnone | ⟨_, _, _, ca, csr, issued, hend', hlife', hlatest', ⟨hactive, hdue, hca⟩, hissued,
    hcert⟩ := starRunOnce_cases h
  · cases hnone
  cases hcert
  obtain rfl := some.inj (hend.symm.trans hend')
  obtain rfl := some.inj (hlife.symm.trans hlife')
  obtain rfl := some.inj (hlatest.symm.trans hlatest')
  obtain ⟨hwindow, hlint⟩ := issueCertificate_eq_ok hissued
  obtain ⟨hfirst, hlast⟩ := resolveClampedValidity_cases hwindow
  refine ⟨ca, issued, hca, rfl, hlint, hactive, hdue, ⟨rfl, rfl, rfl⟩, hfirst, ?_⟩
  rcases hlast with ⟨hlast, hle⟩ | ⟨-, hlast⟩
  · exact .inr ⟨hlast, hle _ rfl⟩
  · exact .inl (some.inj hlast).symm

/-- A renewal of a certificate that expires before the end date expires later,
by half a lifetime unless it reaches the end date. -/
theorem RenewalWindow.progress {ca : CaState}
    (h : RenewalWindow ca order endDate lifetime now signedAt latest cert)
    (hpos : 0 < lifetime) (hclock : 0 ≤ now) (hsigned : signedAt < 2 ^ 62)
    (hlatest : 0 ≤ latest.notAfter)
    (hadjust : 0 ≤ order.starLifetimeAdjustSecs ∧ 2 * order.starLifetimeAdjustSecs ≤ lifetime)
    (hrange : endDate + lifetime < 2 ^ 63) (hbefore : latest.notAfter < endDate) :
    latest.notAfter < cert.notAfter ∧
      (lifetime ≤ 2 * (cert.notAfter - latest.notAfter) ∨ endDate ≤ cert.notAfter) := by
  obtain ⟨hactive, hdue, -, hfirst, hlast⟩ := h
  rw [Int.tdiv_eq_ediv_of_nonneg hpos.le] at hdue
  have hdays := ca.validityDays.toNat_lt
  have hstart : latest.notAfter ≤ renewalStart order latest now + lifetime / 2 ∧
      renewalStart order latest now < endDate := by
    unfold renewalStart
    split <;> omega
  rw [addI64_eq ⟨by omega, by omega⟩] at hlast
  rcases hlast with hlast | ⟨hlast, hpassed⟩
  · omega
  · -- the start is the clamped one, far from the end of the range
    rw [addSecs, if_pos (by push_cast; omega)] at hlast
    push_cast at hlast
    omega

end Renewal

/-! ## Progress -/

def renewal (env : Env) (db : Db) (now signedAt : Int) (order : OrderRow) :
    Option CertificateRow :=
  match starRunOnce env db now signedAt order with
  | .ok [.commit (.starRenew cert _)] => some cert
  | _ => none

theorem starRunOnce_of_renewal {env : Env} {db : Db} {now signedAt : Int} {order : OrderRow}
    {cert : CertificateRow} (h : renewal env db now signedAt order = some cert) :
    starRunOnce env db now signedAt order = .ok [.commit (.starRenew cert now)] := by
  unfold renewal at h
  cases hrun : starRunOnce env db now signedAt order with
  | error => simp [hrun] at h
  | ok =>
    rw [hrun] at h
    obtain rfl | ⟨_, _, _, _, _, issued, -, -, -, -, -, rfl⟩ := starRunOnce_cases hrun
    · cases h
    · cases h
      rfl

/-- One run of the loop that replaces `latest` by `cert`. -/
def Renews (env : Env) (order : OrderRow) (latest cert : CertificateRow) : Prop :=
  ∃ db now signedAt, 0 ≤ now ∧ signedAt < 2 ^ 62 ∧
    Certs.getLatestForOrder db order.id = some latest ∧
    renewal env db now signedAt order = some cert

/-- While the certificates expire before the end date and start no earlier than
half a lifetime before their predecessors expire, every renewal expires later,
and there are no more of them than half lifetimes until the end date. -/
theorem length_of_renews (env : Env) (order : OrderRow) (endDate lifetime : Int)
    (hend : order.starEndDate = some endDate) (hlife : order.starLifetimeSecs = some lifetime)
    (hpos : 0 < lifetime) (hrange : endDate + lifetime < 2 ^ 63)
    (hadjust : 0 ≤ order.starLifetimeAdjustSecs ∧ 2 * order.starLifetimeAdjustSecs ≤ lifetime)
    (first : CertificateRow) (certs : List CertificateRow)
    (hfirst : 0 ≤ first.notAfter ∧ first.notBefore ≤ first.notAfter ∧ first.notBefore ≤ endDate)
    (hchain : (first :: certs).IsChain fun latest cert ↦
      Renews env order latest cert ∧ latest.notAfter < endDate) :
    (first :: certs).IsChain (fun latest cert ↦ latest.notAfter < cert.notAfter) ∧
      certs.length * lifetime ≤ 2 * (endDate - first.notBefore) + lifetime := by
  obtain ⟨hnonneg, hordered, hstarts⟩ := hfirst
  suffices hmain : (first :: certs).IsChain (fun latest cert ↦ latest.notAfter < cert.notAfter) ∧
      (certs = [] ∨ certs.length * lifetime ≤ 2 * (endDate - first.notAfter) + lifetime) by
    refine ⟨hmain.1, ?_⟩
    rcases hmain.2 with rfl | hlength
    · simp only [List.length_nil, Nat.cast_zero, zero_mul]
      omega
    · omega
  clear hordered hstarts
  -- the expiry of the certificate at the head is the clock of the induction
  induction certs generalizing first with
  | nil => exact ⟨.singleton first, .inl rfl⟩
  | cons cert certs ih =>
    obtain ⟨⟨⟨db, now, signedAt, hclock, hsigned, hlatest, hrun⟩, hbefore⟩, hrest⟩ :=
      List.isChain_cons_cons.mp hchain
    obtain ⟨ca, -, -, -, -, hwindow⟩ :=
      renewalWindow_of_run hend hlife hlatest (starRunOnce_of_renewal hrun)
    obtain ⟨hlater, hstep⟩ :=
      hwindow.progress hpos hclock hsigned hnonneg hadjust hrange hbefore
    obtain ⟨hsorted, hlength⟩ := ih cert hrest (by omega)
    refine ⟨.cons_cons hlater hsorted, .inr ?_⟩
    rw [List.length_cons, Nat.cast_succ, add_mul, one_mul]
    rcases hlength with rfl | hlength
    · simp only [List.length_nil, Nat.cast_zero, zero_mul]
      omega
    · cases certs with
      | nil =>
        simp only [List.length_nil, Nat.cast_zero, zero_mul]
        omega
      | cons next =>
        -- the next renewal replaces `cert`, so this one did not reach the end date
        have hopen : cert.notAfter < endDate := (List.isChain_cons_cons.mp hrest).1.2
        omega

/-! ## The loop -/

/-- A run of `run_once` for the order: the clock of the loop, and the one of the
signing thread, after which the renewal is stored. -/
structure Poll where
  now : Int
  signedAt : Int

structure StarLoop where
  db : Db
  polledAt : Int
  servedAt : Int

namespace StarLoop

def poll (env : Env) (order : OrderRow) (s : StarLoop) (p : Poll) : StarLoop × Unit :=
  (match starRunOnce env s.db p.now p.signedAt order with
    | .ok [.commit t] =>
      match exec env.library.decodeNull s.db t with
      | .ok (db, _) => ⟨db, p.now, p.signedAt⟩
      | .error _ => ⟨s.db, p.now, p.signedAt⟩
    | _ => ⟨s.db, p.now, p.signedAt⟩, ())

/-- The renewal is stored, or it is not due. -/
def succeeds (env : Env) (order : OrderRow) (s : StarLoop) (p : Poll) : Bool :=
  match starRunOnce env s.db p.now p.signedAt order with
  | .ok [.commit t] =>
    match exec env.library.decodeNull s.db t with
    | .ok (_, o) => o.hit
    | .error _ => false
  | .ok [] => (Certs.getLatestForOrder s.db order.id).any fun latest ↦
      order.starLifetimeSecs.any fun l ↦ decide (p.now < latest.notAfter - l.tdiv 2)
  | _ => false

section Step

variable {env : Env} {order : OrderRow} {endDate lifetime : Int} {s : StarLoop} {p : Poll}

@[simp] theorem poll_polledAt : (s.poll env order p).1.polledAt = p.now := by
  unfold poll
  split
  · split <;> rfl
  · rfl

@[simp] theorem poll_servedAt : (s.poll env order p).1.servedAt = p.signedAt := by
  unfold poll
  split
  · split <;> rfl
  · rfl

theorem starCerts_of_renew {cert : CertificateRow} {db : Db} {o : Outcome}
    (hexec : execStarRenew s.db cert p.now = .ok (db, o)) (horder : cert.orderId = order.id)
    (hreplaced : cert.replacedBy = none) :
    starCerts db order.id = starCerts s.db order.id ++ if o.hit then [cert] else [] := by
  have heffect : Effect (.ok "") s.db (.starRenew cert p.now) o db := effect_starRenew hexec
  rw [starCerts, heffect.certificates]
  have hcert : { cert with replacedBy := none } = cert := by rw [← hreplaced]
  rw [horder] at hcert
  cases hhit : o.hit <;> simp [Txn.onCert, Txn.newCerts, hhit, starCerts, hcert, horder]

/-- A run leaves the order's certificates alone or adds the renewal to them. -/
theorem poll_cases (env : Env) (order : OrderRow) (s : StarLoop) (p : Poll) :
    starCerts (s.poll env order p).1.db order.id = starCerts s.db order.id ∧
        (s.succeeds env order p = true → ∃ latest l,
          Certs.getLatestForOrder s.db order.id = some latest ∧
          order.starLifetimeSecs = some l ∧ p.now < latest.notAfter - l.tdiv 2) ∨
      ∃ cert, starRunOnce env s.db p.now p.signedAt order =
          .ok [.commit (.starRenew cert p.now)] ∧ cert.created = p.now ∧
        starCerts (s.poll env order p).1.db order.id = starCerts s.db order.id ++ [cert] := by
  unfold poll succeeds
  cases hrun : starRunOnce env s.db p.now p.signedAt order with
  | error => exact .inl ⟨rfl, by simp⟩
  | ok =>
    obtain rfl | ⟨_, _, _, _, _, issued, -, -, -, -, -, rfl⟩ := starRunOnce_cases hrun
    · refine .inl ⟨rfl, fun h ↦ ?_⟩
      obtain ⟨latest, hlatest, h⟩ := any_eq_true _ _ |>.mp h
      obtain ⟨l, hl, h⟩ := any_eq_true _ _ |>.mp h
      exact ⟨latest, l, hlatest, hl, by simpa using h⟩
    · dsimp only
      split
      · rename_i db o hexec
        have hcerts : starCerts db order.id = _ := starCerts_of_renew hexec rfl rfl
        cases hhit : o.hit with
        | false => exact .inl ⟨by simpa [hhit] using hcerts, by simp⟩
        | true => exact .inr ⟨_, rfl, rfl, by simpa [hhit] using hcerts⟩
      · exact .inl ⟨rfl, by simp⟩

end Step

/-! ## The number of renewals -/

/-- The run comes after the certificates, and if it renews one, then one that
expires before the end date. -/
structure Open (order : OrderRow) (endDate lifetime : Int) (s : StarLoop) (p : Poll) : Prop where
  clock : 0 ≤ p.now ∧ p.signedAt < 2 ^ 62
  later : ∀ c ∈ starCerts s.db order.id, c.created < p.now
  before : ∀ latest ∈ Certs.getLatestForOrder s.db order.id,
    latest.notAfter < endDate ∨ p.now < latest.notAfter - lifetime.tdiv 2

instance (order : OrderRow) (endDate lifetime : Int) (s : StarLoop) (p : Poll) :
    Decidable (s.Open order endDate lifetime p) :=
  decidable_of_iff (_ ∧ _ ∧ _) ⟨fun h ↦ ⟨h.1, h.2.1, h.2.2⟩, fun h ↦ ⟨h.1, h.2, h.3⟩⟩

section Runs

variable {env : Env} {order : OrderRow} {endDate lifetime : Int}

/-- What a run adds to the certificates is a chain of renewals. -/
theorem renews_of_run (hend : order.starEndDate = some endDate)
    (hlife : order.starLifetimeSecs = some lifetime) {s : StarLoop} {first : CertificateRow}
    (hfirst : Certs.getLatestForOrder s.db order.id = some first) {polls : List Poll}
    (hpolls : Meets (poll env order) (Open order endDate lifetime) s polls) :
    ∃ certs, starCerts (run (poll env order) s polls).db order.id =
        starCerts s.db order.id ++ certs ∧
      (first :: certs).IsChain fun latest cert ↦
        Renews env order latest cert ∧ latest.notAfter < endDate := by
  induction polls generalizing s first with
  | nil => exact ⟨[], (append_nil _).symm, .singleton first⟩
  | cons p polls ih =>
    obtain ⟨hopen, hpolls⟩ := hpolls
    rcases poll_cases env order s p with
      ⟨hsame, -⟩ | ⟨cert, hrun, hcreated, hadded⟩
    · have hlatest : Certs.getLatestForOrder (s.poll env order p).1.db order.id = some first := by
        rw [getLatestForOrder_eq, hsame]
        exact hfirst
      obtain ⟨certs, hcerts, hchain⟩ := ih hlatest hpolls
      exact ⟨certs, hcerts.trans (by rw [hsame]), hchain⟩
    · have hlatest : Certs.getLatestForOrder (s.poll env order p).1.db order.id = some cert :=
        getLatestForOrder_of_append hadded fun c hc ↦ hcreated ▸ hopen.later c hc
      obtain ⟨certs, hcerts, hchain⟩ := ih hlatest hpolls
      refine ⟨cert :: certs, by rw [run_cons, hcerts, hadded, append_assoc, singleton_append],
        .cons_cons ⟨⟨s.db, p.now, p.signedAt, hopen.clock.1, hopen.clock.2, hfirst, ?_⟩, ?_⟩
          hchain⟩
      · simp [renewal, hrun]
      · obtain ⟨_, _, -, -, -, hwindow⟩ := renewalWindow_of_run hend hlife hfirst hrun
        have := hwindow.due
        have := hopen.before first hfirst
        omega

/-- In every run of the loop over an order, from its first certificate on: while
the certificates that are renewed expire before the end date and the renewals
start no earlier than half a lifetime before that, every certificate of the order
expires after the one before it, and the run adds no more of them than half
lifetimes until the end date. -/
theorem star_renewals_bounded (env : Env) (order : OrderRow) (endDate lifetime : Int)
    (hend : order.starEndDate = some endDate) (hlife : order.starLifetimeSecs = some lifetime)
    (hpos : 0 < lifetime) (hrange : endDate + lifetime < 2 ^ 63)
    (hadjust : 0 ≤ order.starLifetimeAdjustSecs ∧ 2 * order.starLifetimeAdjustSecs ≤ lifetime)
    (s : StarLoop) (first : CertificateRow)
    (hlatest : Certs.getLatestForOrder s.db order.id = some first)
    (hfirst : 0 ≤ first.notAfter ∧ first.notBefore ≤ first.notAfter ∧ first.notBefore ≤ endDate)
    (polls : List Poll) (hpolls : Meets (poll env order) (Open order endDate lifetime) s polls) :
    ∃ certs, starCerts (run (poll env order) s polls).db order.id =
        starCerts s.db order.id ++ certs ∧
      (first :: certs).IsChain (fun latest cert ↦ latest.notAfter < cert.notAfter) ∧
      certs.length * lifetime ≤ 2 * (endDate - first.notBefore) + lifetime := by
  obtain ⟨certs, hcerts, hchain⟩ := renews_of_run hend hlife hlatest hpolls
  obtain ⟨hsorted, hlength⟩ := length_of_renews env order endDate lifetime hend hlife hpos hrange
    hadjust first certs hfirst hchain
  exact ⟨certs, hcerts, hsorted, hlength⟩

end Runs

/-! ## Availability -/

/-- A run starts after the one before has ended and within a minute of its start,
stores what it renews within another, and its steps succeed. -/
def Regular (env : Env) (order : OrderRow) (s : StarLoop) (p : Poll) : Prop :=
  s.polledAt < p.now ∧ s.servedAt ≤ p.now ∧ p.now ≤ s.polledAt + 60 ∧ p.now ≤ p.signedAt ∧
    p.signedAt < p.now + 60 ∧ s.succeeds env order p = true

instance (env : Env) (order : OrderRow) (s : StarLoop) (p : Poll) :
    Decidable (s.Regular env order p) :=
  inferInstanceAs (Decidable (_ ∧ _))

/-- The latest certificate has started and lasts until the next one is stored. -/
structure Usable (order : OrderRow) (endDate : Int) (s : StarLoop) : Prop where
  clock : 0 ≤ s.polledAt
  created : ∀ c ∈ starCerts s.db order.id, c.created ≤ s.polledAt
  latest : ∃ cert, Certs.getLatestForOrder s.db order.id = some cert ∧
    cert.notBefore ≤ s.servedAt ∧ (s.polledAt + 120 < cert.notAfter ∨ endDate ≤ cert.notAfter)

/-- The sum of a start before the end date and the lifetime is in range, or the
CA's validity period, which is used otherwise, is not empty. -/
def InRange (env : Env) (order : OrderRow) (endDate lifetime : Int) : Prop :=
  endDate + lifetime < 2 ^ 63 ∨ endDate < 2 ^ 63 ∧ lifetime < 2 ^ 63 ∧
    ∀ ca, env.config.getCa order.caId = some ca → 0 < ca.validityDays.toNat

section Step

variable {env : Env} {order : OrderRow} {endDate lifetime : Int} {s : StarLoop} {p : Poll}

/-- The certificate starts by the time it is stored, and it lasts until the next
one is or to the end date. -/
theorem window_of_renewal {ca : CaState} {latest cert : CertificateRow} (hlong : 240 ≤ lifetime)
    (hadjust : order.starLifetimeAdjustSecs + 60 ≤ lifetime)
    (hrange : endDate + lifetime < 2 ^ 63 ∨
      endDate < 2 ^ 63 ∧ lifetime < 2 ^ 63 ∧ 0 < ca.validityDays.toNat)
    (hclock : 0 ≤ p.now ∧ p.now ≤ p.signedAt ∧ p.signedAt < p.now + 60)
    (hlatest : p.now + 60 < latest.notAfter ∨ endDate ≤ latest.notAfter)
    (hlint : cert.notBefore ≤ p.signedAt ∧ p.signedAt ≤ cert.notAfter)
    (h : RenewalWindow ca order endDate lifetime p.now p.signedAt latest cert) :
    p.now + 120 < cert.notAfter ∨ endDate ≤ cert.notAfter := by
  obtain ⟨hactive, hdue, -, hfirst, hlast⟩ := h
  have hdays := ca.validityDays.toNat_lt
  have hasked : p.now + 120 < renewalStart order latest p.now + lifetime ∨
      endDate ≤ renewalStart order latest p.now + lifetime := by
    unfold renewalStart
    split <;> omega
  by_cases hstart : endDate ≤ renewalStart order latest p.now
  · omega
  · by_cases hfits : renewalStart order latest p.now + lifetime < 2 ^ 63
    · rw [addI64_eq ⟨by omega, hfits⟩] at hlast
      omega
    · -- the sum is negative, and the validity period of the CA is used
      have hwrap : addI64 (renewalStart order latest p.now) lifetime < 0 := by
        unfold addI64
        rw [← Int.sub_bmod_right, Int.bmod_eq_of_le (by omega) (by omega)]
        omega
      rcases hlast with hlast | ⟨hlast, -⟩
      · omega
      · unfold addSecs at hlast
        push_cast at hlast
        split at hlast <;> omega

theorem Usable.poll (h : s.Usable order endDate) (hend : order.starEndDate = some endDate)
    (hlife : order.starLifetimeSecs = some lifetime) (hlong : 240 ≤ lifetime)
    (hadjust : order.starLifetimeAdjustSecs + 60 ≤ lifetime)
    (hrange : InRange env order endDate lifetime)
    (hlint : ∀ now cert, env.library.lintIssuedCert now cert = .ok () →
      cert.notBefore ≤ now ∧ now ≤ cert.notAfter)
    (hok : s.Regular env order p) : (s.poll env order p).1.Usable order endDate := by
  obtain ⟨hclock, hcreated, latest, hlatest, hfirst, hlast⟩ := h
  obtain ⟨hlater, hended, hsoon, hsigned, hstored, hsucceeds⟩ := hok
  rcases poll_cases env order s p with
    ⟨hsame, hearly⟩ | ⟨cert, hrun, hnow, hadded⟩
  · obtain ⟨latest', l, hlatest', hlife', hearly⟩ := hearly hsucceeds
    obtain rfl := some.inj (hlatest.symm.trans hlatest')
    obtain rfl := some.inj (hlife.symm.trans hlife')
    rw [Int.tdiv_eq_ediv_of_nonneg (by omega)] at hearly
    refine ⟨by simp; omega, fun c hc ↦ ?_, latest, ?_, ?_, ?_⟩
    · rw [hsame] at hc
      exact (hcreated c hc).trans (by simpa using hlater.le)
    · rw [getLatestForOrder_eq, hsame]
      exact hlatest
    · simp only [poll_servedAt]
      omega
    · simp only [poll_polledAt]
      omega
  · obtain ⟨ca, issued, hca, rfl, hissued, hwindow⟩ := renewalWindow_of_run hend hlife hlatest hrun
    have hvalid := hlint _ _ hissued
    refine ⟨by simp; omega, fun c hc ↦ ?_, _, getLatestForOrder_of_append hadded ?_, ?_, ?_⟩
    · rw [hadded, mem_append, mem_singleton] at hc
      rcases hc with hc | rfl
      · exact (hcreated c hc).trans (by simpa using hlater.le)
      · simpa using hnow.le
    · intro c hc
      rw [hnow]
      exact (hcreated c hc).trans_lt hlater
    · rw [poll_servedAt]
      exact hvalid.1
    · simp only [poll_polledAt]
      exact window_of_renewal hlong hadjust
        (hrange.imp_right fun h ↦ ⟨h.1, h.2.1, h.2.2 ca hca⟩) ⟨by omega, hsigned, hstored⟩
        (by omega) hvalid hwindow

end Step

/-- Polled every minute, a valid order serves a certificate that has started and
not expired, if each renewal ends at least a minute after its predecessor. -/
theorem star_certificate_usable (env : Env) (order : OrderRow) (endDate lifetime : Int)
    (hend : order.starEndDate = some endDate) (hlife : order.starLifetimeSecs = some lifetime)
    (hvalid : order.status = .valid ∧ order.starCanceledAt = none) (hlong : 240 ≤ lifetime)
    (hadjust : order.starLifetimeAdjustSecs + 60 ≤ lifetime)
    (hrange : InRange env order endDate lifetime)
    (hlint : ∀ now cert, env.library.lintIssuedCert now cert = .ok () →
      cert.notBefore ≤ now ∧ now ≤ cert.notAfter)
    (s : StarLoop) (hstart : s.Usable order endDate) (polls : List Poll)
    (hpolls : Meets (poll env order) (Regular env order) s polls) (t : Int)
    (ht : (run (poll env order) s polls).servedAt ≤ t ∧
      t ≤ (run (poll env order) s polls).polledAt + 120 ∧ t < endDate) :
    ∃ cert, serveStarCert (run (poll env order) s polls).db order t = .ok cert ∧
      cert.notBefore ≤ t ∧ t < cert.notAfter := by
  have husable := hpolls.invariant (Usable order endDate) hstart fun s p h hok ↦
    h.poll hend hlife hlong hadjust hrange hlint hok
  obtain ⟨-, -, cert, hlatest, hfirst, hlast⟩ := husable
  refine ⟨cert, ?_, by omega, by omega⟩
  simp [serveStarCert, hvalid, hlatest, hend, ht.2.2]

end StarLoop

/-! ## Runs of the renewal loop -/

namespace StarExample

def issuedWindows (s : Node) : List (Int × Int) :=
  s.log.filterMap fun q ↦ q.1.issues.map fun c ↦ (c.notBefore, c.notAfter)

/-- Half a lifetime before the end date the certificate ends there already, and
every run of the loop issues another one. -/
theorem renewals_stall :
    issuedWindows (runDated (starEvents ⟨none, 7776004, 240, 0⟩ ++ renewEvents 7775900 ++
      drain 1 7775900 ++ renewEvents 7775960 ++ drain 1 7775960)) =
        [(7775960, 7776004), (7775900, 7776004), (4, 7776004)] := by
  decide +kernel

/-! ## Renewals that fall behind -/

theorem starRunOnce_of_early {env : Env} {db : Db} {now signedAt lifetime : Int} {order : OrderRow}
    {latest : CertificateRow} (hlatest : Certs.getLatestForOrder db order.id = some latest)
    (hlife : order.starLifetimeSecs = some lifetime)
    (hearly : now < latest.notAfter - lifetime.tdiv 2) :
    starRunOnce env db now signedAt order = .ok [] := by
  unfold starRunOnce
  split
  · rename_i l c _ _ _ hl hc _
    cases hlife.symm.trans hl
    cases hlatest.symm.trans hc
    simp [hearly]
  · rfl

/-- A poll every minute. -/
def idlePolls (start : Int) (n : ℕ) : List Poll :=
  (List.range n).map fun i ↦ ⟨start + 60 * (i + 1), start + 60 * (i + 1)⟩

theorem idle {env : Env} {order : OrderRow} {lifetime start : Int} {latest : CertificateRow}
    {db : Db} (hlatest : Certs.getLatestForOrder db order.id = some latest)
    (hlife : order.starLifetimeSecs = some lifetime) {n : ℕ}
    (hearly : start + 60 * n < latest.notAfter - lifetime.tdiv 2) :
    Meets (StarLoop.poll env order) (StarLoop.Regular env order) ⟨db, start, start⟩
        (idlePolls start n) ∧
      run (StarLoop.poll env order) ⟨db, start, start⟩ (idlePolls start n) =
        ⟨db, start + 60 * n, start + 60 * n⟩ := by
  induction n with
  | zero => exact ⟨trivial, by simp [idlePolls]⟩
  | succ n ih =>
    obtain ⟨hmeets, hrun⟩ := ih (by push_cast at hearly; omega)
    push_cast at hearly
    have hnone : starRunOnce env db (start + 60 * (n + 1)) (start + 60 * (n + 1)) order = .ok [] :=
      starRunOnce_of_early hlatest hlife hearly
    have hsplit : idlePolls start (n + 1) = idlePolls start n ++
        [⟨start + 60 * (n + 1), start + 60 * (n + 1)⟩] := by
      simp [idlePolls, List.range_succ]
    rw [hsplit, meets_append, run_append, hrun]
    refine ⟨⟨hmeets, ⟨?_, trivial⟩⟩, ?_⟩
    · refine ⟨by dsimp only; omega, by dsimp only; omega, by dsimp only; omega, le_refl _,
        by dsimp only; omega, ?_⟩
      simp [StarLoop.succeeds, hnone, hlatest, hlife, hearly]
    · simp [StarLoop.poll, hnone]

def lagDb : Db := (runDated (starEvents ⟨none, 100000000, 240, 230⟩)).db

def lagOrder : OrderRow := (lagDb.orders.find? "order-1").get (by decide +kernel)

/-- Polled every minute from its issuance on, an order whose renewals end ten
seconds after their predecessors serves a certificate that has expired. -/
theorem expired_certificate_served :
    let polls := idlePolls 4 129597 ++
      [⟨7775884, 7775884⟩, ⟨7775944, 7775944⟩, ⟨7776004, 7776004⟩]
    Meets (StarLoop.poll datedEnv lagOrder) (StarLoop.Regular datedEnv lagOrder) ⟨lagDb, 4, 4⟩
        polls ∧
      (run (StarLoop.poll datedEnv lagOrder) ⟨lagDb, 4, 4⟩ polls).servedAt = 7776004 ∧
      (serveStarCert (run (StarLoop.poll datedEnv lagOrder) ⟨lagDb, 4, 4⟩ polls).db lagOrder
        7776040).toOption.map (fun c ↦ (c.notBefore, c.notAfter)) = some (7775794, 7776034) := by
  obtain ⟨latest, hlatest, hlast⟩ : ∃ latest,
      Certs.getLatestForOrder lagDb lagOrder.id = some latest ∧ latest.notAfter = 7776004 :=
    ⟨(Certs.getLatestForOrder lagDb lagOrder.id).get (by decide +kernel), by simp,
      by decide +kernel⟩
  have hlife : lagOrder.starLifetimeSecs = some 240 := by decide +kernel
  generalize hn : 129597 = n
  obtain ⟨hmeets, hrun⟩ : Meets (StarLoop.poll datedEnv lagOrder)
      (StarLoop.Regular datedEnv lagOrder) ⟨lagDb, 4, 4⟩ (idlePolls 4 n) ∧ _ :=
    idle hlatest hlife (by rw [hlast, ← hn]; decide)
  have hclock : (4 + 60 * n : Int) = 7775824 := by omega
  rw [hclock] at hrun
  intro polls
  rw [meets_append, run_append, hrun]
  exact ⟨⟨hmeets, by decide +kernel⟩, by decide +kernel, by decide +kernel⟩

/-! ## Renewals that keep up -/

def starDb : Db := (runDated (starEvents ⟨none, 100000000, 7776000, 0⟩)).db

def starOrder : OrderRow := (starDb.orders.find? "order-1").get (by decide +kernel)

def firstCert : CertificateRow :=
  (Certs.getLatestForOrder starDb "order-1").get (by decide +kernel)

theorem second_certificate_later :
    ∃ certs, starCerts (run (StarLoop.poll datedEnv starOrder) ⟨starDb, 4, 4⟩
        [⟨64, 64⟩, ⟨4000000, 4000000⟩]).db "order-1" = starCerts starDb "order-1" ++ certs ∧
      (firstCert :: certs).IsChain (fun latest cert ↦ latest.notAfter < cert.notAfter) ∧
      certs.length * (7776000 : Int) ≤ 2 * (100000000 - firstCert.notBefore) + 7776000 :=
  StarLoop.star_renewals_bounded datedEnv starOrder 100000000 7776000 (by decide +kernel)
    (by decide +kernel) (by decide) (by decide) (by decide +kernel) ⟨starDb, 4, 4⟩ firstCert
    (by decide +kernel) (by decide +kernel) [⟨64, 64⟩, ⟨4000000, 4000000⟩] (by decide +kernel)

theorem lint_plain (now : Int) (cert : IssuedCert)
    (h : datedEnv.library.lintIssuedCert now cert = .ok ()) :
    cert.notBefore ≤ now ∧ now ≤ cert.notAfter := by
  by_contra hinvalid
  have herror : datedEnv.library.lintIssuedCert now cert = .error _ := if_neg hinvalid
  cases h.symm.trans herror

theorem renewed_certificate_served :
    ∃ cert, serveStarCert (run (StarLoop.poll datedEnv starOrder) ⟨starDb, 3999990, 3999990⟩
      [⟨4000000, 4000000⟩, ⟨4000060, 4000061⟩]).db starOrder 4000100 = .ok cert ∧
      cert.notBefore ≤ 4000100 ∧ 4000100 < cert.notAfter :=
  StarLoop.star_certificate_usable datedEnv starOrder 100000000 7776000 (by decide +kernel)
    (by decide +kernel) (by decide +kernel) (by decide) (by decide +kernel) (.inl (by decide))
    lint_plain ⟨starDb, 3999990, 3999990⟩
    ⟨by decide, by decide +kernel, firstCert, by decide +kernel, by decide +kernel,
      by decide +kernel⟩
    [⟨4000000, 4000000⟩, ⟨4000060, 4000061⟩] (by decide +kernel) 4000100 (by decide +kernel)

end StarExample

end Akamu
