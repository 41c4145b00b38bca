import Akamu.Node.Origin

/-!
# Validity windows of STAR certificates

The two ways in which a STAR order gets certificates compute the window from
different columns.  A finalize call uses `not_before` and `not_after`, which a
STAR order leaves empty, so the window is the profile's validity period from
now.  The renewal uses the lifetime and the end date, and gives them up when the
clamped start is past the computed end.
-/

namespace Akamu

open Except List Machine Node Option

/-- The window keeps the end date, the lifetime and, up to five minutes, the
start date of a STAR order. -/
structure OrderRow.Admits (o : OrderRow) (notBefore notAfter : Int) : Prop where
  endDate : ∀ d ∈ o.starEndDate, notAfter ≤ d
  lifetime : ∀ l ∈ o.starLifetimeSecs, notAfter - notBefore ≤ l
  startDate : ∀ d ∈ o.starStartDate, d - 300 ≤ notBefore

theorem OrderRow.Admits.of_terms {o o' : OrderRow} {notBefore notAfter : Int}
    (hterms : o'.terms = o.terms) (h : o.Admits notBefore notAfter) :
    o'.Admits notBefore notAfter := by
  have hend : o'.starEndDate = o.starEndDate := (congrArg OrderRow.starEndDate hterms :)
  have hlife : o'.starLifetimeSecs = o.starLifetimeSecs :=
    (congrArg OrderRow.starLifetimeSecs hterms :)
  have hstart : o'.starStartDate = o.starStartDate := (congrArg OrderRow.starStartDate hterms :)
  exact ⟨hend ▸ h.endDate, hlife ▸ h.lifetime, hstart ▸ h.startDate⟩

def Txn.issues : Txn → Option CertificateRow
  | .finalize _ cert _ _ _ _ | .starRenew cert _ => some cert
  | _ => none

/-! ## The side condition -/

/-- The profile's validity period, and the expiry of an authority token if one
bounds the certificate, fit the order. -/
structure IssuanceFits (env : Env) (db : Db) (now : Int) (job : FinalizeJob) : Prop where
  signedHere : signsRemotely env job.order = false
  endDate : ∀ d ∈ job.order.starEndDate, now + job.certParams.validityDays.toNat * 86400 ≤ d ∧
    ∀ exp ∈ Tkauth.getMinExpForAuthzs db (tkauthAuthzIds env db job.order.id), exp ≤ d
  lifetime : ∀ l ∈ job.order.starLifetimeSecs,
    (job.certParams.validityDays.toNat * 86400 : Int) ≤ l ∧
    ∀ exp ∈ Tkauth.getMinExpForAuthzs db (tkauthAuthzIds env db job.order.id), exp - now ≤ l
  startDate : ∀ d ∈ job.order.starStartDate, d - 300 ≤ now

instance (env : Env) (db : Db) (now : Int) (job : FinalizeJob) :
    Decidable (IssuanceFits env db now job) :=
  decidable_of_iff (_ ∧ _ ∧ _ ∧ _)
    ⟨fun h ↦ ⟨h.1, h.2.1, h.2.2.1, h.2.2.2⟩, fun h ↦ ⟨h.1, h.2, h.3, h.4⟩⟩

/-- The renewal starts before the end date, and the lifetime is not over when it
is signed. -/
structure RenewalFits (order : OrderRow) (latest : CertificateRow) (now signedAt : Int) : Prop where
  endDate : ∀ d ∈ order.starEndDate, renewalStart order latest now < d ∧ signedAt - 300 < d
  lifetime : ∀ l ∈ order.starLifetimeSecs, signedAt - 300 < renewalStart order latest now + l ∧
    addI64 (renewalStart order latest now) l = renewalStart order latest now + l
  startDate : ∀ d ∈ order.starStartDate,
    d ≤ signedAt ∨ d - 300 ≤ renewalStart order latest now

instance (order : OrderRow) (latest : CertificateRow) (now signedAt : Int) :
    Decidable (RenewalFits order latest now signedAt) :=
  decidable_of_iff (_ ∧ _ ∧ _) ⟨fun h ↦ ⟨h.1, h.2.1, h.2.2⟩, fun h ↦ ⟨h.1, h.2, h.3⟩⟩

def Task.Fits (env : Env) (db : Db) (now : Int) (input : Input) : Task → Prop
  | .phase (.issue job) => job.order.isStar = true → IssuanceFits env db now job
  | .phase (.renewStar order) => ∀ latest ∈ Certs.getLatestForOrder db order.id,
      RenewalFits order latest now input.signedAt
  | _ => True

instance (env : Env) (db : Db) (now : Int) (input : Input) (task : Task) :
    Decidable (task.Fits env db now input) := by
  unfold Task.Fits
  split <;> infer_instance

def StarFits (env : Env) (s : Node) : Event → Prop
  | .advance i now input => ∀ task ∈ s.tasks[i]?, task.Fits env s.db now input
  | _ => True

instance (env : Env) (s : Node) (e : Event) : Decidable (StarFits env s e) := by
  unfold StarFits
  split <;> infer_instance

/-! ## One issuance -/

/-- What `new_order` makes sure of. -/
structure OrderRow.StarSound (o : OrderRow) : Prop where
  notBefore : o.isStar = true → o.notBefore = none
  notAfter : o.isStar = true → o.notAfter = none
  lifetime : ∀ l ∈ o.starLifetimeSecs, 0 < l

variable {cert : CertificateRow}

section Window

variable {env : Env} {db : Db} {now signedAt : Int}

/-- Without a requested start the window starts now; it ends within the validity
period or at the requested end. -/
theorem window_of_no_start {notAfter : Option Int} {days : UInt32} {first last : Int}
    (h : (first, last) = resolveClampedValidity now none notAfter days) :
    first = now ∧ (last ≤ now + days.toNat * 86400 ∨ some last = notAfter) := by
  obtain ⟨hfirst, hlast⟩ := resolveClampedValidity_cases h
  have hnow : first = now := by
    rw [hfirst, certStart, getD_none]
    omega
  refine ⟨hnow, hlast.imp (fun h ↦ ?_) fun h ↦ h.2.symm⟩
  have := addSecs_le first (days.toNat * 86400)
  push_cast at this
  omega

/-- A requested window is kept from its start, or from five minutes before the
signing, if that is before the requested end. -/
theorem window_of_start {notBefore notAfter first last : Int} {days : UInt32}
    (h : (first, last) = resolveClampedValidity now (some notBefore) (some notAfter) days)
    (hstart : notBefore < notAfter) (hclock : now - 300 < notAfter) :
    first = max notBefore (now - 300) ∧ last = notAfter := by
  obtain ⟨hfirst, ⟨-, hle⟩ | ⟨-, hlast⟩⟩ := resolveClampedValidity_cases h
  · have := hle notAfter rfl
    rw [certStart, getD_some] at hfirst
    omega
  · exact ⟨hfirst, (some.inj hlast).symm⟩

theorem admits_of_issue {job : FinalizeJob} {inj : SanInjection} {cert : IssuedCert}
    (hsound : job.order.StarSound) (hstar : job.order.isStar = true)
    (hfits : IssuanceFits env db now job) (hinj : injectTemplateAndTkauthSans env db job = .ok inj)
    (hissue : issueLeafCertificate env now job inj = .ok cert) :
    job.order.Admits cert.notBefore cert.notAfter := by
  have hcap : inj.notAfter = Tkauth.getMinExpForAuthzs db (tkauthAuthzIds env db job.order.id) := by
    obtain ⟨_, -, hinj⟩ := bind_eq_ok hinj
    obtain ⟨_, -, hinj⟩ := bind_eq_ok hinj
    obtain ⟨_, -, hinj⟩ := bind_eq_ok hinj
    obtain ⟨_, -, hinj⟩ := bind_eq_ok hinj
    cases hinj
    rw [hsound.notAfter hstar]
    cases Tkauth.getMinExpForAuthzs db (tkauthAuthzIds env db job.order.id) <;> rfl
  rcases issueLeafCertificate_eq_ok hissue with ⟨hremote, -⟩ | ⟨-, ca, -, hissue⟩
  · simp [hfits.signedHere] at hremote
  · have hwindow := (issueWithParams_eq_ok hissue).1
    rw [hsound.notBefore hstar] at hwindow
    obtain ⟨hfirst, hlast⟩ := window_of_no_start hwindow
    rw [hcap] at hlast
    refine ⟨fun d hd ↦ ?_, fun l hl ↦ ?_, fun d hd ↦ ?_⟩
    · rcases hlast with hlast | hlast
      · exact hlast.trans (hfits.endDate d hd).1
      · exact (hfits.endDate d hd).2 _ hlast.symm
    · rcases hlast with hlast | hlast
      · have := (hfits.lifetime l hl).1
        omega
      · have := (hfits.lifetime l hl).2 _ hlast.symm
        omega
    · exact hfirst ▸ hfits.startDate d hd

theorem admits_of_renewal {order : OrderRow} (hsound : order.StarSound)
    (hfits : ∀ latest ∈ Certs.getLatestForOrder db order.id, RenewalFits order latest now signedAt)
    (h : starRunOnce env db now signedAt order = .ok [.commit (.starRenew cert now)]) :
    cert.orderId = order.id ∧ order.Admits cert.notBefore cert.notAfter := by
  obtain hnone | ⟨endDate, lifetime, latest, ca, csr, issued, hend, hlife, hlatest, -, hissued,
    hcert⟩ := starRunOnce_cases h
  · cases hnone
  cases hcert
  have hfits := hfits latest hlatest
  obtain ⟨hbefore, hclock⟩ := hfits.endDate endDate hend
  obtain ⟨hlater, hsum⟩ := hfits.lifetime lifetime hlife
  have hpos := hsound.lifetime lifetime hlife
  have hwindow := (issueCertificate_eq_ok hissued).1
  obtain ⟨hfirst, hlast⟩ := window_of_start hwindow (by omega) (by omega)
  refine ⟨rfl, fun d hd ↦ ?_, fun l hl ↦ ?_, fun d hd ↦ ?_⟩
  · obtain rfl : endDate = d := some.inj (hend.symm.trans hd)
    show issued.notAfter ≤ endDate
    omega
  · obtain rfl : lifetime = l := some.inj (hlife.symm.trans hl)
    show issued.notAfter - issued.notBefore ≤ lifetime
    omega
  · have hstart := hfits.startDate d hd
    show d - 300 ≤ issued.notBefore
    omega

end Window

/-! ## Along a run -/

def Db.HasOrder (db : Db) (order : OrderRow) : Prop :=
  ∃ o ∈ db.orders.rows, o.terms = order.terms

def Db.Admits (db : Db) (cert : CertificateRow) : Prop :=
  ∃ o ∈ db.orders.rows, o.id = cert.orderId ∧
    (o.isStar = true → o.Admits cert.notBefore cert.notAfter)

def Task.StarSound (db : Db) : Task → Prop
  | .phase (.cover d) => ∀ ar ∈ d.payload.autoRenewal,
      d.payload.notBefore = none ∧ d.payload.notAfter = none ∧ ar.lifetime ≠ 0
  | .phase (.checkCaa job) | .phase (.issue job) => db.HasOrder job.order
  | .phase (.persistCert job cert) => db.HasOrder job.order ∧
      (job.order.isStar = true → job.order.Admits cert.notBefore cert.notAfter)
  | .phase (.renewStar order) => db.HasOrder order
  | .commit (.newOrder order _ _) => order.StarSound
  | .commit (.finalize _ cert _ _ _ _) | .commit (.starRenew cert _) => db.Admits cert
  | _ => True

/-- STAR orders have no requested window, and what has been signed for them fits. -/
structure StarSound (s : Node) : Prop where
  orders : ∀ o ∈ s.db.orders.rows, o.StarSound
  tasks : ∀ task ∈ s.tasks, task.StarSound s.db
  log : ∀ q ∈ s.log, ∀ cert ∈ q.1.issues, s.db.Admits cert

section Run

variable {env : Env} {s : Node} {e : Event}

theorem starSound_boot (env : Env) (now : Int) : StarSound (.boot env now) where
  orders o ho := by cases ho
  tasks task htask := by
    obtain ⟨k, -, rfl⟩ := mem_map.mp htask
    trivial
  log q hq := by cases hq

theorem Db.HasOrder.step {order : OrderRow} (h : s.db.HasOrder order) :
    (Node.step env s e).1.db.HasOrder order := by
  obtain ⟨o, ho, hterms⟩ := h
  obtain ⟨o', ho', hterms'⟩ := order_of_step ho
  exact ⟨o', ho', hterms'.trans hterms⟩

theorem Db.Admits.step (h : s.db.Admits cert) : (Node.step env s e).1.db.Admits cert := by
  obtain ⟨o, ho, hid, hadmits⟩ := h
  obtain ⟨o', ho', hterms⟩ := order_of_step ho
  have hstar : o'.isStar = o.isStar := (congrArg OrderRow.isStar hterms :)
  refine ⟨o', ho', (congrArg OrderRow.id hterms :).trans hid, fun h ↦ ?_⟩
  exact (hadmits (hstar ▸ h)).of_terms hterms

variable {task : Task} {now : Int}

theorem Task.StarSound.step (h : task.StarSound s.db) :
    task.StarSound (Node.step env s e).1.db := by
  cases task with
  | hooks => trivial
  | commit t =>
    cases t with
    | newOrder => exact h
    | finalize | starRenew => exact Db.Admits.step h
    | _ => trivial
  | phase p =>
    cases p with
    | cover => exact h
    | checkCaa | issue | renewStar => exact Db.HasOrder.step h
    | persistCert => exact ⟨h.1.step, h.2⟩
    | _ => trivial

theorem OrderRow.StarSound.of_terms {o o' : OrderRow} (hterms : o'.terms = o.terms)
    (h : o.StarSound) : o'.StarSound := by
  have hstar : o'.isStar = o.isStar := (congrArg OrderRow.isStar hterms :)
  have hfirst : o'.notBefore = o.notBefore := (congrArg OrderRow.notBefore hterms :)
  have hlast : o'.notAfter = o.notAfter := (congrArg OrderRow.notAfter hterms :)
  have hlife : o'.starLifetimeSecs = o.starLifetimeSecs :=
    (congrArg OrderRow.starLifetimeSecs hterms :)
  exact ⟨hstar ▸ hfirst ▸ h.notBefore, hstar ▸ hlast ▸ h.notAfter, hlife ▸ h.lifetime⟩

theorem StarSound.order (h : StarSound s) {order : OrderRow} (horder : s.db.HasOrder order) :
    order.StarSound := by
  obtain ⟨o, ho, hterms⟩ := horder
  exact (h.orders o ho).of_terms hterms.symm

theorem checkAutoRenewal_eq_ok {payload : NewOrderPayload}
    (h : checkAutoRenewal env payload now = .ok ()) : ∀ ar ∈ payload.autoRenewal,
      payload.notBefore = none ∧ payload.notAfter = none ∧ ar.lifetime ≠ 0 := by
  intro ar har
  unfold checkAutoRenewal at h
  rw [show payload.autoRenewal = some ar from har] at h
  dsimp only at h
  split at h
  · cases h
  · rename_i hwindow
    simp only [Bool.or_eq_true, not_or, Bool.not_eq_true, isSome_eq_false_iff,
      isNone_iff_eq_none] at hwindow
    refine ⟨hwindow.1, hwindow.2, fun hlife ↦ ?_⟩
    rw [checkStarLimits, if_pos hlife] at h
    cases h

theorem starSound_of_begin {r : Request} {ts : List Task} (hbegin : r.begin env s.db now = .ok ts)
    (hmem : task ∈ ts) : task.StarSound s.db := by
  cases opens_of_begin hbegin _ hmem with
  | cover hd =>
    have hchecked := newOrderChecks_eq_ok hd
    simp only [Task.StarSound, hchecked.payload]
    exact checkAutoRenewal_eq_ok hchecked.autoRenewal
  | finalize hjob =>
    exact ⟨_, KeyedTable.mem_of_find? (checksPassed_of_finalizeChecks hjob).order, rfl⟩
  | @standalone _ t ht => cases t <;> trivial
  | _ => trivial

theorem starSound_draftOrderRow {d : OrderDraft} (h : ∀ ar ∈ d.payload.autoRenewal,
    d.payload.notBefore = none ∧ d.payload.notAfter = none ∧ ar.lifetime ≠ 0) :
    (draftOrderRow env d).StarSound := by
  cases har : d.payload.autoRenewal with
  | none => constructor <;> simp [draftOrderRow, OrderRow.isStar, har]
  | some ar =>
    obtain ⟨hfirst, hlast, hlife⟩ := h ar har
    refine ⟨fun _ ↦ hfirst, fun _ ↦ hlast, ?_⟩
    simp only [draftOrderRow, har, map_some, mem_some_iff]
    omega

theorem starSound_of_proceed (h : StarSound s) {p : Phase} {input : Input}
    (hold : (Task.phase p).StarSound s.db) (hfits : (Task.phase p).Fits env s.db now input)
    (hleads : p.Leads env s.db now input task) : task.StarSound s.db := by
  cases hleads with
  | cover hremaining hcover =>
    rcases coverIdentifier_eq_ok hcover with ⟨_, -, rfl⟩ | rfl <;> exact hold
  | newOrder => exact starSound_draftOrderRow hold
  | checkCaa => exact hold
  | @issue job inj cert hinj hissue =>
    exact ⟨hold, fun hstar ↦ admits_of_issue (h.order hold) hstar (hfits hstar) hinj hissue⟩
  | @persistCert job cert pred hpred =>
    obtain ⟨⟨o, ho, hterms⟩, hadmits⟩ := hold
    have hstar : o.isStar = job.order.isStar := (congrArg OrderRow.isStar hterms :)
    exact ⟨o, ho, (congrArg OrderRow.id hterms :), fun h ↦ (hadmits (hstar ▸ h)).of_terms hterms⟩
  | @renewStar order cert hrun =>
    obtain ⟨hid, hadmits⟩ := admits_of_renewal (h.order hold) hfits hrun
    obtain ⟨o, ho, hterms⟩ := hold
    exact ⟨o, ho, (congrArg OrderRow.id hterms :).trans hid.symm,
      fun _ ↦ hadmits.of_terms hterms⟩
  | @validate job t _ hkind => cases t <;> trivial
  | _ => trivial

theorem starSound_of_arises (h : StarSound s) (hok : StarFits env s e)
    (harises : Node.Arises env s e task) : task.StarSound s.db := by
  cases harises with
  | kept hmem => exact h.tasks task hmem
  | begun hbegin hmem => exact starSound_of_begin hbegin hmem
  | followed hout hmem =>
    have hfollows := follows_of_followUp _ hmem
    cases task with
    | hooks => trivial
    | commit t => cases t <;> trivial
    | phase p => cases p <;> trivial
  | proceeded hphase hproceed hmem =>
    exact starSound_of_proceed h (h.tasks _ (mem_of_getElem? hphase)) (hok _ hphase)
      (leads_of_proceed hproceed _ hmem)
  | @starTick o hlisted => exact ⟨o, (mem_filter.mp hlisted).1, rfl⟩
  | seeded hmem =>
    obtain ⟨k, -, rfl⟩ := mem_map.mp hmem
    trivial
  | hooked | spawned | snapshot | purgeJti => trivial

theorem StarSound.step (h : StarSound s) (hok : StarFits env s e) :
    StarSound (Node.step env s e).1 where
  orders r hr := by
    revert hr
    refine db_rule (h.orders r) fun t out db' hattempt hexec hr ↦ ?_
    rcases terms_of_exec hexec hr with ⟨o, ho, hterms⟩ | hnew | ⟨status, v, hrow⟩
    · exact (h.orders o ho).of_terms hterms
    · rcases attempt_eq_some hattempt with hmem | ⟨_, _, _, _, -, -, hdrive⟩
      · have hsound := h.tasks _ hmem
        cases t with
        | newOrder =>
          cases mem_singleton.mp hnew
          exact hsound
        | _ => cases hnew
      · rcases drive_fst hdrive with ⟨_, rfl⟩ | ⟨_, rfl⟩ | ⟨_, _, rfl⟩ <;> cases hnew
    · -- a peer's order carries no STAR columns
      rw [hrow]
      constructor <;> simp [orderRowOfEntry, OrderRow.isStar]
  tasks task htask := (starSound_of_arises h hok (arises_of_mem htask)).step
  log q hq cert hcert := by
    rcases mem_log_step hq with hq | ⟨hattempt, -⟩
    · exact (h.log q hq cert hcert).step
    · refine Db.Admits.step ?_
      obtain ⟨t, out⟩ := q
      rcases attempt_eq_some hattempt with hmem | ⟨_, _, _, _, -, -, hdrive⟩
      · have hsound := h.tasks _ hmem
        cases t with
        | finalize | starRenew =>
          cases hcert
          exact hsound
        | _ => cases hcert
      · rcases drive_fst hdrive with ⟨_, rfl⟩ | ⟨_, rfl⟩ | ⟨_, _, rfl⟩ <;> cases hcert

/-- Every certificate that a finalize call or the renewal loop has stored for a
STAR order keeps the order's dates and lifetime, if signing happens when the
window fits. -/
theorem star_windows_fit (env : Env) (start : Int) (es : List Event)
    (hmeets : Meets (Node.step env) (StarFits env) (.boot env start) es) :
    ∀ q ∈ (run (Node.step env) (.boot env start) es).log, ∀ cert ∈ q.1.issues,
      ∀ o ∈ (run (Node.step env) (.boot env start) es).db.orders.rows, o.id = cert.orderId →
        o.isStar = true → o.Admits cert.notBefore cert.notAfter := by
  have hsound := hmeets.invariant StarSound (starSound_boot env start) fun s e h hok ↦ h.step hok
  intro q hq cert hcert o ho hid hstar
  obtain ⟨o', ho', hid', hadmits⟩ := hsound.log q hq cert hcert
  obtain rfl := KeyedTable.eq_of_mem_of_key_eq _ ho' ho (hid'.trans hid.symm)
  exact hadmits hstar

end Run

/-! ## Three runs -/

def Library.dated : Library :=
  { Library.numbered with
    assemble := fun _ _ notBefore _ ↦ .ok ("cert-" ++ toString notBefore, toString notBefore) }

def datedEnv : Env := ⟨Config.plain, Library.dated⟩

def runDated (es : List Event) : Node := run (Node.step datedEnv) (.boot datedEnv 0) es

def starEvents (ar : AutoRenewal) : List Event :=
  accountEvents ++
    .request (.newOrder "acct-1" "ca"
      { NewOrderPayload.plain [⟨.dns, "a.example", none⟩] with autoRenewal := some ar }
      (.sample "1")) 2 :: drain 9 2 ++
    validateEvents ++ finalizeEvents "1" 4

def renewEvents (now : Int) : List Event :=
  [.starTick, .advance 0 now { Input.plain with signedAt := now }]

/-- Certificates of one day until the second day: the finalize call issues one
of ninety days.  Certificates of ninety days that are predated by more than that:
the renewal falls back to ninety days from now and passes the end date. -/
theorem star_windows_exceeded :
    (∃ q ∈ (runDated (starEvents ⟨none, 172800, 86400, 0⟩)).log, ∃ cert ∈ q.1.issues,
      ∃ o ∈ (runDated (starEvents ⟨none, 172800, 86400, 0⟩)).db.orders.rows,
        o.id = cert.orderId ∧ o.isStar = true ∧
          (o.starEndDate, o.starLifetimeSecs) = (some 172800, some 86400) ∧
          (cert.notBefore, cert.notAfter) = (4, 7776004)) ∧
      ∃ q ∈ (runDated (starEvents ⟨none, 10000000, 7776000, 10000000⟩ ++ renewEvents 7000000 ++
        drain 1 7000000)).log, ∃ cert ∈ q.1.issues,
      ∃ o ∈ (runDated (starEvents ⟨none, 10000000, 7776000, 10000000⟩ ++ renewEvents 7000000 ++
        drain 1 7000000)).db.orders.rows,
        o.id = cert.orderId ∧ o.isStar = true ∧ o.starEndDate = some 10000000 ∧
          (cert.notBefore, cert.notAfter) = (6999700, 14775700) := by
  constructor <;> decide +kernel

/-- Certificates of ninety days are what the profile issues. -/
theorem star_renewal_fits :
    ((runDated (starEvents ⟨none, 100000000, 7776000, 0⟩ ++ renewEvents 4000000 ++
        drain 1 4000000)).log.filterMap fun q ↦ q.1.issues.map CertificateRow.id) =
          ["cert-4000000", "cert-4"] ∧
      ∀ q ∈ (run (Node.step datedEnv) (.boot datedEnv 0) (starEvents ⟨none, 100000000, 7776000, 0⟩
          ++ renewEvents 4000000 ++ drain 1 4000000)).log, ∀ cert ∈ q.1.issues,
        ∀ o ∈ (run (Node.step datedEnv) (.boot datedEnv 0)
          (starEvents ⟨none, 100000000, 7776000, 0⟩ ++ renewEvents 4000000 ++
            drain 1 4000000)).db.orders.rows, o.id = cert.orderId →
          o.isStar = true → o.Admits cert.notBefore cert.notAfter :=
  ⟨by decide +kernel, star_windows_fit datedEnv 0 (starEvents ⟨none, 100000000, 7776000, 0⟩ ++
    renewEvents 4000000 ++ drain 1 4000000) (by decide +kernel)⟩

end Akamu
