import Akamu.Schema

/-!
# Renewal information

The window in which `get_renewal_info` suggests to renew a certificate: the one
an operator has set, or the last third of the lifetime without its last day.
-/

namespace Akamu.Renewal

/-- A row of `certificates` with the window that `set_renewal_window` stores. -/
structure CertificateRecord extends CertificateRow where
  suggestedWindowStart : Option Int
  suggestedWindowEnd : Option Int
  deriving DecidableEq

def computedWindow (cert : CertificateRecord) (now : Int) : Int × Int :=
  let lifetime := cert.notAfter - cert.notBefore
  let renewalStart := cert.notBefore + (lifetime * 2).tdiv 3
  let renewalEnd := cert.notAfter - 86400
  (max renewalStart now, max renewalEnd renewalStart)

def suggestedWindow (cert : CertificateRecord) (now : Int) : Int × Int :=
  match cert.suggestedWindowStart, cert.suggestedWindowEnd with
  | some s, some e => if s < e then (s, e) else computedWindow cert now
  | _, _ => computedWindow cert now

/-- An operator has set a window that is not empty. -/
def OperatorWindow (cert : CertificateRecord) : Prop :=
  ∃ s e, cert.suggestedWindowStart = some s ∧ cert.suggestedWindowEnd = some e ∧ s < e

section

variable {cert : CertificateRecord}

theorem suggestedWindow_of_operatorWindow (h : OperatorWindow cert) (now : Int) :
    (suggestedWindow cert now).1 < (suggestedWindow cert now).2 := by
  obtain ⟨s, e, hs, he, hlt⟩ := h
  simp [suggestedWindow, hs, he, hlt]

theorem suggestedWindow_of_not (h : ¬ OperatorWindow cert) (now : Int) :
    suggestedWindow cert now = computedWindow cert now := by
  unfold suggestedWindow
  split
  · rename_i s e hs he
    exact if_neg fun hlt ↦ h ⟨s, e, hs, he, hlt⟩
  · rfl

theorem computedWindow_le (hvalid : cert.notBefore < cert.notAfter) (now : Int) :
    (computedWindow cert now).2 ≤ cert.notAfter := by
  simp only [computedWindow]
  rw [Int.tdiv_eq_ediv_of_nonneg (by omega)]
  omega

/-- The end is never later than the start or a day before the end of the
certificate, so the window is open exactly if both candidates for its start are
before that day. -/
theorem computedWindow_lt_iff (hvalid : cert.notBefore < cert.notAfter) (now : Int) :
    (computedWindow cert now).1 < (computedWindow cert now).2 ↔
      3 * 86400 < cert.notAfter - cert.notBefore ∧ now < cert.notAfter - 86400 := by
  simp only [computedWindow]
  rw [Int.tdiv_eq_ediv_of_nonneg (by omega)]
  omega

end

/-- The window is not empty, and ends before the certificate does unless an
operator has set it, exactly if an operator has set it or the certificate is one
of more than three days whose last day has not begun. -/
theorem renewal_window_sound (cert : CertificateRecord) (now : Int)
    (hvalid : cert.notBefore < cert.notAfter) :
    ((suggestedWindow cert now).1 < (suggestedWindow cert now).2 ∧
        (¬ OperatorWindow cert → (suggestedWindow cert now).2 ≤ cert.notAfter)) ↔
      OperatorWindow cert ∨
        3 * 86400 < cert.notAfter - cert.notBefore ∧ now < cert.notAfter - 86400 := by
  by_cases hoperator : OperatorWindow cert
  · refine iff_of_true ⟨suggestedWindow_of_operatorWindow hoperator now, ?_⟩ (.inl hoperator)
    intro hnone
    exact absurd hoperator hnone
  · rw [suggestedWindow_of_not hoperator, or_iff_right hoperator]
    constructor
    · rintro ⟨hopen, -⟩
      exact (computedWindow_lt_iff hvalid now).mp hopen
    · intro hearly
      exact ⟨(computedWindow_lt_iff hvalid now).mpr hearly, fun _ ↦ computedWindow_le hvalid now⟩

/-- A certificate of ninety days. -/
def quarterCert : CertificateRecord where
  id := "cert-1"
  orderId := "order-1"
  accountId := "acct-1"
  serialNumber := "01"
  status := .valid
  notBefore := 0
  notAfter := 90 * 86400
  revokedAt := none
  revocationReason := none
  created := 0
  replacedBy := none
  caId := "ca"
  suggestedWindowStart := none
  suggestedWindowEnd := none

/-- On its last day the window ends before it starts. -/
theorem last_day_window_empty :
    suggestedWindow quarterCert (90 * 86400 - 3600) = (90 * 86400 - 3600, 89 * 86400) := by
  decide

theorem first_day_window : (suggestedWindow quarterCert 0).1 < (suggestedWindow quarterCert 0).2 :=
  ((renewal_window_sound quarterCert 0 (by decide)).mpr (.inr (by decide))).1

end Akamu.Renewal
