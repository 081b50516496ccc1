import Notary.Platform.Database

/-! The credit ledger: grants, balances, and the allocation of settled usage. -/

namespace Notary.Platform
open Relational Tx Table TableRef

/-- A value that a `BIGINT` cast accepts. -/
def bigint? (x : ℤ) : Option ℤ :=
  if -9223372036854775808 ≤ x ∧ x ≤ 9223372036854775807 then some x else none

def saturatingAdd (a b : ℤ) : ℤ :=
  max (-9223372036854775808) (min 9223372036854775807 (a + b))

structure AdmissionTierLimits where
  maxAttestableHttpBytes : ℤ
  maxFrameBytes : ℤ
  monthlyNotarizationBytes : ℤ
  monthlyCaptureBytes : ℤ
  deriving DecidableEq

structure CreditPeriod where
  start : ℤ
  stop : ℤ
  deriving DecidableEq

/-- The calendar arithmetic the database performs for `monthly_credit_period`: the UTC
month of a timestamp, or a database error outside the supported range. -/
structure CreditCalendar where
  monthlyCreditPeriod : ℤ → Option CreditPeriod
  start_le : ∀ {now p}, monthlyCreditPeriod now = some p → p.start ≤ now
  lt_stop : ∀ {now p}, monthlyCreditPeriod now = some p → now < p.stop
  same_stop : ∀ {m n p q}, monthlyCreditPeriod m = some p → monthlyCreditPeriod n = some q →
    p.start = q.start → p.stop = q.stop

structure CreditGrantSpec where
  creditSubject : String
  accountId : Option String
  creditKind : CreditKind
  amountBytes : ℤ
  sourceKind : GrantSource
  sourceReference : String
  idempotencyKey : String
  periodStart : Option ℤ
  periodEnd : Option ℤ
  createdAt : ℤ
  availableAt : ℤ
  expiresAt : Option ℤ
  displayLabel : String
  deriving DecidableEq

namespace CreditGrantSpec

def toGrant (spec : CreditGrantSpec) (id : String) : CreditGrant where
  id := id
  creditSubject := spec.creditSubject
  accountId := spec.accountId
  creditKind := spec.creditKind
  amountBytes := spec.amountBytes
  sourceKind := spec.sourceKind
  sourceReference := spec.sourceReference
  idempotencyKey := spec.idempotencyKey
  periodStart := spec.periodStart
  periodEnd := spec.periodEnd
  createdAt := spec.createdAt
  availableAt := spec.availableAt
  expiresAt := spec.expiresAt
  displayLabel := some spec.displayLabel

def wellFormed (spec : CreditGrantSpec) : Prop :=
  0 < spec.amountBytes ∧ octetsBetween 1 160 spec.creditSubject ∧
    octetsBetween 1 256 spec.sourceReference ∧ octetsBetween 1 256 spec.idempotencyKey ∧
    spec.displayLabel.utf8ByteSize ≤ 120 ∧
    (spec.accountId.all fun a => accountCreditSubject a = spec.creditSubject) ∧
    (spec.expiresAt.all fun e => spec.availableAt < e)
  deriving Decidable

end CreditGrantSpec

/-- Insert a grant once. A replay of identical data returns the existing row, and other
data under the same reference or idempotency key conflicts. -/
def createCreditGrant (freshId : String) (spec : CreditGrantSpec) : Request String := do
  Tx.ensure spec.wellFormed (.internal "invalid server-authored credit grant")
  let existing ← TableRef.grants.selectWhere fun g =>
    g.creditSubject = spec.creditSubject ∧
      ((g.sourceKind = spec.sourceKind ∧ g.sourceReference = spec.sourceReference) ∨
        g.idempotencyKey = spec.idempotencyKey)
  match existing with
  | some g =>
    Tx.ensure (g = spec.toGrant g.id) (.conflict
      "credit grant idempotency key was already used for different grant data")
    pure g.id
  | none =>
    TableRef.grants.insert (spec.toGrant freshId)
    pure freshId

variable {db : Database} {g : CreditGrant}

theorem createCreditGrant_ok {freshId id : String} {spec : CreditGrantSpec} {db' : Database}
    (h : createCreditGrant freshId spec db = .ok (id, db')) :
    (db' = db ∧ spec.toGrant id ∈ db.grants) ∨
      (id = freshId ∧ ∃ t, db.grants.insert (spec.toGrant freshId) = some t ∧
        db' = { db with grants := t }) := by
  simp only [createCreditGrant, bind_ok, ensure_ok, selectWhere_ok] at h
  obtain ⟨_, _, ⟨-, rfl⟩, existing, _, ⟨hex, rfl⟩, h⟩ := h
  cases hg : existing with
  | some =>
    rw [hg] at h hex
    simp only [bind_ok, ensure_ok, pure_ok] at h
    obtain ⟨_, _, ⟨he, rfl⟩, rfl, rfl⟩ := h
    exact .inl ⟨rfl, he ▸ List.mem_of_find?_eq_some hex⟩
  | none =>
    rw [hg] at h
    simp only [bind_ok, insert_ok, pure_ok] at h
    obtain ⟨_, _, ⟨t, ht, rfl⟩, rfl, rfl⟩ := h
    exact .inr ⟨rfl, t, ht, rfl⟩

/-- The grant of a paid purchase. Purchased credit never expires. -/
def externalPurchaseSpec (accountId paymentReference : String) (amountBytes createdAt : ℤ) :
    CreditGrantSpec where
  creditSubject := accountCreditSubject accountId
  accountId := some accountId
  creditKind := .notarization
  amountBytes := amountBytes
  sourceKind := .externalPurchase
  sourceReference := paymentReference
  idempotencyKey := "external-purchase:" ++ paymentReference
  periodStart := none
  periodEnd := none
  createdAt := createdAt
  availableAt := createdAt
  expiresAt := none
  displayLabel := "Purchased notarization credits"

def grantExternalPurchase (freshId accountId paymentReference : String)
    (amountBytes createdAt : ℤ) : Request String :=
  createCreditGrant freshId
    (externalPurchaseSpec accountId paymentReference amountBytes createdAt)

/-- Upsert the billing profile of an account; its timestamp never moves backwards. -/
def setAccountBillingState (accountId : String) (plan : Plan) (billingStatus : BillingStatus)
    (updatedAt : ℤ) : Request Unit := do
  let row ← TableRef.profiles.selectByKey accountId
  match row with
  | none => TableRef.profiles.insert ⟨accountId, plan, billingStatus, updatedAt⟩
  | some _ =>
    let _ ← TableRef.profiles.update (fun p => p.accountId = accountId) fun p =>
      { p with
        plan := plan
        billingStatus := billingStatus
        updatedAt := max p.updatedAt updatedAt }

theorem setAccountBillingState_ok
    (h : setAccountBillingState accountId plan status updatedAt db = .ok r) :
    ∃ t, r.2 = { db with profiles := t } ∧
      ∀ other ≠ accountId, t.find? other = db.profiles.find? other := by
  simp only [setAccountBillingState, bind_ok, selectByKey_ok] at h
  obtain ⟨row, _, ⟨-, rfl⟩, h⟩ := h
  cases row with
  | none =>
    obtain ⟨t, ht, hr⟩ := insert_ok.mp h
    refine ⟨t, hr.symm, fun other hn => ?_⟩
    exact (find?_of_insert ht other).trans (if_neg fun he => hn he.symm)
  | some =>
    simp only [bind_ok, update_ok, pure_ok] at h
    obtain ⟨_, _, ⟨-, t, ht, rfl⟩, -, hr⟩ := h
    refine ⟨t, hr.symm, fun other hn => ?_⟩
    rw [find?_of_update ht (fun _ => rfl) other]
    cases ho : db.profiles.find? other with
    | none => rfl
    | some p =>
      have hk : p.accountId = other := (find?_eq_some.mp ho).2
      simp [hk, hn]

/-- The monthly allowance of one credit kind under a tier policy. -/
def AdmissionTierLimits.monthlyBytes (policy : AdmissionTierLimits) : CreditKind → ℤ
  | .capture => policy.monthlyCaptureBytes
  | .notarization => policy.monthlyNotarizationBytes

def monthlyLabel : CreditKind → String
  | .capture => "Monthly capture allowance"
  | .notarization => "Monthly notarization allowance"

def monthlyGrantSpec (creditSubject : String) (accountId : Option String)
    (policy : AdmissionTierLimits) (kind : CreditKind) (period : CreditPeriod) (now : ℤ) :
    CreditGrantSpec :=
  let reference := "monthly:" ++ kind.asStr ++ ":" ++ toString period.start
  { creditSubject := creditSubject
    accountId := accountId
    creditKind := kind
    amountBytes := policy.monthlyBytes kind
    sourceKind := .includedMonthly
    sourceReference := reference
    idempotencyKey := reference
    periodStart := some period.start
    periodEnd := some period.stop
    createdAt := now
    availableAt := period.start
    expiresAt := some period.stop
    displayLabel := monthlyLabel kind }

/-- Make the current month's grant exist with the configured allowance, which stays
authoritative even when settled allocations already exceed it. -/
def ensureMonthlyGrant (cal : CreditCalendar) (freshId creditSubject : String)
    (accountId : Option String) (policy : AdmissionTierLimits) (kind : CreditKind) (now : ℤ) :
    Request Unit := do
  let period ← Tx.require (cal.monthlyCreditPeriod now) databaseError
  let existing ← TableRef.grants.selectWhere fun g =>
    g.creditSubject = creditSubject ∧ g.creditKind = kind ∧
      g.sourceKind = .includedMonthly ∧ g.periodStart = some period.start
  match existing with
  | some g =>
    if policy.monthlyBytes kind ≠ g.amountBytes then
      let _ ← TableRef.grants.update (fun h => h.id = g.id) fun h =>
        { h with amountBytes := policy.monthlyBytes kind }
      pure ()
    else pure ()
  | none =>
    let _ ← createCreditGrant freshId
      (monthlyGrantSpec creditSubject accountId policy kind period now)
    pure ()

/-- The row is the monthly grant of a subject. -/
def CreditGrant.CoversMonth (g : CreditGrant) (subject : String) (kind : CreditKind)
    (start : ℤ) : Prop :=
  g.creditSubject = subject ∧ g.creditKind = kind ∧ g.sourceKind = .includedMonthly ∧
    g.periodStart = some start
  deriving Decidable

/-- The grant of the month is there with its amount, is brought up to date, or is created. -/
theorem ensureMonthlyGrant_cases
    (h : ensureMonthlyGrant cal freshId subject accountId policy kind now db = .ok ((), db')) :
    ∃ period t, cal.monthlyCreditPeriod now = some period ∧ db' = { db with grants := t } ∧
      ((∃ g ∈ db.grants, g.CoversMonth subject kind period.start ∧
          (t = db.grants ∧ g.amountBytes = policy.monthlyBytes kind ∨
            db.grants.update (fun h => h.id = g.id)
              (fun h => { h with amountBytes := policy.monthlyBytes kind }) = some t)) ∨
        db.grants.insert ((monthlyGrantSpec subject accountId policy kind period now).toGrant
          freshId) = some t) := by
  simp only [ensureMonthlyGrant, bind_ok, require_ok, selectWhere_ok] at h
  obtain ⟨period, _, ⟨hp, rfl⟩, existing, _, ⟨hf, rfl⟩, h⟩ := h
  refine ⟨period, ?_⟩
  cases existing with
  | some g =>
    have hme : g ∈ db.grants := List.mem_of_find?_eq_some hf
    have hm := List.find?_some hf
    simp only [decide_eq_true_eq] at hm
    dsimp only at h
    split at h
    · simp only [bind_ok, update_ok, pure_ok, true_and] at h
      obtain ⟨_, _, ⟨-, t, ht, rfl⟩, rfl⟩ := h
      exact ⟨t, hp, rfl, .inl ⟨g, hme, hm, .inr ht⟩⟩
    · rename_i hsa
      simp only [pure_ok, true_and] at h
      exact ⟨_, hp, h.symm, .inl ⟨g, hme, hm, .inl ⟨rfl, (not_not.mp hsa).symm⟩⟩⟩
  | none =>
    simp only [bind_ok, pure_ok, true_and] at h
    obtain ⟨_, _, hc, rfl⟩ := h
    obtain ⟨rfl, hme⟩ | ⟨-, t, ht, rfl⟩ := createCreditGrant_ok hc
    · exact ⟨_, hp, rfl, .inl ⟨_, hme, ⟨rfl, rfl, rfl, rfl⟩, .inl ⟨rfl, rfl⟩⟩⟩
    · exact ⟨t, hp, rfl, .inr ht⟩

/-- Every grant that `ensure_monthly_grant` leaves was there, is the month's grant of the subject
with its amount brought up to date, or is new. -/
theorem ensureMonthlyGrant_mem
    (h : ensureMonthlyGrant cal freshId subject accountId policy kind now db = .ok ((), db')) :
    ∃ period t, cal.monthlyCreditPeriod now = some period ∧ db' = { db with grants := t } ∧
      ∀ g' ∈ t, g' ∈ db.grants ∨ (∃ g ∈ db.grants, g.creditKind = kind ∧
          g' = { g with amountBytes := policy.monthlyBytes kind }) ∨
        ∃ id, g' = (monthlyGrantSpec subject accountId policy kind period now).toGrant id := by
  obtain ⟨period, t, hp, rfl, ⟨g, hme, hm, ⟨rfl, -⟩ | ht⟩ | ht⟩ := ensureMonthlyGrant_cases h
  · exact ⟨period, _, hp, rfl, fun g' hg' => .inl hg'⟩
  · refine ⟨period, t, hp, rfl, fun g' hg' => ?_⟩
    obtain ⟨g₀, hg0, rfl⟩ := (mem_of_update ht).mp hg'
    split
    · rename_i hi
      obtain rfl : g₀ = g := eq_of_key hg0 hme (of_decide_eq_true hi)
      exact .inr (.inl ⟨g₀, hg0, hm.2.1, rfl⟩)
    · exact .inl hg0
  · refine ⟨period, t, hp, rfl, fun g' hg' => ?_⟩
    rcases (mem_of_insert ht).mp hg' with hg' | rfl
    · exact .inl hg'
    · exact .inr (.inr ⟨freshId, rfl⟩)

namespace CreditGrant

/-- The grant funds usage of this subject and kind admitted at the given time. -/
def funds (g : CreditGrant) (creditSubject : String) (kind : CreditKind) (admittedAt : ℤ) :
    Bool :=
  g.creditSubject = creditSubject ∧ g.creditKind = kind ∧ g.sourceKind ≠ .operationOverage ∧
    g.availableAt ≤ admittedAt ∧ g.expiresAt.all fun e => admittedAt < e

/-- The grants agree on everything but the amount. -/
def SameTerms (g h : CreditGrant) : Prop := h = { g with amountBytes := h.amountBytes }

theorem SameTerms.refl (g : CreditGrant) : g.SameTerms g := rfl

theorem SameTerms.funds_eq (e : g.SameTerms h) (subject : String) (kind : CreditKind) (at_ : ℤ) :
    h.funds subject kind at_ = g.funds subject kind at_ := by
  rw [e]
  rfl

end CreditGrant

/-- Each old grant survives with its terms. -/
def GrantsPersist (old new : Table CreditGrant) : Prop :=
  ∀ g ∈ old, ∃ h ∈ new, g.SameTerms h

theorem GrantsPersist.refl (t : Table CreditGrant) : GrantsPersist t t :=
  fun g hg => ⟨g, hg, .refl g⟩

theorem grantsPersist_of_insert (h : t.insert g = some t') :
    GrantsPersist t t' :=
  fun k hk => ⟨k, (mem_of_insert h).mpr (.inl hk), .refl k⟩

/-- Each monthly grant is available exactly during a month of the calendar. -/
def MonthlyWindows (cal : CreditCalendar) (t : Table CreditGrant) : Prop :=
  ∀ g ∈ t, g.sourceKind = .includedMonthly → ∃ now p, cal.monthlyCreditPeriod now = some p ∧
    g.periodStart = some p.start ∧ g.availableAt = p.start ∧ g.expiresAt = some p.stop

theorem monthlyWindows_insert (hw : MonthlyWindows cal t) (h : t.insert g = some t')
    (hg : g.sourceKind ≠ .includedMonthly) :
    MonthlyWindows cal t' := by
  intro k hk hm
  rcases (mem_of_insert h).mp hk with hk | rfl
  · exact hw k hk hm
  · exact absurd hm hg

/-- What `ensure_monthly_grant` leaves behind: the other tables are untouched, earlier
grants keep their terms, and some grant funds the subject at the current time. -/
theorem ensureMonthlyGrant_ok (hw : MonthlyWindows cal db.grants)
    (h : ensureMonthlyGrant cal freshId subject accountId policy kind now db = .ok ((), db')) :
    ∃ t, db' = { db with grants := t } ∧ GrantsPersist db.grants t ∧ MonthlyWindows cal t ∧
      ∃ g ∈ t, g.funds subject kind now := by
  obtain ⟨period, t, hp, rfl, hc⟩ := ensureMonthlyGrant_cases h
  -- A monthly grant that starts with the current month covers the whole month.
  have hf (g : CreditGrant) (hk : g.CoversMonth subject kind period.start)
      (ha : g.availableAt = period.start) (he : g.expiresAt = some period.stop) :
      g.funds subject kind now := by
    have hs := cal.start_le hp
    have hl := cal.lt_stop hp
    simp [CreditGrant.funds, hk.1, hk.2.1, hk.2.2.1, ha, he, hs, hl]
  obtain ⟨g, hme, hm, hc⟩ | ht := hc
  · obtain ⟨_, q, hq, hqs, hqa, hqe⟩ := hw g hme hm.2.2.1
    have hst : q.start = period.start := Option.some.inj (hqs.symm.trans hm.2.2.2)
    have hsp : q.stop = period.stop := cal.same_stop hq hp hst
    have hli : g.funds subject kind now := hf g hm (hqa.trans hst) (by rw [hqe, hsp])
    obtain ⟨rfl, -⟩ | ht := hc
    · exact ⟨_, rfl, .refl _, hw, g, hme, hli⟩
    · have hte (k : CreditGrant) : k.SameTerms
          (if decide (k.id = g.id) then { k with amountBytes := policy.monthlyBytes kind }
            else k) := by
        split <;> rfl
      refine ⟨t, rfl, ?_, ?_, ?_⟩
      · intro k hk
        exact ⟨_, (mem_of_update ht).mpr ⟨k, hk, rfl⟩, hte k⟩
      · intro k hk hm
        obtain ⟨k₀, hk0, rfl⟩ := (mem_of_update ht).mp hk
        rw [hte k₀] at hm ⊢
        exact hw k₀ hk0 hm
      · exact ⟨_, mem_update_of ht hme (by simp), hli⟩
  · refine ⟨t, rfl, grantsPersist_of_insert ht, ?_, _, (mem_of_insert ht).mpr (.inr rfl),
      hf _ ⟨rfl, rfl, rfl, rfl⟩ rfl rfl⟩
    intro k hk hm
    rcases (mem_of_insert ht).mp hk with hk | rfl
    · exact hw k hk hm
    · exact ⟨now, period, hp, rfl, rfl, rfl⟩

end Notary.Platform
