import Notary.Platform.LedgerInvariant
import Notary.Platform.PublicSubject

/-! Monthly grants and plans. A request reads the plan of its account before it takes the ledger
lock, and a ticket carries the tier of the plan it was issued for. The monthly grant follows the
stored plan as long as neither is out of date when the grant is written. -/

namespace Notary.Platform
open Relational Transition Table Tx String

def policyForPlan (cfg : PlatformConfig) : Plan → AdmissionTierLimits
  | .free => cfg.free
  | .oneGb => cfg.oneGb
  | .tenGb => cfg.tenGb

/-- The plan in the billing profile; an account without a profile is on the free plan. -/
def storedPlan (db : Database) (accountId : String) : Plan :=
  ((db.profiles.find? accountId).map AccountBillingProfile.plan).getD .free

/-- The ledger transaction of `ensure_account_monthly_grant`, with the plan read before it. -/
def ensureAccountMonthlyGrant (cfg : PlatformConfig)
    (captureGrantId notarizationGrantId accountId : String) (plan : Plan) (now : ℤ) :
    Request Unit := do
  ensureMonthlyGrant cfg.calendar captureGrantId (accountCreditSubject accountId) (some accountId)
    (policyForPlan cfg plan) .capture now
  ensureMonthlyGrant cfg.calendar notarizationGrantId (accountCreditSubject accountId)
    (some accountId) (policyForPlan cfg plan) .notarization now

def promotionalOfferId : String := "hosted-notarization-bonus-v1"

/-- The bonus of 128 MiB for notarizations, which lasts 90 days. -/
def promotionSpec (accountId : String) (now : ℤ) : CreditGrantSpec where
  creditSubject := accountCreditSubject accountId
  accountId := some accountId
  creditKind := .notarization
  amountBytes := 128 * 2 ^ 20
  sourceKind := .promotion
  sourceReference := promotionalOfferId
  idempotencyKey := "promotion:" ++ promotionalOfferId
  periodStart := none
  periodEnd := none
  createdAt := now
  availableAt := now
  expiresAt := some (now + 90 * (24 * 60 * 60))
  displayLabel := "Hosted notarization bonus"

def promotionalOfferEligible (claimed : Bool) (now : ℤ) : Bool :=
  !claimed && now < 1893456000

/-- The ledger transaction of `claim_credit_offer`, with the plan read before it. -/
def claimCreditOffer (cfg : PlatformConfig) (grantId bonusId accountId offerId : String)
    (plan : Plan) (now : ℤ) : Request String := do
  ensureMonthlyGrant cfg.calendar grantId (accountCreditSubject accountId) (some accountId)
    (policyForPlan cfg plan) .notarization now
  let bonus ← TableRef.grants.selectWhere fun g =>
    g.creditSubject = accountCreditSubject accountId ∧ g.sourceKind = .promotion ∧
      g.sourceReference = promotionalOfferId
  Tx.ensure (¬(offerId = promotionalOfferId ∧ bonus.isSome))
    (.coded 409 "credit_offer_already_claimed" "This credit offer has already been claimed")
  Tx.ensure (offerId = promotionalOfferId ∧ promotionalOfferEligible bonus.isSome now)
    (.coded 403 "credit_offer_not_eligible" "This account is not eligible for the credit offer")
  createCreditGrant bonusId (promotionSpec accountId now)

structure PlanReader where
  session : ℕ
  accountId : String
  billing : AccountBillingState

structure MonthlyGrant where
  accountId : String
  kind : CreditKind
  start : ℤ
  deriving DecidableEq

/-- The database, the requests between their read and their ledger transaction, and the monthly
grants that were ensured since the last change of their account's plan. -/
structure PlanWorld where
  db : Database
  readers : List PlanReader
  ensured : List MonthlyGrant

/-- The transactions that write neither a monthly grant nor a ticket nor a profile. -/
def Transaction.routine : Transaction → Bool
  | activate .. | recover .. | settle .. | purchase .. => true
  | issue .. | redeem .. | billing .. => false

inductive PlanAct
  | billing (accountId : String) (plan : Plan) (status : BillingStatus) (updatedAt : ℤ)
  | read (session : ℕ) (accountId : String)
  | issue (session : ℕ) (freshGrantId token : String) (request : IssueAdmissionRequest) (now : ℤ)
  | issuePublic (key : SubjectKey) (clientIp : IpAddr) (freshGrantId token : String)
      (request : IssueAdmissionRequest) (now : ℤ)
  | balance (session : ℕ) (captureGrantId notarizationGrantId : String) (now : ℤ)
  | claim (session : ℕ) (grantId bonusId offerId : String) (now : ℤ)
  | redeem (freshGrantId freshOperationId : String) (request : RedeemAdmissionRequest) (now : ℤ)
  | other (t : Transaction)

/-- The monthly grants of these kinds in the month of a time. -/
def monthlyGrants (cal : CreditCalendar) (accountId : String) (kinds : List CreditKind)
    (now : ℤ) : List MonthlyGrant :=
  match cal.monthlyCreditPeriod now with
  | none => []
  | some period => kinds.map fun kind => ⟨accountId, kind, period.start⟩

namespace PlanWorld

def reader (w : PlanWorld) (session : ℕ) : Option PlanReader :=
  w.readers.find? fun r => r.session = session

def close (w : PlanWorld) (session : ℕ) : PlanWorld :=
  { w with readers := w.readers.filter fun r => r.session ≠ session }

/-- A ledger transaction: it commits and ensures these grants, or it is rolled back. -/
def commit {α : Type} (w : PlanWorld) (x : Request α) (grants : List MonthlyGrant) : PlanWorld :=
  match x w.db with
  | .error _ => w
  | .ok (_, db) => { w with db := db, ensured := w.ensured ++ grants }

def ticket (cfg : PlatformConfig) (w : PlanWorld) (request : RedeemAdmissionRequest) :
    Option AdmissionTicket :=
  w.db.tickets.find? (cfg.sha256Hex request.ticket)

/-- A change of the billing state; another plan makes the grants of the account outdated. -/
def setBilling (w : PlanWorld) (accountId : String) (plan : Plan) (status : BillingStatus)
    (updatedAt : ℤ) : PlanWorld :=
  match setAccountBillingState accountId plan status updatedAt w.db with
  | .error _ => w
  | .ok (_, db) =>
    { w with
      db := db
      ensured :=
        if storedPlan db accountId = storedPlan w.db accountId then w.ensured
        else w.ensured.filter fun m => m.accountId ≠ accountId }

def act (cfg : PlatformConfig) (w : PlanWorld) : PlanAct → Option PlanWorld
  | .billing accountId plan status updatedAt => some (w.setBilling accountId plan status updatedAt)
  | .read session accountId =>
    match accountBillingState accountId w.db with
    | .error _ => none
    | .ok (billing, _) => some { w with readers := ⟨session, accountId, billing⟩ :: w.readers }
  | .issue session freshGrantId token request now =>
    (w.reader session).map fun r => (w.close session).commit
      (issueAdmission cfg freshGrantId token (.account r.accountId r.billing) request now)
      (monthlyGrants cfg.calendar r.accountId [.forMode request.mode] now)
  | .issuePublic key clientIp freshGrantId token request now =>
    (cfg.calendar.monthlyCreditPeriod now).map fun period =>
      w.commit (issueAdmission cfg freshGrantId token
        (.anonymous (key.publicCreditSubject clientIp period.start)) request now) []
  | .balance session captureGrantId notarizationGrantId now =>
    (w.reader session).map fun r => (w.close session).commit
      (ensureAccountMonthlyGrant cfg captureGrantId notarizationGrantId r.accountId r.billing.plan
        now)
      (monthlyGrants cfg.calendar r.accountId [.capture, .notarization] now)
  | .claim session grantId bonusId offerId now =>
    (w.reader session).map fun r => (w.close session).commit
      (claimCreditOffer cfg grantId bonusId r.accountId offerId r.billing.plan now)
      (monthlyGrants cfg.calendar r.accountId [.notarization] now)
  | .redeem freshGrantId freshOperationId request now =>
    some (w.commit (redeemAdmission cfg freshGrantId freshOperationId request now)
      (match (w.ticket cfg request).bind AdmissionTicket.accountId with
        | none => []
        | some accountId => monthlyGrants cfg.calendar accountId [.forMode request.mode] now))
  | .other t => if t.routine then some { w with db := t.run cfg w.db } else none

end PlanWorld

/-- Any interleaving of allowed acts from an empty database. -/
def planRuns (cfg : PlatformConfig) (Allowed : PlanWorld → PlanAct → Prop) : System PlanWorld where
  Init w := w.db = {} ∧ w.readers = [] ∧ w.ensured = []
  Step w w' := ∃ a, Allowed w a ∧ w.act cfg a = some w'

/-- When a request writes the monthly grant, the plan it has read is still the stored one, and
tickets of the free tier are redeemed only on the free plan. -/
def UpToDate (cfg : PlatformConfig) (w : PlanWorld) : PlanAct → Prop
  | .issue session _ _ _ _ | .balance session _ _ _ | .claim session _ _ _ _ =>
    ∀ r, w.reader session = some r → r.billing.plan = storedPlan w.db r.accountId
  | .redeem _ _ request _ => ∀ t, w.ticket cfg request = some t → t.admissionTier = .free →
    ∀ accountId, t.accountId = some accountId → storedPlan w.db accountId = .free
  | _ => True

instance decidableForallSome {α : Type} (o : Option α) (P : α → Prop) [DecidablePred P] :
    Decidable (∀ a, o = some a → P a) :=
  match o with
  | none => isTrue fun _ h => by cases h
  | some a => decidable_of_iff (P a) ⟨fun h _ e => Option.some_inj.mp e ▸ h, fun h => h a rfl⟩

instance (cfg : PlatformConfig) (w : PlanWorld) (a : PlanAct) : Decidable (UpToDate cfg w a) :=
  match a with
  | .issue session _ _ _ _ | .balance session _ _ _ | .claim session _ _ _ _ =>
    inferInstanceAs (Decidable
      (∀ r, w.reader session = some r → r.billing.plan = storedPlan w.db r.accountId))
  | .redeem _ _ request _ => inferInstanceAs (Decidable
      (∀ t, w.ticket cfg request = some t → t.admissionTier = .free →
        ∀ accountId, t.accountId = some accountId → storedPlan w.db accountId = .free))
  | .billing .. | .read .. | .issuePublic .. | .other .. => isTrue trivial

/-- The row is the monthly grant of an account. -/
def CreditGrant.IsMonthly (g : CreditGrant) (m : MonthlyGrant) : Prop :=
  g.CoversMonth (accountCreditSubject m.accountId) m.kind m.start

/-- Every monthly grant that was ensured since the last change of the plan exists, and its amount
is the allowance of the stored plan. -/
def GrantsFollowPlan (cfg : PlatformConfig) (w : PlanWorld) : Prop :=
  ∀ m ∈ w.ensured, (∃ g ∈ w.db.grants, g.IsMonthly m) ∧ ∀ g ∈ w.db.grants, g.IsMonthly m →
    g.amountBytes = (policyForPlan cfg (storedPlan w.db m.accountId)).monthlyBytes m.kind

/-- A monthly grant is recorded under a reference of its own. -/
def monthlyReference (kind : CreditKind) (start : ℤ) : String :=
  "monthly:" ++ kind.asStr ++ ":" ++ toString start

/-- Every monthly grant carries its own reference. -/
def MonthlyReferences (t : Table CreditGrant) : Prop :=
  ∀ g ∈ t, ∀ start, g.sourceKind = .includedMonthly → g.periodStart = some start →
    g.sourceReference = monthlyReference g.creditKind start

/-- An account's ticket is of the tier of a plan, and any other one of no account's subject. -/
def TicketSubject (t : AdmissionTicket) : Prop :=
  match t.accountId with
  | some accountId =>
    t.creditSubject = accountCreditSubject accountId ∧ t.admissionTier ≠ .publicTier
  | none => ∀ accountId, t.creditSubject ≠ accountCreditSubject accountId

variable {accountId : String} {now : ℤ}

section

variable {cfg : PlatformConfig} {db db' : Database}

/-- There is one monthly grant of an account for each kind and month. -/
theorem MonthlyReferences.unique (hr : MonthlyReferences t) (hg : g ∈ t) (hh : h ∈ t)
    (hgm : g.CoversMonth subject kind start) (hhm : h.CoversMonth subject kind start) : g = h := by
  obtain ⟨hgs, hgk, hgi, hgp⟩ := hgm
  obtain ⟨hhs, hhk, hhi, hhp⟩ := hhm
  have hr : g.sourceReference = h.sourceReference := by
    rw [hr g hg start hgi hgp, hr h hh start hhi hhp, hgk, hhk]
  exact eq_of_clash hg hh ⟨hgs.trans hhs.symm, .inr ⟨hgi.trans hhi.symm, hr⟩⟩

/-- The monthly grant of a subject in one month has an amount, and the other monthly grants are
as they were. -/
structure MonthlyEnsured (subject : String) (kind : CreditKind) (start amount : ℤ)
    (old new : Table CreditGrant) : Prop where
  exact : ∃ g ∈ new, g.CoversMonth subject kind start ∧ g.amountBytes = amount
  others : ∀ g ∈ old, ¬ g.CoversMonth subject kind start → g ∈ new
  references : MonthlyReferences new

theorem ensureMonthlyGrant_ensures {cal : CreditCalendar} {freshId subject : String}
    {accountId : Option String} {policy : AdmissionTierLimits} {kind : CreditKind}
    (hr : MonthlyReferences db.grants)
    (h : ensureMonthlyGrant cal freshId subject accountId policy kind now db = .ok ((), db')) :
    ∃ period t, cal.monthlyCreditPeriod now = some period ∧ db' = { db with grants := t } ∧
      MonthlyEnsured subject kind period.start (policy.monthlyBytes kind) db.grants t := by
  obtain ⟨period, t, hp, rfl, ⟨g, hme, hm, ⟨rfl, ha⟩ | ht⟩ | ht⟩ := ensureMonthlyGrant_cases h
  · exact ⟨period, _, hp, rfl, ⟨g, hme, hm, ha⟩, fun _ hk _ => hk, hr⟩
  · refine ⟨period, t, hp, rfl, ?_, ?_, ?_⟩
    · exact ⟨_, mem_update_of ht hme (decide_eq_true rfl), hm, rfl⟩
    · intro k hk ho
      refine mem_update_of_not ht hk (decide_eq_false fun hi => ?_)
      obtain rfl := eq_of_key hk hme hi
      exact ho hm
    · intro k hk start
      obtain ⟨k₀, hk0, rfl⟩ := (mem_of_update ht).mp hk
      have hro := hr k₀ hk0 start
      split <;> exact hro
  · refine ⟨period, t, hp, rfl, ?_, ?_, ?_⟩
    · exact ⟨_, (mem_of_insert ht).mpr (.inr rfl), ⟨rfl, rfl, rfl, rfl⟩, rfl⟩
    · exact fun k hk _ => (mem_of_insert ht).mpr (.inl hk)
    · intro k hk start hki hs
      rcases (mem_of_insert ht).mp hk with hk | rfl
      · exact hr k hk start hki hs
      · obtain rfl : period.start = start := Option.some_inj.mp hs
        rfl

theorem accountCreditSubject_inj (h : accountCreditSubject a = accountCreditSubject b) : a = b := by
  have hl := congrArg String.toList h
  simp only [accountCreditSubject, toList_append, List.append_cancel_left_eq] at hl
  exact toList_inj.mp hl

theorem publicCreditSubject_ne (key : SubjectKey) (ip : IpAddr) (start : ℤ) (accountId : String) :
    key.publicCreditSubject ip start ≠ accountCreditSubject accountId := by
  intro h
  have hl := congrArg String.toList h
  simp [SubjectKey.publicCreditSubject, SubjectKey.addressSubject, accountCreditSubject,
    toList_append] at hl

theorem policyForPool_pool (accountId : String) (billing : AccountBillingState) :
    policyForPool cfg (AdmissionIdentity.account accountId billing).pool =
      policyForPlan cfg billing.plan := by
  obtain ⟨plan, _⟩ := billing
  cases plan <;> rfl

theorem pool_ne_publicTier (accountId : String) (billing : AccountBillingState) :
    (AdmissionIdentity.account accountId billing).pool ≠ .publicTier := by
  obtain ⟨plan, _⟩ := billing
  cases plan <;> exact AdmissionTier.noConfusion

theorem accountBillingState_ok (h : accountBillingState accountId db = .ok r) :
    r.1.plan = storedPlan db accountId ∧ r.2 = db := by
  simp only [accountBillingState, bind_ok, TableRef.selectByKey_ok, pure_ok] at h
  obtain ⟨row, _, ⟨hr, rfl⟩, hs, hd⟩ := h
  refine ⟨?_, hd.symm⟩
  rw [← hs, storedPlan]
  cases row with
  | none =>
    rw [show db.profiles.find? accountId = none from hr]
    rfl
  | some profile =>
    rw [show db.profiles.find? accountId = some profile from hr]
    rfl

/-- A ticket of a paid tier passes the check only on the plan of that tier. -/
theorem checkTicketBilling_plan (h : checkTicketBilling ticket db = .ok ((), db))
    (ha : ticket.accountId = some accountId) (hpu : ticket.admissionTier ≠ .publicTier)
    (hf : ticket.admissionTier = .free → storedPlan db accountId = .free) :
    policyForPool cfg ticket.admissionTier = policyForPlan cfg (storedPlan db accountId) := by
  simp only [checkTicketBilling, ha, bind_ok, ensure_ok] at h
  obtain ⟨_, _, hr, _, _, -, hp, -⟩ := h
  rw [(accountBillingState_ok hr).1] at hp
  simp only [not_or, not_and, not_not] at hp
  cases ht : ticket.admissionTier with
  | publicTier => exact absurd ht hpu
  | free => rw [hf ht]; rfl
  | oneGb => rw [hp.1 ht]; rfl
  | tenGb => rw [hp.2 ht]; rfl

theorem setAccountBillingState_storedPlan
    (h : setAccountBillingState accountId plan status updatedAt db = .ok r)
    (hn : other ≠ accountId) :
    storedPlan r.2 other = storedPlan db other := by
  obtain ⟨_, hr, ho⟩ := setAccountBillingState_ok h
  rw [hr, storedPlan, storedPlan, ho other hn]

/-- A transaction that writes no monthly grant, ticket or profile. -/
structure LeavesPlans (db db' : Database) : Prop where
  profiles : db'.profiles = db.profiles
  tickets : db'.tickets = db.tickets
  kept : ∀ g ∈ db.grants, g ∈ db'.grants
  new : ∀ g ∈ db'.grants, g ∈ db.grants ∨ g.sourceKind ≠ .includedMonthly

theorem LeavesPlans.of_eq (hp : db'.profiles = db.profiles) (ht : db'.tickets = db.tickets)
    (hg : db'.grants = db.grants) : LeavesPlans db db' :=
  ⟨hp, ht, fun _ h => hg ▸ h, fun _ h => .inl (hg ▸ h)⟩

theorem LeavesPlans.of_insert (hp : db'.profiles = db.profiles) (ht : db'.tickets = db.tickets)
    (hg : db.grants.insert g = some db'.grants) (hki : g.sourceKind ≠ .includedMonthly) :
    LeavesPlans db db' where
  profiles := hp
  tickets := ht
  kept k hk := (mem_of_insert hg).mpr (.inl hk)
  new k hk := by
    rcases (mem_of_insert hg).mp hk with hk | rfl
    · exact .inl hk
    · exact .inr hki

theorem createCreditGrant_leavesPlans {spec : CreditGrantSpec} {freshId id : String}
    (h : createCreditGrant freshId spec db = .ok (id, db'))
    (hk : spec.sourceKind ≠ .includedMonthly) : LeavesPlans db db' := by
  obtain ⟨rfl, -⟩ | ⟨-, _, ht, rfl⟩ := createCreditGrant_ok h
  · exact .of_eq rfl rfl rfl
  · exact .of_insert rfl rfl ht hk

theorem Transaction.run_leavesPlans (t : Transaction) (ht : t.routine) :
    LeavesPlans db (t.run cfg db) := by
  have hs : LeavesPlans db db := .of_eq rfl rfl rfl
  cases t with
  | issue | redeem | billing => cases ht
  | activate =>
    refine exec_inv hs fun u db' h => ?_
    obtain ⟨_, _, -, -, -, ⟨-, rfl⟩ | ⟨-, -, _, -, rfl⟩⟩ := activateOperation_ok h
    · exact hs
    · exact .of_eq rfl rfl rfl
  | recover =>
    refine exec_inv hs fun n db' h => ?_
    obtain ⟨_, -, rfl⟩ := recoverExpiredActivations_ok h
    exact .of_eq rfl rfl rfl
  | settle =>
    refine exec_inv hs fun u db' h => ?_
    obtain ⟨-, _, -, -, -, -, -, ⟨-, -, rfl⟩ | hse⟩ := settleUsage_ok h
    · exact hs
    · obtain ⟨db₁, he, _, -, rfl⟩ := hse.effect
      split at he
      · have hf := he.frame
        have hp : db₁.profiles = db.profiles := by rw [hf]
        have htk : db₁.tickets = db.tickets := by rw [hf]
        rcases he.grants with hg | ⟨_, hk, hg, -⟩
        · exact .of_eq hp htk hg
        · exact .of_insert hp htk hg (by rw [hk]; exact GrantSource.noConfusion)
      · subst he
        exact .of_eq rfl rfl rfl
  | purchase =>
    exact exec_inv hs fun id db' h => createCreditGrant_leavesPlans h GrantSource.noConfusion

end

end Notary.Platform
