import Notary.Platform.Lifecycle
import Notary.Platform.PlanGrants

/-! The invariant of the runs in which plans are read and changed, and the law of the monthly
grants that follows from it. -/

namespace Notary.Platform
open Relational Transition Option List Table

variable {now : ℤ}

section

variable {cfg : PlatformConfig} {db' : Database} {w w' : PlanWorld}

structure PlanInv (cfg : PlatformConfig) (w : PlanWorld) : Prop where
  references : MonthlyReferences w.db.grants
  tickets : ∀ t ∈ w.db.tickets, TicketSubject t
  follows : ∀ m ∈ w.ensured, ∃ g ∈ w.db.grants, g.IsMonthly m ∧
    g.amountBytes = (policyForPlan cfg (storedPlan w.db m.accountId)).monthlyBytes m.kind

section

variable (inv : PlanInv cfg w)
include inv

theorem PlanInv.grantsFollowPlan : GrantsFollowPlan cfg w := by
  intro m hm
  obtain ⟨g, hg, hmo, ha⟩ := inv.follows m hm
  refine ⟨⟨g, hg, hmo⟩, fun k hk hkm => ?_⟩
  rw [inv.references.unique hk hg hkm hmo]
  exact ha

/-- Ensuring a grant with the allowance of the stored plan keeps the invariant, also when the
grant counts as ensured from then on. -/
theorem PlanInv.ensure (new : List MonthlyGrant)
    (h : ensureMonthlyGrant cfg.calendar freshId subject accountId policy kind now w.db =
      .ok ((), db')) (hpo : ∀ a, subject = accountCreditSubject a →
      policy = policyForPlan cfg (storedPlan w.db a))
    (hne : ∀ n ∈ new, ∃ a, subject = accountCreditSubject a ∧
      n ∈ monthlyGrants cfg.calendar a [kind] now) :
    PlanInv cfg { w with db := db', ensured := w.ensured ++ new } := by
  obtain ⟨period, t, hp, rfl, he⟩ := ensureMonthlyGrant_ensures inv.references h
  obtain ⟨g₀, hg0, hc, ha0⟩ := he.exact
  refine ⟨he.references, inv.tickets, fun n hn => ?_⟩
  -- The ensured grant has the right amount for whichever account its subject is.
  have ht (n : MonthlyGrant) (hs : subject = accountCreditSubject n.accountId)
      (hk : n.kind = kind) (hst : n.start = period.start) :
      ∃ g ∈ t, g.IsMonthly n ∧
        g.amountBytes = (policyForPlan cfg (storedPlan w.db n.accountId)).monthlyBytes n.kind := by
    refine ⟨g₀, hg0, ?_, ?_⟩
    · rw [CreditGrant.IsMonthly, ← hs, hk, hst]
      exact hc
    · rw [ha0, hpo _ hs, hk]
  rcases mem_append.mp hn with hn | hn
  · obtain ⟨g, hg, hm, ha⟩ := inv.follows n hn
    by_cases hsa : g.CoversMonth subject kind period.start
    · have hst : n.start = period.start := some_inj.mp (hm.2.2.2.symm.trans hsa.2.2.2)
      exact ht n (hsa.1.symm.trans hm.1) (hm.2.1.symm.trans hsa.2.1) hst
    · exact ⟨g, he.others g hg hsa, hm, ha⟩
  · obtain ⟨_, hs, hme⟩ := hne n hn
    simp only [monthlyGrants, hp, map_cons, map_nil, mem_singleton] at hme
    subst hme
    exact ht _ hs rfl rfl

theorem PlanInv.withTickets (ht : ∀ ticket ∈ t, TicketSubject ticket) :
    PlanInv cfg { w with db := { w.db with tickets := t } } :=
  { inv with tickets := ht }

theorem PlanInv.withOperations (t : Table AdmittedOperation) :
    PlanInv cfg { w with db := { w.db with operations := t } } :=
  { inv with }

theorem PlanInv.issue (hti : ∀ t : AdmissionTicket, t.accountId = identity.accountId? →
      t.creditSubject = identity.creditSubject → t.admissionTier = identity.pool → TicketSubject t)
    (hp : ∀ a, identity.creditSubject = accountCreditSubject a →
      policyForPool cfg identity.pool = policyForPlan cfg (storedPlan w.db a))
    (hn : ∀ n ∈ new, ∃ a, identity.creditSubject = accountCreditSubject a ∧
      n ∈ monthlyGrants cfg.calendar a [.forMode request.mode] now) :
    PlanInv cfg (w.commit (issueAdmission cfg freshGrantId token identity request now) new) := by
  unfold PlanWorld.commit
  split
  · exact inv
  · rename_i ho
    obtain ⟨_, _, _, he, ⟨ha, hs, htr, -⟩, ht, rfl⟩ := issueAdmission_ensures ho
    have hi := inv.ensure new he hp hn
    refine hi.withTickets fun k hk => ?_
    rcases (mem_of_insert ht).mp hk with hk | rfl
    · exact hi.tickets k hk
    · exact hti k ha hs htr

theorem PlanInv.redeem (hfr : UpToDate cfg w (.redeem freshGrantId freshOperationId request now)) :
    PlanInv cfg (w.commit (redeemAdmission cfg freshGrantId freshOperationId request now)
      (match (w.ticket cfg request).bind AdmissionTicket.accountId with
        | none => []
        | some accountId => monthlyGrants cfg.calendar accountId [.forMode request.mode] now)) := by
  unfold PlanWorld.commit
  split
  · exact inv
  · rename_i hok
    obtain ⟨ticket, _, _, operations, _, hf, ⟨-, -, hc⟩, he, -, hti, ⟨⟩⟩ :=
      redeemAdmission_ensures hok
    have ht : w.ticket cfg request = some ticket := hf
    have hs := inv.tickets ticket (find?_eq_some.mp hf).1
    rw [ht, bind_some]
    have hi := inv.ensure (match ticket.accountId with
      | none => []
      | some accountId => monthlyGrants cfg.calendar accountId [.forMode request.mode] now)
      he ?_ ?_
    · refine (hi.withOperations operations).withTickets fun k hk => ?_
      obtain ⟨k₀, hk0, rfl⟩ := (mem_of_update hti).mp hk
      have ho : TicketSubject k₀ := hi.tickets k₀ hk0
      split <;> exact ho
    · intro a ha
      unfold TicketSubject at hs
      cases hac : ticket.accountId with
      | none =>
        rw [hac] at hs
        exact absurd ha (hs a)
      | some accountId =>
        rw [hac] at hs
        obtain rfl := accountCreditSubject_inj (hs.1.symm.trans ha)
        exact checkTicketBilling_plan hc hac hs.2 fun htr => hfr ticket ht htr accountId hac
    · intro _ hn
      unfold TicketSubject at hs
      cases hac : ticket.accountId with
      | none =>
        rw [hac] at hn
        cases hn
      | some accountId =>
        rw [hac] at hs hn
        exact ⟨accountId, hs.1, hn⟩

theorem PlanInv.balance (hpl : plan = storedPlan w.db accountId) :
    PlanInv cfg (w.commit (ensureAccountMonthlyGrant cfg captureGrantId notarizationGrantId
      accountId plan now)
      (monthlyGrants cfg.calendar accountId [.capture, .notarization] now)) := by
  unfold PlanWorld.commit
  split
  · exact inv
  · rename_i ho
    obtain ⟨_, db₁, hc, hno⟩ := Tx.bind_ok.mp ho
    have hp (a : String) (ha : accountCreditSubject accountId = accountCreditSubject a) :
        policyForPlan cfg plan = policyForPlan cfg (storedPlan w.db a) := by
      rw [hpl, accountCreditSubject_inj ha]
    have hf := inv.ensure (monthlyGrants cfg.calendar accountId [.capture] now) hc
      hp fun n hn => ⟨accountId, rfl, hn⟩
    have hpr : db₁.profiles = w.db.profiles := by
      obtain ⟨_, _, -, rfl, -⟩ := ensureMonthlyGrant_ensures inv.references hc
      rfl
    have hs := hf.ensure (monthlyGrants cfg.calendar accountId [.notarization] now)
      hno ?_ fun n hn => ⟨accountId, rfl, hn⟩
    · have hg : monthlyGrants cfg.calendar accountId [.capture] now ++
          monthlyGrants cfg.calendar accountId [.notarization] now =
            monthlyGrants cfg.calendar accountId [.capture, .notarization] now := by
        unfold monthlyGrants
        cases cfg.calendar.monthlyCreditPeriod now <;> rfl
      rw [← hg, ← append_assoc]
      exact hs
    · intro a ha
      rw [hp a ha, storedPlan, storedPlan, hpr]

theorem PlanInv.leavesPlans (h : LeavesPlans w.db db') : PlanInv cfg { w with db := db' } where
  references g hg start hk := by
    rcases h.new g hg with ho | hn
    · exact inv.references g ho start hk
    · exact absurd hk hn
  tickets t ht := inv.tickets t (h.tickets ▸ ht)
  follows m hm := by
    obtain ⟨g, hg, hmo, ha⟩ := inv.follows m hm
    refine ⟨g, h.kept g hg, hmo, ?_⟩
    rw [storedPlan, h.profiles]
    exact ha

theorem PlanInv.claim (hpl : plan = storedPlan w.db accountId) :
    PlanInv cfg (w.commit (claimCreditOffer cfg grantId bonusId accountId offerId plan now)
      (monthlyGrants cfg.calendar accountId [.notarization] now)) := by
  unfold PlanWorld.commit
  split
  · exact inv
  · rename_i ho
    simp only [claimCreditOffer, Tx.bind_ok, Tx.ensure_ok, TableRef.selectWhere_ok] at ho
    obtain ⟨_, db₁, he, _, _, ⟨-, rfl⟩, _, _, ⟨-, rfl⟩, _, _, ⟨-, rfl⟩, hc⟩ := ho
    have hi := inv.ensure (monthlyGrants cfg.calendar accountId [.notarization] now) he
      (fun a ha => by rw [hpl, accountCreditSubject_inj ha]) fun n hn => ⟨accountId, rfl, hn⟩
    exact hi.leavesPlans (createCreditGrant_leavesPlans hc GrantSource.noConfusion)

theorem PlanInv.setBilling (accountId : String) (plan : Plan)
    (status : BillingStatus) (updatedAt : ℤ) :
    PlanInv cfg (w.setBilling accountId plan status updatedAt) := by
  unfold PlanWorld.setBilling
  split
  · exact inv
  · rename_i db₁ ho
    obtain ⟨t, (rfl : db₁ = _), -⟩ := setAccountBillingState_ok ho
    refine { inv with follows := fun m hm => ?_ }
    have hp : storedPlan { w.db with profiles := t } m.accountId = storedPlan w.db m.accountId ∧
        m ∈ w.ensured := by
      split at hm
      · rename_i hs
        refine ⟨?_, hm⟩
        by_cases he : m.accountId = accountId
        · rw [he]
          exact hs
        · exact setAccountBillingState_storedPlan ho he
      · obtain ⟨hm, hn⟩ := mem_filter.mp hm
        exact ⟨setAccountBillingState_storedPlan ho (of_decide_eq_true hn), hm⟩
    obtain ⟨g, hg, hmo, ha⟩ := inv.follows m hp.2
    refine ⟨g, hg, hmo, ?_⟩
    rw [hp.1]
    exact ha

theorem PlanInv.act (hal : UpToDate cfg w a) (hac : w.act cfg a = some w') : PlanInv cfg w' := by
  have hc (session : ℕ) : PlanInv cfg (w.close session) :=
    { inv with }
  cases a with
  | billing =>
    rw [← some_inj.mp hac]
    exact inv.setBilling _ _ _ _
  | read =>
    simp only [PlanWorld.act] at hac
    split at hac
    · cases hac
    · rw [← some_inj.mp hac]
      exact { inv with }
  | issue session =>
    obtain ⟨r, hr, rfl⟩ := map_eq_some_iff.mp hac
    refine (hc session).issue ?_ ?_ fun n hn => ⟨r.accountId, rfl, hn⟩
    · intro _ ha hs ht
      rw [TicketSubject, ha, hs, ht]
      exact ⟨rfl, pool_ne_publicTier _ _⟩
    · intro _ ha
      rw [policyForPool_pool, hal r hr, accountCreditSubject_inj ha]
      rfl
  | issuePublic key clientIp =>
    obtain ⟨period, -, rfl⟩ := map_eq_some_iff.mp hac
    refine inv.issue ?_ ?_ (by simp)
    · intro _ ha hs _
      rw [TicketSubject, ha, hs]
      exact publicCreditSubject_ne key clientIp period.start
    · exact fun account ha => absurd ha (publicCreditSubject_ne _ _ _ _)
  | balance session =>
    obtain ⟨r, hr, rfl⟩ := map_eq_some_iff.mp hac
    exact (hc session).balance (hal r hr)
  | claim session =>
    obtain ⟨r, hr, rfl⟩ := map_eq_some_iff.mp hac
    exact (hc session).claim (hal r hr)
  | redeem =>
    rw [← some_inj.mp hac]
    exact inv.redeem hal
  | other t =>
    simp only [PlanWorld.act, ite_none_right_eq_some, Option.some.injEq] at hac
    obtain ⟨hro, rfl⟩ := hac
    exact inv.leavesPlans (t.run_leavesPlans hro)

end

end

/-- In every run in which no monthly grant is written with an outdated plan or tier, the ensured
monthly grants follow the stored plan. -/
theorem monthly_grants_follow_plan {cfg : PlatformConfig} {w : PlanWorld}
    (hw : (planRuns cfg (UpToDate cfg)).Reachable w) : GrantsFollowPlan cfg w := by
  have hinv : PlanInv cfg w := by
    refine hw.invariant (I := PlanInv cfg) ?_ ?_
    · rintro _ ⟨hdb, -, hensured⟩
      constructor <;> simp [hdb, hensured, MonthlyReferences]
    · rintro _ _ ha ⟨_, hallowed, hact⟩
      exact ha.act hallowed hact
  exact hinv.grantsFollowPlan

def planConfig : PlatformConfig :=
  { sampleConfig with
    oneGb := ⟨1000, 4096, 9000, 9000⟩
    tenGb := ⟨1000, 4096, 90000, 90000⟩ }

theorem exists_planRun (Allowed : PlanWorld → PlanAct → Prop) [∀ w a, Decidable (Allowed w a)]
    {P : PlanWorld → Prop} [DecidablePred P] (acts : List PlanAct)
    (h : (System.runActs (PlanWorld.act planConfig) Allowed ⟨{}, [], []⟩ acts).any (P ·) = true) :
    ∃ w, (planRuns planConfig Allowed).Reachable w ∧ P w :=
  System.Reachable.exists_runActs (.init ⟨rfl, rfl, rfl⟩) (fun _ a _ ha hac => ⟨a, ha, hac⟩) acts h

def issueAct : PlanAct :=
  .issue 1 "grant-1" "notary_admission_t" ⟨.capture, none, none⟩ 1700000000

def redeemAct : PlanAct :=
  .redeem "grant-4" "op-1" ⟨"notary_admission_t", "notary-a", .capture, 7, true⟩ 1700000030

def upgradeAct : PlanAct := .billing "account-1" .oneGb .active 1700000010

/-- What an observer sees of a run: the open requests, the ensured grants, the stored plan and
the monthly grants. -/
def PlanWorld.view (w : PlanWorld) : ℕ × List MonthlyGrant × Plan × List (CreditKind × ℤ) :=
  (w.readers.length, w.ensured, storedPlan w.db "account-1",
    w.db.grants.rows.map fun g => (g.creditKind, g.amountBytes))

theorem monthly_grants_follow_plan_sample :
    ∃ w, (planRuns planConfig (UpToDate planConfig)).Reachable w ∧
      w.view = (0, [⟨"account-1", .capture, 1698796800⟩, ⟨"account-1", .notarization, 1698796800⟩],
        .oneGb, [(.capture, 9000), (.notarization, 9000)]) ∧
      GrantsFollowPlan planConfig w := by
  obtain ⟨w, hreach, hview⟩ := exists_planRun (UpToDate planConfig)
    [.read 1 "account-1", issueAct, redeemAct, upgradeAct, .read 2 "account-1",
      .balance 2 "grant-2" "grant-3" 1700000040]
    (P := fun w => w.view = (0, [⟨"account-1", .capture, 1698796800⟩,
      ⟨"account-1", .notarization, 1698796800⟩], .oneGb,
      [(.capture, 9000), (.notarization, 9000)])) (by decide)
  exact ⟨w, hreach, hview, monthly_grants_follow_plan hreach⟩

instance (cfg : PlatformConfig) (w : PlanWorld) : Decidable (GrantsFollowPlan cfg w) :=
  inferInstanceAs (Decidable (∀ m ∈ w.ensured,
    (∃ g ∈ w.db.grants.rows, g.CoversMonth (accountCreditSubject m.accountId) m.kind m.start) ∧
    ∀ g ∈ w.db.grants.rows, g.CoversMonth (accountCreditSubject m.accountId) m.kind m.start →
      g.amountBytes = (policyForPlan cfg (storedPlan w.db m.accountId)).monthlyBytes m.kind))

/-- A ticket of the free tier is redeemed after the upgrade and takes the capture grant back to
the free allowance; and a request that read the free plan does the same to both grants. -/
theorem outdated_plan_overwrites :
    (∃ w, (planRuns planConfig fun _ _ => True).Reachable w ∧
      w.view = (0, [⟨"account-1", .capture, 1698796800⟩, ⟨"account-1", .notarization, 1698796800⟩,
        ⟨"account-1", .capture, 1698796800⟩], .oneGb,
        [(.capture, 5000), (.notarization, 9000)]) ∧ ¬GrantsFollowPlan planConfig w) ∧
    ∃ w, (planRuns planConfig fun _ _ => True).Reachable w ∧
      w.view = (0, [⟨"account-1", .capture, 1698796800⟩, ⟨"account-1", .notarization, 1698796800⟩],
        .oneGb, [(.capture, 5000), (.notarization, 5000)]) ∧ ¬GrantsFollowPlan planConfig w := by
  constructor
  · exact exists_planRun _ [.read 1 "account-1", issueAct, upgradeAct, .read 2 "account-1",
      .balance 2 "grant-2" "grant-3" 1700000020, redeemAct] (by decide)
  · exact exists_planRun _ [.read 1 "account-1", upgradeAct,
      .balance 1 "grant-2" "grant-3" 1700000020] (by decide)

end Notary.Platform
