import Notary.Billing.AccountReview
import Notary.Billing.PurchaseLedger

/-! The review flag and the plan of an account agree with the committed tables in every run
whose commits disturb no recomputation. A commit in between can leave an account with an open
dispute active. -/

namespace Notary.Billing
open Relational Platform Transition Option List TableRef Table

/-- The writes of a transaction leave the account's state and its sources as they are. -/
def QuietWrites (accountId : String) (t : Uncommitted Database RowLock) : Prop :=
  ∀ db db', t.own db = some db' → Untouched accountId db db'

/-- What a transaction has done so far, over the committed tables. -/
def SessionInv (accountId : String) (db : Database) (s : Session) : Prop :=
  match s.stage with
  | .working p => Due p ∨ Calm accountId p ∧ QuietWrites accountId s.state
  | .recomputing _ _ => True
  | .disputesRead _ _ dispute => ∃ v, s.state.own db = some v ∧ dispute = hasDispute v accountId
  | .subscriptionRead _ _ dispute subscription => ∃ v, s.state.own db = some v ∧
      dispute = hasDispute v accountId ∧ subscription = currentSubscription v accountId
  | .finishing true p => Quiet accountId p ∧ ∀ v, s.state.own db = some v → Agrees accountId v
  | .finishing false p => Quiet accountId p ∧ QuietWrites accountId s.state

variable {t : Uncommitted Database RowLock} {plan : Plan} {w w' : World} {id : ℕ}

section

variable {accountId : String} {db db' : Database} {s s' : Session}

/-- Before its first query a transaction does not depend on the committed tables. -/
theorem SessionInv.of_not_selected (h : SessionInv accountId db s)
    (hs : s.stage.selected = false) : SessionInv accountId db' s := by
  obtain ⟨_, stage⟩ := s
  cases stage with
  | working | recomputing => exact h
  | disputesRead | subscriptionRead => cases hs
  | finishing recomputed =>
    cases recomputed with
    | true => cases hs
    | false => exact h

theorem QuietWrites.execute {α : Type} {x : Request α} {locks : α → List RowLock} {a : α}
    (ht : QuietWrites accountId t) (hx : Keeps accountId x ∨ locks a = [])
    (h : t.execute db x locks = some (a, t')) :
    QuietWrites accountId t' := by
  intro c v' hv'
  rcases Uncommitted.own_execute h hv' with ⟨-, hs⟩ | ⟨hso, v, b, hv, hr⟩
  · exact ht c v' hs
  · rcases hx with hx | hn
    · exact (ht c v hv).trans (hx v b v' hr)
    · exact absurd hn hso

theorem storedBillingState_of_set
    (h : setAccountBillingState accountId plan status now db = .ok (u, db')) :
    storedBillingState db' accountId = (plan, status) := by
  simp only [setAccountBillingState, Tx.bind_ok, selectByKey_ok] at h
  obtain ⟨row, _, ⟨hr, rfl⟩, h⟩ := h
  cases row with
  | none =>
    obtain ⟨_, ht, rfl⟩ := insert_ok.mp h
    have hf := find?_of_insert ht accountId
    rw [if_pos (by rfl)] at hf
    simp only [storedBillingState, hf]
  | some profile =>
    simp only [Tx.bind_ok, update_ok, Tx.pure_ok] at h
    obtain ⟨_, _, ⟨-, _, ht, rfl⟩, -, rfl⟩ := h
    have hi : profile.accountId = accountId := (find?_eq_some.mp hr).2
    have hf := find?_of_update ht (fun _ => rfl) accountId
    rw [show db.profiles.find? accountId = some profile from hr] at hf
    simp only [map_some, hi, decide_true, if_true] at hf
    simp only [storedBillingState, hf]

theorem subscriptionState_ok (h : subscriptionState subscription = .ok (plan, review)) :
    plan = (subscription.map BillingSubscription.plan).getD .free ∧
      (review = true ↔ ∃ s, subscription = some s ∧ subscriptionReview s.status = .ok true) := by
  cases subscription with
  | none =>
    simp only [subscriptionState, Except.ok.injEq, Prod.mk.injEq] at h
    obtain ⟨rfl, rfl⟩ := h
    simp
  | some s =>
    have hpl : plan = s.plan ∧ subscriptionReview s.status = .ok review := by
      cases hp : s.plan <;> cases hr : subscriptionReview s.status <;>
        simp_all [subscriptionState, Except.map]
    simp [hpl.1, hpl.2]

theorem agrees_of_recompute
    (hst : subscriptionState (currentSubscription db accountId) = .ok (plan, review))
    (h : setAccountBillingState accountId plan (reviewStatus (hasDispute db accountId) review)
      now db = .ok (u, db')) : Agrees accountId db' := by
  have hs : storedBillingState db' accountId =
      (plan, reviewStatus (hasDispute db accountId) review) := storedBillingState_of_set h
  obtain ⟨t, hr, -⟩ := setAccountBillingState_ok h
  have hd : hasDispute db' accountId = hasDispute db accountId := by
    rw [show db' = { db with profiles := t } from hr]
    rfl
  have hc : currentSubscription db' accountId = currentSubscription db accountId := by
    rw [show db' = { db with profiles := t } from hr]
    rfl
  have hp : plan = ((currentSubscription db accountId).map BillingSubscription.plan).getD .free ∧
      (review = true ↔ ∃ s, currentSubscription db accountId = some s ∧
        subscriptionReview s.status = .ok true) := subscriptionState_ok hst
  constructor
  · rw [hs, hd, hc, ← hp.2, reviewStatus]
    cases hasDispute db accountId <;> cases review <;> simp
  · rw [hs, hc]
    exact hp.1

/-- A query sees the committed tables with the transaction's own writes, and writes nothing. -/
theorem execute_query {α : Type} {f : Database → α} {a : α}
    (h : t.execute db (Tx.query f : Request α) (fun _ => []) = some (a, t')) :
    t' = t ∧ ∃ v, t.own db = some v ∧ a = f v := by
  obtain ⟨v, _, hv, hr, ⟨-, rfl⟩ | ⟨hs, -⟩⟩ := Uncommitted.execute_eq_some h
  · simp only [Tx.query_ok] at hr
    exact ⟨rfl, v, hv, hr.1.symm⟩
  · exact absurd rfl hs

theorem SessionInv.working {p : Statements Outcome}
    (hi : Due p ∨ Calm accountId p ∧ QuietWrites accountId t)
    (h : Session.advance accountId db ⟨t, .working p⟩ = some s') : SessionInv accountId db s' := by
  cases p with
  | done outcome =>
    cases outcome with
    | reply r =>
      cases h
      rcases hi with hdu | ⟨-, hq⟩
      · cases hdu
      · exact ⟨.done r, hq⟩
    | recompute =>
      simp only [Session.advance, ite_none_right_eq_some, Option.some.injEq] at h
      rw [← h.2]
      trivial
  | fail => cases h
  | stmt x locks next =>
    simp only [Session.advance, map_eq_some_iff, Prod.exists] at h
    obtain ⟨b, _, he, rfl⟩ := h
    obtain ⟨v, v', -, hr, -⟩ := Uncommitted.execute_eq_some he
    -- A transaction that must recompute stays so; a calm one becomes so or stays quiet.
    have hd : Due (.stmt x locks next) → Due (next b) := by
      rintro ⟨⟩
      rename_i hn
      exact hn b
    rcases hi with hdu | ⟨hc, hq⟩
    · exact .inl (hd hdu)
    · cases hc with
      | due hdu => exact .inl (hd hdu)
      | stmt hx hn =>
        rcases hx v b v' hr with hk | hno | hdu
        · exact .inr ⟨hn b, hq.execute (.inl hk) he⟩
        · exact .inr ⟨hn b, hq.execute (.inr hno) he⟩
        · exact .inl hdu

theorem SessionInv.finishing {p : Statements Reply}
    (hi : SessionInv accountId db ⟨t, .finishing recomputed p⟩)
    (h : Session.advance accountId db ⟨t, .finishing recomputed p⟩ = some s') :
    SessionInv accountId db s' := by
  cases p with
  | done | fail => cases h
  | stmt =>
    simp only [Session.advance, map_eq_some_iff, Prod.exists] at h
    obtain ⟨b, _, he, rfl⟩ := h
    cases recomputed with
    | false =>
      obtain ⟨⟨⟩, hq⟩ := hi
      rename_i hx hn
      exact ⟨hn b, hq.execute (.inl hx) he⟩
    | true =>
      obtain ⟨⟨⟩, ha⟩ := hi
      rename_i hx hn
      refine ⟨hn b, fun v' hv' => ?_⟩
      rcases Uncommitted.own_execute he hv' with ⟨-, hs⟩ | ⟨-, v, c, hv, hr⟩
      · exact ha v' hs
      · exact (ha v hv).untouched (hx v c v' hr)

theorem SessionInv.advance (hi : SessionInv accountId db s)
    (h : s.advance accountId db = some s') : SessionInv accountId db s' := by
  obtain ⟨_, stage⟩ := s
  cases stage with
  | working => exact .working hi h
  | recomputing =>
    simp only [Session.advance, map_eq_some_iff, Prod.exists] at h
    obtain ⟨_, _, he, rfl⟩ := h
    obtain ⟨rfl, hvi⟩ := execute_query he
    exact hvi
  | disputesRead =>
    simp only [Session.advance, map_eq_some_iff, Prod.exists] at h
    obtain ⟨_, _, he, rfl⟩ := h
    obtain ⟨rfl, v, hv, hs⟩ := execute_query he
    obtain ⟨w, hw, hd⟩ := hi
    obtain rfl : v = w := some_inj.mp (hv.symm.trans hw)
    exact ⟨v, hv, hd, hs⟩
  | subscriptionRead now eventId =>
    obtain ⟨v, hv, rfl, rfl⟩ := hi
    simp only [Session.advance] at h
    cases hst : subscriptionState (currentSubscription v accountId) with
    | error =>
      rw [hst] at h
      cases h
    | ok state =>
      obtain ⟨_, _⟩ := state
      rw [hst] at h
      simp only [map_eq_some_iff, Prod.exists] at h
      obtain ⟨_, _, he, rfl⟩ := h
      refine ⟨finishProcessed_quiet now eventId, fun v' hv' => ?_⟩
      rcases Uncommitted.own_execute he hv' with ⟨hn, -⟩ | ⟨-, w, _, hw, hr⟩
      · cases hn
      · obtain rfl : v = w := some_inj.mp (hv.symm.trans hw)
        exact agrees_of_recompute hst hr
  | finishing => exact .finishing hi h

structure WorldInv (accountId : String) (w : World) : Prop where
  agrees : Agrees accountId w.committed
  sessions : ∀ e ∈ w.sessions, SessionInv accountId w.committed e.2

theorem World.mem_of_session? (h : w.session? id = some s) :
    (id, s) ∈ w.sessions := by
  simp only [World.session?, map_eq_some_iff, Prod.exists] at h
  obtain ⟨i, _, hf, rfl⟩ := h
  have hi : i = id := by simpa using find?_some hf
  exact hi ▸ mem_of_find?_eq_some hf

theorem WorldInv.advance (inv : WorldInv accountId w) (h : w.advance accountId id = some w') :
    WorldInv accountId w' := by
  unfold World.advance at h
  split at h
  · cases h
  · rename_i ha
    obtain ⟨_, hs, hs'⟩ := bind_eq_some_iff.mp ha
    simp only [ite_none_right_eq_some, Option.some.injEq] at h
    rw [← h.2]
    refine ⟨inv.agrees, fun e he => ?_⟩
    obtain ⟨e₀, he0, rfl⟩ := List.mem_map.mp he
    split
    · exact (inv.sessions _ (World.mem_of_session? hs)).advance hs'
    · exact inv.sessions e₀ he0

/-- The committing transaction has recomputed the account or touched nothing of it, and the
others have not read the tables yet. -/
theorem WorldInv.commit (inv : WorldInv accountId w)
    (ho : ∀ e ∈ w.sessions, e.1 ≠ id → e.2.stage.selected = false) (h : w.commit id = some w') :
    WorldInv accountId w' := by
  unfold World.commit at h
  split at h
  · rename_i recomputed _ hs
    obtain ⟨db', hd', rfl⟩ := map_eq_some_iff.mp h
    have hi := inv.sessions _ (World.mem_of_session? hs)
    constructor
    · cases recomputed with
      | true => exact hi.2 db' hd'
      | false => exact inv.agrees.untouched (hi.2 _ db' hd')
    · intro e he
      obtain ⟨hm, hn⟩ := mem_filter.mp he
      exact (inv.sessions e hm).of_not_selected (ho e hm (of_decide_eq_true hn))
  · cases h

theorem WorldInv.act (inv : WorldInv accountId w) (ha : Undisturbed w a)
    (h : w.act accountId a = some w') : WorldInv accountId w' := by
  cases a with
  | start _ t =>
    simp only [World.act, ite_none_right_eq_some, Option.some.injEq] at h
    rw [← h.2]
    refine ⟨inv.agrees, fun e he => ?_⟩
    rcases mem_cons.mp he with rfl | he
    · refine .inr ⟨t.calm, fun db db' hd => ?_⟩
      cases hd
      exact .refl db
    · exact inv.sessions e he
  | advance => exact inv.advance h
  | commit id => exact inv.commit (ha id rfl) h
  | abort =>
    cases h
    exact ⟨inv.agrees, fun e he => inv.sessions e (mem_filter.mp he).1⟩

end

/-- In every run whose commits disturb no recomputation, the stored state of the account is the
one that the committed tables determine. -/
theorem account_state_agrees {accountId : String} {w : World}
    (h : (accountRuns accountId Undisturbed).Reachable w) : Agrees accountId w.committed := by
  have hinv : WorldInv accountId w := by
    refine h.invariant (I := WorldInv accountId) ?_ ?_
    · rintro _ ⟨hagrees, hnone⟩
      exact ⟨hagrees, by simp [hnone]⟩
    · rintro _ _ ha ⟨_, hallowed, hact⟩
      exact ha.act hallowed hact
  exact hinv.agrees

/-- A paid purchase, and the event of its dispute. -/
def sampleDisputed : Database :=
  (registerEvent (sampleLog.event "evt_dispute") 300).exec
    (runActions sampleStripe sampleLog (sampleActions.take 2))

def sampleSubscription : StripeSubscription where
  id := "sub_1"
  status := "active"
  livemode := true
  customer := .id "cus_1"
  items := ⟨[⟨⟨"price_one"⟩, some 1, none⟩], false⟩
  metadata := [("account_id", "account-1")]
  cancelAtPeriodEnd := false

def storeSample : WebhookTransaction :=
  .storeSubscription "account-1" .oneGb sampleSubscription 500

def disputeSample : WebhookTransaction :=
  .dispute "adjustment-1" (sampleLog.event "evt_dispute")
    ⟨"du_1", 700, "usd", "ch_1", "needs_response"⟩ 700
    ⟨"ch_1", 2000, 0, "usd", true, some "pi_1"⟩ sampleIntent 400

theorem sampleDisputed_agrees : Agrees "account-1" sampleDisputed := by
  have hs : storedBillingState sampleDisputed "account-1" = (.free, .active) := by decide +kernel
  have hd : hasDispute sampleDisputed "account-1" = false := by decide +kernel
  have hc : currentSubscription sampleDisputed "account-1" = none := by decide +kernel
  constructor <;> simp [hs, hd, hc]

theorem exists_accountRun (Allowed : World → BillingAct → Prop) [∀ w a, Decidable (Allowed w a)]
    {P : World → Prop} [DecidablePred P] (acts : List BillingAct)
    (h : (System.runActs (World.act "account-1") Allowed ⟨sampleDisputed, []⟩ acts).any (P ·) =
      true) :
    ∃ w, (accountRuns "account-1" Allowed).Reachable w ∧ P w :=
  System.Reachable.exists_runActs (.init ⟨sampleDisputed_agrees, rfl⟩)
    (fun _ a _ ha hac => ⟨a, ha, hac⟩) acts h

/-- The dispute is stored after the subscription has been committed. -/
def orderedActs : List BillingAct :=
  .start 1 storeSample :: List.replicate 5 (.advance 1) ++ [.commit 1] ++
    .start 2 disputeSample :: List.replicate 10 (.advance 2) ++ [.commit 2]

theorem account_state_agrees_sample :
    ∃ w, (accountRuns "account-1" Undisturbed).Reachable w ∧ w.sessions.length = 0 ∧
      storedBillingState w.committed "account-1" = (.oneGb, .review) ∧
      Agrees "account-1" w.committed := by
  obtain ⟨w, hreach, hsessions, hstate⟩ := exists_accountRun Undisturbed orderedActs
    (P := fun w => w.sessions.length = 0 ∧
      storedBillingState w.committed "account-1" = (.oneGb, .review)) (by decide +kernel)
  exact ⟨w, hreach, hsessions, hstate, account_state_agrees hreach⟩

/-- The transaction of the subscription reads the disputes before the dispute is committed, and
stores its result afterwards. -/
def racingActs : List BillingAct :=
  .start 1 storeSample :: List.replicate 4 (.advance 1) ++
    .start 2 disputeSample :: List.replicate 10 (.advance 2) ++
    [.commit 2, .advance 1, .commit 1]

/-- Both transactions are committed, the account has an active dispute, and its stored status
is active. -/
theorem review_flag_lost :
    ∃ w, (accountRuns "account-1" fun _ _ => True).Reachable w ∧ w.sessions.length = 0 ∧
      hasDispute w.committed "account-1" = true ∧
      storedBillingState w.committed "account-1" = (.oneGb, .active) :=
  exists_accountRun _ racingActs (by decide +kernel)

end Notary.Billing
