import Notary.Billing.Webhooks

/-! What the billing transactions do to the credit ledger. A transaction that commits keeps
every purchase's money and credit, records a payment together with its grant, or moves the
refunded and disputed cents together with an adjustment for the difference. -/

namespace Notary.Billing
open Relational Platform List Option Tx TableRef Table Program

/-- The columns of a purchase that say whose credit was bought and what was paid for it. -/
structure Money where
  id : String
  accountId : String
  unitAmountCents : ℤ
  quantityGb : ℤ
  paymentIntentId : Option String
  chargeId : Option String
  paidCents : ℤ
  refundedCents : ℤ
  disputedCents : ℤ
  deriving DecidableEq

def money (p : BillingPurchase) : Money where
  id := p.id
  accountId := p.accountId
  unitAmountCents := p.unitAmountCents
  quantityGb := p.quantityGb
  paymentIntentId := p.providerPaymentIntentId
  chargeId := p.providerChargeId
  paidCents := p.amountPaidCents
  refundedCents := p.amountRefundedCents
  disputedCents := p.amountDisputedCents

/-- The money of all purchases. -/
def moneyRows (db : Database) : List Money := db.purchases.rows.map money

def Finished (db : Database) (eventId : String) : Prop :=
  ∃ r ∈ db.events, r.id = eventId ∧ r.processedAt.isSome
  deriving Decidable

/-- Terminal events stay terminal, and only the row of one event changes. When that row is
terminal it has an outcome. -/
structure EventsAdvance (eventId : String) (db db' : Database) : Prop where
  finished : ∀ i, Finished db i → Finished db' i
  old : ∀ r ∈ db'.events, r ∈ db.events ∨
    r.id = eventId ∧ (r.processedAt.isSome → r.outcome.isSome)

variable {eventId accountId id freshId : String} {db db' : Database}
  {f : BillingPurchase → BillingPurchase} {t : Table BillingPurchase} {outcome : EventOutcome}
  {errorCode : Option String} {now deltaCents : ℤ} {r : Reply} {event : StripeEvent}
  {session : StripeCheckoutSession} {purchase : BillingPurchase} {u : Unit}
  {intent : StripePaymentIntent}

theorem EventsAdvance.of_eq (h : db'.events = db.events) : EventsAdvance eventId db db' where
  finished i hi := by simpa only [Finished, h] using hi
  old r hr := .inl (h ▸ hr)

theorem EventsAdvance.trans (h : EventsAdvance eventId a b) (k : EventsAdvance eventId b c) :
    EventsAdvance eventId a c where
  finished i hi := k.finished i (h.finished i hi)
  old r hr := by
    rcases k.old r hr with hr | hr
    · exact h.old r hr
    · exact .inr hr

theorem EventsAdvance.of_finish {f : StripeWebhookEvent → StripeWebhookEvent}
    {t : Table StripeWebhookEvent} (ht : db.events.update p f = some t)
    (hi : ∀ e, p e → e.id = eventId ∧ (f e).id = eventId)
    (hf : ∀ e, p e → (f e).processedAt.isSome ∧ (f e).outcome.isSome) :
    EventsAdvance eventId db { db with events := t } where
  finished i h := by
    obtain ⟨r, hr, rfl, hd⟩ := h
    refine ⟨_, (mem_of_update ht).mpr ⟨r, hr, rfl⟩, ?_⟩
    split
    · rename_i hp
      exact ⟨(hi r hp).2.trans (hi r hp).1.symm, (hf r hp).1⟩
    · exact ⟨rfl, hd⟩
  old r hr := by
    obtain ⟨e, he, rfl⟩ := (mem_of_update ht).mp hr
    split
    · rename_i hp
      exact .inr ⟨(hi e hp).2, fun _ => (hf e hp).2⟩
    · exact .inl he

/-- Nothing about money or credit changes. -/
structure Idle (eventId : String) (db db' : Database) : Prop where
  purchases : moneyRows db' = moneyRows db
  grants : db'.grants = db.grants
  adjustments : db'.adjustments = db.adjustments
  events : EventsAdvance eventId db db'

theorem Idle.refl (eventId : String) (db : Database) : Idle eventId db db :=
  ⟨rfl, rfl, rfl, .of_eq rfl⟩

theorem Idle.trans (h : Idle eventId a b) (k : Idle eventId b c) :
    Idle eventId a c where
  purchases := k.purchases.trans h.purchases
  grants := k.grants.trans h.grants
  adjustments := k.adjustments.trans h.adjustments
  events := h.events.trans k.events

/-- Statements on tables outside the ledger are idle. -/
theorem Idle.of_eq (hp : db'.purchases = db.purchases) (hg : db'.grants = db.grants)
    (ha : db'.adjustments = db.adjustments) (he : db'.events = db.events) :
    Idle eventId db db' where
  purchases := by rw [moneyRows, hp, moneyRows]
  grants := hg
  adjustments := ha
  events := .of_eq he

theorem Idle.of_update (ht : db.purchases.update p f = some t) (hf : ∀ q, money (f q) = money q) :
    Idle eventId db { db with purchases := t } where
  purchases := by
    rw [moneyRows, rows_of_update ht, List.map_map, moneyRows]
    congr 1
    funext q
    simp only [Function.comp_apply]
    split
    · exact hf q
    · rfl
  grants := rfl
  adjustments := rfl
  events := .of_eq rfl

/-- Only the profiles and the row of the event are written. -/
def Ends (eventId : String) (db db' : Database) : Prop :=
  (∃ t u, db' = { db with profiles := t, events := u }) ∧ EventsAdvance eventId db db'

theorem Ends.refl (eventId : String) (db : Database) : Ends eventId db db :=
  ⟨⟨_, _, rfl⟩, .of_eq rfl⟩

theorem Ends.purchases (h : Ends eventId db db') : db'.purchases = db.purchases := by
  obtain ⟨⟨_, _, rfl⟩, -⟩ := h
  rfl

theorem Ends.idle (h : Ends eventId db db') : Idle eventId db db' := by
  obtain ⟨⟨_, _, rfl⟩, he⟩ := h
  exact ⟨rfl, rfl, rfl, he⟩

/-- What a payment does to the money of a purchase. -/
def Money.pay (m : Money) (paymentIntentId chargeId : String) : Money :=
  { m with
    paymentIntentId := some paymentIntentId
    chargeId := some chargeId
    paidCents := m.unitAmountCents * m.quantityGb }

/-- What an event about refunds or disputes does to it. -/
def Money.adjust (m : Money) (refundedCents disputedCents : ℤ) : Money :=
  { m with refundedCents := refundedCents, disputedCents := disputedCents }

/-- The credit of a payment is in the ledger: as a new grant, or as one that was there. -/
def Granted (db db' : Database) (spec : CreditGrantSpec) : Prop :=
  (db'.grants = db.grants ∧ ∃ i, spec.toGrant i ∈ db.grants) ∨
    ∃ i, db.grants.insert (spec.toGrant i) = some db'.grants

/-- The adjustments change by the bytes of the additional cents: not at all, by a row that an
event of this identifier already left, or by one new row. -/
def Adjusted (db db' : Database) (eventId purchaseId : String) (deltaCents : ℤ) : Prop :=
  (db'.adjustments = db.adjustments ∧
      (deltaCents = 0 ∨ ∃ a ∈ db.adjustments, a.sourceReference = eventId)) ∨
    ∃ a, db.adjustments.insert a = some db'.adjustments ∧ a.purchaseId = purchaseId ∧
      a.sourceReference = eventId ∧ a.amountBytes = -bytesPerCent * deltaCents

/-- The refunded cents stay, or rise to those of the purchase's charge. -/
def RefundSource (charges : String → Option StripeCharge) (m : Money) (refunded : ℤ) : Prop :=
  refunded = m.refundedCents ∨
    ∃ charge, m.chargeId = some charge.id ∧ charges charge.id = some charge ∧
      refunded = charge.amountRefunded ∧ m.refundedCents ≤ refunded

/-- The effect of a committed transaction of an event on the ledger, when the provider
answers requests for charges as given. -/
inductive Change (eventId : String) (charges : String → Option StripeCharge)
    (db db' : Database) : Prop
  | idle (h : Idle eventId db db')
  | pay (m : Money) (paymentIntentId chargeId : String) (createdAt : ℤ) (hm : m ∈ moneyRows db)
      (hunpaid : m.paidCents = 0)
      (hrows : moneyRows db' = (moneyRows db).map fun n =>
        if n.id = m.id then n.pay paymentIntentId chargeId else n)
      (hgrant : Granted db db' (externalPurchaseSpec m.accountId paymentIntentId
        (bytesPerGb * m.quantityGb) createdAt))
      (hadj : db'.adjustments = db.adjustments)
      (hevents : EventsAdvance eventId db db')
  | adjust (m : Money) (refunded disputed : ℤ) (hm : m ∈ moneyRows db)
      (hsource : RefundSource charges m refunded)
      (hpending : ¬ Finished db eventId) (hdone : Finished db' eventId)
      (hrows : moneyRows db' =
        (moneyRows db).map fun n => if n.id = m.id then n.adjust refunded disputed else n)
      (hgrants : db'.grants = db.grants)
      (hadj : Adjusted db db' eventId m.id
        (refunded + disputed - (m.refundedCents + m.disputedCents)))
      (hevents : EventsAdvance eventId db db')

variable {charges : String → Option StripeCharge}

theorem finishEventTransaction_ok {r : Unit × Database}
    (h : finishEventTransaction eventId outcome errorCode now db = .ok r) :
    ∃ t, db.events.update (fun e => e.id = eventId ∧ e.processedAt = none) (fun e =>
        { e with
          processedAt := some now
          outcome := some outcome
          errorCode := errorCode }) = some t ∧ r.2 = { db with events := t } := by
  simp only [finishEventTransaction, bind_ok, update_ok, pure_ok] at h
  obtain ⟨_, _, ⟨-, t, ht, rfl⟩, -, hr⟩ := h
  exact ⟨t, ht, hr.symm⟩

@[simp] theorem runStatements_bind {α : Type} (p : Statements α) (f : α → Statements Outcome) :
    runStatements (p >>= f) = p.run >>= fun a => runStatements (f a) := by
  simp only [runStatements, run_bind, LawfulMonad.bind_assoc]

theorem runStatements_pure (outcome : Outcome) : runStatements (pure outcome) = outcome.finish :=
  pure_bind outcome Outcome.finish

theorem endEvent_ok
    (h : runStatements (endEvent event now outcome errorCode reply) db = .ok (r, db')) :
    finishEventTransaction event.id outcome errorCode now db = .ok ((), db') ∧ r = reply := by
  simp only [endEvent, runStatements_bind, run_exec, runStatements_pure, Outcome.finish, bind_ok,
    pure_ok] at h
  obtain ⟨_, _, h, rfl, rfl⟩ := h
  exact ⟨h, rfl⟩

theorem finishEventTransaction_ends {r : Unit × Database}
    (h : finishEventTransaction eventId outcome errorCode now db = .ok r) :
    Ends eventId db r.2 := by
  obtain ⟨t, ht, hr⟩ := finishEventTransaction_ok h
  rw [hr]
  refine ⟨⟨_, t, rfl⟩, .of_finish ht ?_ fun _ _ => ⟨rfl, rfl⟩⟩
  intro _ he
  simp only [decide_eq_true_eq] at he
  exact ⟨he.1, he.1⟩

theorem finishEventTransaction_finished {r : Unit × Database}
    (h : finishEventTransaction eventId outcome errorCode now db = .ok r) (he : e ∈ db.events)
    (hi : e.id = eventId) : Finished r.2 eventId := by
  obtain ⟨_, ht, hr⟩ := finishEventTransaction_ok h
  rw [hr]
  refine ⟨_, (mem_of_update ht).mpr ⟨e, he, rfl⟩, ?_⟩
  split
  · exact ⟨hi, rfl⟩
  · rename_i hk
    simp only [hi, true_and, decide_eq_true_eq] at hk
    exact ⟨hi, isSome_iff_ne_none.mpr hk⟩

theorem finishEvent_ok {r : Unit × Database}
    (h : finishEvent eventId outcome errorCode now db = .ok r) :
    ∃ t, db.events.update (fun e => e.id = eventId) (fun e =>
        { e with
          processedAt := e.processedAt.or (some now)
          outcome := e.outcome.or (some outcome)
          errorCode := e.errorCode.or errorCode }) = some t ∧ r.2 = { db with events := t } := by
  simp only [finishEvent, bind_ok, update_ok, pure_ok] at h
  obtain ⟨_, _, ⟨-, t, ht, rfl⟩, -, hr⟩ := h
  exact ⟨t, ht, hr.symm⟩

theorem registerEvent_ok {r : Unit × Database} (h : registerEvent event now db = .ok r) :
    (∃ e ∈ db.events, e.id = event.id) ∧ r.2 = db ∨
      ∃ e t, e.id = event.id ∧ e.processedAt = none ∧ e.outcome = none ∧
        db.events.insert e = some t ∧ r.2 = { db with events := t } := by
  simp only [registerEvent, bind_ok, selectByKey_ok] at h
  obtain ⟨existing, _, ⟨hf, rfl⟩, h⟩ := h
  cases existing with
  | some e =>
    obtain ⟨he, hi⟩ := find?_eq_some.mp hf
    exact .inl ⟨⟨e, he, hi⟩, (pure_ok.mp h).2.symm⟩
  | none =>
    obtain ⟨t, ht, hr⟩ := insert_ok.mp h
    exact .inr ⟨_, t, rfl, rfl, rfl, ht, hr.symm⟩

theorem completeSubscriptionCheckout_ok {r : Unit × Database}
    (h : completeSubscriptionCheckout checkoutId customerId subscriptionId now db = .ok r) :
    ∃ t, r.2 = { db with subscriptionCheckouts := t } := by
  simp only [completeSubscriptionCheckout, bind_ok, update_ok, pure_ok] at h
  obtain ⟨_, _, ⟨-, t, -, rfl⟩, -, hr⟩ := h
  exact ⟨t, hr.symm⟩

theorem expireSubscriptionCheckout_ok {r : Unit × Database}
    (h : expireSubscriptionCheckout checkoutId sessionId now db = .ok r) :
    ∃ t, r.2 = { db with subscriptionCheckouts := t } := by
  simp only [expireSubscriptionCheckout, bind_ok, update_ok, pure_ok] at h
  obtain ⟨_, _, ⟨-, t, -, rfl⟩, -, hr⟩ := h
  exact ⟨t, hr.symm⟩

theorem recomputeAccountBillingState_ok {r : Unit × Database}
    (h : recomputeAccountBillingState accountId now db = .ok r) :
    ∃ t, r.2 = { db with profiles := t } := by
  simp only [recomputeAccountBillingState, bind_ok, query_ok, ofExcept_ok] at h
  obtain ⟨_, _, ⟨-, rfl⟩, _, _, ⟨-, rfl⟩, _, _, ⟨-, rfl⟩, h⟩ := h
  obtain ⟨t, hr, -⟩ := setAccountBillingState_ok h
  exact ⟨t, hr⟩

theorem completeEvent_ok
    (h : runStatements (completeEvent event now accountId) db = .ok (r, db')) :
    ∃ t, finishEventTransaction event.id .processed none now { db with profiles := t } =
      .ok ((), db') := by
  simp only [completeEvent, runStatements_pure, Outcome.finish, finishProcessed, run_bind, run_exec,
    run_pure, bind_ok, pure_ok] at h
  obtain ⟨_, _, hr, _, _, hf, -, rfl⟩ := h
  obtain ⟨t, rfl⟩ := recomputeAccountBillingState_ok hr
  exact ⟨t, hf⟩

theorem completeEvent_ends
    (h : runStatements (completeEvent event now accountId) db = .ok (r, db')) :
    Ends event.id db db' := by
  obtain ⟨t, hf⟩ := completeEvent_ok h
  obtain ⟨⟨_, u, hr⟩, he⟩ := finishEventTransaction_ends hf
  have hp : EventsAdvance event.id db { db with profiles := t } := .of_eq rfl
  exact ⟨⟨_, u, hr⟩, hp.trans he⟩

/-- A subscription is stored as its row before its account is recomputed. -/
theorem storeSubscription_stores {plan : Plan} {subscription : StripeSubscription}
    {r : Unit × Database} (h : storeSubscription accountId plan subscription now db = .ok r) :
    ∃ priceId status db₁, subscriptionPrice subscription = .ok priceId ∧
      parseSubscriptionStatus subscription.status = some status ∧
      upsertSubscription (subscriptionRow accountId plan subscription priceId status now) db =
        .ok (1, db₁) ∧ recomputeAccountBillingState accountId now db₁ = .ok r := by
  simp only [storeSubscription, storeSubscriptionStatements, runStatements_bind, run_ofExcept,
    run_require, run_exec, run_ensure, runStatements_pure, Outcome.finish, finishProcessed,
    run_pure, bind_ok, ofExcept_ok, require_ok, ensure_ok, pure_ok] at h
  obtain ⟨_, _, ⟨_, _, ⟨hp, rfl⟩, _, _, ⟨hs, rfl⟩, _, _, hu, _, _, ⟨rfl, rfl⟩, _, _, hre, -, rfl⟩,
    -, rfl⟩ := h
  exact ⟨_, _, _, hp, hs, hu, hre⟩

/-- A transaction either finds its event terminal and commits nothing, or runs its body on a
registered pending event. -/
theorem whenPending_ok (h : runStatements (whenPending event body) db = .ok (r, db')) :
    (Finished db event.id ∧ db' = db ∧ r = .ok ()) ∨ (∃ e ∈ db.events, e.id = event.id) ∧
      ¬ Finished db event.id ∧ runStatements body db = .ok (r, db') := by
  simp only [whenPending, lockPendingEvent, runStatements_bind, run_bind, run_exec, run_require,
    run_pure, bind_ok, selectByKey_ok, require_ok, pure_ok] at h
  obtain ⟨_, _, ⟨_, _, ⟨rfl, rfl⟩, row, _, ⟨hr, rfl⟩, rfl, rfl⟩, h⟩ := h
  obtain ⟨hm, hi⟩ := find?_eq_some.mp hr
  split at h
  · rename_i hp
    refine .inr ⟨⟨row, hm, hi⟩, ?_, h⟩
    rintro ⟨_, he, hei, hd⟩
    obtain rfl := eq_of_key he hm (hei.trans hi.symm)
    rw [isNone_iff_eq_none] at hp
    rw [hp] at hd
    cases hd
  · rename_i hd
    simp only [runStatements_pure, Outcome.finish, pure_ok] at h
    obtain ⟨rfl, rfl⟩ := h
    exact .inl ⟨⟨row, hm, hi, by simpa [isSome_iff_ne_none] using hd⟩, rfl, rfl⟩

theorem endEvent_ends
    (h : runStatements (endEvent event now outcome errorCode reply) db = .ok (r, db')) :
    Ends event.id db db' :=
  finishEventTransaction_ends (endEvent_ok h).1

theorem grantStatements_run (freshId : String) (spec : CreditGrantSpec) :
    (grantStatements freshId spec).run = createCreditGrant freshId spec := by
  simp only [grantStatements, createCreditGrant, run_bind, run_ensure, run_exec]
  congr! 4 with _ found
  cases found <;> simp

theorem moneyRows_update {g : Money → Money}
    (ht : db.purchases.update (fun p => p.id = id) f = some t)
    (hf : ∀ p ∈ db.purchases, p.id = id → money (f p) = g (money p)) :
    t.rows.map money = (moneyRows db).map fun n => if n.id = id then g n else n := by
  rw [rows_of_update ht, moneyRows, List.map_map, List.map_map]
  apply map_congr_left
  intro p hp
  simp only [Function.comp_apply, decide_eq_true_eq]
  by_cases hi : p.id = id
  · rw [if_pos hi, if_pos (show (money p).id = id from hi)]
    exact hf p hp hi
  · rw [if_neg hi, if_neg (show ¬ (money p).id = id from hi)]

theorem mem_moneyRows (hp : p ∈ db.purchases) :
    money p ∈ moneyRows db := List.mem_map_of_mem hp

/-- A payment grants the credit, marks the purchase as paid and ends the event. -/
theorem fulfilPurchase_ok
    (h : runStatements (fulfilPurchase freshId event now session purchase payment) db =
      .ok (r, db')) :
    ∃ i grants f t, grantExternalPurchase freshId purchase.accountId payment.paymentIntentId
        purchase.creditBytes event.created db = .ok (i, { db with grants := grants }) ∧
      (∀ p ∈ db.purchases, money (f p) = (money p).pay payment.paymentIntentId payment.chargeId) ∧
      db.purchases.update (fun p => p.id = purchase.id) f = some t ∧
      Ends event.id { db with grants := grants, purchases := t } db' := by
  simp only [fulfilPurchase, updatePurchase, runStatements_bind, grantStatements_run, run_exec,
    bind_ok, update_ok] at h
  obtain ⟨i, db₁, hgr, _, _, ⟨-, t, ht, rfl⟩, hd⟩ := h
  obtain ⟨grants, rfl⟩ : ∃ grants, db₁ = { db with grants := grants } := by
    obtain ⟨rfl, -⟩ | ⟨-, _, -, rfl⟩ := createCreditGrant_ok hgr <;> exact ⟨_, rfl⟩
  refine ⟨i, grants, _, t, hgr, fun p hp => ?_, ht, completeEvent_ends hd⟩
  have he : p.expectedAmountCents = p.unitAmountCents * p.quantityGb := (Table.check hp).2.2.2.2.2.1
  simp [money, Money.pay, he]

theorem fulfilPurchase_change (hp : purchase ∈ db.purchases) (hu : purchase.amountPaidCents = 0)
    (h : runStatements (fulfilPurchase freshId event now session purchase payment) db =
      .ok (r, db')) :
    Change event.id charges db db' := by
  obtain ⟨i, grants, _, t, hgr, hf, ht, hd⟩ := fulfilPurchase_ok h
  have hi := hd.idle
  have hev : EventsAdvance event.id db { db with grants := grants, purchases := t } := .of_eq rfl
  refine .pay (money purchase) payment.paymentIntentId payment.chargeId event.created
    (mem_moneyRows hp) hu ?_ ?_ hi.adjustments (hev.trans hi.events)
  · rw [hi.purchases]
    exact moneyRows_update ht fun p hm _ => hf p hm
  · have hb : purchase.creditBytes = bytesPerGb * purchase.quantityGb := (Table.check hp).2.2.2.2.1
    rw [grantExternalPurchase, hb] at hgr
    obtain ⟨hs, hm⟩ | ⟨-, g, hg, hs⟩ := createCreditGrant_ok hgr
    · have hs : grants = db.grants := congrArg Database.grants hs
      exact .inl ⟨hi.grants.trans hs, i, hm⟩
    · have hs : grants = g := congrArg Database.grants hs
      exact .inr ⟨freshId, hg.trans (congrArg some (hi.grants.trans hs).symm)⟩

/-- A payment event records the payment of an unpaid purchase, or only ends. -/
theorem checkoutTransaction_ok
    (h : checkoutTransaction stripe freshId event session purchaseId now db = .ok (r, db')) :
    Ends event.id db db' ∨ ∃ p ∈ db.purchases, p.amountPaidCents = 0 ∧
      ∃ payment, runStatements (fulfilPurchase freshId event now session p payment) db =
        .ok (r, db') := by
  rcases whenPending_ok h with ⟨-, rfl, -⟩ | ⟨-, -, h⟩
  · exact .inl (.refl event.id _)
  simp only [lockPurchase, selectPurchaseForUpdate, runStatements_bind, run_exec, bind_ok,
    selectByKey_ok] at h
  obtain ⟨found, _, ⟨hf, rfl⟩, h⟩ := h
  cases found with
  | none => exact .inl (endEvent_ends h)
  | some p =>
    simp only [checkoutPurchase] at h
    cases hpa : validatePaidSession stripe p session with
    | error =>
      rw [hpa] at h
      exact .inl (endEvent_ends h)
    | ok payment =>
      rw [hpa] at h
      simp only [acceptPayment] at h
      split at h
      · rename_i hu
        exact .inr ⟨p, (find?_eq_some.mp hf).1, hu, payment, h⟩
      · split at h
        · exact .inl (completeEvent_ends h)
        · exact .inl (endEvent_ends h)

theorem checkoutTransaction_change
    (h : checkoutTransaction stripe freshId event session purchaseId now db = .ok (r, db')) :
    Change event.id charges db db' := by
  obtain hd | ⟨_, hp, hu, _, h⟩ := checkoutTransaction_ok h
  · exact .idle hd.idle
  · exact fulfilPurchase_change hp hu h

/-- A failed checkout moves no money: it marks an unpaid purchase, or leaves it. -/
theorem checkoutFailureTransaction_ok
    (h : checkoutFailureTransaction event session purchaseId now db = .ok (r, db')) :
    ∃ t, Ends event.id { db with purchases := t } db' ∧ (t = db.purchases ∨
      ∃ p ∈ db.purchases, p.amountPaidCents = 0 ∧ ∃ f, (∀ q, money (f q) = money q) ∧
        db.purchases.update (fun q => q.id = p.id) f = some t) := by
  rcases whenPending_ok h with ⟨-, rfl, -⟩ | ⟨-, -, h⟩
  · exact ⟨_, .refl event.id _, .inl rfl⟩
  simp only [lockPurchase, selectPurchaseForUpdate, runStatements_bind, run_exec, bind_ok,
    selectByKey_ok] at h
  obtain ⟨found, _, ⟨hfo, rfl⟩, h⟩ := h
  cases found with
  | none => exact ⟨_, endEvent_ends h, .inl rfl⟩
  | some p =>
    simp only [failCheckout] at h
    split at h
    · rw [runStatements_bind] at h
      obtain ⟨_, _, hf, hfi⟩ := bind_ok.mp h
      unfold failPurchase at hf
      split at hf
      · rename_i hu
        simp only [updatePurchase, run_bind, run_exec, run_pure, bind_ok, update_ok, pure_ok] at hf
        obtain ⟨_, _, ⟨-, t, ht, rfl⟩, -, rfl⟩ := hf
        have hp := (find?_eq_some.mp hfo).1
        refine ⟨t, endEvent_ends hfi, .inr ⟨p, hp, hu, _, ?_, ht⟩⟩
        exact fun _ => rfl
      · simp only [run_pure, pure_ok] at hf
        obtain ⟨-, rfl⟩ := hf
        exact ⟨_, endEvent_ends hfi, .inl rfl⟩
    · exact ⟨_, endEvent_ends h, .inl rfl⟩

theorem checkoutFailureTransaction_change
    (h : checkoutFailureTransaction event session purchaseId now db = .ok (r, db')) :
    Change event.id charges db db' := by
  obtain ⟨_, hd, rfl | ⟨_, -, -, _, hf, ht⟩⟩ := checkoutFailureTransaction_ok h
  · exact .idle hd.idle
  · exact .idle ((Idle.of_update ht hf).trans hd.idle)

/-- An adjustment was already there under the same event, or is the new last row. -/
theorem applyPurchaseAdjustment_ok
    (h : (applyPurchaseAdjustment freshId spec).run db = .ok (id, db')) :
    (db' = db ∧ ∃ a ∈ db.adjustments, spec.replays a) ∨
      ∃ t, db.adjustments.insert (spec.toAdjustment freshId) = some t ∧
        db' = { db with adjustments := t } := by
  simp only [applyPurchaseAdjustment, run_bind, run_ensure, run_exec, bind_ok, ensure_ok,
    selectWhere_ok] at h
  obtain ⟨_, _, ⟨-, rfl⟩, existing, _, ⟨hex, rfl⟩, h⟩ := h
  cases existing with
  | some a =>
    simp only [run_bind, run_ensure, run_pure, bind_ok, ensure_ok, pure_ok] at h
    obtain ⟨_, _, ⟨hr, rfl⟩, -, rfl⟩ := h
    exact .inl ⟨rfl, a, mem_of_find?_eq_some hex, hr⟩
  | none =>
    simp only [run_bind, run_exec, run_pure, bind_ok, insert_ok, pure_ok] at h
    obtain ⟨_, _, ⟨t, ht, rfl⟩, -, rfl⟩ := h
    exact .inr ⟨t, ht, rfl⟩

theorem centsToBytes_ok {r : ℤ × Database} (h : (centsToBytes cents).run db = .ok r) :
    r = (cents * bytesPerCent, db) := by
  simp only [centsToBytes, run_require, require_ok, bigint?, ite_none_right_eq_some,
    Option.some.injEq] at h
  obtain ⟨⟨-, hb⟩, hd⟩ := h
  exact Prod.ext hb.symm hd.symm

/-- Only the adjustments change, by the bytes of these cents. -/
def AdjustsOnly (db db' : Database) (eventId purchaseId : String) (deltaCents : ℤ) : Prop :=
  ∃ t, db' = { db with adjustments := t } ∧ Adjusted db db' eventId purchaseId deltaCents

theorem applyPurchaseAdjustment_adjusts (hb : bytes = -bytesPerCent * deltaCents)
    (h : (applyPurchaseAdjustment freshId
      (eventAdjustment event purchase bytes kind label)).run db = .ok (id, db')) :
    AdjustsOnly db db' event.id purchase.id deltaCents := by
  rcases applyPurchaseAdjustment_ok h with ⟨rfl, a, ha, hr⟩ | ⟨t, ht, rfl⟩
  · exact ⟨_, rfl, .inl ⟨rfl, .inr ⟨a, ha, hr.2.2.2.1⟩⟩⟩
  · exact ⟨t, rfl, .inr ⟨_, ht, rfl, rfl, hb⟩⟩

theorem refundAdjustment_adjusts (hd : 0 ≤ deltaCents)
    (h : (refundAdjustment freshId event purchase deltaCents).run db = .ok (u, db')) :
    AdjustsOnly db db' event.id purchase.id deltaCents := by
  unfold refundAdjustment at h
  split at h
  · simp only [run_bind, run_pure, bind_ok, pure_ok] at h
    obtain ⟨_, _, hb, _, _, ha, -, rfl⟩ := h
    cases centsToBytes_ok hb
    exact applyPurchaseAdjustment_adjusts (by ring) ha
  · have hz : deltaCents = 0 := by omega
    simp only [run_pure, pure_ok] at h
    obtain ⟨-, rfl⟩ := h
    exact ⟨_, rfl, .inl ⟨rfl, .inl hz⟩⟩

theorem disputeAdjustment_adjusts
    (h : (disputeAdjustment freshId event purchase deltaCents).run db = .ok (u, db')) :
    AdjustsOnly db db' event.id purchase.id deltaCents := by
  unfold disputeAdjustment at h
  split at h
  · rename_i hz
    simp only [run_pure, pure_ok] at h
    obtain ⟨-, rfl⟩ := h
    exact ⟨_, rfl, .inl ⟨rfl, .inl hz⟩⟩
  · simp only [run_bind, run_pure, bind_ok, pure_ok] at h
    obtain ⟨_, _, hb, _, _, ha, -, rfl⟩ := h
    cases centsToBytes_ok hb
    split at ha
    · rename_i hp
      apply applyPurchaseAdjustment_adjusts _ ha
      rw [Int.natAbs_of_nonneg hp.le]
      ring
    · apply applyPurchaseAdjustment_adjusts _ ha
      rw [Int.ofNat_natAbs_of_nonpos (by omega)]
      ring

/-- An adjustment for the difference, then new totals on the purchase, then the end of the
event. -/
def Records (event : StripeEvent) (purchase : BillingPurchase) (refunded disputed : ℤ)
    (f : BillingPurchase → BillingPurchase) (db db' : Database) : Prop :=
  ∃ accountId now r db₁ t, AdjustsOnly db db₁ event.id purchase.id
      (refunded + disputed - (purchase.amountRefundedCents + purchase.amountDisputedCents)) ∧
    db.purchases.update (fun p => p.id = purchase.id) f = some t ∧
    runStatements (completeEvent event now accountId) { db₁ with purchases := t } = .ok (r, db')

theorem Records.purchases (h : Records event purchase refunded disputed f db db') :
    db.purchases.update (fun p => p.id = purchase.id) f = some db'.purchases := by
  obtain ⟨_, _, _, _, _, -, ht, hd⟩ := h
  rw [(completeEvent_ends hd).purchases]
  exact ht

theorem Records.change {refunded disputed : ℤ}
    (h : Records event purchase refunded disputed f db db') (hp : purchase ∈ db.purchases)
    (hs : RefundSource charges (money purchase) refunded)
    (hr : ∃ e ∈ db.events, e.id = event.id) (hpe : ¬ Finished db event.id)
    (hf : money (f purchase) = (money purchase).adjust refunded disputed) :
    Change event.id charges db db' := by
  obtain ⟨_, _, _, db₁, _, ⟨_, hd1, ha⟩, ht, hd⟩ := h
  obtain ⟨_, he, hid⟩ := hr
  have hi := (completeEvent_ends hd).idle
  obtain ⟨_, hfi⟩ := completeEvent_ok hd
  have hte : Finished db' event.id :=
    finishEventTransaction_finished hfi (by rw [hd1]; exact he) hid
  refine .adjust (money purchase) refunded disputed (mem_moneyRows hp) hs hpe hte ?_ ?_ ?_ ?_
  · rw [hi.purchases]
    apply moneyRows_update ht
    intro _ hm hpi
    obtain rfl := eq_of_key hm hp hpi
    exact hf
  · rw [hi.grants, hd1]
  · have hsa : db'.adjustments = db₁.adjustments := hi.adjustments
    unfold Adjusted at ha ⊢
    rw [hsa]
    exact ha
  · exact (EventsAdvance.of_eq (by rw [hd1])).trans hi.events

theorem recordRefund_records (hm : purchase.amountRefundedCents ≤ charge.amountRefunded)
    (h : runStatements (recordRefund freshId event now charge purchase) db = .ok (r, db')) :
    Records event purchase charge.amountRefunded purchase.amountDisputedCents
      (refundedRow now charge purchase) db db' := by
  simp only [recordRefund, updatePurchase, runStatements_bind, run_exec, bind_ok, update_ok] at h
  obtain ⟨_, db₁, ha, _, _, ⟨-, t, ht, rfl⟩, hd⟩ := h
  have ha := refundAdjustment_adjusts (by omega) ha
  refine ⟨_, _, _, db₁, t, ?_, ?_, hd⟩
  · convert ha using 1
    ring
  · obtain ⟨_, rfl, -⟩ := ha
    exact ht

theorem recordDispute_records
    (h : runStatements (recordDispute freshId event now dispute target purchase) db =
      .ok (r, db')) :
    Records event purchase purchase.amountRefundedCents target
      (disputedRow now dispute target purchase) db db' := by
  simp only [recordDispute, updatePurchase, runStatements_bind, run_exec, bind_ok, update_ok] at h
  obtain ⟨_, db₁, ha, _, _, ⟨-, t, ht, rfl⟩, hd⟩ := h
  have ha := disputeAdjustment_adjusts ha
  refine ⟨_, _, _, db₁, t, ?_, ?_, hd⟩
  · convert ha using 1
    ring
  · obtain ⟨_, rfl, -⟩ := ha
    exact ht

theorem eq_of_chargeId (hp : p ∈ db.purchases) (hq : q ∈ db.purchases)
    (hpc : p.providerChargeId = some chargeId) (hqc : q.providerChargeId = some chargeId) :
    p = q := by
  have hs : sameUnique p.providerChargeId q.providerChargeId :=
    ⟨by rw [hpc]; rfl, hpc.trans hqc.symm⟩
  exact eq_of_clash hp hq (.inr (.inr (.inr (.inl hs))))

theorem localPurchaseDependencyPending_readOnly (intent : StripePaymentIntent) :
    (localPurchaseDependencyPending intent).ReadOnly := by
  unfold localPurchaseDependencyPending
  split
  · exact readOnly_pure false
  · split
    · exact readOnly_query _
    · exact readOnly_pure false

/-- The event is finished, but not as processed. -/
def Dismissed (event : StripeEvent) (now : ℤ) (db db' : Database) : Prop :=
  ∃ outcome errorCode, outcome ≠ .processed ∧
    finishEventTransaction event.id outcome errorCode now db = .ok ((), db')

theorem missingPurchase_dismissed
    (h : runStatements (missingPurchase event now intent) db = .ok (r, db')) :
    Dismissed event now db db' := by
  simp only [missingPurchase, runStatements_bind, run_select, bind_ok] at h
  obtain ⟨_, _, hr, h⟩ := h
  obtain rfl := localPurchaseDependencyPending_readOnly intent hr
  split at h
  · cases h
  · exact ⟨_, _, EventOutcome.noConfusion, (endEvent_ok h).1⟩

/-- An event about a charge leaves its purchase alone. -/
structure Unrecorded (event : StripeEvent) (now : ℤ) (V : BillingPurchase → Prop)
    (chargeId : String) (db db' : Database) : Prop where
  ended : db' = db ∨ Dismissed event now db db'
  invalid : Finished db event.id ∨
    ∀ p ∈ db.purchases, p.providerChargeId = some chargeId → ¬ V p

theorem Unrecorded.ends (h : Unrecorded event now V chargeId db db') : Ends event.id db db' := by
  rcases h.ended with rfl | ⟨_, _, -, hf⟩
  · exact .refl event.id _
  · exact finishEventTransaction_ends hf

/-- A pending event is recorded with the purchase of its charge, for which it is valid. -/
def Recorded (event : StripeEvent) (V X : BillingPurchase → Prop) (chargeId : String)
    (db : Database) : Prop :=
  (∃ e ∈ db.events, e.id = event.id) ∧ ¬ Finished db event.id ∧
    ∃ p ∈ db.purchases, p.providerChargeId = some chargeId ∧ V p ∧ X p

theorem charge_ok [DecidablePred V] {R : BillingPurchase → Statements Outcome}
    (hn : body none = missingPurchase event now intent)
    (hs : ∀ p, body (some p) = if V p then R p else rejectEventWith event now code message)
    (h : runStatements (whenPending event
      (lockPurchase (selectPurchaseByChargeForUpdate chargeId) >>= body)) db = .ok (r, db')) :
    Unrecorded event now V chargeId db db' ∨
      Recorded event V (fun p => runStatements (R p) db = .ok (r, db')) chargeId db := by
  rcases whenPending_ok h with ⟨hd, rfl, -⟩ | ⟨hre, hpe, h⟩
  · exact .inl ⟨.inl rfl, .inl hd⟩
  simp only [lockPurchase, selectPurchaseByChargeForUpdate, runStatements_bind, run_exec, bind_ok,
    selectWhere_ok] at h
  obtain ⟨found, _, ⟨hf, rfl⟩, h⟩ := h
  cases found with
  | none =>
    rw [hn] at h
    refine .inl ⟨.inr (missingPurchase_dismissed h), .inr fun p hp hc => ?_⟩
    exact absurd (by simpa using hc) (find?_eq_none.mp hf p hp)
  | some p =>
    have hp : p ∈ db.purchases := mem_of_find?_eq_some hf
    have hc : p.providerChargeId = some chargeId := by simpa using find?_some hf
    rw [hs] at h
    split at h
    · rename_i hv
      exact .inr ⟨hre, hpe, p, hp, hc, hv, h⟩
    · refine .inl ⟨.inr ⟨_, _, EventOutcome.noConfusion, (endEvent_ok h).1⟩, .inr ?_⟩
      intro _ hq hqc
      rwa [eq_of_chargeId hq hp hqc hc]

/-- A refund moves the refunded cents and the state of the purchase of its charge. -/
theorem refundTransaction_ok {charge : StripeCharge}
    (h : refundTransaction freshId event refund charge intent now db = .ok (r, db')) :
    Unrecorded event now (refundValid event refund charge intent) charge.id db db' ∨
      Recorded event (refundValid event refund charge intent) (fun p => Records event p
        charge.amountRefunded p.amountDisputedCents (refundedRow now charge p) db db')
        charge.id db := by
  obtain hu | ⟨hre, hpe, p, hp, hc, hv, hr⟩ := charge_ok
    (V := refundValid event refund charge intent)
    (R := recordRefund freshId event now charge) rfl (fun _ => rfl) h
  · exact .inl hu
  · exact .inr ⟨hre, hpe, p, hp, hc, hv, recordRefund_records hv.2.2.2.2.2.1 hr⟩

/-- A dispute moves the disputed cents and the state of the purchase of its charge. -/
theorem disputeTransaction_ok {target : ℤ}
    (h : disputeTransaction freshId event dispute target charge intent now db = .ok (r, db')) :
    Unrecorded event now (disputeValid event dispute target charge intent) charge.id db db' ∨
      Recorded event (disputeValid event dispute target charge intent) (fun p => Records event p
        p.amountRefundedCents target (disputedRow now dispute target p) db db') charge.id db := by
  obtain hu | ⟨hre, hpe, p, hp, hc, hv, hr⟩ := charge_ok
    (V := disputeValid event dispute target charge intent)
    (R := recordDispute freshId event now dispute target) rfl (fun _ => rfl) h
  · exact .inl hu
  · exact .inr ⟨hre, hpe, p, hp, hc, hv, recordDispute_records hr⟩

theorem refundTransaction_change (hc : charges charge.id = some charge)
    (h : refundTransaction freshId event refund charge intent now db = .ok (r, db')) :
    Change event.id charges db db' := by
  obtain hu | ⟨hre, hpe, _, hp, hpc, hv, hr⟩ := refundTransaction_ok h
  · exact .idle hu.ends.idle
  · exact hr.change hp (.inr ⟨charge, hpc, hc, rfl, hv.2.2.2.2.2.1⟩) hre hpe rfl

theorem disputeTransaction_change
    (h : disputeTransaction freshId event dispute target charge intent now db = .ok (r, db')) :
    Change event.id charges db db' := by
  obtain hu | ⟨hre, hpe, _, hp, -, -, hr⟩ := disputeTransaction_ok h
  · exact .idle hu.ends.idle
  · exact hr.change hp (.inl rfl) hre hpe rfl

end Notary.Billing
