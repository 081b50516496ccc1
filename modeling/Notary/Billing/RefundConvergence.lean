import Notary.Billing.PurchaseLedger

/-! Refunds and their charge. The provider's charges change between deliveries, and every
delivery reads them as they are at that time. -/

namespace Notary.Billing
open Relational Platform Transition Option Script

/-- The billing database and the provider's objects of one kind. -/
structure ProviderWorld (α : Type) where
  db : Database
  objects : String → Option α

section

variable {α : Type} (retrieve : Provider → String → Option α) (stripe : StripeClient)
  (log : EventLog) (Evolve : (String → Option α) → (String → Option α) → Prop)

/-- A request is handled with the current objects, or the objects change. -/
inductive ProviderStep : ProviderWorld α → ProviderWorld α → Prop
  | act (w : ProviderWorld α) (a : BillingAction) (h : a.AnswersFrom retrieve w.objects) :
      ProviderStep w ⟨a.run stripe log w.db, w.objects⟩
  | evolve (w : ProviderWorld α) (objects : String → Option α) (h : Evolve w.objects objects) :
      ProviderStep w ⟨w.db, objects⟩

/-- Billing from an empty database against any objects that change as `Evolve` allows. -/
def providerHistory : System (ProviderWorld α) where
  Init w := w.db = {}
  Step := ProviderStep retrieve stripe log Evolve

variable {retrieve} {stripe} {log} {Evolve}

theorem billing_of_history {w : ProviderWorld α}
    (h : (providerHistory retrieve stripe log Evolve).Reachable w) :
    (billing stripe log).Reachable w.db := by
  refine h.invariant (I := fun w => (billing stripe log).Reachable w.db) ?_ ?_
  · exact fun w hw => .init hw
  · intro _ _ ih hs
    cases hs with
    | act a => exact ih.step ⟨a, rfl⟩
    | evolve => exact ih

end

abbrev RefundWorld := ProviderWorld StripeCharge

abbrev refundHistory := providerHistory Provider.retrieveCharge

/-- The purchase has recorded exactly what its charge has refunded. -/
def Settled (purchaseId : String) (charge : StripeCharge) (w : RefundWorld) : Prop :=
  w.objects charge.id = some charge ∧ ∃ m ∈ moneyRows w.db, m.id = purchaseId ∧
    m.paidCents ≠ 0 ∧ m.chargeId = some charge.id ∧ m.refundedCents = charge.amountRefunded

def RecordsAtLeast (purchaseId : String) (cents : ℤ) (db : Database) : Prop :=
  ∃ m ∈ moneyRows db, m.id = purchaseId ∧ cents ≤ m.refundedCents

variable {id : String} {charge : StripeCharge} {cents : ℤ}
  {Evolve : (String → Option StripeCharge) → (String → Option StripeCharge) → Prop}

section

variable {stripe : StripeClient} {log : EventLog} {eventId : String}
  {charges : String → Option StripeCharge} {db db' : Database} {w w' : RefundWorld}

theorem Settled.change (hs : Settled id charge ⟨db, charges⟩) (h : Change eventId charges db db') :
    Settled id charge ⟨db', charges⟩ := by
  obtain ⟨hch, m, hm, hi, hp, hmc, hc⟩ := hs
  obtain ⟨n, hn, hni, ⟨hu, -⟩ | ⟨⟨-, -, hnc, hnp⟩, hso⟩⟩ := h.succeeds.1 m hm
  · exact absurd hu hp
  · refine ⟨hch, n, hn, hni.trans hi, hnp ▸ hp, hnc.trans hmc, ?_⟩
    rcases hso with hsa | ⟨other, ho, ha, hsa, -⟩
    · exact hsa.trans hc
    · rw [hmc, some_inj] at ho
      have hsi : charge = other := some_inj.mp (hch.symm.trans (ho ▸ ha))
      rw [hsi]
      exact hsa

/-- It stays so along every run in which its charge no longer changes. -/
theorem Settled.run (hs : Settled id charge w) (h : (refundHistory stripe log
      fun old new => new charge.id = old charge.id).Run w w') : Settled id charge w' := by
  induction h with
  | refl => exact hs
  | @tail v _ _ hst ih =>
    cases hst with
    | act a ha =>
      refine a.run_rule (P := fun db => Settled id charge ⟨db, v.objects⟩) ha
        (fun _ _ _ hs h => hs.change h) ?_ ih
      rintro _ ⟨hch, m, hm, hre⟩ ⟨_, _, ht, rfl, -⟩
      exact ⟨hch, m, (mem_moneyRows_insert ht).mpr (.inl hm), hre⟩
    | evolve _ hsa => exact ⟨hsa.trans ih.1, ih.2⟩

theorem RecordsAtLeast.change (h : RecordsAtLeast id cents db)
    (hc : Change eventId charges db db') : RecordsAtLeast id cents db' := by
  obtain ⟨m, hm, hi, hl⟩ := h
  obtain ⟨n, hn, hni, ⟨-, he⟩ | ⟨-, he | ⟨_, _, _, _, hri⟩⟩⟩ := hc.succeeds.1 m hm
  · exact ⟨n, hn, hni.trans hi, he ▸ hl⟩
  · exact ⟨n, hn, hni.trans hi, he ▸ hl⟩
  · exact ⟨n, hn, hni.trans hi, hl.trans hri⟩

theorem RecordsAtLeast.run (h : RecordsAtLeast id cents w.db)
    (hru : (refundHistory stripe log Evolve).Run w w') : RecordsAtLeast id cents w'.db := by
  induction hru with
  | refl => exact h
  | tail _ hs ih =>
    cases hs with
    | act a ha =>
      refine a.run_rule ha (fun _ _ _ h hc => h.change hc) ?_ ih
      rintro _ ⟨m, hm, hre⟩ ⟨_, _, ht, rfl, -⟩
      exact ⟨m, (mem_moneyRows_insert ht).mpr (.inl hm), hre⟩
    | evolve => exact ih

end

/-- The provider's charge and payment intent agree with what the purchase has recorded of its
payment. -/
structure AgreedCharge (d : Delivery) (p : BillingPurchase) (charge : StripeCharge)
    (intent : StripePaymentIntent) : Prop where
  chargeAnswer : d.provider.retrieveCharge charge.id = some charge
  recorded : p.providerChargeId = some charge.id
  chargeIntent : charge.paymentIntent = some intent.id
  chargeEnvironment : charge.livemode = d.event.livemode
  chargeCurrency : charge.currency = p.currency
  chargeAmount : charge.amount = p.amountPaidCents
  intentAnswer : d.provider.retrievePaymentIntent intent.id = some intent
  paidIntent : p.providerPaymentIntentId = some intent.id
  intentPurchase : intent.metadata.lookup "purchase_id" = some p.id

/-- The delivery is about a succeeded refund of the purchase's charge, and the provider's objects
agree with it. -/
structure SucceededRefund (stripe : StripeClient) (d : Delivery) (p : BillingPurchase)
    (refund : StripeRefund) (charge : StripeCharge) (intent : StripePaymentIntent) : Prop
    extends AgreedCharge d p charge intent where
  kind : eventKind d.event.eventType = .refund
  environment : d.event.livemode = stripe.livemode
  object : d.event.objectId = some refund.id
  refundAnswer : d.provider.retrieveRefund refund.id = some refund
  succeeded : refund.status = some "succeeded"
  refundCharge : refund.charge = some charge.id
  refundCurrency : refund.currency = p.currency
  refundAmount : 0 < refund.amount ∧ refund.amount ≤ p.amountPaidCents
  refundIntent : refund.paymentIntent.all fun i => some i = p.providerPaymentIntentId
  refundedNonneg : 0 ≤ charge.amountRefunded

section

variable {stripe : StripeClient} {log : EventLog} {d : Delivery} {p : BillingPurchase}
  {refund : StripeRefund} {charge : StripeCharge} {intent : StripePaymentIntent}
  {event : StripeEvent} {now : ℤ} {db db' : Database} {w w' : RefundWorld}

theorem AgreedCharge.fetch (h : AgreedCharge d p charge intent) (mismatch : String) :
    fetchChargeObjects d charge.id mismatch = (pure ⟨charge, intent⟩ : Handler ChargeObjects) := by
  simp only [fetchChargeObjects, fetchObject, h.chargeAnswer, h.chargeIntent, h.intentAnswer,
    if_true, pure_bind, Script.require]

theorem AgreedCharge.matches (h : AgreedCharge d p charge intent) :
    chargeMatches d.event charge intent p :=
  ⟨h.chargeEnvironment, h.chargeCurrency, h.chargeAmount, h.chargeIntent.trans h.paidIntent.symm,
    by rw [h.paidIntent]; rfl, h.intentPurchase⟩

theorem AgreedCharge.paid (h : AgreedCharge d p charge intent) (inv : PurchaseInv db)
    (hp : p ∈ db.purchases) : p.amountPaidCents ≠ 0 := by
  intro hz
  have hn : p.providerPaymentIntentId = none := inv.unpaid (money p) (mem_moneyRows hp) hz
  rw [h.paidIntent] at hn
  cases hn

/-- The handler of such a delivery is the transaction that records the refund. -/
theorem SucceededRefund.dispatch_exec (h : SucceededRefund stripe d p refund charge intent)
    (db : Database) : (dispatch stripe d).exec db =
      (refundTransaction d.freshId d.event refund charge intent d.now).exec db := by
  have hh : dispatch stripe d =
      commitReply (refundTransaction d.freshId d.event refund charge intent d.now) := by
    simp only [dispatch, h.kind, handleRefund, eventObject, h.object, pure_bind, fetchObject,
      h.refundAnswer, if_true, processRefund, h.succeeded, h.refundCharge, Script.require, h.fetch]
  rw [hh, commitReply_exec]

/-- Registering an event adds at most a pending row. -/
theorem registerEvent_pending {r : Unit × Database} (h : registerEvent event now db = .ok r) :
    ∃ t, r.2 = { db with events := t } ∧ (Finished r.2 event.id → Finished db event.id) := by
  rcases registerEvent_ok h with ⟨-, hr⟩ | ⟨_, t, _, hn, -, ht, hr⟩
  · exact ⟨db.events, hr, fun hd => hr ▸ hd⟩
  · refine ⟨t, hr, ?_⟩
    rw [hr]
    rintro ⟨row, hro, hri, hd⟩
    rcases (Table.mem_of_insert ht).mp hro with ho | rfl
    · exact ⟨row, ho, hri, hd⟩
    · simp [hn] at hd

/-- A delivery registers its event, and then ends at once or where its handler does. -/
theorem handleStripeWebhook_exec (he : d.event.livemode = stripe.livemode) (db : Database) :
    ∃ t, (Finished { db with events := t } d.event.id → Finished db d.event.id) ∧
      ((handleStripeWebhook stripe d).exec db = { db with events := t } ∨
        (handleStripeWebhook stripe d).exec db =
          (dispatch stripe d).exec { db with events := t }) := by
  unfold handleStripeWebhook
  rw [exec_ofExcept_bind]
  cases validateEventEnvelope d.event with
  | error => exact ⟨db.events, id, .inl rfl⟩
  | ok =>
    simp only [exec_transaction_bind, if_pos he, dispatchPending]
    cases hre : registerEvent d.event d.now db with
    | error => exact ⟨db.events, id, .inl rfl⟩
    | ok r =>
      obtain ⟨t, hr, hb⟩ := registerEvent_pending hre
      rw [hr] at hb
      refine ⟨t, hb, ?_⟩
      rw [← hr]
      cases hf : eventAlreadyFinished d.event.id r.2 with
      | error => exact .inl (by simp only [hf])
      | ok s =>
        obtain ⟨finished, _⟩ := s
        obtain rfl := eventAlreadyFinished_readOnly _ hf
        cases finished with
        | true => exact .inl (by simp only [hf, if_true, exec_pure])
        | false => exact .inr (by simp [hf])

/-- A delivery that finishes its event has committed the transaction of its handler. -/
theorem committed_of_finished {x : Request Reply} (he : d.event.livemode = stripe.livemode)
    (hx : ∀ db, (dispatch stripe d).exec db = x.exec db) (hpe : ¬ Finished db d.event.id)
    (hd : Finished ((handleStripeWebhook stripe d).exec db) d.event.id) :
    ∃ t r, ¬ Finished { db with events := t } d.event.id ∧
      x { db with events := t } = .ok (r, (handleStripeWebhook stripe d).exec db) := by
  obtain ⟨t, hb, hexec⟩ := handleStripeWebhook_exec he db
  have hp1 : ¬ Finished { db with events := t } d.event.id := fun hf => hpe (hb hf)
  rcases hexec with hexec | hexec
  · exact absurd (hexec ▸ hd) hp1
  · rw [hx] at hexec
    rw [hexec] at hd ⊢
    -- A transaction that rolled back would have left the event pending.
    cases ht : x { db with events := t } with
    | error e =>
      rw [Tx.exec_of_error ht] at hd
      exact absurd hd hp1
    | ok r => exact ⟨t, r.1, hp1, by rw [ht, Tx.exec_of_ok ht]⟩

theorem wrapI64_of_small {x : ℤ} (hl : 0 ≤ x) (hh : x < 2 ^ 63) : wrapI64 x = x := by
  unfold wrapI64
  exact Int.bmod_eq_of_le (by omega) (by omega)

theorem amountPaidCents_lt (inv : PurchaseInv db) (hp : p ∈ db.purchases) :
    p.amountPaidCents < 2 ^ 63 := by
  obtain ⟨-, -, -, ⟨-, _⟩, -⟩ := Table.check hp
  by_cases hpa : p.amountPaidCents = 0
  · omega
  · have hf : p.amountPaidCents = p.unitAmountCents * p.quantityGb :=
      (inv.paid (money p) (mem_moneyRows hp) hpa).1
    have hu : p.unitAmountCents = centsPerGb := inv.unit (money p) (mem_moneyRows hp)
    rw [hu, centsPerGb] at hf
    omega

theorem SucceededRefund.valid (h : SucceededRefund stripe d p refund charge intent)
    (inv : PurchaseInv db) (hp : p ∈ db.purchases)
    (hm : p.amountRefundedCents ≤ charge.amountRefunded)
    (hw : charge.amountRefunded + p.amountDisputedCents ≤ p.amountPaidCents) :
    refundValid d.event refund charge intent p := by
  have hb := amountPaidCents_lt inv hp
  obtain ⟨-, -, -, -, -, -, -, -, -, _, -⟩ := Table.check hp
  have hn := h.refundedNonneg
  refine ⟨h.matches, h.refundCurrency, h.refundAmount.1, h.refundAmount.2, h.refundIntent, hm, ?_⟩
  rw [wrapI64_of_small (by omega) (by omega)]
  exact hw

theorem refundTransaction_settles {freshId : String} {r : Reply} (hp : p ∈ db.purchases)
    (hc : p.providerChargeId = some charge.id) (hv : refundValid event refund charge intent p)
    (hpe : ¬ Finished db event.id)
    (h : refundTransaction freshId event refund charge intent now db = .ok (r, db')) :
    (money p).adjust charge.amountRefunded p.amountDisputedCents ∈ moneyRows db' := by
  rcases refundTransaction_ok h with hu | ⟨-, -, _, hq, hqc, -, hr⟩
  · rcases hu.invalid with hd | hn
    · exact absurd hd hpe
    · exact absurd hv (hn p hp hc)
  · obtain rfl := eq_of_chargeId hq hp hqc hc
    have hro := Table.mem_update_of hr.purchases hq (decide_eq_true rfl)
    exact List.mem_map.mpr ⟨_, hro, rfl⟩

/-- A delivery that finishes the event of a succeeded refund settles the purchase. -/
theorem SucceededRefund.settles (h : SucceededRefund stripe d p refund charge intent)
    (inv : PurchaseInv w.db) (hp : p ∈ w.db.purchases)
    (hc : w.objects charge.id = some charge) (hm : p.amountRefundedCents ≤ charge.amountRefunded)
    (hw : charge.amountRefunded + p.amountDisputedCents ≤ p.amountPaidCents)
    (hpe : ¬ Finished w.db d.event.id)
    (hd : Finished ((handleStripeWebhook stripe d).exec w.db) d.event.id) :
    Settled p.id charge ⟨(handleStripeWebhook stripe d).exec w.db, w.objects⟩ := by
  obtain ⟨t, r, hpending, htx⟩ := committed_of_finished h.environment h.dispatch_exec hpe hd
  have hp₁ : p ∈ ({ w.db with events := t } : Database).purchases := hp
  exact ⟨hc, _, refundTransaction_settles hp₁ h.recorded (h.valid inv hp hm hw) hpending htx, rfl,
    h.paid inv hp, h.recorded, rfl⟩

/-- However the charges change, the recorded refunds of a purchase are those of its charge once the
event of a succeeded refund is finished with at least the recorded amount, and as long as the
charge does not change again. A refund that is undone later does not lower them. -/
theorem refund_convergence {eventId freshId : String} {provider : Provider} {now : ℤ}
    {w₁ w₂ : RefundWorld} (hw : (refundHistory stripe log fun _ _ => True).Reachable w)
    (hp : p ∈ w.db.purchases)
    (hanswers : (BillingAction.deliver eventId provider now freshId).AnswersFrom
      Provider.retrieveCharge w.objects)
    (hrefund : SucceededRefund stripe ⟨log.event eventId, provider, now, freshId⟩ p refund charge
      intent)
    (hadvanced : p.amountRefundedCents ≤ charge.amountRefunded)
    (hwithin : charge.amountRefunded + p.amountDisputedCents ≤ p.amountPaidCents)
    (hpending : ¬ Finished w.db eventId)
    (hstep : w₁ =
      ⟨(BillingAction.deliver eventId provider now freshId).run stripe log w.db, w.objects⟩)
    (hdone : Finished w₁.db eventId)
    (hrun : (refundHistory stripe log
      fun old new => new charge.id = old charge.id).Run w₁ w₂) :
    (∃ q ∈ w₂.db.purchases, q.id = p.id ∧ w₂.objects charge.id = some charge ∧
      q.amountRefundedCents = charge.amountRefunded) ∧
    ∀ w₃, (refundHistory stripe log fun _ _ => True).Run w₂ w₃ →
      ∃ q ∈ w₃.db.purchases, q.id = p.id ∧ charge.amountRefunded ≤ q.amountRefundedCents := by
  subst hstep
  have hcharge : w.objects charge.id = some charge := hanswers _ _ hrefund.chargeAnswer
  have hsettled :=
    hrefund.settles (inv_of_reachable (billing_of_history hw)).1 hp hcharge hadvanced hwithin
    (by rwa [log.id_event]) (by rwa [log.id_event])
  obtain ⟨hlast, m, hm, hid, -, -, hcents⟩ := hsettled.run hrun
  constructor
  · obtain ⟨q, hq, rfl⟩ := exists_of_mem_moneyRows hm
    exact ⟨q, hq, hid, hlast, hcents⟩
  · intro _ hlater
    have hrecords : RecordsAtLeast p.id charge.amountRefunded w₂.db := ⟨m, hm, hid, hcents.ge⟩
    obtain ⟨_, hn, hnid, hle⟩ := hrecords.run hlater
    obtain ⟨q, hq, rfl⟩ := exists_of_mem_moneyRows hn
    exact ⟨q, hq, hnid, hle⟩

end

/-- Only the refunded part of a charge changes. -/
def RefundsVary (charges charges' : String → Option StripeCharge) : Prop :=
  ∀ id, ∃ cents, charges' id = (charges id).map fun c => { c with amountRefunded := cents }

def sampleCharge (amountRefunded : ℤ) : StripeCharge :=
  ⟨"ch_1", 2000, amountRefunded, "usd", true, some "pi_1"⟩

def sampleRefund : StripeRefund := ⟨"re_1", 500, "usd", some "succeeded", some "ch_1", some "pi_1"⟩

def sampleWorld {α : Type} (actions : List BillingAction) (object : α) : ProviderWorld α :=
  ⟨runActions sampleStripe sampleLog actions, fun _ => some object⟩

def paidActions : List BillingAction := sampleActions.take 2

def refundedActions : List BillingAction := sampleActions.take 3

theorem sampleWorld_act {α : Type} {retrieve : Provider → String → Option α}
    {Evolve : (String → Option α) → (String → Option α) → Prop} {actions : List BillingAction}
    {object : α} (a : BillingAction) (ha : a.AnswersFrom retrieve fun _ => some object) :
    ProviderStep retrieve sampleStripe sampleLog Evolve (sampleWorld actions object)
      (sampleWorld (actions ++ [a]) object) := by
  have hw : sampleWorld (actions ++ [a]) object =
      ⟨a.run sampleStripe sampleLog (sampleWorld actions object).db, fun _ => some object⟩ := by
    simp [sampleWorld, runActions]
  rw [hw]
  exact .act _ a ha

theorem sampleWorld_evolve {actions : List BillingAction} (old new : ℤ)
    (h : Evolve (fun _ => some (sampleCharge old)) fun _ => some (sampleCharge new)) :
    ProviderStep Provider.retrieveCharge sampleStripe sampleLog Evolve
      (sampleWorld actions (sampleCharge old)) (sampleWorld actions (sampleCharge new)) :=
  .evolve _ _ h

theorem paidWorld_reachable
    (Evolve : (String → Option StripeCharge) → (String → Option StripeCharge) → Prop) :
    (refundHistory sampleStripe sampleLog Evolve).Reachable
      (sampleWorld paidActions (sampleCharge 0)) := by
  have hs : (refundHistory sampleStripe sampleLog Evolve).Reachable
      (sampleWorld [] (sampleCharge 0)) := .init rfl
  have hp := hs.step (sampleWorld_act (.purchase "purchase-1" "account-1" "key-1" 2 100) trivial)
  exact hp.step
    (sampleWorld_act (.deliver "evt_pay" (sampleProvider "pending" 0) 200 "grant-1") fun _ _ h => h)

def samplePurchase : BillingPurchase where
  id := "purchase-1"
  accountId := "account-1"
  clientIdempotencyKey := "key-1"
  state := .paid
  currency := "usd"
  unitAmountCents := 1000
  quantityGb := 2
  creditBytes := 2000000000
  expectedAmountCents := 2000
  providerPriceId := "price_credit"
  providerCheckoutSessionId := some "cs_1"
  providerPaymentIntentId := some "pi_1"
  providerChargeId := some "ch_1"
  providerDisputeId := none
  providerCustomerId := some "cus_1"
  livemode := true
  amountPaidCents := 2000
  amountRefundedCents := 0
  amountDisputedCents := 0
  createdAt := 100
  updatedAt := 200
  paidAt := some 1000

theorem refund_convergence_sample :
    ∃ q ∈ (sampleWorld refundedActions (sampleCharge 500)).db.purchases, q.id = "purchase-1" ∧
      (sampleWorld refundedActions (sampleCharge 500)).objects "ch_1" = some (sampleCharge 500) ∧
      q.amountRefundedCents = 500 := by
  have hmem : samplePurchase ∈ (sampleWorld paidActions (sampleCharge 500)).db.purchases.rows := by
    decide +kernel
  have hpending : ¬ Finished (sampleWorld paidActions (sampleCharge 500)).db "evt_refund" := by
    decide +kernel
  have hdone : Finished (sampleWorld refundedActions (sampleCharge 500)).db "evt_refund" := by
    decide +kernel
  have hrefund : SucceededRefund sampleStripe
      ⟨sampleLog.event "evt_refund", sampleProvider "succeeded" 500, 300, "adjustment-1"⟩
      samplePurchase sampleRefund (sampleCharge 500) sampleIntent := by
    constructor
    · constructor <;> decide
    all_goals decide
  -- Before the event is handled, the charge goes to 700 cents and back to 500.
  have hdip := ((paidWorld_reachable fun _ _ => True).step
    (sampleWorld_evolve 0 700 trivial)).step (sampleWorld_evolve 700 500 trivial)
  exact (refund_convergence hdip hmem (fun _ _ h => h) hrefund (by decide) (by decide) hpending rfl
    hdone .refl).1

/-- A refund succeeds and is recorded, and then fails: the charge has refunded nothing, the
event of the failure is finished, and the purchase still records the refund. -/
theorem failed_refund_stays_recorded :
    ∃ w w' : RefundWorld, (refundHistory sampleStripe sampleLog RefundsVary).Reachable w ∧
      w.objects "ch_1" = some (sampleCharge 0) ∧ ¬ Finished w.db "evt_failed" ∧
      (BillingAction.deliver "evt_failed" (sampleProvider "failed" 0) 400 "unused").AnswersFrom
        Provider.retrieveCharge w.objects ∧
      w' = ⟨(BillingAction.deliver "evt_failed" (sampleProvider "failed" 0) 400 "unused").run
        sampleStripe sampleLog w.db, w.objects⟩ ∧
      (∀ e ∈ w'.db.events.rows, e.processedAt.isSome) ∧ Finished w'.db "evt_failed" ∧
      moneyRows w'.db =
        [⟨"purchase-1", "account-1", 1000, 2, some "pi_1", some "ch_1", 2000, 500, 0⟩] := by
  have hvary (old new : ℤ) : RefundsVary (fun _ => some (sampleCharge old))
      fun _ => some (sampleCharge new) := fun _ => ⟨new, rfl⟩
  have hraised := (paidWorld_reachable RefundsVary).step (sampleWorld_evolve 0 500 (hvary 0 500))
  have hrecorded := hraised.step (sampleWorld_act
    (.deliver "evt_refund" (sampleProvider "succeeded" 500) 300 "adjustment-1") fun _ _ h => h)
  have hlowered := hrecorded.step (sampleWorld_evolve 500 0 (hvary 500 0))
  refine ⟨_, _, hlowered, rfl, ?_, fun _ _ h => h, rfl, ?_, ?_, ?_⟩ <;> decide +kernel

end Notary.Billing
