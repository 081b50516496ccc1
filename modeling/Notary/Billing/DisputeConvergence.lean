import Notary.Billing.PurchaseRows
import Notary.Billing.RefundConvergence

/-! Disputes and their outcome. The provider's disputes change between deliveries until they are
won or lost, and every delivery reads them as they are at that time. -/

namespace Notary.Billing
open Relational Platform Transition Option Table Script

def StripeDispute.Final (dispute : StripeDispute) : Prop :=
  dispute.status = "won" ∨ dispute.status = "lost"
  deriving Decidable

/-- The cents that a dispute which is over has taken back. -/
def StripeDispute.finalCents (dispute : StripeDispute) : ℤ :=
  if dispute.status = "lost" then dispute.amount else 0

/-- The provider decides this dispute as given. -/
def Decides (disputes : String → Option StripeDispute) (dispute : StripeDispute) : Prop :=
  ∃ found, disputes dispute.id = some found ∧ found.status = dispute.status ∧
    found.amount = dispute.amount

/-- A decision is never changed. -/
def DecisionsKept (disputes disputes' : String → Option StripeDispute) : Prop :=
  ∀ dispute : StripeDispute, dispute.Final → Decides disputes dispute → Decides disputes' dispute

abbrev DisputeWorld := ProviderWorld StripeDispute

abbrev disputeHistory (stripe : StripeClient) (log : EventLog) :=
  providerHistory Provider.retrieveDispute stripe log DecisionsKept

/-- A paid purchase is bound to the dispute and records its outcome. -/
structure DisputeRow (dispute : StripeDispute) (p : BillingPurchase) : Prop where
  amount : 0 < dispute.amount
  paid : p.amountPaidCents ≠ 0
  bound : p.providerDisputeId = some dispute.id
  cents : p.amountDisputedCents = dispute.finalCents
  state : p.state = purchaseStateAfterAdjustment p.amountPaidCents p.amountRefundedCents
    p.amountDisputedCents

def RecordsDispute (purchaseId : String) (dispute : StripeDispute) (db : Database) : Prop :=
  ∃ p ∈ db.purchases, p.id = purchaseId ∧ DisputeRow dispute p

section

variable {event : StripeEvent} {withdrawn : Bool} {charge : StripeCharge}
  {intent : StripePaymentIntent} {refund : StripeRefund} {freshId : String} {now target : ℤ}
  {r : Reply} {purchaseId : String} {dispute other : StripeDispute}
  {disputes : String → Option StripeDispute} {stripe : StripeClient} {log : EventLog}
  {d : Delivery} {db db' : Database} {w w' : DisputeWorld} {p q : BillingPurchase}
  {f : BillingPurchase → BillingPurchase}

theorem RecordsDispute.keepsPaid (h : RecordsDispute purchaseId dispute db)
    (hk : KeepsPaid db db') : RecordsDispute purchaseId dispute db' := by
  obtain ⟨p, hp, hi, hr⟩ := h
  exact ⟨p, hk p hp hr.paid, hi, hr⟩

theorem RecordsDispute.update (h : RecordsDispute purchaseId dispute db) (hq : q ∈ db.purchases)
    (ht : db.purchases.update (fun p => p.id = q.id) f = some db'.purchases) (hi : (f q).id = q.id)
    (hf : DisputeRow dispute q → DisputeRow dispute (f q)) :
    RecordsDispute purchaseId dispute db' := by
  obtain ⟨p, hp, rfl, hr⟩ := h
  by_cases hs : p.id = q.id
  · obtain rfl := eq_of_key hp hq hs
    exact ⟨f p, mem_update_of ht hp (decide_eq_true rfl), hi, hf hr⟩
  · exact ⟨p, mem_update_of_not ht hp (decide_eq_false hs), rfl, hr⟩

theorem targetDisputedCents_final (hf : dispute.Final)
    (h : fundsWithdrawn dispute event = some withdrawn) :
    targetDisputedCents dispute withdrawn = dispute.finalCents := by
  rcases hf with hw | hl
  · obtain rfl : false = withdrawn := by simpa [fundsWithdrawn, hw] using h
    simp [targetDisputedCents, StripeDispute.finalCents, hw]
  · obtain rfl : true = withdrawn := by simpa [fundsWithdrawn, hl] using h
    simp [targetDisputedCents, StripeDispute.finalCents, hl]

/-- A valid event of a decided dispute makes its purchase record the decision. -/
theorem DisputeRow.of_valid (now : ℤ) (ht : target = dispute.finalCents)
    (hv : disputeValid event dispute target charge intent p) (hp : p.amountPaidCents ≠ 0) :
    DisputeRow dispute (disputedRow now dispute target p p) where
  amount := hv.2.2.1
  paid := hp
  bound := by
    have ha := hv.2.2.2.2.2
    cases hi : p.providerDisputeId with
    | none => simp [disputedRow, hi]
    | some =>
      rw [hi] at ha
      simp only [all_some, decide_eq_true_eq] at ha
      simp [disputedRow, hi, ha]
  cents := ht
  state := rfl

/-- Once recorded, the outcome stays recorded: only events of the same dispute move it, and they
find the same decision. -/
theorem RecordsDispute.disputeEvent (h : RecordsDispute purchaseId dispute db) (hf : dispute.Final)
    (hd : Decides disputes dispute) (ho : disputes other.id = some other)
    (hfu : fundsWithdrawn other event = some withdrawn)
    (htx : disputeTransaction freshId event other (targetDisputedCents other withdrawn) charge
      intent now db = .ok (r, db')) : RecordsDispute purchaseId dispute db' := by
  rcases disputeTransaction_ok htx with hu | ⟨-, -, _, hq, -, hv, ht⟩
  · exact h.keepsPaid (.of_eq hu.ends.purchases)
  · refine h.update hq ht.purchases rfl fun hr => ?_
    have hi : dispute.id = other.id := by
      have hal := hv.2.2.2.2.2
      rw [hr.bound] at hal
      simpa using hal
    obtain ⟨found, hfo, hs, ha⟩ := hd
    obtain rfl : other = found := some_inj.mp (ho.symm.trans (hi ▸ hfo))
    have hc : other.finalCents = dispute.finalCents := by
      rw [StripeDispute.finalCents, hs, ha, StripeDispute.finalCents]
    have hov : other.Final := by
      rw [StripeDispute.Final, hs]
      exact hf
    have hn := DisputeRow.of_valid now (targetDisputedCents_final hov hfu) hv hr.paid
    exact ⟨hr.amount, hn.paid, hi ▸ hn.bound, hn.cents.trans hc, hn.state⟩

theorem RecordsDispute.refundEvent (h : RecordsDispute purchaseId dispute db)
    (htx : refundTransaction freshId event refund charge intent now db = .ok (r, db')) :
    RecordsDispute purchaseId dispute db' := by
  rcases refundTransaction_ok htx with hu | ⟨-, -, _, hq, -, -, ht⟩
  · exact h.keepsPaid (.of_eq hu.ends.purchases)
  · exact h.update hq ht.purchases rfl fun hr => ⟨hr.amount, hr.paid, hr.bound, hr.cents, rfl⟩

def KeepsRecord (purchaseId : String) (dispute : StripeDispute) (db db' : Database) : Prop :=
  RecordsDispute purchaseId dispute db → RecordsDispute purchaseId dispute db'

instance : Std.Refl (KeepsRecord purchaseId dispute) := ⟨fun _ h => h⟩

instance : IsTrans Database (KeepsRecord purchaseId dispute) where
  trans _ _ _ hab hbc h := hbc (hab h)

theorem KeepsRecord.of_eq (h : db'.purchases = db.purchases) :
    KeepsRecord purchaseId dispute db db' := fun hr => hr.keepsPaid (.of_eq h)

theorem keepsRecord_commits (stripe : StripeClient) (hf : dispute.Final)
    (hd : Decides disputes dispute)
    (ha : ∀ id other, d.provider.retrieveDispute id = some other →
      disputes id = some other) : Commits (KeepsRecord purchaseId dispute) stripe d where
  dismiss _ _ _ _ _ h := .of_eq (finishEvent_purchases h)
  complete _ _ h := .of_eq (finishEvent_purchases h)
  checkout _ _ _ _ _ h hr := hr.keepsPaid (checkoutTransaction_keepsPaid h)
  checkoutFailure _ _ _ _ _ h hr := hr.keepsPaid (checkoutFailureTransaction_keepsPaid h)
  subscription _ _ _ _ _ h := by
    obtain ⟨_, _, hr⟩ := storeSubscription_ok h
    exact .of_eq (by rw [hr])
  subscriptionCheckout _ _ _ _ _ h := by
    obtain ⟨_, hr⟩ := completeSubscriptionCheckout_ok h
    exact .of_eq (by rw [hr])
  subscriptionExpiry _ _ _ _ h := by
    obtain ⟨_, hr⟩ := expireSubscriptionCheckout_ok h
    exact .of_eq (by rw [hr])
  refund _ _ _ _ _ _ _ h hr := hr.refundEvent h
  dispute _ _ _ _ _ _ _ han hfu h hr := hr.disputeEvent hf hd (ha _ _ han) hfu h
  subscriptionDispute _ _ _ _ h := by
    obtain ⟨_, hd⟩ := subscriptionDisputeTransaction_ok h
    exact .of_eq hd.purchases

theorem RecordsDispute.act (h : RecordsDispute purchaseId dispute db) (hfi : dispute.Final)
    (hd : Decides disputes dispute) {a : BillingAction}
    (hf : a.AnswersFrom Provider.retrieveDispute disputes) :
    RecordsDispute purchaseId dispute (a.run stripe log db) := by
  cases a with
  | purchase =>
    refine Tx.exec_inv h fun u db' hx => ?_
    rcases insertPurchase_ok hx with rfl | ⟨_, _, ht, rfl, -⟩
    · exact h
    · exact h.keepsPaid fun p hp _ => (mem_of_insert ht).mpr (.inl hp)
  | bind =>
    refine Tx.exec_inv h fun n db' hx => ?_
    obtain ⟨-, _, ht, rfl⟩ := TableRef.update_ok.mp hx
    refine h.keepsPaid (.of_update ht (fun p _ hs => ?_) rfl)
    exact (of_decide_eq_true hs).2.1
  | deliver eventId provider now freshId =>
    have hc : Commits (KeepsRecord purchaseId dispute) stripe
        ⟨log.event eventId, provider, now, freshId⟩ :=
      keepsRecord_commits stripe hfi hd hf
    exact (hc.handleStripeWebhook (fun _ _ hx => .of_eq (registerEvent_purchases hx))
      hc.dispatch).exec db h

theorem RecordsDispute.run (h : RecordsDispute purchaseId dispute w.db) (hf : dispute.Final)
    (hd : Decides w.objects dispute) (hr : (disputeHistory stripe log).Run w w') :
    RecordsDispute purchaseId dispute w'.db := by
  suffices hb : RecordsDispute purchaseId dispute w'.db ∧ Decides w'.objects dispute from hb.1
  induction hr with
  | refl => exact ⟨h, hd⟩
  | tail _ hst ih =>
    cases hst with
    | act _ hfe => exact ⟨ih.1.act hf ih.2 hfe, ih.2⟩
    | evolve _ hs => exact ⟨ih.1, hs dispute hf ih.2⟩

end

/-- The delivery is about a decided dispute of the purchase's charge, which pays no invoice. The
provider's objects agree with the purchase, the refunded and the disputed cents are within the
amount paid, and the purchase is bound to no other dispute. -/
structure DecidedDispute (stripe : StripeClient) (d : Delivery) (p : BillingPurchase)
    (dispute : StripeDispute) (charge : StripeCharge) (intent : StripePaymentIntent) : Prop
    extends AgreedCharge d p charge intent where
  kind : eventKind d.event.eventType = .dispute
  environment : d.event.livemode = stripe.livemode
  object : d.event.objectId = some dispute.id
  answer : d.provider.retrieveDispute dispute.id = some dispute
  final : dispute.Final
  disputeCharge : dispute.charge = charge.id
  noInvoice : d.provider.invoicePaymentForPaymentIntent intent.id = some none
  disputeCurrency : dispute.currency = p.currency
  amount : 0 < dispute.amount
  within : p.amountRefundedCents + dispute.finalCents ≤ p.amountPaidCents
  unbound : p.providerDisputeId.all fun i => i = dispute.id

section

variable {eventId : String} {dispute : StripeDispute} {charge : StripeCharge}
  {intent : StripePaymentIntent} {event : StripeEvent} {purchase p q : BillingPurchase}
  {stripe : StripeClient} {log : EventLog} {d : Delivery} {db db' : Database} {w : DisputeWorld}

theorem fundsWithdrawn_final (h : dispute.Final) (event : StripeEvent) :
    ∃ withdrawn, fundsWithdrawn dispute event = some withdrawn := by
  rcases h with hw | hl
  · exact ⟨false, by simp [fundsWithdrawn, hw]⟩
  · exact ⟨true, by simp [fundsWithdrawn, hl]⟩

/-- The handler of such a delivery is the transaction that records the outcome. -/
theorem DecidedDispute.dispatch_exec (h : DecidedDispute stripe d p dispute charge intent)
    (db : Database) : (dispatch stripe d).exec db = (disputeTransaction d.freshId d.event dispute
      dispute.finalCents charge intent d.now).exec db := by
  obtain ⟨withdrawn, hf⟩ := fundsWithdrawn_final h.final d.event
  have hh : dispatch stripe d = commitReply (disputeTransaction d.freshId d.event dispute
      dispute.finalCents charge intent d.now) := by
    simp only [dispatch, h.kind, handleDispute, eventObject, h.object, pure_bind, fetchObject,
      h.answer, if_true, processDispute, h.disputeCharge, h.fetch, h.noInvoice, Script.require,
      processDisputeEvent, hf, targetDisputedCents_final h.final hf]
  rw [hh, commitReply_exec]

theorem DecidedDispute.valid (h : DecidedDispute stripe d p dispute charge intent)
    (inv : PurchaseInv db) (hp : p ∈ db.purchases) :
    disputeValid d.event dispute dispute.finalCents charge intent p := by
  have hb := amountPaidCents_lt inv hp
  obtain ⟨-, -, -, -, -, -, -, -, hr, -⟩ := Table.check hp
  have ha := h.amount
  have hn : 0 ≤ dispute.finalCents := by
    unfold StripeDispute.finalCents
    split_ifs <;> omega
  have hw := h.within
  refine ⟨h.matches, h.disputeCurrency, h.amount, hn, ?_, h.unbound⟩
  rw [wrapI64_of_small (by omega) (by omega)]
  exact hw

/-- A transaction that records the totals of a purchase finishes its event as processed. -/
theorem Records.processed {refunded disputed : ℤ} {f : BillingPurchase → BillingPurchase}
    (h : Records event purchase refunded disputed f db db')
    (hr : ∃ e ∈ db.events, e.id = event.id) (hpe : ¬ Finished db event.id) :
    Processed db' event.id := by
  obtain ⟨_, _, _, _, _, ⟨_, rfl, -⟩, -, hd⟩ := h
  obtain ⟨_, hf⟩ := completeEvent_ok hd
  obtain ⟨_, ht, hdb⟩ := finishEventTransaction_ok hf
  obtain ⟨e, he, hi⟩ := hr
  have hn : e.processedAt = none := by
    by_contra hs
    exact hpe ⟨e, he, hi, Option.isSome_iff_ne_none.mpr hs⟩
  rw [show db' = _ from hdb]
  exact ⟨_, mem_update_of ht he (by simp [hi, hn]), hi, rfl⟩

/-- A delivery that finishes an event of a decided dispute has processed it and recorded the
outcome. -/
theorem DecidedDispute.records (h : DecidedDispute stripe d p dispute charge intent)
    (inv : PurchaseInv db) (hp : p ∈ db.purchases) (hpe : ¬ Finished db d.event.id)
    (hd : Finished ((handleStripeWebhook stripe d).exec db) d.event.id) :
    Processed ((handleStripeWebhook stripe d).exec db) d.event.id ∧
      RecordsDispute p.id dispute ((handleStripeWebhook stripe d).exec db) := by
  obtain ⟨t, r, hpending, htx⟩ := committed_of_finished h.environment h.dispatch_exec hpe hd
  have hp₁ : p ∈ ({ db with events := t } : Database).purchases := hp
  have hv := h.valid inv hp
  rcases disputeTransaction_ok htx with hu | ⟨hre, -, _, hq, hqc, -, hr⟩
  · rcases hu.invalid with hf | hn
    · exact absurd hf hpending
    · exact absurd hv (hn p hp₁ h.recorded)
  · obtain rfl := eq_of_chargeId hq hp₁ hqc h.recorded
    exact ⟨hr.processed hre hpending, _, mem_update_of hr.purchases hq (decide_eq_true rfl), rfl,
      DisputeRow.of_valid d.now rfl hv (h.paid inv hp)⟩

/-- What a purchase records of a dispute that is over: the cents and their adjustments, the marker
of an active dispute in the purchase and for its account, and the binding to the dispute. -/
structure DisputeOutcome (db : Database) (dispute : StripeDispute) (q : BillingPurchase) :
    Prop where
  cents : q.amountDisputedCents = dispute.finalCents
  adjustments : adjustmentBytes db q.id =
    -bytesPerCent * (q.amountRefundedCents + dispute.finalCents)
  disputed : q.state = .disputed ↔ dispute.status = "lost"
  review : dispute.status = "lost" → hasDispute db q.accountId = true
  bound : q.providerDisputeId = some dispute.id

theorem DisputeRow.outcome (h : DisputeRow dispute q) (inv : PurchaseInv db)
    (hq : q ∈ db.purchases) : DisputeOutcome db dispute q where
  cents := h.cents
  adjustments := by
    rw [← h.cents]
    exact inv.adjusted (money q) (mem_moneyRows hq)
  disputed := by
    have ha := h.amount
    rw [h.state, h.cents, purchaseStateAfterAdjustment, StripeDispute.finalCents]
    by_cases hl : dispute.status = "lost"
    · simp [hl, ha]
    · simp only [hl, if_false, lt_irrefl, iff_false]
      split_ifs <;> simp
  review hl := by
    have hp : 0 < q.amountDisputedCents := by
      rw [h.cents, StripeDispute.finalCents, if_pos hl]
      exact h.amount
    rw [hasDispute, Bool.or_eq_true, List.any_eq_true]
    exact .inl ⟨q, hq, by simp [hp]⟩
  bound := h.bound

/-- Once an event of a decided dispute that agrees with the purchase is finished, it is processed,
and the purchase records the decision in every later state, whatever was delivered before and is
delivered afterwards. -/
theorem dispute_convergence {freshId : String} {provider : Provider} {now : ℤ}
    {w₁ w₂ : DisputeWorld} (hw : (disputeHistory stripe log).Reachable w)
    (hp : p ∈ w.db.purchases)
    (hfetch : (BillingAction.deliver eventId provider now freshId).AnswersFrom
      Provider.retrieveDispute w.objects)
    (hdispute : DecidedDispute stripe ⟨log.event eventId, provider, now, freshId⟩ p dispute charge
      intent)
    (hpending : ¬ Finished w.db eventId)
    (hstep : w₁ =
      ⟨(BillingAction.deliver eventId provider now freshId).run stripe log w.db, w.objects⟩)
    (hdone : Finished w₁.db eventId) (hrun : (disputeHistory stripe log).Run w₁ w₂) :
    Processed w₁.db eventId ∧
      ∃ q ∈ w₂.db.purchases, q.id = p.id ∧ DisputeOutcome w₂.db dispute q := by
  have hbilling := inv_of_reachable (billing_of_history hw)
  have hw₁ : (disputeHistory stripe log).Reachable w₁ := by
    rw [hstep]
    exact hw.step (.act w _ hfetch)
  have hfinal := inv_of_reachable (billing_of_history (hw₁.run hrun))
  have hdecides : Decides w₁.objects dispute := by
    rw [hstep]
    exact ⟨dispute, hfetch _ _ hdispute.answer, rfl, rfl⟩
  have hrecorded : Processed w₁.db eventId ∧ RecordsDispute p.id dispute w₁.db := by
    rw [hstep] at hdone ⊢
    have hrecords := hdispute.records hbilling.1 hp (by rwa [log.id_event])
      (by rwa [log.id_event])
    rwa [log.id_event] at hrecords
  obtain ⟨q, hq, hid, hrow⟩ := hrecorded.2.run hdispute.final hdecides hrun
  exact ⟨hrecorded.1, q, hq, hid, hrow.outcome hfinal.1 hq⟩

end

/-- The provider's objects while its dispute has this status and its charge has refunded this. -/
def disputeProvider (status : String) (amountRefunded : ℤ) : Provider :=
  { sampleProvider "succeeded" amountRefunded with
    retrieveDispute := fun _ => some ⟨"du_1", 700, "usd", "ch_1", status⟩ }

def disputeWorld (actions : List BillingAction) (status : String) : DisputeWorld :=
  sampleWorld actions ⟨"du_1", 700, "usd", "ch_1", status⟩

/-- The purchase is paid and disputed, and the dispute is lost before its event arrives. -/
theorem disputeWorld_lost : (disputeHistory sampleStripe sampleLog).Reachable
    (disputeWorld (sampleActions.take 2) "lost") := by
  have hst : (disputeHistory sampleStripe sampleLog).Reachable
      (disputeWorld [] "needs_response") := .init rfl
  have hp := hst.step (sampleWorld_act (.purchase "purchase-1" "account-1" "key-1" 2 100) trivial)
  have hpa := hp.step (sampleWorld_act
    (.deliver "evt_pay" (disputeProvider "needs_response" 0) 200 "grant-1") fun _ _ h => h)
  refine hpa.step (.evolve _ (disputeProvider "lost" 0).retrieveDispute ?_)
  rintro _ hf ⟨_, hfo, hs, -⟩
  obtain rfl := some_inj.mp hfo
  rw [StripeDispute.Final, ← hs] at hf
  exact absurd hf (by decide)

def lostDispute : StripeDispute := ⟨"du_1", 700, "usd", "ch_1", "lost"⟩

def lostDelivery : BillingAction :=
  .deliver "evt_dispute" (disputeProvider "lost" 0) 300 "adjustment-1"

theorem dispute_convergence_sample :
    Processed (lostDelivery.run sampleStripe sampleLog
      (disputeWorld (sampleActions.take 2) "lost").db) "evt_dispute" ∧
      ∃ w, (disputeHistory sampleStripe sampleLog).Reachable w ∧
        ∃ q ∈ w.db.purchases, q.id = "purchase-1" ∧ DisputeOutcome w.db lostDispute q := by
  have hmem : samplePurchase ∈ (disputeWorld (sampleActions.take 2) "lost").db.purchases.rows := by
    decide +kernel
  have hdispute : DecidedDispute sampleStripe
      ⟨sampleLog.event "evt_dispute", disputeProvider "lost" 0, 300, "adjustment-1"⟩
      samplePurchase lostDispute (sampleCharge 0) sampleIntent := by
    constructor
    · constructor <;> decide
    all_goals decide
  have hpending : ¬ Finished (disputeWorld (sampleActions.take 2) "lost").db "evt_dispute" := by
    decide +kernel
  have hdone : Finished (lostDelivery.run sampleStripe sampleLog
      (disputeWorld (sampleActions.take 2) "lost").db) "evt_dispute" := by decide +kernel
  obtain ⟨hprocessed, houtcome⟩ := dispute_convergence disputeWorld_lost hmem (fun _ _ h => h)
    hdispute hpending rfl hdone .refl
  exact ⟨hprocessed, _, disputeWorld_lost.step (.act _ lostDelivery fun _ _ h => h), houtcome⟩

/-- The events of a refund of 1500 cents and of a lost dispute over 700, of 2000 cents paid, each
delivered once: the event that comes second is rejected. -/
theorem lost_dispute_depends_on_order :
    ∃ w w' : DisputeWorld, (disputeHistory sampleStripe sampleLog).Reachable w ∧
      (disputeHistory sampleStripe sampleLog).Reachable w' ∧
      Decides w.objects lostDispute ∧ Decides w'.objects lostDispute ∧
      (∀ id ∈ ["evt_pay", "evt_refund", "evt_dispute"], Finished w.db id ∧ Finished w'.db id) ∧
      moneyRows w.db =
        [⟨"purchase-1", "account-1", 1000, 2, some "pi_1", some "ch_1", 2000, 1500, 0⟩] ∧
      moneyRows w'.db =
        [⟨"purchase-1", "account-1", 1000, 2, some "pi_1", some "ch_1", 2000, 0, 700⟩] := by
  have hrefund := disputeWorld_lost.step (sampleWorld_act
    (.deliver "evt_refund" (disputeProvider "lost" 1500) 250 "adjustment-2") fun _ _ h => h)
  have hdispute := disputeWorld_lost.step (sampleWorld_act lostDelivery fun _ _ h => h)
  have hfirst := hrefund.step (sampleWorld_act lostDelivery fun _ _ h => h)
  have hsecond := hdispute.step (sampleWorld_act
    (.deliver "evt_refund" (disputeProvider "lost" 1500) 350 "adjustment-2") fun _ _ h => h)
  refine ⟨_, _, hfirst, hsecond, ⟨_, rfl, rfl, rfl⟩, ⟨_, rfl, rfl, rfl⟩, ?_, ?_, ?_⟩ <;>
    decide +kernel

end Notary.Billing
