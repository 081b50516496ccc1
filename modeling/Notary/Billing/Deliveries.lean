import Notary.Billing.Effects

/-! Every delivery is a sequence of ledger changes of its own event. -/

namespace Notary.Billing
open Relational Platform Script Tx TableRef Program

/-- The ledger changes that the transactions of one event make one after the other. -/
def Changes (eventId : String) (charges : String → Option StripeCharge) :
    Database → Database → Prop :=
  Relation.ReflTransGen (Change eventId charges)

section

variable (eventId : String) (charges : String → Option StripeCharge)

instance : Std.Refl (Changes eventId charges) := ⟨fun _ => .refl⟩

instance : IsTrans Database (Changes eventId charges) :=
  ⟨fun _ _ _ => Relation.ReflTransGen.trans⟩

end

variable {charges : String → Option StripeCharge}

variable {eventId : String} {db db' : Database} {now : ℤ} {r : Unit × Database}

theorem Change.events (h : Change eventId charges db db') : EventsAdvance eventId db db' := by
  cases h with
  | idle h => exact h.events
  | pay _ _ _ _ _ _ _ _ _ he | adjust _ _ _ _ _ _ _ _ _ _ he => exact he

theorem Changes.events (h : Changes eventId charges db db') : EventsAdvance eventId db db' := by
  induction h with
  | refl => exact .of_eq rfl
  | tail _ hs ih => exact ih.trans hs.events

theorem Changes.mono (h : Changes eventId answers db db')
    (ha : ∀ id charge, answers id = some charge → charges id = some charge) :
    Changes eventId charges db db' := by
  refine Relation.ReflTransGen.mono (fun a b hab => ?_) _ _ h
  cases hab with
  | idle h => exact .idle h
  | pay m ref charge createdAt hm hu hr hgr had he =>
    exact .pay m ref charge createdAt hm hu hr hgr had he
  | adjust m refunded disputed hm hs hp hd hr hg had he =>
    refine .adjust m refunded disputed hm ?_ hp hd hr hg had he
    rcases hs with hsa | ⟨charge, hi, hc, hce⟩
    · exact .inl hsa
    · exact .inr ⟨charge, hi, ha _ _ hc, hce⟩

theorem finishEvent_idle (h : finishEvent eventId outcome errorCode now db = .ok r) :
    Idle eventId db r.2 := by
  obtain ⟨_, ht, hr⟩ := finishEvent_ok h
  rw [hr]
  refine ⟨rfl, rfl, rfl, .of_finish ht ?_ ?_⟩
  · intro _ he
    exact ⟨of_decide_eq_true he, of_decide_eq_true he⟩
  · intro e _
    cases e.processedAt <;> cases e.outcome <;> exact ⟨rfl, rfl⟩

theorem upsertSubscription_ok {r : ℕ × Database} (h : upsertSubscription row db = .ok r) :
    ∃ t, r.2 = { db with subscriptions := t } := by
  simp only [upsertSubscription, bind_ok, selectByKey_ok] at h
  obtain ⟨existing, _, ⟨-, rfl⟩, h⟩ := h
  cases existing with
  | none =>
    simp only [bind_ok, insert_ok, pure_ok] at h
    obtain ⟨_, _, ⟨t, -, rfl⟩, -, ht⟩ := h
    exact ⟨t, ht.symm⟩
  | some =>
    obtain ⟨-, t, -, ht⟩ := update_ok.mp h
    exact ⟨t, ht.symm⟩

theorem storeSubscription_ok (h : storeSubscription accountId plan subscription now db = .ok r) :
    ∃ t u, r.2 = { db with subscriptions := t, profiles := u } := by
  obtain ⟨_, _, _, -, -, hu, hre⟩ := storeSubscription_stores h
  obtain ⟨t, rfl⟩ := upsertSubscription_ok hu
  obtain ⟨u, hr⟩ := recomputeAccountBillingState_ok hre
  exact ⟨t, u, hr⟩

theorem upsertSubscriptionDispute_ok {r : ℕ × Database}
    (h : upsertSubscriptionDispute row db = .ok r) :
    ∃ t, r.2 = { db with subscriptionDisputes := t } := by
  simp only [upsertSubscriptionDispute, bind_ok, selectByKey_ok] at h
  obtain ⟨existing, _, ⟨-, rfl⟩, h⟩ := h
  cases existing with
  | none =>
    simp only [bind_ok, insert_ok, pure_ok] at h
    obtain ⟨_, _, ⟨t, -, rfl⟩, -, ht⟩ := h
    exact ⟨t, ht.symm⟩
  | some =>
    obtain ⟨-, t, -, ht⟩ := update_ok.mp h
    exact ⟨t, ht.symm⟩

theorem subscriptionDisputeTransaction_ok {r : Reply}
    (h : subscriptionDisputeTransaction event row now db = .ok (r, db')) :
    ∃ t, Ends event.id { db with subscriptionDisputes := t } db' := by
  rcases whenPending_ok h with ⟨-, rfl, -⟩ | ⟨-, -, hr⟩
  · exact ⟨_, .refl event.id _⟩
  · rw [runStatements_bind, run_exec] at hr
    obtain ⟨_, _, hu, hf⟩ := bind_ok.mp hr
    obtain ⟨t, rfl⟩ := upsertSubscriptionDispute_ok hu
    unfold finishSubscriptionDispute at hf
    split at hf
    · exact ⟨t, completeEvent_ends hf⟩
    · exact ⟨t, endEvent_ends hf⟩

section

variable {α : Type}

theorem commitReply_exec (x : Request Reply) (db : Database) :
    (commitReply x).exec db = x.exec db := by
  rw [commitReply, exec_transaction_bind]
  cases hx : x db with
  | error => rw [exec_of_error hx]
  | ok => simp only [exec_of_ok hx, exec_ofExcept]

theorem fetchObject_returns (d : Delivery) {answer : Option α} {objectId : α → String}
    {expected mismatch : String} : Script.Returns (fetchObject d answer objectId expected mismatch)
      fun object => answer = some object ∧ objectId object = expected := by
  unfold fetchObject
  split
  · exact returns_throw _ _
  · split
    · rename_i hi
      exact returns_pure ⟨rfl, hi⟩
    · exact returns_bind (P := fun _ => True) ⟨fun _ _ _ _ => trivial⟩ fun _ _ => returns_throw _ _

theorem fetchChargeObjects_returns (d : Delivery) (chargeId mismatch : String) :
    Script.Returns (fetchChargeObjects d chargeId mismatch) fun objects =>
      objects.charge.id = chargeId ∧
        d.provider.retrieveCharge objects.charge.id = some objects.charge ∧
        objects.charge.paymentIntent = some objects.paymentIntent.id := by
  unfold fetchChargeObjects
  apply returns_bind (fetchObject_returns d)
  rintro _ ⟨hc, rfl⟩
  apply returns_bind (returns_require _ _)
  intro _ hi
  apply returns_bind (fetchObject_returns d)
  rintro _ ⟨-, rfl⟩
  exact returns_pure ⟨rfl, hc, hi⟩

end

/-- Finishing the event of a delivery without processing it relates the states around it. -/
structure Dismisses (R : Database → Database → Prop) (d : Delivery) : Prop where
  dismiss : ∀ outcome errorCode db r, outcome ≠ .processed →
    finishEvent d.event.id outcome errorCode d.now db = .ok r → R db r.2

/-- So does every transaction that a delivery can commit after its event is registered. -/
structure Commits (R : Database → Database → Prop) (stripe : StripeClient) (d : Delivery) : Prop
    extends Dismisses R d where
  complete : ∀ db r, finishEvent d.event.id .processed none d.now db = .ok r → R db r.2
  checkout : ∀ session purchaseId db r db',
    checkoutTransaction stripe d.freshId d.event session purchaseId d.now db = .ok (r, db') →
      R db db'
  checkoutFailure : ∀ session purchaseId db r db',
    checkoutFailureTransaction d.event session purchaseId d.now db = .ok (r, db') → R db db'
  subscription : ∀ accountId plan subscription db r,
    storeSubscription accountId plan subscription d.now db = .ok r → R db r.2
  subscriptionCheckout : ∀ checkoutId customerId subscriptionId db r,
    completeSubscriptionCheckout checkoutId customerId subscriptionId d.now db = .ok r → R db r.2
  subscriptionExpiry : ∀ checkoutId sessionId db r,
    expireSubscriptionCheckout checkoutId sessionId d.now db = .ok r → R db r.2
  refund : ∀ refund charge intent db r db', d.provider.retrieveCharge charge.id = some charge →
    refundTransaction d.freshId d.event refund charge intent d.now db = .ok (r, db') → R db db'
  dispute : ∀ dispute withdrawn charge intent db r db',
    d.provider.retrieveDispute dispute.id = some dispute →
    fundsWithdrawn dispute d.event = some withdrawn →
    disputeTransaction d.freshId d.event dispute (targetDisputedCents dispute withdrawn) charge
      intent d.now db = .ok (r, db') → R db db'
  subscriptionDispute : ∀ row db r db',
    subscriptionDisputeTransaction d.event row d.now db = .ok (r, db') → R db db'

section

variable {R : Database → Database → Prop} [Std.Refl R] [IsTrans Database R]
  {stripe : StripeClient} {d : Delivery} {α : Type}

theorem respects_commitReply (h : ∀ db r db', x db = .ok (r, db') → R db db') :
    Script.Respects R (commitReply x) :=
  respects_bind (respects_transaction h) fun reply => respects_ofExcept reply

omit [IsTrans Database R] in
theorem Dismisses.ignoreDelivery (h : Dismisses R d) : Script.Respects R (ignoreDelivery d) :=
  respects_transaction fun db r db' hx =>
    h.dismiss .ignored none db (r, db') EventOutcome.noConfusion hx

theorem Dismisses.rejectDelivery (h : Dismisses R d) (errorCode message : String) :
    Script.Respects R (rejectDelivery d errorCode message : Handler α) :=
  respects_bind (respects_transaction fun db r db' hx =>
      h.dismiss .rejected (some errorCode) db (r, db') EventOutcome.noConfusion hx)
    fun _ => respects_throw _

theorem Dismisses.fetchObject (h : Dismisses R d) (answer : Option α) (objectId : α → String)
    (expected mismatch : String) :
    Script.Respects R (fetchObject d answer objectId expected mismatch) := by
  unfold Billing.fetchObject
  split
  · exact respects_throw _
  · split
    · exact respects_pure _
    · exact h.rejectDelivery _ _

theorem Dismisses.eventObject (h : Dismisses R d) (message : String) :
    Script.Respects R (eventObject d message) := by
  unfold Billing.eventObject
  split
  · exact respects_pure _
  · exact h.rejectDelivery _ _

theorem Dismisses.fetchChargeObjects (h : Dismisses R d) (chargeId mismatch : String) :
    Script.Respects R (fetchChargeObjects d chargeId mismatch) := by
  unfold Billing.fetchChargeObjects
  apply respects_bind (h.fetchObject _ _ _ _)
  intro _
  apply respects_bind (respects_require _ _)
  intro _
  apply respects_bind (h.fetchObject _ _ _ _)
  intro _
  exact respects_pure _

omit [IsTrans Database R] in
theorem Commits.finish (h : Commits R stripe d) :
    Script.Respects R (Script.transaction (finishEvent d.event.id .processed none d.now)) :=
  respects_transaction fun db r db' hx => h.complete db (r, db') hx

theorem Commits.processCheckoutEvent (h : Commits R stripe d) (session : StripeCheckoutSession) :
    Script.Respects R (processCheckoutEvent stripe d session) := by
  unfold Billing.processCheckoutEvent
  split
  · split
    · exact h.ignoreDelivery
    · split
      · exact respects_commitReply fun db r db' hx => h.checkout _ _ db r db' hx
      · exact h.rejectDelivery _ _
  · exact h.ignoreDelivery

theorem Commits.processCheckoutFailureEvent (h : Commits R stripe d)
    (session : StripeCheckoutSession) :
    Script.Respects R (processCheckoutFailureEvent d session) := by
  unfold Billing.processCheckoutFailureEvent
  split
  · exact h.ignoreDelivery
  · exact respects_commitReply fun db r db' hx => h.checkoutFailure _ _ db r db' hx

omit [IsTrans Database R] in
theorem respects_requireProviderId (value tag : String) :
    Script.Respects R (requireProviderId value tag) := by
  unfold requireProviderId
  split
  · exact respects_pure _
  · exact respects_throw _

omit [IsTrans Database R] in
theorem Commits.storeSubscription (h : Commits R stripe d) (accountId : String) (plan : Plan)
    (subscription : StripeSubscription) : Script.Respects R
      (Script.transaction (storeSubscription accountId plan subscription d.now)) :=
  respects_transaction fun db r db' hx => h.subscription _ _ _ db (r, db') hx

theorem Commits.storeCheckoutSubscription (h : Commits R stripe d)
    (checkout : SubscriptionCheckout) (subscriptionId customerId : String) : Script.Respects R
      (storeCheckoutSubscription stripe d checkout subscriptionId customerId) := by
  unfold Billing.storeCheckoutSubscription
  apply respects_bind (respects_require _ _)
  intro _
  apply respects_bind (respects_ofExcept _)
  intro _
  apply respects_bind (h.storeSubscription _ _ _)
  intro _
  apply respects_bind
    (respects_transaction fun db r db' hx => h.subscriptionCheckout _ _ _ db (r, db') hx)
  intro _
  exact h.finish

omit [IsTrans Database R] in
theorem respects_subscriptionAccount_select (subscriptionId : String) :
    Script.Respects R (Script.transaction (selectSubscriptionAccount subscriptionId)) :=
  respects_readOnly (readOnly_bind (readOnly_query _) fun _ => readOnly_pure _)

theorem Commits.completeSubscriptionSession (h : Commits R stripe d)
    (session : StripeCheckoutSession) (checkoutId : String) :
    Script.Respects R (completeSubscriptionSession stripe d session checkoutId) := by
  unfold Billing.completeSubscriptionSession
  apply respects_bind (respects_require _ _)
  intro _
  apply respects_bind (respects_require _ _)
  intro _
  apply respects_bind (respects_requireProviderId _ _)
  intro _
  apply respects_bind (respects_requireProviderId _ _)
  intro _
  apply respects_bind (respects_readOnly (readOnly_query _))
  intro checkout
  apply respects_bind (respects_require _ _)
  intro _
  apply respects_bind (respects_require _ _)
  intro _
  split
  · exact h.storeCheckoutSubscription _ _ _
  · exact h.rejectDelivery _ _

theorem Commits.processSubscriptionCheckoutEvent (h : Commits R stripe d)
    (session : StripeCheckoutSession) :
    Script.Respects R (processSubscriptionCheckoutEvent stripe d session) := by
  unfold Billing.processSubscriptionCheckoutEvent
  split
  · exact respects_throw _
  · split
    · exact h.completeSubscriptionSession _ _
    · exact h.rejectDelivery _ _

theorem Commits.processSubscriptionCheckoutFailure (h : Commits R stripe d)
    (session : StripeCheckoutSession) :
    Script.Respects R (processSubscriptionCheckoutFailure d session) := by
  unfold Billing.processSubscriptionCheckoutFailure
  apply respects_bind (respects_require _ _)
  intro _
  apply respects_bind
    (respects_transaction fun db r db' hx => h.subscriptionExpiry _ _ db (r, db') hx)
  intro _
  exact h.finish

theorem respects_subscriptionAccount (subscription : StripeSubscription) (subscriptionId : String) :
    Script.Respects R (subscriptionAccount subscription subscriptionId) :=
  respects_bind (respects_subscriptionAccount_select subscriptionId) fun _ => respects_require _ _

section

variable (h : Commits R stripe d)
include h

theorem Commits.reconcileSubscription (subscription : StripeSubscription) :
    Script.Respects R (reconcileSubscription stripe d subscription) := by
  unfold Billing.reconcileSubscription
  apply respects_bind (respects_subscriptionAccount _ _)
  intro _
  apply respects_bind (respects_ofExcept _)
  intro _
  apply respects_bind (respects_ofExcept _)
  intro _
  apply respects_bind (respects_ofExcept _)
  intro _
  apply respects_bind (h.storeSubscription _ _ _)
  intro _
  exact h.finish

theorem Commits.processRefund (refund : StripeRefund) :
    Script.Respects R (processRefund d refund) := by
  unfold Billing.processRefund
  split
  · apply respects_bind (respects_require _ _)
    intro _
    apply respects_bind_of (h.fetchChargeObjects _ _) (fetchChargeObjects_returns d _ _)
    rintro _ ⟨-, hc, -⟩
    exact respects_commitReply fun db r db' hx => h.refund _ _ _ db r db' hc hx
  · exact h.ignoreDelivery

theorem Commits.processDisputeEvent {dispute : StripeDispute}
    (hd : d.provider.retrieveDispute dispute.id = some dispute) (objects : ChargeObjects) :
    Script.Respects R (processDisputeEvent d dispute objects) := by
  unfold Billing.processDisputeEvent
  cases hf : fundsWithdrawn dispute d.event with
  | none => exact h.ignoreDelivery
  | some =>
    exact respects_commitReply fun db r db' hx => h.dispute _ _ _ _ db r db' hd hf hx

theorem Commits.activeSubscriptionDispute (dispute : StripeDispute)
    (objects : ChargeObjects) (payment : StripeInvoicePayment) (invoice : StripeInvoice)
    (active : Bool) : Script.Respects R
      (activeSubscriptionDispute stripe d dispute objects payment invoice active) := by
  unfold Billing.activeSubscriptionDispute
  apply respects_bind (respects_require _ _)
  intro _
  apply respects_bind (respects_requireProviderId _ _)
  intro _
  apply respects_bind (h.fetchObject _ _ _ _)
  intro _
  apply respects_bind (respects_subscriptionAccount _ _)
  intro _
  apply respects_bind (respects_ofExcept _)
  intro _
  apply respects_bind (respects_ofExcept _)
  intro _
  apply respects_bind (respects_ofExcept _)
  intro _
  split
  · apply respects_bind (h.storeSubscription _ _ _)
    intro _
    exact respects_commitReply fun db r db' hx => h.subscriptionDispute _ db r db' hx
  · exact h.rejectDelivery _ _

theorem Commits.processDispute {dispute : StripeDispute}
    (hd : d.provider.retrieveDispute dispute.id = some dispute) :
    Script.Respects R (processDispute stripe d dispute) := by
  unfold Billing.processDispute
  apply respects_bind (h.fetchChargeObjects _ _)
  intro objects
  apply respects_bind (respects_require _ _)
  intro payment
  cases payment with
  | none => exact h.processDisputeEvent hd objects
  | some =>
    apply respects_bind (h.fetchObject _ _ _ _)
    intro _
    unfold processSubscriptionDisputeEvent
    split
    · exact h.ignoreDelivery
    · exact h.activeSubscriptionDispute _ _ _ _ _

end

theorem Dismisses.fetchCheckoutSession (h : Dismisses R d) :
    Script.Respects R (fetchCheckoutSession d) :=
  respects_bind (h.eventObject _) fun _ => h.fetchObject _ _ _ _

/-- Whatever the event is about, its handler only commits transactions of this delivery. -/
theorem Commits.dispatch (h : Commits R stripe d) : Script.Respects R (dispatch stripe d) := by
  unfold Billing.dispatch
  split
  · apply respects_bind h.fetchCheckoutSession
    intro session
    split
    · exact h.processSubscriptionCheckoutEvent session
    · exact h.processCheckoutEvent session
  · apply respects_bind h.fetchCheckoutSession
    intro session
    split
    · exact h.processSubscriptionCheckoutFailure session
    · exact h.processCheckoutFailureEvent session
  · apply respects_bind (h.eventObject _)
    intro _
    apply respects_bind (h.fetchObject _ _ _ _)
    intro subscription
    exact h.reconcileSubscription subscription
  · apply respects_bind (h.eventObject _)
    intro _
    apply respects_bind (h.fetchObject _ _ _ _)
    intro refund
    exact h.processRefund refund
  · apply respects_bind (h.eventObject _)
    intro _
    apply respects_bind_of (h.fetchObject _ _ _ _) (fetchObject_returns d)
    rintro _ ⟨hd, rfl⟩
    exact h.processDispute hd
  · exact h.ignoreDelivery

theorem eventAlreadyFinished_readOnly (eventId : String) :
    (eventAlreadyFinished eventId).ReadOnly :=
  readOnly_bind (readOnly_query _) fun _ =>
    readOnly_bind (readOnly_require _ _) fun _ => readOnly_pure _

/-- A whole delivery registers its event and then dismisses it or runs its handler. -/
theorem Dismisses.handleStripeWebhook (h : Dismisses R d)
    (hr : ∀ db r, registerEvent d.event d.now db = .ok r → R db r.2)
    (hd : Script.Respects R (dispatch stripe d)) :
    Script.Respects R (handleStripeWebhook stripe d) := by
  unfold Billing.handleStripeWebhook
  apply respects_bind (respects_ofExcept _)
  intro _
  apply respects_bind (respects_transaction fun db r db' hx => hr db (r, db') hx)
  intro _
  split
  · apply respects_bind (respects_readOnly (eventAlreadyFinished_readOnly _))
    intro _
    split
    · exact respects_pure _
    · exact hd
  · exact h.rejectDelivery _ _

end

abbrev Delivery.Changes (d : Delivery) : Database → Database → Prop :=
  Billing.Changes d.event.id d.provider.retrieveCharge

theorem changes_commits (stripe : StripeClient) (d : Delivery) : Commits d.Changes stripe d where
  dismiss _ _ _ _ _ h := .single (.idle (finishEvent_idle h))
  complete _ _ h := .single (.idle (finishEvent_idle h))
  checkout _ _ _ _ _ h := .single (checkoutTransaction_change h)
  checkoutFailure _ _ _ _ _ h := .single (checkoutFailureTransaction_change h)
  subscription _ _ _ _ _ h := by
    obtain ⟨_, _, hr⟩ := storeSubscription_ok h
    rw [hr]
    exact .single (.idle (.of_eq rfl rfl rfl rfl))
  subscriptionCheckout _ _ _ _ _ h := by
    obtain ⟨_, hr⟩ := completeSubscriptionCheckout_ok h
    rw [hr]
    exact .single (.idle (.of_eq rfl rfl rfl rfl))
  subscriptionExpiry _ _ _ _ h := by
    obtain ⟨_, hr⟩ := expireSubscriptionCheckout_ok h
    rw [hr]
    exact .single (.idle (.of_eq rfl rfl rfl rfl))
  refund _ _ _ _ _ _ hc h := .single (refundTransaction_change hc h)
  dispute _ _ _ _ _ _ _ _ _ h := .single (disputeTransaction_change h)
  subscriptionDispute _ db _ _ h := by
    obtain ⟨t, hd⟩ := subscriptionDisputeTransaction_ok h
    have hs : Idle d.event.id db { db with subscriptionDisputes := t } := .of_eq rfl rfl rfl rfl
    exact .single (.idle (hs.trans hd.idle))

end Notary.Billing
