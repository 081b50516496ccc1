import Notary.Billing.Statements

/-! The webhook endpoint. One delivery registers its event, fetches the provider's objects as
they are at that time, and runs the transactions of the event's handler. -/

namespace Notary.Billing
open Relational Platform

/-- A handler runs transactions one after the other. -/
abbrev Handler := Script Database ApiError

/-- One delivery of an event: the provider's answers while it is handled, the clock, and the
identifier drawn for a new row. -/
structure Delivery where
  event : StripeEvent
  provider : Provider
  now : ℤ
  freshId : String

section

variable (stripe : StripeClient) (d : Delivery) {α : Type}

def commitReply (x : Request Reply) : Handler Unit := do
  let reply ← Script.transaction x
  Script.ofExcept reply

def ignoreDelivery : Handler Unit :=
  Script.transaction (finishEvent d.event.id .ignored none d.now)

def rejectDelivery (errorCode message : String) : Handler α := do
  Script.transaction (rejectEvent d.event.id errorCode d.now)
  throw (.badRequest message)

/-- An object fetched from the provider, under the identifier it was asked for. -/
def fetchObject (answer : Option α) (objectId : α → String) (expected mismatch : String) :
    Handler α :=
  match answer with
  | none => throw stripeApiError
  | some object =>
    if objectId object = expected then pure object
    else rejectDelivery d "object_id_mismatch" mismatch

def eventObject (message : String) : Handler String :=
  match d.event.objectId with
  | some objectId => pure objectId
  | none => rejectDelivery d "missing_object_id" message

def processCheckoutEvent (session : StripeCheckoutSession) : Handler Unit :=
  if session.paymentStatus = "paid" then
    match session.metadata.lookup "purchase_id" with
    | none => ignoreDelivery d
    | some purchaseId =>
      if validateInternalId purchaseId then
        commitReply (checkoutTransaction stripe d.freshId d.event session purchaseId d.now)
      else
        rejectDelivery d "invalid_purchase_binding" "Stripe Checkout purchase binding is invalid"
  else ignoreDelivery d

def processCheckoutFailureEvent (session : StripeCheckoutSession) : Handler Unit :=
  match session.metadata.lookup "purchase_id" with
  | none => ignoreDelivery d
  | some purchaseId => commitReply (checkoutFailureTransaction d.event session purchaseId d.now)

def requireProviderId (value tag : String) : Handler Unit :=
  if validateStripeId value tag then pure () else throw stripeInvalidError

def subscriptionCheckoutMismatch : String :=
  "Stripe subscription Checkout Session did not match the local checkout"

/-- Store the subscription of a completed checkout. -/
def storeCheckoutSubscription (checkout : SubscriptionCheckout)
    (subscriptionId customerId : String) : Handler Unit := do
  let subscription ← Script.require (d.provider.retrieveSubscription subscriptionId)
    stripeApiError
  Script.ofExcept (validateSubscription stripe checkout.accountId checkout.targetPlan customerId
    subscription)
  Script.transaction (storeSubscription checkout.accountId checkout.targetPlan subscription d.now)
  Script.transaction (completeSubscriptionCheckout checkout.id customerId subscriptionId d.now)
  Script.transaction (finishEvent d.event.id .processed none d.now)

def checkoutAwaits (checkout : SubscriptionCheckout) (price sessionId : String) : Prop :=
  checkout.state = .checkoutOpen ∧ checkout.providerPriceId = price ∧
    checkout.livemode = stripe.livemode ∧ checkout.providerCheckoutSessionId = some sessionId
  deriving Decidable

def completeSubscriptionSession (session : StripeCheckoutSession) (checkoutId : String) :
    Handler Unit := do
  let subscriptionId ← Script.require (session.subscription.map (Expandable.idOf (·.id)))
    (.badRequest "Stripe Checkout has no subscription")
  let customerId ← Script.require (session.customer.map (Expandable.idOf (·.id)))
    (.badRequest "Stripe Checkout has no customer")
  requireProviderId subscriptionId "sub_"
  requireProviderId customerId "cus_"
  let checkout ← Script.transaction (selectSubscriptionCheckout checkoutId)
  let checkout ← Script.require checkout
    (.badRequest "Stripe subscription Checkout is not recognized")
  let price ← Script.require (stripe.subscriptionPriceId checkout.targetPlan) stripeInvalidError
  if checkoutAwaits stripe checkout price session.id then
    storeCheckoutSubscription stripe d checkout subscriptionId customerId
  else rejectDelivery d "checkout_mismatch" subscriptionCheckoutMismatch

def processSubscriptionCheckoutEvent (session : StripeCheckoutSession) : Handler Unit :=
  match (session.metadata.lookup "subscription_checkout_id").filter validateInternalId with
  | none => throw (.badRequest "Stripe subscription Checkout binding is invalid")
  | some checkoutId =>
    if session.mode = some "subscription" ∧ session.status = some "complete" ∧
        session.clientReferenceId = some checkoutId then
      completeSubscriptionSession stripe d session checkoutId
    else rejectDelivery d "checkout_mismatch" subscriptionCheckoutMismatch

def processSubscriptionCheckoutFailure (session : StripeCheckoutSession) : Handler Unit := do
  let checkoutId ← Script.require (session.metadata.lookup "subscription_checkout_id")
    (.badRequest "Stripe subscription Checkout binding is missing")
  Script.transaction (expireSubscriptionCheckout checkoutId session.id d.now)
  Script.transaction (finishEvent d.event.id .processed none d.now)

/-- The account a subscription is stored under, or else the one its metadata names. -/
def subscriptionAccount (subscription : StripeSubscription) (subscriptionId : String) :
    Handler String := do
  let existing ← Script.transaction (selectSubscriptionAccount subscriptionId)
  Script.require (existing.or (subscription.metadata.lookup "account_id"))
    (.badRequest "Stripe subscription has no account binding")

def reconcileSubscription (subscription : StripeSubscription) : Handler Unit := do
  let accountId ← subscriptionAccount subscription subscription.id
  let price ← Script.ofExcept (subscriptionPrice subscription)
  let plan ← Script.ofExcept (planForPrice stripe price)
  Script.ofExcept (validateSubscription stripe accountId plan
    (subscription.customer.idOf StripeReference.id) subscription)
  Script.transaction (storeSubscription accountId plan subscription d.now)
  Script.transaction (finishEvent d.event.id .processed none d.now)

structure ChargeObjects where
  charge : StripeCharge
  paymentIntent : StripePaymentIntent

def fetchChargeObjects (chargeId mismatch : String) : Handler ChargeObjects := do
  let charge ← fetchObject d (d.provider.retrieveCharge chargeId) StripeCharge.id chargeId mismatch
  let intentId ← Script.require charge.paymentIntent
    (.badRequest "Stripe charge has no PaymentIntent identifier")
  let paymentIntent ← fetchObject d (d.provider.retrievePaymentIntent intentId)
    StripePaymentIntent.id intentId "Stripe PaymentIntent response did not match the charge"
  pure ⟨charge, paymentIntent⟩

/-- A succeeded refund is recorded from its charge; any other one is ignored. -/
def processRefund (refund : StripeRefund) : Handler Unit :=
  if refund.status = some "succeeded" then do
    let chargeId ← Script.require refund.charge
      (.badRequest "Stripe refund has no charge identifier")
    let objects ← fetchChargeObjects d chargeId
      "Stripe charge response identifier did not match the refund"
    commitReply (refundTransaction d.freshId d.event refund objects.charge objects.paymentIntent
      d.now)
  else ignoreDelivery d

def processDisputeEvent (dispute : StripeDispute) (objects : ChargeObjects) : Handler Unit :=
  match fundsWithdrawn dispute d.event with
  | none => ignoreDelivery d
  | some withdrawn =>
    commitReply (disputeTransaction d.freshId d.event dispute
      (targetDisputedCents dispute withdrawn) objects.charge objects.paymentIntent d.now)

/-- The invoice payment, invoice, charge and dispute belong together. -/
def subscriptionDisputeValid (dispute : StripeDispute) (objects : ChargeObjects)
    (payment : StripeInvoicePayment) (invoice : StripeInvoice) : Prop :=
  d.event.livemode = stripe.livemode ∧ payment.livemode = d.event.livemode ∧
    payment.currency = "usd" ∧ payment.status = "paid" ∧
    payment.invoice.idOf StripeReference.id = invoice.id ∧
    payment.paymentKind = "payment_intent" ∧
    payment.paymentIntent.map (Expandable.idOf StripeReference.id) =
      some objects.paymentIntent.id ∧
    invoice.livemode = d.event.livemode ∧ invoice.currency = "usd" ∧
    objects.charge.livemode = d.event.livemode ∧
    objects.charge.paymentIntent = some objects.paymentIntent.id ∧
    objects.charge.currency = invoice.currency ∧ 0 < objects.charge.amount ∧
    dispute.currency = invoice.currency ∧ 0 < dispute.amount ∧
    dispute.amount ≤ objects.charge.amount

instance (dispute : StripeDispute) (objects : ChargeObjects) (payment : StripeInvoicePayment)
    (invoice : StripeInvoice) :
    Decidable (subscriptionDisputeValid stripe d dispute objects payment invoice) :=
  inferInstanceAs (Decidable (_ ∧ _))

/-- The subscription that an invoice bills. -/
def invoiceSubscription (invoice : StripeInvoice) : Option String := do
  let parent ← invoice.parent.filter fun p => p.kind = "subscription_details"
  let subscription ← parent.subscription
  some (subscription.idOf StripeReference.id)

/-- Store the disputed subscription, then its dispute. -/
def storeSubscriptionDispute (dispute : StripeDispute) (charge : StripeCharge)
    (accountId : String) (plan : Plan) (subscription : StripeSubscription) (active : Bool) :
    Handler Unit := do
  Script.transaction (storeSubscription accountId plan subscription d.now)
  commitReply (subscriptionDisputeTransaction d.event
    (disputeRow d.event dispute subscription.id accountId charge active d.now) d.now)

def activeSubscriptionDispute (dispute : StripeDispute) (objects : ChargeObjects)
    (payment : StripeInvoicePayment) (invoice : StripeInvoice) (active : Bool) : Handler Unit := do
  let subscriptionId ← Script.require (invoiceSubscription invoice)
    (.badRequest "Stripe Invoice has no subscription binding")
  requireProviderId subscriptionId "sub_"
  let subscription ← fetchObject d (d.provider.retrieveSubscription subscriptionId)
    StripeSubscription.id subscriptionId "Stripe Subscription response did not match the Invoice"
  let accountId ← subscriptionAccount subscription subscriptionId
  let price ← Script.ofExcept (subscriptionPrice subscription)
  let plan ← Script.ofExcept (planForPrice stripe price)
  Script.ofExcept (validateSubscription stripe accountId plan
    (invoice.customer.idOf StripeReference.id) subscription)
  if subscriptionDisputeValid stripe d dispute objects payment invoice then
    storeSubscriptionDispute d dispute objects.charge accountId plan subscription active
  else
    rejectDelivery d "subscription_dispute_mismatch"
      "Stripe dispute did not match the subscription Invoice"

def processSubscriptionDisputeEvent (dispute : StripeDispute) (objects : ChargeObjects)
    (payment : StripeInvoicePayment) (invoice : StripeInvoice) : Handler Unit :=
  match fundsWithdrawn dispute d.event with
  | none => ignoreDelivery d
  | some active => activeSubscriptionDispute stripe d dispute objects payment invoice active

/-- A dispute of a payment for an invoice is one of a subscription. -/
def processDispute (dispute : StripeDispute) : Handler Unit := do
  let objects ← fetchChargeObjects d dispute.charge
    "Stripe charge response identifier did not match the dispute"
  let payment ← Script.require
    (d.provider.invoicePaymentForPaymentIntent objects.paymentIntent.id) stripeApiError
  match payment with
  | none => processDisputeEvent d dispute objects
  | some payment => do
    let invoiceId := payment.invoice.idOf StripeReference.id
    let invoice ← fetchObject d (d.provider.retrieveInvoice invoiceId) StripeInvoice.id invoiceId
      "Stripe Invoice response did not match the charge"
    processSubscriptionDisputeEvent stripe d dispute objects payment invoice

/-- The events the endpoint acts on. -/
inductive EventKind
  | checkoutPaid | checkoutFailed | subscription | refund | dispute | other
  deriving DecidableEq

def eventKind : String → EventKind
  | "checkout.session.completed" | "checkout.session.async_payment_succeeded" => .checkoutPaid
  | "checkout.session.async_payment_failed" | "checkout.session.expired" => .checkoutFailed
  | "customer.subscription.created" | "customer.subscription.updated"
  | "customer.subscription.deleted" | "customer.subscription.paused"
  | "customer.subscription.resumed" => .subscription
  | "refund.created" | "refund.updated" | "refund.failed" => .refund
  | "charge.dispute.funds_withdrawn" | "charge.dispute.funds_reinstated"
  | "charge.dispute.closed" => .dispute
  | _ => .other

def fetchCheckoutSession : Handler StripeCheckoutSession := do
  let sessionId ← eventObject d "Stripe Checkout event has no object identifier"
  fetchObject d (d.provider.retrieveCheckoutSession sessionId) StripeCheckoutSession.id sessionId
    "Stripe Checkout response identifier did not match the event"

def isSubscriptionSession (session : StripeCheckoutSession) : Bool :=
  session.metadata.lookup "billing_kind" = some "subscription"

def handleCheckoutPaid : Handler Unit := do
  let session ← fetchCheckoutSession d
  if isSubscriptionSession session then processSubscriptionCheckoutEvent stripe d session
  else processCheckoutEvent stripe d session

def handleCheckoutFailed : Handler Unit := do
  let session ← fetchCheckoutSession d
  if isSubscriptionSession session then processSubscriptionCheckoutFailure d session
  else processCheckoutFailureEvent d session

def handleSubscription : Handler Unit := do
  let subscriptionId ← eventObject d "Stripe subscription event has no object identifier"
  let subscription ← fetchObject d (d.provider.retrieveSubscription subscriptionId)
    StripeSubscription.id subscriptionId
    "Stripe subscription response identifier did not match the event"
  reconcileSubscription stripe d subscription

def handleRefund : Handler Unit := do
  let refundId ← eventObject d "Stripe refund event has no object identifier"
  let refund ← fetchObject d (d.provider.retrieveRefund refundId) StripeRefund.id refundId
    "Stripe refund response identifier did not match the event"
  processRefund d refund

def handleDispute : Handler Unit := do
  let disputeId ← eventObject d "Stripe dispute event has no object identifier"
  let dispute ← fetchObject d (d.provider.retrieveDispute disputeId) StripeDispute.id disputeId
    "Stripe dispute response identifier did not match the event"
  processDispute stripe d dispute

def dispatch : Handler Unit :=
  match eventKind d.event.eventType with
  | .checkoutPaid => handleCheckoutPaid stripe d
  | .checkoutFailed => handleCheckoutFailed d
  | .subscription => handleSubscription stripe d
  | .refund => handleRefund d
  | .dispute => handleDispute stripe d
  | .other => ignoreDelivery d

/-- Dispatch an event of the configured environment unless it is already finished. -/
def dispatchPending : Handler Unit := do
  let finished ← Script.transaction (eventAlreadyFinished d.event.id)
  if finished then pure () else dispatch stripe d

/-- The endpoint after the signature check. -/
def handleStripeWebhook : Handler Unit := do
  Script.ofExcept (validateEventEnvelope d.event)
  Script.transaction (registerEvent d.event d.now)
  if d.event.livemode = stripe.livemode then dispatchPending stripe d
  else
    rejectDelivery d "wrong_environment"
      "Stripe webhook environment does not match billing configuration"

end

end Notary.Billing
