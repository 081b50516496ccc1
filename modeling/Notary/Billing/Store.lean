import Notary.Billing.Stripe
import Notary.Lib.Script

/-! The statements of the billing store and the checks between them. A webhook transaction may
commit and still answer with an error, so its reply is a value of its own; an error of the
transaction rolls it back. -/

namespace Notary.Billing
open Relational Platform

/-- The answer of a transaction that commits. -/
abbrev Reply := Except ApiError Unit

/-- Release arithmetic on `i64` wraps around. -/
def wrapI64 (x : ℤ) : ℤ := x.bmod (2 ^ 64)

/-- The insertion with which a purchase starts. A repeated idempotency key inserts nothing. -/
def insertPurchase (stripe : StripeClient) (freshId accountId idempotencyKey : String)
    (quantityGb now : ℤ) : Request Unit := do
  let existing ← TableRef.purchases.selectWhere fun p =>
    p.accountId = accountId ∧ p.clientIdempotencyKey = idempotencyKey
  match existing with
  | some _ => pure ()
  | none => TableRef.purchases.insert {
      id := freshId
      accountId := accountId
      clientIdempotencyKey := idempotencyKey
      state := .creating
      currency := "usd"
      unitAmountCents := centsPerGb
      quantityGb := quantityGb
      creditBytes := quantityGb * bytesPerGb
      expectedAmountCents := quantityGb * centsPerGb
      providerPriceId := stripe.creditPriceId
      providerCheckoutSessionId := none
      providerPaymentIntentId := none
      providerChargeId := none
      providerDisputeId := none
      providerCustomerId := none
      livemode := stripe.livemode
      amountPaidCents := 0
      amountRefundedCents := 0
      amountDisputedCents := 0
      createdAt := now
      updatedAt := now
      paidAt := none }

/-- The update with which `bind_checkout_session` ties a session to an unpaid purchase. -/
def bindCheckoutSession (purchaseId sessionId : String) (now : ℤ) : Request ℕ :=
  TableRef.purchases.update
    (fun p => p.id = purchaseId ∧ p.amountPaidCents = 0 ∧
      (p.state = .creating ∨ p.state = .checkoutOpen) ∧
      p.providerCheckoutSessionId.all fun s => s = sessionId)
    fun p => { p with
      state := .checkoutOpen
      providerCheckoutSessionId := some sessionId
      updatedAt := now }

/-- A redelivered event keeps its first registration. -/
def registerEvent (event : StripeEvent) (receivedAt : ℤ) : Request Unit := do
  let existing ← TableRef.events.selectByKey event.id
  match existing with
  | some _ => pure ()
  | none => TableRef.events.insert {
      id := event.id
      eventType := event.eventType
      objectId := event.objectId
      livemode := event.livemode
      providerCreatedAt := event.created
      receivedAt := receivedAt
      processedAt := none
      outcome := none
      errorCode := none }

def eventAlreadyFinished (eventId : String) : Request Bool := do
  let row ← TableRef.events.selectByKey eventId
  let row ← Tx.require row databaseError
  pure row.processedAt.isSome

/-- Fill the columns of an event that are still empty. -/
def finishEvent (eventId : String) (outcome : EventOutcome) (errorCode : Option String)
    (processedAt : ℤ) : Request Unit := do
  let _ ← TableRef.events.update (fun e => e.id = eventId) fun e =>
    { e with
      processedAt := e.processedAt.or (some processedAt)
      outcome := e.outcome.or (some outcome)
      errorCode := e.errorCode.or errorCode }

def rejectEvent (eventId errorCode : String) (processedAt : ℤ) : Request Unit :=
  finishEvent eventId .rejected (some errorCode) processedAt

def finishEventTransaction (eventId : String) (outcome : EventOutcome)
    (errorCode : Option String) (processedAt : ℤ) : Request Unit := do
  let _ ← TableRef.events.update (fun e => e.id = eventId ∧ e.processedAt = none) fun e =>
    { e with
      processedAt := some processedAt
      outcome := some outcome
      errorCode := errorCode }

def selectPurchaseForUpdate (purchaseId : String) : Request (Option BillingPurchase) :=
  TableRef.purchases.selectByKey purchaseId

def selectPurchaseByChargeForUpdate (chargeId : String) : Request (Option BillingPurchase) :=
  TableRef.purchases.selectWhere fun p => p.providerChargeId = some chargeId

/-- An active dispute of a purchase or of a subscription of the account. -/
def hasDispute (db : Database) (accountId : String) : Bool :=
  (db.purchases.rows.any fun p => p.accountId = accountId ∧ 0 < p.amountDisputedCents) ||
    db.subscriptionDisputes.rows.any fun d => d.accountId = accountId ∧ d.active

/-- The current subscription of the account; the partial unique index allows one. -/
def currentSubscription (db : Database) (accountId : String) : Option BillingSubscription :=
  db.subscriptions.rows.find? fun s => s.accountId = accountId ∧ s.status.current

/-- The statuses of a current subscription that put the account under review. -/
def subscriptionReview : SubscriptionStatus → Except ApiError Bool
  | .active | .trialing => .ok false
  | .pastDue | .paused | .unpaid | .incomplete => .ok true
  | .canceled | .incompleteExpired => .error (.internal "invalid subscription status")

/-- The plan and the review flag that a subscription determines. -/
def subscriptionState : Option BillingSubscription → Except ApiError (Plan × Bool)
  | none => .ok (.free, false)
  | some s =>
    match s.plan with
    | .free => .error (.internal "invalid subscription service plan")
    | plan => (subscriptionReview s.status).map fun review => (plan, review)

def reviewStatus (dispute subscriptionReview : Bool) : BillingStatus :=
  if dispute || subscriptionReview then .review else .active

def recomputeAccountBillingState (accountId : String) (updatedAt : ℤ) : Request Unit := do
  let dispute ← Tx.query fun db => hasDispute db accountId
  let subscription ← Tx.query fun db => currentSubscription db accountId
  let (plan, review) ← Tx.ofExcept (subscriptionState subscription)
  setAccountBillingState accountId plan (reviewStatus dispute review) updatedAt

def purchaseStateAfterAdjustment (paidCents refundedCents disputedCents : ℤ) : PurchaseState :=
  if 0 < disputedCents then .disputed
  else if 0 < paidCents ∧ refundedCents = paidCents then .refunded
  else .paid

def billingDependencyPending : ApiError :=
  .coded 503 "billing_event_dependency_pending"
    "A prerequisite Stripe event has not been processed yet"

structure PurchaseAdjustmentSpec where
  accountId : String
  purchaseId : String
  amountBytes : ℤ
  sourceKind : AdjustmentSource
  sourceReference : String
  idempotencyKey : String
  displayLabel : String
  createdAt : ℤ
  deriving DecidableEq

namespace PurchaseAdjustmentSpec

def toAdjustment (spec : PurchaseAdjustmentSpec) (id : String) : CreditAdjustment where
  id := id
  creditSubject := accountCreditSubject spec.accountId
  accountId := spec.accountId
  purchaseId := spec.purchaseId
  amountBytes := spec.amountBytes
  sourceKind := spec.sourceKind
  sourceReference := spec.sourceReference
  idempotencyKey := spec.idempotencyKey
  displayLabel := spec.displayLabel
  createdAt := spec.createdAt

/-- Refunds and disputes take credit away and reinstatements give it back. -/
def wellFormed (spec : PurchaseAdjustmentSpec) : Prop :=
  (if spec.sourceKind = .disputeReinstatement then 0 < spec.amountBytes
    else spec.amountBytes < 0) ∧
    octetsBetween 1 256 spec.sourceReference ∧ octetsBetween 1 256 spec.idempotencyKey ∧
    octetsBetween 1 120 spec.displayLabel
  deriving Decidable

/-- The columns that a replay must repeat. -/
def replays (spec : PurchaseAdjustmentSpec) (a : CreditAdjustment) : Prop :=
  a.purchaseId = spec.purchaseId ∧ a.amountBytes = spec.amountBytes ∧
    a.sourceKind = spec.sourceKind ∧ a.sourceReference = spec.sourceReference ∧
    a.idempotencyKey = spec.idempotencyKey ∧ a.displayLabel = spec.displayLabel ∧
    a.createdAt = spec.createdAt
  deriving Decidable

end PurchaseAdjustmentSpec

/-- A repeated payment refers to the session, payment and customer that fulfilled the
purchase. -/
def paymentReferencesMatch (session : StripeCheckoutSession) (purchase : BillingPurchase)
    (payment : CheckoutPayment) : Prop :=
  purchase.providerCheckoutSessionId = some session.id ∧
    purchase.providerPaymentIntentId = some payment.paymentIntentId ∧
    purchase.providerChargeId = some payment.chargeId ∧
    purchase.providerCustomerId.all fun c => payment.customerId = some c

instance (session : StripeCheckoutSession) (purchase : BillingPurchase)
    (payment : CheckoutPayment) : Decidable (paymentReferencesMatch session purchase payment) :=
  inferInstanceAs (Decidable (_ ∧ _))

def checkoutMismatch : String := "Stripe Checkout Session did not match the local purchase"

def failedSessionMatches (session : StripeCheckoutSession) (purchase : BillingPurchase) : Prop :=
  session.livemode = purchase.livemode ∧ session.mode = some "payment" ∧
    session.clientReferenceId = some purchase.id ∧
    session.metadata.lookup "schema_version" = some "1" ∧
    purchase.providerCheckoutSessionId.all fun s => s = session.id
  deriving Decidable

/-- The purchase that a payment intent names exists and waits for its payment. -/
def localPurchaseDependencyPending (intent : StripePaymentIntent) : Request Bool :=
  match intent.metadata.lookup "purchase_id" with
  | none => pure false
  | some purchaseId =>
    if validateInternalId purchaseId then
      Tx.query fun db =>
        db.purchases.rows.any fun p => p.id = purchaseId ∧ p.amountPaidCents = 0
    else pure false

def chargeMatches (event : StripeEvent) (charge : StripeCharge) (intent : StripePaymentIntent)
    (purchase : BillingPurchase) : Prop :=
  charge.livemode = event.livemode ∧ charge.currency = purchase.currency ∧
    charge.amount = purchase.amountPaidCents ∧
    charge.paymentIntent = purchase.providerPaymentIntentId ∧
    intent.id = purchase.providerPaymentIntentId.getD "" ∧
    intent.metadata.lookup "purchase_id" = some purchase.id

instance (event : StripeEvent) (charge : StripeCharge) (intent : StripePaymentIntent)
    (purchase : BillingPurchase) : Decidable (chargeMatches event charge intent purchase) :=
  inferInstanceAs (Decidable (_ ∧ _))

def refundValid (event : StripeEvent) (refund : StripeRefund) (charge : StripeCharge)
    (intent : StripePaymentIntent) (purchase : BillingPurchase) : Prop :=
  chargeMatches event charge intent purchase ∧
    refund.currency = purchase.currency ∧ 0 < refund.amount ∧
    refund.amount ≤ purchase.amountPaidCents ∧
    (refund.paymentIntent.all fun i => some i = purchase.providerPaymentIntentId) ∧
    purchase.amountRefundedCents ≤ charge.amountRefunded ∧
    wrapI64 (charge.amountRefunded + purchase.amountDisputedCents) ≤ purchase.amountPaidCents

instance (event : StripeEvent) (refund : StripeRefund) (charge : StripeCharge)
    (intent : StripePaymentIntent) (purchase : BillingPurchase) :
    Decidable (refundValid event refund charge intent purchase) :=
  inferInstanceAs (Decidable (_ ∧ _))

/-- An adjustment of a purchase is keyed by the event that causes it. -/
def eventAdjustment (event : StripeEvent) (purchase : BillingPurchase) (amountBytes : ℤ)
    (sourceKind : AdjustmentSource) (displayLabel : String) : PurchaseAdjustmentSpec where
  accountId := purchase.accountId
  purchaseId := purchase.id
  amountBytes := amountBytes
  sourceKind := sourceKind
  sourceReference := event.id
  idempotencyKey := "stripe-event:" ++ event.id
  displayLabel := displayLabel
  createdAt := event.created

/-- Whether the disputed money is with the bank after this event; other events of a dispute
say nothing about it. -/
def fundsWithdrawn (dispute : StripeDispute) (event : StripeEvent) : Option Bool :=
  if dispute.status = "won" then some false
  else if dispute.status = "lost" then some true
  else if event.eventType = "charge.dispute.funds_withdrawn" then some true
  else if event.eventType = "charge.dispute.funds_reinstated" then some false
  else none

def targetDisputedCents (dispute : StripeDispute) (withdrawn : Bool) : ℤ :=
  if withdrawn then dispute.amount else 0

def disputeValid (event : StripeEvent) (dispute : StripeDispute) (target : ℤ)
    (charge : StripeCharge) (intent : StripePaymentIntent) (purchase : BillingPurchase) : Prop :=
  chargeMatches event charge intent purchase ∧
    dispute.currency = purchase.currency ∧ 0 < dispute.amount ∧ 0 ≤ target ∧
    wrapI64 (purchase.amountRefundedCents + target) ≤ purchase.amountPaidCents ∧
    purchase.providerDisputeId.all fun i => i = dispute.id

instance (event : StripeEvent) (dispute : StripeDispute) (target : ℤ) (charge : StripeCharge)
    (intent : StripePaymentIntent) (purchase : BillingPurchase) :
    Decidable (disputeValid event dispute target charge intent purchase) :=
  inferInstanceAs (Decidable (_ ∧ _))

end Notary.Billing
