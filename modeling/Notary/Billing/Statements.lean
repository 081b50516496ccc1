import Notary.Billing.Subscriptions
import Notary.Lib.ReadCommitted

/-! The billing transactions, statement by statement up to the recomputation of an account, and
each as a whole. -/

namespace Notary.Billing
open Relational Platform

/-- A row that a statement locks until the end of its transaction. -/
inductive RowLock
  | event (id : String)
  | purchase (id : String)
  | subscription (id : String)
  | dispute (id : String)
  | profile (accountId : String)
  | grant (id : String)
  | adjustment (id : String)
  | checkout (id : String)
  deriving DecidableEq

abbrev Statements := Program Database ApiError RowLock

/-- How the first part of a transaction ends: with its reply, or before the account is
recomputed and the event, if there is one, is finished. -/
inductive Outcome
  | reply (reply : Reply)
  | recompute (accountId : String) (updatedAt : ℤ) (eventId : Option String)

/-- The statement after the account is recomputed. -/
def finishProcessed (now : ℤ) : Option String → Statements Reply
  | none => pure (.ok ())
  | some eventId => do
    .exec (finishEventTransaction eventId .processed none now) fun _ => [.event eventId]
    pure (.ok ())

def Outcome.finish : Outcome → Request Reply
  | .reply r => pure r
  | .recompute accountId updatedAt eventId => do
    recomputeAccountBillingState accountId updatedAt
    (finishProcessed updatedAt eventId).run

/-- The whole transaction when nothing comes between its statements. -/
def runStatements (p : Statements Outcome) : Request Reply := p.run >>= Outcome.finish

section

variable (freshId : String) (event : StripeEvent) (now : ℤ)

/-- Whether the event, now locked, is still to be processed. -/
def lockPendingEvent : Statements Bool := do
  let row ← .exec (TableRef.events.selectByKey event.id) fun e => e.toList.map (.event ·.id)
  let row ← .require row (.internal "billing event registration was not durable")
  pure row.processedAt.isNone

def endEvent (outcome : EventOutcome) (errorCode : Option String) (reply : Reply) :
    Statements Outcome := do
  .exec (finishEventTransaction event.id outcome errorCode now) fun _ => [.event event.id]
  pure (.reply reply)

def rejectEventWith (errorCode message : String) : Statements Outcome :=
  endEvent event now .rejected (some errorCode) (.error (.badRequest message))

def completeEvent (accountId : String) : Statements Outcome :=
  pure (.recompute accountId now (some event.id))

/-- Run the body for an event that is still pending, and do nothing otherwise. -/
def whenPending (body : Statements Outcome) : Statements Outcome := do
  let pending ← lockPendingEvent event
  if pending then body else pure (.reply (.ok ()))

def lockPurchase (x : Request (Option BillingPurchase)) : Statements (Option BillingPurchase) :=
  .exec x fun p => p.toList.map (.purchase ·.id)

def updatePurchase (purchaseId : String) (f : BillingPurchase → BillingPurchase) :
    Statements ℕ :=
  .exec (TableRef.purchases.update (fun p => p.id = purchaseId) f) fun n =>
    if n = 0 then [] else [.purchase purchaseId]

def grantStatements (spec : CreditGrantSpec) : Statements String := do
  .ensure spec.wellFormed (.internal "invalid server-authored credit grant")
  let existing ← .exec (TableRef.grants.selectWhere fun g =>
    g.creditSubject = spec.creditSubject ∧
      ((g.sourceKind = spec.sourceKind ∧ g.sourceReference = spec.sourceReference) ∨
        g.idempotencyKey = spec.idempotencyKey)) fun g => g.toList.map (.grant ·.id)
  match existing with
  | some g => do
    .ensure (g = spec.toGrant g.id) (.conflict
      "credit grant idempotency key was already used for different grant data")
    pure g.id
  | none => do
    .exec (TableRef.grants.insert (spec.toGrant freshId)) fun _ => [.grant freshId]
    pure freshId

/-- Insert an adjustment once, under the same rules as a grant. -/
def applyPurchaseAdjustment (spec : PurchaseAdjustmentSpec) : Statements String := do
  .ensure spec.wellFormed (.internal "invalid server-authored credit adjustment")
  let existing ← .exec (TableRef.adjustments.selectWhere fun a =>
    a.creditSubject = accountCreditSubject spec.accountId ∧
      ((a.sourceKind = spec.sourceKind ∧ a.sourceReference = spec.sourceReference) ∨
        a.idempotencyKey = spec.idempotencyKey)) fun a => a.toList.map (.adjustment ·.id)
  match existing with
  | some a => do
    .ensure (spec.replays a) (.conflict
      "credit adjustment idempotency key was already used for different data")
    pure a.id
  | none => do
    .exec (TableRef.adjustments.insert (spec.toAdjustment freshId)) fun _ => [.adjustment freshId]
    pure freshId

def centsToBytes (cents : ℤ) : Statements ℤ :=
  .require (bigint? (cents * bytesPerCent)) (.internal "billing credit adjustment overflow")

/-- Record the payment of a purchase that is still unpaid. -/
def fulfilPurchase (session : StripeCheckoutSession) (purchase : BillingPurchase)
    (payment : CheckoutPayment) : Statements Outcome := do
  let _ ← grantStatements freshId (externalPurchaseSpec purchase.accountId
    payment.paymentIntentId purchase.creditBytes event.created)
  let _ ← updatePurchase purchase.id fun p =>
    { p with
      state := .paid
      providerCheckoutSessionId := some session.id
      providerPaymentIntentId := some payment.paymentIntentId
      providerChargeId := some payment.chargeId
      providerCustomerId := payment.customerId
      amountPaidCents := p.expectedAmountCents
      paidAt := some event.created
      updatedAt := now }
  completeEvent event now purchase.accountId

def acceptPayment (session : StripeCheckoutSession) (purchase : BillingPurchase)
    (payment : CheckoutPayment) : Statements Outcome :=
  if purchase.amountPaidCents = 0 then
    fulfilPurchase freshId event now session purchase payment
  else if paymentReferencesMatch session purchase payment then
    completeEvent event now purchase.accountId
  else rejectEventWith event now "payment_reference_mismatch"
    "Stripe payment references did not match the fulfilled purchase"

def checkoutPurchase (stripe : StripeClient) (session : StripeCheckoutSession) :
    Option BillingPurchase → Statements Outcome
  | none => endEvent event now .ignored none (.ok ())
  | some purchase =>
    match validatePaidSession stripe purchase session with
    | .error _ => rejectEventWith event now "checkout_mismatch" checkoutMismatch
    | .ok payment => acceptPayment freshId event now session purchase payment

/-- The statements of `process_checkout_event`. -/
def checkoutStatements (stripe : StripeClient) (session : StripeCheckoutSession)
    (purchaseId : String) : Statements Outcome :=
  whenPending event do
    let purchase ← lockPurchase (selectPurchaseForUpdate purchaseId)
    checkoutPurchase freshId event now stripe session purchase

/-- An unpaid purchase fails; a paid one stays as it is. -/
def failPurchase (session : StripeCheckoutSession) (purchase : BillingPurchase) :
    Statements Unit :=
  if purchase.amountPaidCents = 0 then do
    let _ ← updatePurchase purchase.id fun p =>
      { p with
        state := .failed
        providerCheckoutSessionId := some session.id
        updatedAt := now }
  else pure ()

def failCheckout (session : StripeCheckoutSession) :
    Option BillingPurchase → Statements Outcome
  | none => endEvent event now .ignored none (.ok ())
  | some purchase =>
    if failedSessionMatches session purchase then do
      failPurchase now session purchase
      endEvent event now .processed none (.ok ())
    else rejectEventWith event now "checkout_mismatch" checkoutMismatch

/-- The statements of `process_checkout_failure_event`. -/
def checkoutFailureStatements (session : StripeCheckoutSession) (purchaseId : String) :
    Statements Outcome :=
  whenPending event do
    let purchase ← lockPurchase (selectPurchaseForUpdate purchaseId)
    failCheckout event now session purchase

/-- An event about a charge of no purchase is ignored, unless the purchase may still be paid. -/
def missingPurchase (intent : StripePaymentIntent) : Statements Outcome := do
  let pending ← .select (localPurchaseDependencyPending intent)
  if pending then .fail billingDependencyPending
  else endEvent event now .ignored none (.ok ())

def refundAdjustment (purchase : BillingPurchase) (deltaCents : ℤ) :
    Statements Unit :=
  if 0 < deltaCents then do
    let amountBytes ← centsToBytes deltaCents
    let _ ← applyPurchaseAdjustment freshId
      (eventAdjustment event purchase (-amountBytes) .purchaseRefund "Stripe purchase refund")
  else pure ()

def refundedRow (charge : StripeCharge) (purchase p : BillingPurchase) : BillingPurchase :=
  { p with
    amountRefundedCents := charge.amountRefunded
    state := purchaseStateAfterAdjustment purchase.amountPaidCents charge.amountRefunded
      purchase.amountDisputedCents
    updatedAt := now }

def recordRefund (charge : StripeCharge) (purchase : BillingPurchase) : Statements Outcome := do
  refundAdjustment freshId event purchase (charge.amountRefunded - purchase.amountRefundedCents)
  let _ ← updatePurchase purchase.id (refundedRow now charge purchase)
  completeEvent event now purchase.accountId

def refundPurchase (refund : StripeRefund) (charge : StripeCharge)
    (intent : StripePaymentIntent) : Option BillingPurchase → Statements Outcome
  | none => missingPurchase event now intent
  | some purchase =>
    if refundValid event refund charge intent purchase then
      recordRefund freshId event now charge purchase
    else rejectEventWith event now "refund_mismatch"
      "Stripe refund did not match the fulfilled purchase"

/-- The statements of `process_refund_event`. -/
def refundStatements (refund : StripeRefund) (charge : StripeCharge)
    (intent : StripePaymentIntent) : Statements Outcome :=
  whenPending event do
    let purchase ← lockPurchase (selectPurchaseByChargeForUpdate charge.id)
    refundPurchase freshId event now refund charge intent purchase

def disputeAdjustment (purchase : BillingPurchase) (deltaCents : ℤ) :
    Statements Unit :=
  if deltaCents = 0 then pure ()
  else do
    let amountBytes ← centsToBytes deltaCents.natAbs
    let _ ← applyPurchaseAdjustment freshId
      (if 0 < deltaCents then
        eventAdjustment event purchase (-amountBytes) .purchaseDispute "Stripe payment dispute"
      else
        eventAdjustment event purchase amountBytes .disputeReinstatement
          "Stripe dispute reinstatement")

def disputedRow (dispute : StripeDispute) (target : ℤ) (purchase p : BillingPurchase) :
    BillingPurchase :=
  { p with
    providerDisputeId := p.providerDisputeId.or (some dispute.id)
    amountDisputedCents := target
    state := purchaseStateAfterAdjustment purchase.amountPaidCents
      purchase.amountRefundedCents target
    updatedAt := now }

def recordDispute (dispute : StripeDispute) (target : ℤ) (purchase : BillingPurchase) :
    Statements Outcome := do
  disputeAdjustment freshId event purchase (target - purchase.amountDisputedCents)
  let _ ← updatePurchase purchase.id (disputedRow now dispute target purchase)
  completeEvent event now purchase.accountId

def disputePurchase (dispute : StripeDispute) (target : ℤ) (charge : StripeCharge)
    (intent : StripePaymentIntent) : Option BillingPurchase → Statements Outcome
  | none => missingPurchase event now intent
  | some purchase =>
    if disputeValid event dispute target charge intent purchase then
      recordDispute freshId event now dispute target purchase
    else rejectEventWith event now "dispute_mismatch"
      "Stripe dispute did not match the fulfilled purchase"

/-- The statements of `process_dispute_event`. -/
def disputeStatements (dispute : StripeDispute) (target : ℤ) (charge : StripeCharge)
    (intent : StripePaymentIntent) : Statements Outcome :=
  whenPending event do
    let purchase ← lockPurchase (selectPurchaseByChargeForUpdate charge.id)
    disputePurchase freshId event now dispute target charge intent purchase

/-- The statements of `store_subscription`. A status outside the column's values violates its
check. -/
def storeSubscriptionStatements (accountId : String) (plan : Plan)
    (subscription : StripeSubscription) : Statements Outcome := do
  let priceId ← .ofExcept (subscriptionPrice subscription)
  let status ← .require (parseSubscriptionStatus subscription.status) databaseError
  let stored ← .exec
    (upsertSubscription (subscriptionRow accountId plan subscription priceId status now))
    fun n => if n = 0 then [] else [.subscription subscription.id]
  .ensure (stored = 1) (.badRequest "Stripe subscription is already bound to another account")
  pure (.recompute accountId now none)

/-- Finish the event of a stored dispute, or refuse one that changed its binding. -/
def finishSubscriptionDispute (accountId : String) (stored : ℕ) : Statements Outcome :=
  if stored = 1 then completeEvent event now accountId
  else rejectEventWith event now "subscription_dispute_mismatch"
    "Stripe dispute changed its subscription binding"

/-- The statements of the second transaction of `process_subscription_dispute_event`. -/
def subscriptionDisputeStatements (row : SubscriptionDispute) : Statements Outcome :=
  whenPending event do
    let stored ← .exec (upsertSubscriptionDispute row) fun n =>
      if n = 0 then [] else [.dispute row.providerDisputeId]
    finishSubscriptionDispute event now row.accountId stored

end

section

variable (stripe : StripeClient) (freshId : String) (event : StripeEvent)

def checkoutTransaction (session : StripeCheckoutSession) (purchaseId : String) (now : ℤ) :
    Request Reply :=
  runStatements (checkoutStatements freshId event now stripe session purchaseId)

def checkoutFailureTransaction (session : StripeCheckoutSession) (purchaseId : String) (now : ℤ) :
    Request Reply :=
  runStatements (checkoutFailureStatements event now session purchaseId)

def refundTransaction (refund : StripeRefund) (charge : StripeCharge)
    (intent : StripePaymentIntent) (now : ℤ) : Request Reply :=
  runStatements (refundStatements freshId event now refund charge intent)

def disputeTransaction (dispute : StripeDispute) (target : ℤ) (charge : StripeCharge)
    (intent : StripePaymentIntent) (now : ℤ) : Request Reply :=
  runStatements (disputeStatements freshId event now dispute target charge intent)

def storeSubscription (accountId : String) (plan : Plan) (subscription : StripeSubscription)
    (now : ℤ) : Request Unit := do
  let _ ← runStatements (storeSubscriptionStatements now accountId plan subscription)

def subscriptionDisputeTransaction (row : SubscriptionDispute) (now : ℤ) : Request Reply :=
  runStatements (subscriptionDisputeStatements event now row)

end

end Notary.Billing
