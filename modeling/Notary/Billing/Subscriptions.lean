import Notary.Billing.Store

/-! The statements that store subscriptions, their disputes and their checkouts. -/

namespace Notary.Billing
open Relational Platform

/-- The row that a fetched subscription is stored as. -/
def subscriptionRow (accountId : String) (plan : Plan) (subscription : StripeSubscription)
    (priceId : String) (status : SubscriptionStatus) (now : ℤ) : BillingSubscription where
  providerSubscriptionId := subscription.id
  accountId := accountId
  providerCustomerId := subscription.customer.idOf StripeReference.id
  providerPriceId := priceId
  plan := plan
  status := status
  livemode := subscription.livemode
  currentPeriodEnd := subscription.items.data.head?.bind StripeSubscriptionItem.currentPeriodEnd
  cancelAtPeriodEnd := subscription.cancelAtPeriodEnd
  createdAt := now
  updatedAt := now

/-- Insert a subscription or overwrite the stored one of the same account; the number of
rows written is zero when the stored one belongs to another account. -/
def upsertSubscription (row : BillingSubscription) : Request ℕ := do
  let existing ← TableRef.subscriptions.selectByKey row.providerSubscriptionId
  match existing with
  | none => do
    TableRef.subscriptions.insert row
    pure 1
  | some _ =>
    TableRef.subscriptions.update
      (fun s => s.providerSubscriptionId = row.providerSubscriptionId ∧
        s.accountId = row.accountId)
      fun s => { row with createdAt := s.createdAt }

def disputeRow (event : StripeEvent) (dispute : StripeDispute) (subscriptionId accountId : String)
    (charge : StripeCharge) (active : Bool) (now : ℤ) : SubscriptionDispute where
  providerDisputeId := dispute.id
  providerSubscriptionId := subscriptionId
  accountId := accountId
  providerChargeId := charge.id
  amountCents := dispute.amount
  currency := dispute.currency
  active := active
  livemode := event.livemode
  createdAt := event.created
  updatedAt := now

/-- A stored dispute keeps the subscription, account, charge, amount and mode it was first
stored with. -/
def sameDispute (d e : SubscriptionDispute) : Prop :=
  d.providerSubscriptionId = e.providerSubscriptionId ∧ d.accountId = e.accountId ∧
    d.providerChargeId = e.providerChargeId ∧ d.amountCents = e.amountCents ∧
    d.currency = e.currency ∧ d.livemode = e.livemode
  deriving Decidable

def upsertSubscriptionDispute (row : SubscriptionDispute) : Request ℕ := do
  let existing ← TableRef.subscriptionDisputes.selectByKey row.providerDisputeId
  match existing with
  | none => do
    TableRef.subscriptionDisputes.insert row
    pure 1
  | some _ =>
    TableRef.subscriptionDisputes.update
      (fun d => d.providerDisputeId = row.providerDisputeId ∧ sameDispute d row)
      fun d => { d with active := row.active, updatedAt := row.updatedAt }

def selectSubscriptionAccount (subscriptionId : String) : Request (Option String) := do
  let row ← TableRef.subscriptions.selectByKey subscriptionId
  pure (row.map BillingSubscription.accountId)

def selectSubscriptionCheckout (checkoutId : String) : Request (Option SubscriptionCheckout) :=
  TableRef.subscriptionCheckouts.selectByKey checkoutId

def completeSubscriptionCheckout (checkoutId customerId subscriptionId : String) (now : ℤ) :
    Request Unit := do
  let _ ← TableRef.subscriptionCheckouts.update
    (fun c => c.id = checkoutId ∧ c.state = .checkoutOpen) fun c =>
    { c with
      state := .completed
      providerCustomerId := some customerId
      providerSubscriptionId := some subscriptionId
      updatedAt := now }

def expireSubscriptionCheckout (checkoutId sessionId : String) (now : ℤ) : Request Unit := do
  let _ ← TableRef.subscriptionCheckouts.update
    (fun c => c.id = checkoutId ∧ c.providerCheckoutSessionId = some sessionId ∧
      c.state = .checkoutOpen) fun c =>
    { c with state := .expired, updatedAt := now }

end Notary.Billing
