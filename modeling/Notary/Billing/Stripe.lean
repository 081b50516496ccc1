import Notary.Platform.Credits

/-! The payment provider's objects as the webhook handlers read them, the identifiers and
prices they are checked against, and the provider's answers to one request. -/

namespace Notary.Billing
open Platform

def bytesPerGb : ℤ := 1000000000

def centsPerGb : ℤ := 1000

def bytesPerCent : ℤ := bytesPerGb / centsPerGb

def stripeApiVersion : String := "2026-02-25.clover"

/-- A JSON object of strings; the first entry under a name counts. -/
abbrev Metadata := List (String × String)

/-- A reference that the provider may expand to the object itself. -/
inductive Expandable (α : Type)
  | id (id : String)
  | object (value : α)
  deriving DecidableEq

def Expandable.idOf {α : Type} (objectId : α → String) : Expandable α → String
  | id i => i
  | object value => objectId value

structure StripeReference where
  id : String
  deriving DecidableEq

structure StripeCharge where
  id : String
  amount : ℤ
  amountRefunded : ℤ
  currency : String
  livemode : Bool
  paymentIntent : Option String
  deriving DecidableEq

structure StripePaymentIntent where
  id : String
  amountReceived : ℤ
  currency : String
  latestCharge : Option (Expandable StripeCharge)
  metadata : Metadata
  deriving DecidableEq

structure StripeList (α : Type) where
  data : List α
  hasMore : Bool
  deriving DecidableEq

structure StripePrice where
  id : String
  deriving DecidableEq

structure StripeLineItem where
  amountTotal : ℤ
  currency : String
  quantity : Option ℤ
  price : Option StripePrice
  deriving DecidableEq

structure StripeCheckoutSession where
  id : String
  mode : Option String
  status : Option String
  livemode : Bool
  paymentStatus : String
  amountTotal : Option ℤ
  currency : Option String
  clientReferenceId : Option String
  metadata : Metadata
  paymentIntent : Option (Expandable StripePaymentIntent)
  subscription : Option (Expandable StripeReference)
  customer : Option (Expandable StripeReference)
  lineItems : Option (StripeList StripeLineItem)
  deriving DecidableEq

structure StripeRefund where
  id : String
  amount : ℤ
  currency : String
  status : Option String
  charge : Option String
  paymentIntent : Option String
  deriving DecidableEq

structure StripeDispute where
  id : String
  amount : ℤ
  currency : String
  charge : String
  status : String
  deriving DecidableEq

structure StripeSubscriptionItem where
  price : StripePrice
  quantity : Option ℤ
  currentPeriodEnd : Option ℤ
  deriving DecidableEq

structure StripeSubscription where
  id : String
  status : String
  livemode : Bool
  customer : Expandable StripeReference
  items : StripeList StripeSubscriptionItem
  metadata : Metadata
  cancelAtPeriodEnd : Bool
  deriving DecidableEq

structure StripeInvoiceParent where
  kind : String
  /-- The subscription of the subscription details, when there are any. -/
  subscription : Option (Expandable StripeReference)
  deriving DecidableEq

structure StripeInvoice where
  id : String
  livemode : Bool
  currency : String
  customer : Expandable StripeReference
  parent : Option StripeInvoiceParent
  deriving DecidableEq

structure StripeInvoicePayment where
  invoice : Expandable StripeReference
  livemode : Bool
  currency : String
  status : String
  paymentKind : String
  paymentIntent : Option (Expandable StripeReference)
  deriving DecidableEq

/-- A webhook event; `objectId` is the identifier of the object it is about. -/
structure StripeEvent where
  id : String
  apiVersion : Option String
  eventType : String
  livemode : Bool
  created : ℤ
  objectId : Option String
  deriving DecidableEq

/-- The provider's answers while one webhook is handled. A request that fails, times out or
returns an object that does not parse has no answer. -/
structure Provider where
  retrieveCheckoutSession : String → Option StripeCheckoutSession
  retrieveSubscription : String → Option StripeSubscription
  retrieveRefund : String → Option StripeRefund
  retrieveCharge : String → Option StripeCharge
  retrievePaymentIntent : String → Option StripePaymentIntent
  retrieveDispute : String → Option StripeDispute
  invoicePaymentForPaymentIntent : String → Option (Option StripeInvoicePayment)
  retrieveInvoice : String → Option StripeInvoice

/-- The configured environment and prices. -/
structure StripeClient where
  livemode : Bool
  creditPriceId : String
  oneGbPriceId : Option String
  tenGbPriceId : Option String
  deriving DecidableEq

def stripeApiError : ApiError :=
  .coded 502 "billing_provider_unavailable" "The payment provider is temporarily unavailable"

def stripeInvalid (message : String) : ApiError := .coded 502 "billing_provider_invalid" message

def stripeInvalidError : ApiError :=
  stripeInvalid "The payment provider returned an invalid response"

def StripeClient.subscriptionPriceId (stripe : StripeClient) : Plan → Option String
  | .oneGb => stripe.oneGbPriceId
  | .tenGb => stripe.tenGbPriceId
  | .free => none

def validateInternalId (value : String) : Bool :=
  0 < value.utf8ByteSize && value.utf8ByteSize ≤ 128 &&
    value.toList.all fun c => c.isAlphanum || c == '-' || c == '_'

def validateStripeId (value tag : String) : Bool :=
  value.startsWith tag && value.utf8ByteSize ≤ 255 &&
    value.toList.all fun c => c.isAlphanum || c == '_'

def validateEventEnvelope (event : StripeEvent) : Except ApiError Unit :=
  if validateStripeId event.id "evt_" then
    if event.apiVersion = some stripeApiVersion ∧ octetsBetween 1 120 event.eventType ∧
        0 ≤ event.created then .ok ()
    else .error (.badRequest "Stripe webhook event envelope is invalid")
  else .error (.badRequest "Stripe webhook event identifier is invalid")

structure CheckoutPayment where
  paymentIntentId : String
  chargeId : String
  customerId : Option String
  deriving DecidableEq

/-- A paid session agrees with the purchase in every field the local row determines. -/
def sessionMatches (stripe : StripeClient) (purchase : BillingPurchase)
    (session : StripeCheckoutSession) : Prop :=
  session.livemode = stripe.livemode ∧ session.mode = some "payment" ∧
    session.status = some "complete" ∧ session.paymentStatus = "paid" ∧
    session.amountTotal = some purchase.expectedAmountCents ∧
    session.currency = some purchase.currency ∧
    session.clientReferenceId = some purchase.id ∧
    session.metadata.lookup "purchase_id" = some purchase.id ∧
    session.metadata.lookup "schema_version" = some "1"
  deriving Decidable

def lineItemMatches (purchase : BillingPurchase) (item : StripeLineItem) : Prop :=
  item.amountTotal = purchase.expectedAmountCents ∧ item.currency = purchase.currency ∧
    item.quantity = some purchase.quantityGb ∧
    item.price.map StripePrice.id = some purchase.providerPriceId
  deriving Decidable

def validateLineItems (purchase : BillingPurchase) :
    Option (StripeList StripeLineItem) → Except String Unit
  | none => .error "Checkout Session line items were not expanded"
  | some ⟨[item], false⟩ =>
    if lineItemMatches purchase item then .ok ()
    else .error "Checkout Session line item differs from the local purchase"
  | some _ => .error "Checkout Session must contain exactly one line item"

def requireStripeId (value tag : String) : Except String Unit :=
  if validateStripeId value tag then .ok () else .error "invalid Stripe object identifier"

def validatePaymentIntent (purchase : BillingPurchase) :
    Option (Expandable StripePaymentIntent) → Except String (String × String)
  | some (.object intent) => do
    requireStripeId intent.id "pi_"
    if intent.amountReceived = purchase.expectedAmountCents ∧
        intent.currency = purchase.currency ∧
        intent.metadata.lookup "purchase_id" = some purchase.id then
      match intent.latestCharge with
      | none => .error "PaymentIntent has no latest charge"
      | some charge => do
        let chargeId := charge.idOf StripeCharge.id
        requireStripeId chargeId "ch_"
        .ok (intent.id, chargeId)
    else .error "PaymentIntent differs from the local purchase"
  | _ => .error "Checkout Session PaymentIntent was not expanded"

def validatePaidSession (stripe : StripeClient) (purchase : BillingPurchase)
    (session : StripeCheckoutSession) : Except String CheckoutPayment := do
  requireStripeId session.id "cs_"
  if sessionMatches stripe purchase session then
    validateLineItems purchase session.lineItems
    let (paymentIntentId, chargeId) ← validatePaymentIntent purchase session.paymentIntent
    let customerId := session.customer.map (Expandable.idOf StripeReference.id)
    match customerId with
    | none => .ok ⟨paymentIntentId, chargeId, none⟩
    | some customer => do
      requireStripeId customer "cus_"
      .ok ⟨paymentIntentId, chargeId, some customer⟩
  else .error "Checkout Session fields differ from the local purchase"

def subscriptionPrice (subscription : StripeSubscription) : Except ApiError String :=
  match subscription.items with
  | ⟨[item], false⟩ =>
    if item.quantity = some 1 then .ok item.price.id
    else .error (stripeInvalid "Stripe subscription quantity must be one")
  | _ => .error (stripeInvalid "Stripe subscription must contain exactly one item")

def planForPrice (stripe : StripeClient) (priceId : String) : Except ApiError Plan :=
  if stripe.oneGbPriceId = some priceId then .ok .oneGb
  else if stripe.tenGbPriceId = some priceId then .ok .tenGb
  else .error (stripeInvalid "Stripe subscription uses an unknown Price")

def parseSubscriptionStatus : String → Option SubscriptionStatus
  | "trialing" => some .trialing
  | "active" => some .active
  | "past_due" => some .pastDue
  | "paused" => some .paused
  | "unpaid" => some .unpaid
  | "canceled" => some .canceled
  | "incomplete" => some .incomplete
  | "incomplete_expired" => some .incompleteExpired
  | _ => none

def validateSubscription (stripe : StripeClient) (accountId : String) (plan : Plan)
    (customerId : String) (subscription : StripeSubscription) : Except ApiError Unit :=
  if validateStripeId subscription.id "sub_" && validateStripeId customerId "cus_" then
    if subscription.livemode = stripe.livemode ∧
        subscription.customer.idOf StripeReference.id = customerId ∧
        subscription.metadata.lookup "account_id" = some accountId ∧
        (parseSubscriptionStatus subscription.status).isSome then do
      let price ← subscriptionPrice subscription
      match stripe.subscriptionPriceId plan with
      | none => .error stripeInvalidError
      | some expected =>
        if price = expected then .ok ()
        else .error (stripeInvalid "Stripe subscription did not match the local plan")
    else .error (stripeInvalid "Stripe subscription did not match the local plan")
  else .error stripeInvalidError

end Notary.Billing
