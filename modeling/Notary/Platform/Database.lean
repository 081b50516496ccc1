import Notary.Platform.Schema

/-! Rows of the billing tables, the platform database, and its statements.
A statement that violates a constraint fails the transaction it belongs to. -/

namespace Notary.Platform
open Relational Tx

inductive PurchaseState
  | creating | checkoutOpen | paid | failed | refunded | disputed
  deriving DecidableEq

/-- Two optional unique columns agree; `NULL` never does. -/
def sameUnique (a b : Option String) : Prop := a.isSome ∧ a = b
  deriving Decidable

/-- A row of `billing_purchases`. -/
structure BillingPurchase where
  id : String
  accountId : String
  clientIdempotencyKey : String
  state : PurchaseState
  currency : String
  unitAmountCents : ℤ
  quantityGb : ℤ
  creditBytes : ℤ
  expectedAmountCents : ℤ
  providerPriceId : String
  providerCheckoutSessionId : Option String
  providerPaymentIntentId : Option String
  providerChargeId : Option String
  providerDisputeId : Option String
  providerCustomerId : Option String
  livemode : Bool
  amountPaidCents : ℤ
  amountRefundedCents : ℤ
  amountDisputedCents : ℤ
  createdAt : ℤ
  updatedAt : ℤ
  paidAt : Option ℤ
  deriving DecidableEq

instance : Schema BillingPurchase where
  Key := String
  key := BillingPurchase.id
  Check p := octetsBetween 1 128 p.clientIdempotencyKey ∧ p.currency = "usd" ∧
    0 < p.unitAmountCents ∧ (1 ≤ p.quantityGb ∧ p.quantityGb ≤ 20) ∧
    p.creditBytes = 1000000000 * p.quantityGb ∧
    p.expectedAmountCents = p.unitAmountCents * p.quantityGb ∧
    octetsBetween 1 255 p.providerPriceId ∧
    0 ≤ p.amountPaidCents ∧ 0 ≤ p.amountRefundedCents ∧ 0 ≤ p.amountDisputedCents ∧
    p.amountRefundedCents ≤ p.amountPaidCents ∧ p.amountDisputedCents ≤ p.amountPaidCents ∧
    p.amountRefundedCents + p.amountDisputedCents ≤ p.amountPaidCents
  Clash p q :=
    (p.accountId = q.accountId ∧ p.clientIdempotencyKey = q.clientIdempotencyKey) ∨
    sameUnique p.providerCheckoutSessionId q.providerCheckoutSessionId ∨
    sameUnique p.providerPaymentIntentId q.providerPaymentIntentId ∨
    sameUnique p.providerChargeId q.providerChargeId ∨
    sameUnique p.providerDisputeId q.providerDisputeId

inductive SubscriptionStatus
  | trialing | active | pastDue | paused | unpaid | canceled | incomplete | incompleteExpired
  deriving DecidableEq

/-- The status column is outside `('canceled', 'incomplete_expired')`. -/
def SubscriptionStatus.current : SubscriptionStatus → Bool
  | canceled | incompleteExpired => false
  | _ => true

/-- A row of `billing_subscriptions`. -/
structure BillingSubscription where
  providerSubscriptionId : String
  accountId : String
  providerCustomerId : String
  providerPriceId : String
  plan : Plan
  status : SubscriptionStatus
  livemode : Bool
  currentPeriodEnd : Option ℤ
  cancelAtPeriodEnd : Bool
  createdAt : ℤ
  updatedAt : ℤ
  deriving DecidableEq

-- The clash is the partial unique index on the account of a current subscription.
instance : Schema BillingSubscription where
  Key := String
  key := BillingSubscription.providerSubscriptionId
  Check s := s.plan ≠ .free
  Clash s t := s.status.current ∧ t.status.current ∧ s.accountId = t.accountId

/-- A row of `billing_subscription_disputes`. -/
structure SubscriptionDispute where
  providerDisputeId : String
  providerSubscriptionId : String
  accountId : String
  providerChargeId : String
  amountCents : ℤ
  currency : String
  active : Bool
  livemode : Bool
  createdAt : ℤ
  updatedAt : ℤ
  deriving DecidableEq

instance : Schema SubscriptionDispute where
  Key := String
  key := SubscriptionDispute.providerDisputeId
  Check d := 0 < d.amountCents ∧ d.currency = "usd"
  Clash _ _ := False

inductive CheckoutState
  | creating | checkoutOpen | completed | expired
  deriving DecidableEq

/-- A row of `billing_subscription_checkouts`. -/
structure SubscriptionCheckout where
  id : String
  accountId : String
  clientIdempotencyKey : String
  targetPlan : Plan
  state : CheckoutState
  providerPriceId : String
  providerCheckoutSessionId : Option String
  providerCustomerId : Option String
  providerSubscriptionId : Option String
  livemode : Bool
  createdAt : ℤ
  updatedAt : ℤ
  deriving DecidableEq

instance : Schema SubscriptionCheckout where
  Key := String
  key := SubscriptionCheckout.id
  Check c := octetsBetween 1 128 c.clientIdempotencyKey ∧ c.targetPlan ≠ .free ∧
    octetsBetween 1 255 c.providerPriceId
  Clash c d :=
    (c.accountId = d.accountId ∧ c.clientIdempotencyKey = d.clientIdempotencyKey) ∨
    sameUnique c.providerCheckoutSessionId d.providerCheckoutSessionId

inductive EventOutcome
  | processed | ignored | rejected
  deriving DecidableEq

/-- A row of `stripe_webhook_events`. -/
structure StripeWebhookEvent where
  id : String
  eventType : String
  objectId : Option String
  livemode : Bool
  providerCreatedAt : ℤ
  receivedAt : ℤ
  processedAt : Option ℤ
  outcome : Option EventOutcome
  errorCode : Option String
  deriving DecidableEq

instance : Schema StripeWebhookEvent where
  Key := String
  key := StripeWebhookEvent.id
  Check e := octetsBetween 1 120 e.eventType ∧
    (e.objectId.all fun o => octetsBetween 1 255 o) ∧
    (e.errorCode.all fun c => octetsBetween 1 120 c)
  Clash _ _ := False

/-- The tables the admission, credit and billing handlers read and write. -/
structure Database where
  tickets : Table AdmissionTicket := ∅
  operations : Table AdmittedOperation := ∅
  profiles : Table AccountBillingProfile := ∅
  grants : Table CreditGrant := ∅
  debits : Table CreditDebit := ∅
  allocations : Table CreditAllocation := ∅
  adjustments : Table CreditAdjustment := ∅
  purchases : Table BillingPurchase := ∅
  subscriptions : Table BillingSubscription := ∅
  subscriptionDisputes : Table SubscriptionDispute := ∅
  subscriptionCheckouts : Table SubscriptionCheckout := ∅
  events : Table StripeWebhookEvent := ∅

/-- A request runs as one transaction; an error rolls it back. -/
abbrev Request := Tx Database ApiError

/-- Access to one table of the database. -/
structure TableRef (ρ : Type) [Schema ρ] where
  get : Database → Table ρ
  set : Database → Table ρ → Database

namespace TableRef

abbrev tickets : TableRef AdmissionTicket := ⟨(·.tickets), fun db t => { db with tickets := t }⟩

abbrev operations : TableRef AdmittedOperation :=
  ⟨(·.operations), fun db t => { db with operations := t }⟩

abbrev profiles : TableRef AccountBillingProfile :=
  ⟨(·.profiles), fun db t => { db with profiles := t }⟩

abbrev grants : TableRef CreditGrant := ⟨(·.grants), fun db t => { db with grants := t }⟩

abbrev debits : TableRef CreditDebit := ⟨(·.debits), fun db t => { db with debits := t }⟩

abbrev allocations : TableRef CreditAllocation :=
  ⟨(·.allocations), fun db t => { db with allocations := t }⟩

abbrev adjustments : TableRef CreditAdjustment :=
  ⟨(·.adjustments), fun db t => { db with adjustments := t }⟩

abbrev purchases : TableRef BillingPurchase :=
  ⟨(·.purchases), fun db t => { db with purchases := t }⟩

abbrev subscriptions : TableRef BillingSubscription :=
  ⟨(·.subscriptions), fun db t => { db with subscriptions := t }⟩

abbrev subscriptionDisputes : TableRef SubscriptionDispute :=
  ⟨(·.subscriptionDisputes), fun db t => { db with subscriptionDisputes := t }⟩

abbrev subscriptionCheckouts : TableRef SubscriptionCheckout :=
  ⟨(·.subscriptionCheckouts), fun db t => { db with subscriptionCheckouts := t }⟩

abbrev events : TableRef StripeWebhookEvent := ⟨(·.events), fun db t => { db with events := t }⟩

variable {ρ : Type} [Schema ρ]

def selectByKey (ref : TableRef ρ) (k : Schema.Key ρ) : Request (Option ρ) :=
  Tx.query fun db => (ref.get db).find? k

def selectWhere (ref : TableRef ρ) (p : ρ → Bool) : Request (Option ρ) :=
  Tx.query fun db => (ref.get db).rows.find? p

def insert (ref : TableRef ρ) (r : ρ) : Request Unit :=
  Tx.write (fun db => ((ref.get db).insert r).map (ref.set db)) databaseError

def update (ref : TableRef ρ) (p : ρ → Bool) (f : ρ → ρ) : Request ℕ := do
  let affected ← Tx.query fun db => (ref.get db).count p
  Tx.write (fun db => ((ref.get db).update p f).map (ref.set db)) databaseError
  pure affected

variable {ref : TableRef ρ}

theorem selectByKey_ok :
    ref.selectByKey k db = .ok r ↔ (ref.get db).find? k = r.1 ∧ db = r.2 := by
  simp [selectByKey]

theorem selectWhere_ok :
    ref.selectWhere p db = .ok r ↔ (ref.get db).rows.find? p = r.1 ∧ db = r.2 := by
  simp [selectWhere]

theorem insert_ok :
    ref.insert x db = .ok r ↔ ∃ t, (ref.get db).insert x = some t ∧ ref.set db t = r.2 := by
  simp only [insert, write_ok, Option.map_eq_some_iff]

theorem update_ok :
    ref.update p f db = .ok r ↔ (ref.get db).count p = r.1 ∧
      ∃ t, (ref.get db).update p f = some t ∧ ref.set db t = r.2 := by
  obtain ⟨_, _⟩ := r
  simp only [update, bind_ok, query_ok, write_ok, pure_ok, Option.map_eq_some_iff]
  constructor
  · rintro ⟨_, _, ⟨rfl, rfl⟩, _, _, ⟨t, ht, rfl⟩, rfl, rfl⟩
    exact ⟨rfl, t, ht, rfl⟩
  · rintro ⟨rfl, t, ht, rfl⟩
    exact ⟨_, _, ⟨rfl, rfl⟩, (), _, ⟨t, ht, rfl⟩, rfl, rfl⟩

end TableRef

end Notary.Platform
