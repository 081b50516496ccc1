import Notary.Billing.Effects
import Notary.Lib.Transition

/-! Billing transactions of one account under `READ COMMITTED`. The stored plan and review flag
follow the committed tables as long as no transaction commits between the first query with
which another one recomputes the account and the commit of that one. -/

namespace Notary.Billing
open Relational Platform Transition Tx TableRef

/-- The transactions of the webhook endpoint. -/
inductive WebhookTransaction
  | checkout (stripe : StripeClient) (freshId : String) (event : StripeEvent)
      (session : StripeCheckoutSession) (purchaseId : String) (now : ℤ)
  | checkoutFailure (event : StripeEvent) (session : StripeCheckoutSession) (purchaseId : String)
      (now : ℤ)
  | refund (freshId : String) (event : StripeEvent) (refund : StripeRefund)
      (charge : StripeCharge) (intent : StripePaymentIntent) (now : ℤ)
  | dispute (freshId : String) (event : StripeEvent) (dispute : StripeDispute) (target : ℤ)
      (charge : StripeCharge) (intent : StripePaymentIntent) (now : ℤ)
  | storeSubscription (accountId : String) (plan : Plan) (subscription : StripeSubscription)
      (now : ℤ)
  | subscriptionDispute (event : StripeEvent) (row : SubscriptionDispute) (now : ℤ)
  | register (event : StripeEvent) (now : ℤ)
  | finish (eventId : String) (outcome : EventOutcome) (errorCode : Option String) (now : ℤ)
  | completeCheckout (checkoutId customerId subscriptionId : String) (now : ℤ)
  | expireCheckout (checkoutId sessionId : String) (now : ℤ)

/-- A transaction of one statement. -/
def single (x : Request Unit) (row : RowLock) : Statements Outcome := do
  .exec x fun _ => [row]
  pure (.reply (.ok ()))

def WebhookTransaction.statements : WebhookTransaction → Statements Outcome
  | checkout stripe freshId event session purchaseId now =>
    checkoutStatements freshId event now stripe session purchaseId
  | checkoutFailure event session purchaseId now =>
    checkoutFailureStatements event now session purchaseId
  | refund freshId event object charge intent now =>
    refundStatements freshId event now object charge intent
  | dispute freshId event object target charge intent now =>
    disputeStatements freshId event now object target charge intent
  | storeSubscription accountId plan subscription now =>
    storeSubscriptionStatements now accountId plan subscription
  | subscriptionDispute event row now => subscriptionDisputeStatements event now row
  | register event now => single (registerEvent event now) (.event event.id)
  | finish eventId outcome errorCode now =>
    single (finishEvent eventId outcome errorCode now) (.event eventId)
  | completeCheckout checkoutId customerId subscriptionId now =>
    single (completeSubscriptionCheckout checkoutId customerId subscriptionId now)
      (.checkout checkoutId)
  | expireCheckout checkoutId sessionId now =>
    single (expireSubscriptionCheckout checkoutId sessionId now) (.checkout checkoutId)

/-- Where a transaction stands. The two queries and the write of the recomputation are
statements of their own. -/
inductive Stage
  | working (p : Statements Outcome)
  | recomputing (now : ℤ) (eventId : Option String)
  | disputesRead (now : ℤ) (eventId : Option String) (dispute : Bool)
  | subscriptionRead (now : ℤ) (eventId : Option String) (dispute : Bool)
      (subscription : Option BillingSubscription)
  | finishing (recomputed : Bool) (p : Statements Reply)

def Stage.selected : Stage → Bool
  | working _ | recomputing _ _ => false
  | disputesRead _ _ _ | subscriptionRead _ _ _ _ => true
  | finishing recomputed _ => recomputed

structure Session where
  state : Uncommitted Database RowLock
  stage : Stage

section

variable (accountId : String)

/-- The next statement of a transaction of the account; a statement that fails has no result. -/
def Session.advance (db : Database) (s : Session) : Option Session :=
  match s.stage with
  | .working (.done (.reply r)) => some ⟨s.state, .finishing false (.done r)⟩
  | .working (.done (.recompute account now eventId)) =>
    if account = accountId then some ⟨s.state, .recomputing now eventId⟩ else none
  | .working (.fail _) => none
  | .working (.stmt x locks next) =>
    (s.state.execute db x locks).map fun r => ⟨r.2, .working (next r.1)⟩
  | .recomputing now eventId =>
    let query : Request Bool := Tx.query fun v => hasDispute v accountId
    (s.state.execute db query fun _ => []).map fun r => ⟨r.2, .disputesRead now eventId r.1⟩
  | .disputesRead now eventId dispute =>
    let query : Request (Option BillingSubscription) :=
      Tx.query fun v => currentSubscription v accountId
    (s.state.execute db query fun _ => []).map fun r =>
      ⟨r.2, .subscriptionRead now eventId dispute r.1⟩
  | .subscriptionRead now eventId dispute subscription =>
    match subscriptionState subscription with
    | .error _ => none
    | .ok (plan, review) =>
      (s.state.execute db (setAccountBillingState accountId plan (reviewStatus dispute review) now)
        fun _ => [.profile accountId]).map fun r =>
          ⟨r.2, .finishing true (finishProcessed now eventId)⟩
  | .finishing recomputed (.stmt x locks next) =>
    (s.state.execute db x locks).map fun r => ⟨r.2, .finishing recomputed (next r.1)⟩
  | .finishing _ _ => none

end

structure World where
  committed : Database
  sessions : List (ℕ × Session)

inductive BillingAct
  | start (id : ℕ) (t : WebhookTransaction)
  | advance (id : ℕ)
  | commit (id : ℕ)
  | abort (id : ℕ)

namespace World

def session? (w : World) (id : ℕ) : Option Session :=
  (w.sessions.find? fun e => e.1 = id).map Prod.snd

/-- A statement waits while it would lock a row that another transaction has locked. -/
def advance (accountId : String) (w : World) (id : ℕ) : Option World :=
  match (w.session? id).bind (Session.advance accountId w.committed) with
  | none => none
  | some s =>
    if ∀ e ∈ w.sessions, e.1 ≠ id → s.state.Compatible e.2.state then
      some ⟨w.committed, w.sessions.map fun e => if e.1 = id then (id, s) else e⟩
    else none

def without (w : World) (id : ℕ) : List (ℕ × Session) := w.sessions.filter fun e => e.1 ≠ id

def commit (w : World) (id : ℕ) : Option World :=
  match w.session? id with
  | some ⟨t, .finishing _ (.done _)⟩ => (t.own w.committed).map fun db => ⟨db, w.without id⟩
  | _ => none

def act (accountId : String) (w : World) : BillingAct → Option World
  | .start id t =>
    if (w.session? id).isNone then
      some ⟨w.committed, (id, ⟨.begin, .working t.statements⟩) :: w.sessions⟩
    else none
  | .advance id => w.advance accountId id
  | .commit id => w.commit id
  | .abort id => some ⟨w.committed, w.without id⟩

end World

/-- The plan and status that are stored for the account; an account without a profile has the
default ones. -/
def storedBillingState (db : Database) (accountId : String) : Plan × BillingStatus :=
  match db.profiles.find? accountId with
  | none => (.free, .active)
  | some profile => (profile.plan, profile.billingStatus)

/-- The stored state is the one that the tables determine. -/
structure Agrees (accountId : String) (db : Database) : Prop where
  status : (storedBillingState db accountId).2 = .review ↔ hasDispute db accountId ∨
    ∃ s, currentSubscription db accountId = some s ∧ subscriptionReview s.status = .ok true
  plan : (storedBillingState db accountId).1 =
    ((currentSubscription db accountId).map BillingSubscription.plan).getD .free

/-- Transactions of one account from tables that agree with its stored state, with acts that
are allowed. -/
def accountRuns (accountId : String) (Allowed : World → BillingAct → Prop) : System World where
  Init w := Agrees accountId w.committed ∧ w.sessions = []
  Step w w' := ∃ a, Allowed w a ∧ w.act accountId a = some w'

/-- A commit leaves no other transaction between its first query and its own commit. -/
def Undisturbed (w : World) (a : BillingAct) : Prop :=
  ∀ id, a = .commit id → ∀ e ∈ w.sessions, e.1 ≠ id → e.2.stage.selected = false

instance (w : World) (a : BillingAct) : Decidable (Undisturbed w a) :=
  match a with
  | .commit id =>
    decidable_of_iff (∀ e ∈ w.sessions, e.1 ≠ id → e.2.stage.selected = false)
      ⟨fun h _ heq => by cases heq; exact h, fun h => h id rfl⟩
  | .start _ _ | .advance _ | .abort _ => isTrue fun _ heq => nomatch heq

section

variable {accountId : String} {α : Type} {db db' : Database}

/-- Nothing that the recomputation of the account reads or writes has changed. -/
structure Untouched (accountId : String) (db db' : Database) : Prop where
  dispute : hasDispute db' accountId = hasDispute db accountId
  subscription : currentSubscription db' accountId = currentSubscription db accountId
  profiles : db'.profiles = db.profiles

theorem Untouched.refl (db : Database) : Untouched accountId db db := ⟨rfl, rfl, rfl⟩

theorem Untouched.trans (h : Untouched accountId a b) (k : Untouched accountId b c) :
    Untouched accountId a c :=
  ⟨k.dispute.trans h.dispute, k.subscription.trans h.subscription, k.profiles.trans h.profiles⟩

theorem Agrees.untouched (h : Agrees accountId db) (hu : Untouched accountId db db') :
    Agrees accountId db' := by
  have hs : storedBillingState db' accountId = storedBillingState db accountId := by
    rw [storedBillingState, hu.profiles, storedBillingState]
  constructor
  · rw [hs, hu.dispute, hu.subscription]
    exact h.status
  · rw [hs, hu.subscription]
    exact h.plan

/-- Every run of the statement leaves the account's state and its sources as they are. -/
def Keeps (accountId : String) (x : Request α) : Prop :=
  ∀ db a db', x db = .ok (a, db') → Untouched accountId db db'

inductive Quiet (accountId : String) : Statements α → Prop
  | done (a : α) : Quiet accountId (.done a)
  | fail (e : ApiError) : Quiet accountId (.fail e)
  | stmt {β : Type} {x : Request β} {locks : β → List RowLock} {next : β → Statements α}
      (hx : Keeps accountId x) (hnext : ∀ b, Quiet accountId (next b)) :
      Quiet accountId (.stmt x locks next)

/-- The transaction ends by recomputing an account, or it fails. -/
inductive Due : Statements Outcome → Prop
  | recompute (account : String) (now : ℤ) (eventId : Option String) :
      Due (.done (.recompute account now eventId))
  | fail (e : ApiError) : Due (.fail e)
  | stmt {β : Type} {x : Request β} {locks : β → List RowLock} {next : β → Statements Outcome}
      (hnext : ∀ b, Due (next b)) : Due (.stmt x locks next)

/-- From here on a transaction that touches the sources of the account recomputes one. -/
inductive Calm (accountId : String) : Statements Outcome → Prop
  | due {p : Statements Outcome} (h : Due p) : Calm accountId p
  | reply (r : Reply) : Calm accountId (.done (.reply r))
  | stmt {β : Type} {x : Request β} {locks : β → List RowLock} {next : β → Statements Outcome}
      (hx : ∀ db b db', x db = .ok (b, db') → Keeps accountId x ∨ locks b = [] ∨ Due (next b))
      (hnext : ∀ b, Calm accountId (next b)) : Calm accountId (.stmt x locks next)

theorem due_bind (p : Statements α) {f : α → Statements Outcome} (hf : ∀ a, Due (f a)) :
    Due (p >>= f) := by
  change Due (p.bind f)
  induction p with
  | done a => exact hf a
  | fail e => exact .fail e
  | stmt _ _ _ ih => exact .stmt ih

theorem Quiet.calm_bind {f : α → Statements Outcome} (hp : Quiet accountId p)
    (hf : ∀ a, Calm accountId (f a)) : Calm accountId (p >>= f) := by
  change Calm accountId (p.bind f)
  induction hp with
  | done a => exact hf a
  | fail e => exact .due (.fail e)
  | stmt hx _ ih => exact .stmt (fun _ _ _ _ => .inl hx) ih

theorem Quiet.bind {β : Type} {f : α → Statements β} (hp : Quiet accountId p)
    (hf : ∀ a, Quiet accountId (f a)) : Quiet accountId (p >>= f) := by
  change Quiet accountId (p.bind f)
  induction hp with
  | done a => exact hf a
  | fail e => exact .fail e
  | stmt hx _ ih => exact .stmt hx ih

theorem quiet_exec {x : Request α} (hx : Keeps accountId x) (locks : α → List RowLock) :
    Quiet accountId (Program.exec x locks) := .stmt hx fun b => .done b

theorem keeps_of_readOnly {x : Request α} (hx : x.ReadOnly) : Keeps accountId x := by
  intro db _ _ h
  rw [← hx h]
  exact .refl db

theorem quiet_require (o : Option α) (e : ApiError) :
    Quiet accountId (Program.require o e : Statements α) := by
  cases o with
  | none => exact .fail e
  | some a => exact .done a

theorem finishEventTransaction_keeps (eventId : String) (outcome : EventOutcome)
    (errorCode : Option String) (now : ℤ) :
    Keeps accountId (finishEventTransaction eventId outcome errorCode now) := by
  intro _ _ db' h
  obtain ⟨t, -, (rfl : db' = _)⟩ := finishEventTransaction_ok h
  exact ⟨rfl, rfl, rfl⟩

variable (event : StripeEvent)

theorem endEvent_calm (now : ℤ) (outcome : EventOutcome)
    (errorCode : Option String) (reply : Reply) :
    Calm accountId (endEvent event now outcome errorCode reply) :=
  (quiet_exec (finishEventTransaction_keeps _ _ _ _) _).calm_bind fun _ => .reply reply

theorem finishProcessed_quiet (now : ℤ) (eventId : Option String) :
    Quiet accountId (finishProcessed now eventId) := by
  cases eventId with
  | none => exact .done _
  | some => exact (quiet_exec (finishEventTransaction_keeps _ _ _ _) _).bind fun _ => .done _

theorem completeEvent_due (now : ℤ) (account : String) :
    Due (completeEvent event now account) := .recompute _ _ _

theorem selectByKey_readOnly {ρ : Type} [Schema ρ] (ref : TableRef ρ) (k : Schema.Key ρ) :
    (ref.selectByKey k).ReadOnly := readOnly_query _

theorem selectWhere_readOnly {ρ : Type} [Schema ρ] (ref : TableRef ρ) (p : ρ → Bool) :
    (ref.selectWhere p).ReadOnly := readOnly_query _

theorem whenPending_calm {body : Statements Outcome}
    (hb : Calm accountId body) : Calm accountId (whenPending event body) := by
  have hl : Quiet accountId (lockPendingEvent event) :=
    (quiet_exec (keeps_of_readOnly (selectByKey_readOnly _ _)) _).bind fun row =>
      (quiet_require row _).bind fun _ => .done _
  apply hl.calm_bind
  intro pending
  cases pending with
  | true => exact hb
  | false => exact .reply _

theorem lockPurchase_calm (hx : x.ReadOnly) {f : Option BillingPurchase → Statements Outcome}
    (hf : ∀ p, Calm accountId (f p)) :
    Calm accountId (lockPurchase x >>= f) :=
  (quiet_exec (keeps_of_readOnly hx) _).calm_bind hf

theorem missingPurchase_calm (now : ℤ) (intent : StripePaymentIntent) :
    Calm accountId (missingPurchase event now intent) := by
  have hr : (localPurchaseDependencyPending intent).ReadOnly :=
    localPurchaseDependencyPending_readOnly intent
  apply (quiet_exec (keeps_of_readOnly hr) _).calm_bind
  intro pending
  cases pending with
  | true => exact .due (.fail _)
  | false => exact endEvent_calm _ _ _ _ _

theorem checkoutStatements_calm (freshId : String) (event : StripeEvent) (now : ℤ)
    (stripe : StripeClient) (session : StripeCheckoutSession) (purchaseId : String) :
    Calm accountId (checkoutStatements freshId event now stripe session purchaseId) := by
  apply whenPending_calm
  apply lockPurchase_calm (selectByKey_readOnly _ _)
  intro found
  cases found with
  | none => exact endEvent_calm _ _ _ _ _
  | some =>
    simp only [checkoutPurchase]
    split
    · exact endEvent_calm _ _ _ _ _
    · unfold acceptPayment
      split_ifs
      · exact .due (due_bind _ fun _ => due_bind _ fun _ => completeEvent_due _ _ _)
      · exact .due (completeEvent_due _ _ _)
      · exact endEvent_calm _ _ _ _ _

theorem failUpdate_keeps (session : StripeCheckoutSession) (purchaseId : String) (now : ℤ) :
    Keeps accountId (TableRef.purchases.update (fun p => p.id = purchaseId) fun p =>
      { p with
        state := .failed
        providerCheckoutSessionId := some session.id
        updatedAt := now }) := by
  intro _ _ _ h
  obtain ⟨-, _, ht, rfl⟩ := update_ok.mp h
  refine ⟨?_, rfl, rfl⟩
  simp only [hasDispute, Table.rows_of_update ht, List.any_map]
  congr 2
  funext p
  simp only [Function.comp_apply]
  split <;> rfl

theorem checkoutFailureStatements_calm (now : ℤ)
    (session : StripeCheckoutSession) (purchaseId : String) :
    Calm accountId (checkoutFailureStatements event now session purchaseId) := by
  apply whenPending_calm
  apply lockPurchase_calm (selectByKey_readOnly _ _)
  intro found
  cases found with
  | none => exact endEvent_calm _ _ _ _ _
  | some purchase =>
    simp only [failCheckout]
    split
    · have hf : Quiet accountId (failPurchase now session purchase) := by
        unfold failPurchase
        split
        · exact (quiet_exec (failUpdate_keeps session purchase.id now) _).bind fun _ => .done _
        · exact .done _
      exact hf.calm_bind fun _ => endEvent_calm _ _ _ _ _
    · exact endEvent_calm _ _ _ _ _

/-- The statements of an event about a charge. -/
theorem chargeStatements_calm {event : StripeEvent}
    (hn : body none = missingPurchase event now intent)
    (hs : ∀ p, Calm accountId (body (some p))) :
    Calm accountId (whenPending event
      (lockPurchase (selectPurchaseByChargeForUpdate chargeId) >>= body)) := by
  apply whenPending_calm
  apply lockPurchase_calm (selectWhere_readOnly _ _)
  intro found
  cases found with
  | none =>
    rw [hn]
    exact missingPurchase_calm event now intent
  | some purchase => exact hs purchase

theorem refundStatements_calm (freshId : String) (event : StripeEvent) (now : ℤ)
    (refund : StripeRefund) (charge : StripeCharge) (intent : StripePaymentIntent) :
    Calm accountId (refundStatements freshId event now refund charge intent) := by
  refine chargeStatements_calm rfl fun purchase => ?_
  simp only [refundPurchase]
  split
  · exact .due (due_bind _ fun _ => due_bind _ fun _ => completeEvent_due _ _ _)
  · exact endEvent_calm _ _ _ _ _

theorem disputeStatements_calm (freshId : String) (event : StripeEvent) (now : ℤ)
    (dispute : StripeDispute) (target : ℤ) (charge : StripeCharge) (intent : StripePaymentIntent) :
    Calm accountId (disputeStatements freshId event now dispute target charge intent) := by
  refine chargeStatements_calm rfl fun purchase => ?_
  simp only [disputePurchase]
  split
  · exact .due (due_bind _ fun _ => due_bind _ fun _ => completeEvent_due _ _ _)
  · exact endEvent_calm _ _ _ _ _

theorem storeSubscriptionStatements_due (now : ℤ) (account : String) (plan : Plan)
    (subscription : StripeSubscription) :
    Due (storeSubscriptionStatements now account plan subscription) :=
  due_bind _ fun _ => due_bind _ fun _ => due_bind _ fun _ => due_bind _ fun _ =>
    .recompute _ _ _

theorem upsertSubscriptionDispute_count (h : upsertSubscriptionDispute row db = .ok (n, db')) :
    n ≤ 1 := by
  simp only [upsertSubscriptionDispute, bind_ok, selectByKey_ok] at h
  obtain ⟨existing, _, ⟨-, rfl⟩, h⟩ := h
  cases existing with
  | none =>
    simp only [bind_ok, pure_ok] at h
    obtain ⟨_, _, -, rfl, -⟩ := h
    exact le_rfl
  | some =>
    obtain ⟨hc, -⟩ := update_ok.mp h
    rw [← show _ = n from hc]
    apply Table.count_le_one row.providerDisputeId
    intro _ hd
    exact (of_decide_eq_true hd).1

theorem subscriptionDisputeStatements_calm (now : ℤ)
    (row : SubscriptionDispute) : Calm accountId (subscriptionDisputeStatements event now row) := by
  apply whenPending_calm
  have hf : ∀ n, Calm accountId (finishSubscriptionDispute event now row.accountId n) := by
    intro _
    unfold finishSubscriptionDispute
    split
    · exact .due (completeEvent_due _ _ _)
    · exact endEvent_calm _ _ _ _ _
  -- One stored row leads to the recomputation, and no stored row leaves no write.
  refine .stmt (fun db n db' h => .inr ?_) hf
  have hc := upsertSubscriptionDispute_count h
  rcases Nat.le_one_iff_eq_zero_or_eq_one.mp hc with rfl | rfl
  · exact .inl rfl
  · exact .inr (completeEvent_due _ _ _)

theorem single_calm (hx : Keeps accountId x) (row : RowLock) :
    Calm accountId (single x row) :=
  (quiet_exec hx _).calm_bind fun _ => .reply _

theorem registerEvent_keeps (now : ℤ) : Keeps accountId (registerEvent event now) := by
  intro db _ db' h
  rcases registerEvent_ok h with ⟨-, (rfl : db' = db)⟩ | ⟨_, t, -, -, -, -, (rfl : db' = _)⟩
  · exact .refl db'
  · exact ⟨rfl, rfl, rfl⟩

theorem finishEvent_keeps (eventId : String) (outcome : EventOutcome) (errorCode : Option String)
    (now : ℤ) : Keeps accountId (finishEvent eventId outcome errorCode now) := by
  intro _ _ db' h
  obtain ⟨t, -, (rfl : db' = _)⟩ := finishEvent_ok h
  exact ⟨rfl, rfl, rfl⟩

theorem completeSubscriptionCheckout_keeps (checkoutId customerId subscriptionId : String)
    (now : ℤ) :
    Keeps accountId (completeSubscriptionCheckout checkoutId customerId subscriptionId now) := by
  intro _ _ db' h
  obtain ⟨t, (rfl : db' = _)⟩ := completeSubscriptionCheckout_ok h
  exact ⟨rfl, rfl, rfl⟩

theorem expireSubscriptionCheckout_keeps (checkoutId sessionId : String) (now : ℤ) :
    Keeps accountId (expireSubscriptionCheckout checkoutId sessionId now) := by
  intro _ _ db' h
  obtain ⟨t, (rfl : db' = _)⟩ := expireSubscriptionCheckout_ok h
  exact ⟨rfl, rfl, rfl⟩

/-- Every transaction of the endpoint recomputes an account after it touches its sources. -/
theorem WebhookTransaction.calm (t : WebhookTransaction) : Calm accountId t.statements := by
  cases t with
  | checkout => exact checkoutStatements_calm _ _ _ _ _ _
  | checkoutFailure => exact checkoutFailureStatements_calm _ _ _ _
  | refund => exact refundStatements_calm _ _ _ _ _ _
  | dispute => exact disputeStatements_calm _ _ _ _ _ _ _
  | storeSubscription => exact .due (storeSubscriptionStatements_due _ _ _ _)
  | subscriptionDispute => exact subscriptionDisputeStatements_calm _ _ _
  | register => exact single_calm (registerEvent_keeps _ _) _
  | finish => exact single_calm (finishEvent_keeps _ _ _ _) _
  | completeCheckout => exact single_calm (completeSubscriptionCheckout_keeps _ _ _ _) _
  | expireCheckout => exact single_calm (expireSubscriptionCheckout_keeps _ _ _) _

end

end Notary.Billing
