import Notary.Billing.PurchaseInvariant
import Notary.Lib.Transition

/-! Runs of the billing endpoints, and the law that every purchase obeys in each state they
reach. -/

namespace Notary.Billing
open Relational Platform Transition List Option Script Tx Table TableRef

/-- The provider's events. A redelivery is the same event again. -/
structure EventLog where
  event : String → StripeEvent
  id_event : ∀ id, (event id).id = id

/-- The requests that reach the purchase tables: a customer starts a purchase, a session is
bound to it, or the provider delivers an event, in any order and any number of times. -/
inductive BillingAction
  | purchase (freshId accountId idempotencyKey : String) (quantityGb now : ℤ)
  | bind (purchaseId sessionId : String) (now : ℤ)
  | deliver (eventId : String) (provider : Provider) (now : ℤ) (freshId : String)

section

variable (stripe : StripeClient) (log : EventLog)

def BillingAction.run (db : Database) : BillingAction → Database
  | purchase freshId accountId idempotencyKey quantityGb now =>
    (insertPurchase stripe freshId accountId idempotencyKey quantityGb now).exec db
  | bind purchaseId sessionId now => (bindCheckoutSession purchaseId sessionId now).exec db
  | deliver eventId provider now freshId =>
    (handleStripeWebhook stripe ⟨log.event eventId, provider, now, freshId⟩).exec db

/-- Billing from an empty database. -/
def billing : System Database where
  Init db := db = {}
  Step db db' := ∃ a : BillingAction, db' = a.run stripe log db

/-- A terminal event has an outcome, and an error code when it is of another environment. -/
def EventInv (db : Database) : Prop :=
  ∀ r ∈ db.events, r.processedAt.isSome → r.outcome.isSome ∧
    ((log.event r.id).livemode ≠ stripe.livemode → r.errorCode.isSome)

end

section

variable {stripe : StripeClient} {log : EventLog} {d : Delivery} {db db' : Database}

theorem registerEvent_idle (h : registerEvent event now db = .ok r) : Idle event.id db r.2 := by
  rcases registerEvent_ok h with ⟨-, hr⟩ | ⟨_, _, hi, hn, -, ht, hr⟩
  · rw [hr]
    exact .refl event.id db
  · rw [hr]
    refine ⟨rfl, rfl, rfl, ?_, ?_⟩
    · rintro _ ⟨r, hm, hr⟩
      exact ⟨r, (mem_of_insert ht).mpr (.inl hm), hr⟩
    · intro _ hm
      rcases (mem_of_insert ht).mp hm with hm | rfl
      · exact .inl hm
      · exact .inr ⟨hi, by simp [hn]⟩

theorem handleStripeWebhook_changes (stripe : StripeClient) (d : Delivery) :
    Script.Respects d.Changes (handleStripeWebhook stripe d) :=
  (changes_commits stripe d).handleStripeWebhook
    (fun _ _ h => .single (.idle (registerEvent_idle h))) (changes_commits stripe d).dispatch

/-- An event of another environment is only ever rejected, with an error code. -/
def RejectsOnly (eventId : String) (db db' : Database) : Prop :=
  ∀ r ∈ db'.events, r ∈ db.events ∨
    r.id = eventId ∧ (r.processedAt.isSome → r.errorCode.isSome)

instance (eventId : String) : Std.Refl (RejectsOnly eventId) := ⟨fun _ _ h => .inl h⟩

instance (eventId : String) : IsTrans Database (RejectsOnly eventId) where
  trans a b c hab hbc r hr := by
    rcases hbc r hr with hr | hr
    · exact hab r hr
    · exact .inr hr

theorem handleStripeWebhook_rejects (h : d.event.livemode ≠ stripe.livemode) :
    Script.Respects (RejectsOnly d.event.id) (handleStripeWebhook stripe d) := by
  unfold handleStripeWebhook
  rw [if_neg h]
  apply respects_bind (respects_ofExcept _)
  intro _
  apply respects_bind
  · apply respects_transaction
    intro db _ db' hrg
    rcases registerEvent_ok hrg with ⟨-, hr⟩ | ⟨_, t, hi, hn, -, ht, hr⟩
    · rw [show db' = db from hr]
      exact refl_of (RejectsOnly d.event.id) db
    · rw [show db' = { db with events := t } from hr]
      intro _ hm
      rcases (mem_of_insert ht).mp hm with hm | rfl
      · exact .inl hm
      · exact .inr ⟨hi, by simp [hn]⟩
  · intro _
    apply respects_bind _ fun _ => respects_throw _
    apply respects_transaction
    intro _ _ db' hre
    obtain ⟨t, ht, (rfl : db' = _)⟩ := finishEvent_ok hre
    intro _ hm
    obtain ⟨e, he, rfl⟩ := (mem_of_update ht).mp hm
    split
    · rename_i hi
      refine .inr ⟨of_decide_eq_true hi, fun _ => ?_⟩
      cases e.errorCode <;> rfl
    · exact .inl he

theorem EventInv.deliver (inv : EventInv stripe log db) (hl : log.event d.event.id = d.event) :
    EventInv stripe log ((handleStripeWebhook stripe d).exec db) := by
  have ha := ((handleStripeWebhook_changes stripe d).exec db).events
  intro r hr hd
  rcases ha.old r hr with ho | ⟨hi, hou⟩
  · exact inv r ho hd
  · refine ⟨hou hd, fun hm => ?_⟩
    rw [hi, hl] at hm
    rcases (handleStripeWebhook_rejects hm).exec db r hr with ho | ⟨-, he⟩
    · exact (inv r ho hd).2 (by rwa [hi, hl])
    · exact he hd

theorem registerEvent_of_mem (he : e ∈ db.events) (hi : e.id = event.id) :
    registerEvent event now db = .ok ((), db) := by
  have hs : TableRef.events.selectByKey event.id db = .ok (some e, db) :=
    selectByKey_ok.mpr ⟨find?_eq_some.mpr ⟨he, hi⟩, rfl⟩
  rw [registerEvent, bind_of_ok hs]
  rfl

theorem eventAlreadyFinished_of_mem (he : e ∈ db.events) :
    eventAlreadyFinished e.id db = .ok (e.processedAt.isSome, db) := by
  have hs : TableRef.events.selectByKey e.id db = .ok (some e, db) :=
    selectByKey_ok.mpr ⟨find?_eq_some.mpr ⟨he, rfl⟩, rfl⟩
  rw [eventAlreadyFinished, bind_of_ok hs]
  rfl

/-- Rejecting an event whose columns are all filled changes nothing. -/
theorem rejectEvent_of_full (he : e ∈ db.events) (hd : e.processedAt.isSome)
    (hou : e.outcome.isSome) (her : e.errorCode.isSome) :
    rejectEvent e.id errorCode now db = .ok ((), db) := by
  have hf : ∀ r ∈ db.events, (decide (r.id = e.id) : Bool) →
      ({ r with
          processedAt := r.processedAt.or (some now)
          outcome := r.outcome.or (some .rejected)
          errorCode := r.errorCode.or (some errorCode) } : StripeWebhookEvent) = r := by
    intro r hr hi
    obtain rfl := eq_of_key hr he (of_decide_eq_true hi)
    obtain ⟨_, _⟩ := isSome_iff_exists.mp hd
    obtain ⟨_, _⟩ := isSome_iff_exists.mp hou
    obtain ⟨_, _⟩ := isSome_iff_exists.mp her
    cases r
    simp_all
  simp only [rejectEvent, finishEvent, bind_ok, update_ok, pure_ok]
  exact ⟨_, _, ⟨rfl, db.events, update_of_fixed hf, rfl⟩, trivial, rfl⟩

/-- A delivery of an event that is already terminal changes nothing. -/
theorem handleStripeWebhook_terminal (inv : EventInv stripe log db)
    (hl : log.event d.event.id = d.event) (hd : Finished db d.event.id) :
    (handleStripeWebhook stripe d).exec db = db := by
  obtain ⟨e, he, hi, ha⟩ := hd
  unfold handleStripeWebhook
  rw [exec_ofExcept_bind]
  cases validateEventEnvelope d.event with
  | error => rfl
  | ok =>
    simp only [exec_transaction_bind, registerEvent_of_mem he hi]
    split
    · have hf := eventAlreadyFinished_of_mem he
      rw [hi, ha] at hf
      simp only [dispatchPending, exec_transaction_bind, hf, if_true, exec_pure]
    · obtain ⟨ho, her⟩ := inv e he ha
      have her := her (by rwa [hi, hl])
      have hr := @rejectEvent_of_full db e "wrong_environment" d.now he ha ho her
      rw [hi] at hr
      simp only [rejectDelivery, exec_transaction_bind, hr, exec_throw]

def StartsPurchase (db db' : Database) : Prop :=
  ∃ p t, db.purchases.insert p = some t ∧ db' = { db with purchases := t } ∧
    p.unitAmountCents = centsPerGb ∧ p.providerPaymentIntentId = none ∧
    p.amountPaidCents = 0 ∧ p.amountRefundedCents = 0 ∧ p.amountDisputedCents = 0

theorem insertPurchase_ok (h : insertPurchase stripe freshId accountId key quantityGb now db =
      .ok (u, db')) : db' = db ∨ StartsPurchase db db' := by
  simp only [insertPurchase, bind_ok, selectWhere_ok] at h
  obtain ⟨existing, _, ⟨-, rfl⟩, h⟩ := h
  cases existing with
  | some => exact .inl (readOnly_pure _ h).symm
  | none =>
    obtain ⟨t, ht, hr⟩ := insert_ok.mp h
    exact .inr ⟨_, t, ht, hr.symm, rfl, rfl, rfl, rfl, rfl⟩

theorem bindCheckoutSession_idle (h : bindCheckoutSession purchaseId sessionId now db = .ok r) :
    Idle "" db r.2 := by
  obtain ⟨-, _, ht, hr⟩ := update_ok.mp h
  rw [← hr]
  exact .of_update ht fun _ => rfl

/-- What the provider answers to the requests for objects of one kind is among these. -/
def BillingAction.AnswersFrom {α : Type} (retrieve : Provider → String → Option α)
    (objects : String → Option α) : BillingAction → Prop
  | deliver _ provider _ _ => ∀ id x, retrieve provider id = some x → objects id = some x
  | _ => True

/-- A request starts an unpaid purchase, or changes the ledger as its event does. -/
theorem BillingAction.run_cases (a : BillingAction)
    (ha : a.AnswersFrom Provider.retrieveCharge charges) (db : Database) :
    (∃ eventId, Changes eventId charges db (a.run stripe log db)) ∨
      StartsPurchase db (a.run stripe log db) := by
  cases a with
  | purchase =>
    refine exec_inv (P := fun db' => (∃ eventId, Changes eventId charges db db') ∨
      StartsPurchase db db') (.inl ⟨"", .refl⟩) fun u db' h => ?_
    rcases insertPurchase_ok h with rfl | hs
    · exact .inl ⟨"", .refl⟩
    · exact .inr hs
  | bind =>
    refine .inl ⟨"", ?_⟩
    refine exec_inv (P := Changes "" charges db) .refl fun n db' h => ?_
    exact .single (.idle (bindCheckoutSession_idle h))
  | deliver eventId provider now freshId =>
    have hc := (handleStripeWebhook_changes stripe
      ⟨log.event eventId, provider, now, freshId⟩).exec db
    exact .inl ⟨_, hc.mono ha⟩

/-- What every change and every new purchase keep, a request keeps. -/
theorem BillingAction.run_rule {P : Database → Prop} {a : BillingAction}
    (ha : a.AnswersFrom Provider.retrieveCharge charges)
    (hc : ∀ eventId db db', P db → Change eventId charges db db' → P db')
    (hs : ∀ db', P db → StartsPurchase db db' → P db') (h : P db) : P (a.run stripe log db) := by
  rcases a.run_cases ha db with ⟨eventId, hch⟩ | hst
  · generalize a.run stripe log db = db' at hch ⊢
    induction hch with
    | refl => exact h
    | tail _ hst ih => exact hc eventId _ _ ih hst
  · exact hs _ h hst

theorem BillingAction.run_events (a : BillingAction) (he : EventInv stripe log db) :
    EventInv stripe log (a.run stripe log db) := by
  cases a with
  | purchase =>
    refine exec_inv he fun u db' h => ?_
    rcases insertPurchase_ok h with rfl | ⟨_, _, -, rfl, -⟩
    · exact he
    · exact he
  | bind =>
    refine exec_inv he fun n db' h => ?_
    obtain ⟨-, t, -, hr⟩ := update_ok.mp h
    rw [show db' = { db with purchases := t } from hr.symm]
    exact he
  | deliver =>
    apply he.deliver
    rw [log.id_event]

/-- Each request keeps the invariants, the grants and the payments. -/
theorem BillingAction.run_keeps (a : BillingAction) (hp : PurchaseInv db) :
    PurchaseInv (a.run stripe log db) ∧ PaymentsKept db (a.run stripe log db) := by
  obtain ⟨charges, ha⟩ : ∃ charges, a.AnswersFrom Provider.retrieveCharge charges := by
    cases a with
    | deliver _ provider => exact ⟨provider.retrieveCharge, fun _ _ h => h⟩
    | _ => exact ⟨fun _ => none, trivial⟩
  rcases a.run_cases ha db with
    ⟨_, hc⟩ | ⟨p, t, ht, hr, hu, hi, hpa, hre, hd⟩
  · exact ⟨hp.changes hc, .of_changes hc⟩
  · rw [hr]
    refine ⟨hp.start ht hu hi hpa hre hd, fun _ h => h, fun m hm _ => ?_⟩
    exact ⟨m, (mem_moneyRows_insert ht).mpr (.inl hm), rfl, rfl, rfl, rfl⟩

theorem inv_of_reachable (h : (billing stripe log).Reachable db) :
    PurchaseInv db ∧ EventInv stripe log db := by
  refine h.invariant (I := fun db => PurchaseInv db ∧ EventInv stripe log db) ?_ ?_
  · rintro _ rfl
    constructor
    · exact PurchaseInv.empty
    · intro _ hr
      simp at hr
  · rintro _ _ ⟨hp, he⟩ ⟨action, rfl⟩
    exact ⟨(action.run_keeps hp).1, action.run_events he⟩

theorem paymentsKept_of_run (h : (billing stripe log).Reachable db)
    (hr : (billing stripe log).Run db db') : PaymentsKept db db' := by
  refine h.stable hr (.refl db) ?_
  rintro _ _ ha hab ⟨action, rfl⟩
  exact hab.trans (action.run_keeps (inv_of_reachable ha).1).2

end

/-- The grants of purchased credit that belong to a purchase. -/
def grantsOf (db : Database) (p : BillingPurchase) : List CreditGrant :=
  db.grants.rows.filter fun g => BelongsTo g (money p)

/-- The credit a purchase accounts for: its grants and its adjustments. -/
def netCredit (db : Database) (p : BillingPurchase) : ℤ :=
  ((grantsOf db p).map CreditGrant.amountBytes).sum + adjustmentBytes db p.id

section

variable {stripe : StripeClient} {log : EventLog} {db db' : Database}

variable {p : BillingPurchase}

theorem mem_grantsOf :
    g ∈ grantsOf db p ↔ g ∈ db.grants ∧ BelongsTo g (money p) := by
  simp [grantsOf, Table.mem_def]

theorem eq_of_belongsTo (hg : g ∈ db.grants) (hk : k ∈ db.grants) (hgm : BelongsTo g m)
    (hkm : BelongsTo k m) : g = k := by
  have hr : g.sourceReference = k.sourceReference := some_inj.mp (hgm.2.2.symm.trans hkm.2.2)
  exact eq_of_clash hg hk ⟨hgm.2.1.trans hkm.2.1.symm, .inr ⟨hgm.1.trans hkm.1.symm, hr⟩⟩

theorem grantsOf_eq_singleton (hg : g ∈ grantsOf db p) : grantsOf db p = [g] := by
  have hn : (grantsOf db p).Nodup := (List.Nodup.of_map _ db.grants.valid.1).filter _
  have hal : ∀ k ∈ grantsOf db p, k = g := by
    intro _ hk
    obtain ⟨hkme, hkm⟩ := mem_grantsOf.mp hk
    obtain ⟨hgme, hgm⟩ := mem_grantsOf.mp hg
    exact eq_of_belongsTo hkme hgme hkm hgm
  cases hl : grantsOf db p with
  | nil => rw [hl] at hg; cases hg
  | cons a rest =>
    rw [hl] at hal hn
    have ha : a = g := hal a (by simp)
    cases rest with
    | nil => rw [ha]
    | cons b =>
      have hb : b = g := hal b (by simp)
      simp [ha, hb] at hn

theorem grantsOf_unpaid (inv : PurchaseInv db) (hp : p ∈ db.purchases)
    (hpa : p.amountPaidCents = 0) : grantsOf db p = [] := by
  rw [grantsOf, filter_eq_nil_iff]
  intro _ _ hg
  have hn := inv.unpaid (money p) (mem_moneyRows hp) hpa
  have hs := (of_decide_eq_true hg).2.2
  rw [hn] at hs
  cases hs

theorem grantsOf_paid (inv : PurchaseInv db) (hp : p ∈ db.purchases) (hpa : p.amountPaidCents ≠ 0) :
    ∃ g, grantsOf db p = [g] ∧ g.amountBytes = bytesPerGb * p.quantityGb := by
  obtain ⟨-, g, hg, hb⟩ := inv.paid (money p) (mem_moneyRows hp) hpa
  obtain ⟨m, hm, hgm, hby⟩ := inv.owned g hg hb.1
  have hmp : m = money p := eq_of_paymentIntentId hm (mem_moneyRows hp) hgm.2.2 hb.2.2
  exact ⟨g, grantsOf_eq_singleton (mem_grantsOf.mpr ⟨hg, hb⟩), by rw [hby, hmp]; rfl⟩

theorem netCredit_eq (inv : PurchaseInv db) (hp : p ∈ db.purchases) : netCredit db p =
      bytesPerCent * (p.amountPaidCents - p.amountRefundedCents - p.amountDisputedCents) := by
  have ha : adjustmentBytes db p.id =
      -bytesPerCent * (p.amountRefundedCents + p.amountDisputedCents) :=
    inv.adjusted (money p) (mem_moneyRows hp)
  unfold netCredit
  rw [ha]
  by_cases hpa : p.amountPaidCents = 0
  · rw [grantsOf_unpaid inv hp hpa, hpa]
    simp only [map_nil, sum_nil]
    ring
  · obtain ⟨_, hg, hb⟩ := grantsOf_paid inv hp hpa
    have hpr : p.amountPaidCents = centsPerGb * p.quantityGb := by
      have hf : p.amountPaidCents = p.unitAmountCents * p.quantityGb :=
        (inv.paid (money p) (mem_moneyRows hp) hpa).1
      have hu : p.unitAmountCents = centsPerGb := inv.unit (money p) (mem_moneyRows hp)
      rw [hf, hu]
    have hr : bytesPerGb = bytesPerCent * centsPerGb := by decide
    rw [hg]
    simp only [map_cons, map_nil, sum_cons, sum_nil, hb, hpr, hr]
    ring

/-- The law of purchased credit in one state, and along every later run. -/
structure PurchaseLaw (stripe : StripeClient) (log : EventLog) (db : Database) : Prop where
  /-- The credit of a purchase is granted at most once. -/
  granted : ∀ p ∈ db.purchases, (grantsOf db p).length ≤ 1
  /-- Purchased credit always belongs to a purchase. -/
  owned : ∀ g ∈ db.grants, g.sourceKind = .externalPurchase →
    ∃ p ∈ db.purchases, g ∈ grantsOf db p
  /-- What was granted is never replaced or granted again. -/
  final : ∀ db', (billing stripe log).Run db db' → ∀ p ∈ db.purchases, ∀ q ∈ db'.purchases,
    q.id = p.id → grantsOf db p ≠ [] → grantsOf db' q = grantsOf db p
  adjusted : ∀ p ∈ db.purchases, adjustmentBytes db p.id =
    -bytesPerCent * (p.amountRefundedCents + p.amountDisputedCents)
  net : ∀ p ∈ db.purchases, netCredit db p =
    bytesPerCent * (p.amountPaidCents - p.amountRefundedCents - p.amountDisputedCents)
  nonneg : ∀ p ∈ db.purchases, 0 ≤ netCredit db p
  terminal : ∀ eventId provider now freshId, Finished db eventId →
    (BillingAction.deliver eventId provider now freshId).run stripe log db = db

theorem grantsOf_final (h : (billing stripe log).Reachable db)
    (hr : (billing stripe log).Run db db') (hp : p ∈ db.purchases) (hq : q ∈ db'.purchases)
    (hid : q.id = p.id) (hne : grantsOf db p ≠ []) :
    grantsOf db' q = grantsOf db p := by
  have inv := (inv_of_reachable h).1
  have hk := paymentsKept_of_run h hr
  have hpa : p.amountPaidCents ≠ 0 := fun hz => hne (grantsOf_unpaid inv hp hz)
  obtain ⟨g, hg, -⟩ := grantsOf_paid inv hp hpa
  obtain ⟨hgm, hb⟩ := mem_grantsOf.mp (by rw [hg]; simp : g ∈ grantsOf db p)
  obtain ⟨n, hn, hni, ha, hi, -⟩ := hk.paid (money p) (mem_moneyRows hp) hpa
  have hnq : n = money q := eq_of_money_id hn (mem_moneyRows hq) (hni.trans hid.symm)
  rw [hnq] at ha hi
  rw [hg]
  apply grantsOf_eq_singleton
  rw [mem_grantsOf]
  refine ⟨hk.grants g hgm, hb.1, ?_, ?_⟩
  · rw [ha]
    exact hb.2.1
  · rw [hi]
    exact hb.2.2

/-- Every state of every run of purchases, sessions and webhook deliveries obeys the law. -/
theorem purchase_ledger (h : (billing stripe log).Reachable db) : PurchaseLaw stripe log db := by
  obtain ⟨inv, hev⟩ := inv_of_reachable h
  constructor
  case granted =>
    intro p hp
    by_cases hpaid : p.amountPaidCents = 0
    · simp [grantsOf_unpaid inv hp hpaid]
    · obtain ⟨_, hg, -⟩ := grantsOf_paid inv hp hpaid
      simp [hg]
  case owned =>
    intro g hg hkind
    obtain ⟨_, hm, hbelongs, -⟩ := inv.owned g hg hkind
    obtain ⟨p, hp, rfl⟩ := exists_of_mem_moneyRows hm
    exact ⟨p, hp, mem_grantsOf.mpr ⟨hg, hbelongs⟩⟩
  case final =>
    intro _ hrun _ hp _ hq hid hne
    exact grantsOf_final h hrun hp hq hid hne
  case adjusted => exact fun p hp => inv.adjusted (money p) (mem_moneyRows hp)
  case net => exact fun p hp => netCredit_eq inv hp
  case nonneg =>
    intro p hp
    rw [netCredit_eq inv hp]
    have hcheck : p.amountRefundedCents + p.amountDisputedCents ≤ p.amountPaidCents :=
      (Table.check hp).2.2.2.2.2.2.2.2.2.2.2.2
    have hrate : (0 : ℤ) ≤ bytesPerCent := by decide
    exact Int.mul_nonneg hrate (by omega)
  case terminal =>
    intro _ _ _ _ hdone
    apply handleStripeWebhook_terminal hev
    · simp only [log.id_event]
    · simpa only [log.id_event] using hdone

end

def runActions (stripe : StripeClient) (log : EventLog) (actions : List BillingAction) : Database :=
  actions.foldl (fun db a => a.run stripe log db) {}

theorem reachable_runActions (stripe : StripeClient) (log : EventLog)
    (actions : List BillingAction) :
    (billing stripe log).Reachable (runActions stripe log actions) :=
  List.foldlRecOn actions _ (.init rfl) fun _ h a _ => h.step ⟨a, rfl⟩

def sampleStripe : StripeClient := ⟨true, "price_credit", some "price_one", some "price_ten"⟩

/-- A payment, a refund and a dispute of one purchase. -/
def sampleLog : EventLog where
  event id :=
    { id := id
      apiVersion := some stripeApiVersion
      eventType :=
        if id = "evt_pay" then "checkout.session.completed"
        else if id = "evt_dispute" then "charge.dispute.funds_withdrawn"
        else "refund.updated"
      livemode := true
      created := 1000
      objectId :=
        if id = "evt_pay" then some "cs_1"
        else if id = "evt_dispute" then some "du_1"
        else some "re_1" }
  id_event _ := rfl

def sampleIntent : StripePaymentIntent where
  id := "pi_1"
  amountReceived := 2000
  currency := "usd"
  latestCharge := some (.id "ch_1")
  metadata := [("purchase_id", "purchase-1")]

/-- The provider's objects once this many cents are refunded. -/
def sampleProvider (status : String) (amountRefunded : ℤ) : Provider where
  retrieveCheckoutSession _ := some
    { id := "cs_1"
      mode := some "payment"
      status := some "complete"
      livemode := true
      paymentStatus := "paid"
      amountTotal := some 2000
      currency := some "usd"
      clientReferenceId := some "purchase-1"
      metadata := [("purchase_id", "purchase-1"), ("schema_version", "1")]
      paymentIntent := some (.object sampleIntent)
      subscription := none
      customer := some (.id "cus_1")
      lineItems := some ⟨[⟨2000, "usd", some 2, some ⟨"price_credit"⟩⟩], false⟩ }
  retrieveSubscription _ := none
  retrieveRefund _ := some ⟨"re_1", 500, "usd", some status, some "ch_1", some "pi_1"⟩
  retrieveCharge _ := some ⟨"ch_1", 2000, amountRefunded, "usd", true, some "pi_1"⟩
  retrievePaymentIntent _ := some sampleIntent
  retrieveDispute _ := some ⟨"du_1", 700, "usd", "ch_1", "needs_response"⟩
  invoicePaymentForPaymentIntent _ := some none
  retrieveInvoice _ := none

/-- A purchase is paid for, and its refund and its dispute arrive, the refund twice. -/
def sampleActions : List BillingAction :=
  [.purchase "purchase-1" "account-1" "key-1" 2 100,
    .deliver "evt_pay" (sampleProvider "pending" 0) 200 "grant-1",
    .deliver "evt_refund" (sampleProvider "succeeded" 500) 300 "adjustment-1",
    .deliver "evt_dispute" (sampleProvider "succeeded" 500) 400 "adjustment-2",
    .deliver "evt_refund" (sampleProvider "succeeded" 500) 500 "adjustment-3"]

theorem purchase_ledger_sample :
    ∃ db, (billing sampleStripe sampleLog).Reachable db ∧
      moneyRows db =
        [⟨"purchase-1", "account-1", 1000, 2, some "pi_1", some "ch_1", 2000, 500, 700⟩] ∧
      PurchaseLaw sampleStripe sampleLog db :=
  ⟨runActions sampleStripe sampleLog sampleActions, reachable_runActions _ _ _,
    by decide +kernel, purchase_ledger (reachable_runActions _ _ _)⟩

end Notary.Billing
