import Notary.Billing.PurchaseLedger

/-! What the transactions of the webhook endpoint do to the rows of the purchases, and which of
them finish an event as processed. -/

namespace Notary.Billing
open Relational Platform Table

/-- The event was processed, neither ignored nor rejected. -/
def Processed (db : Database) (eventId : String) : Prop :=
  ∃ e ∈ db.events, e.id = eventId ∧ e.outcome = some .processed
  deriving Decidable

/-- Purchases that have been paid for stay as they are. -/
def KeepsPaid (db db' : Database) : Prop :=
  ∀ p ∈ db.purchases, p.amountPaidCents ≠ 0 → p ∈ db'.purchases

section

variable {stripe : StripeClient} {log : EventLog} {eventId : String} {db db' : Database}
  {event : StripeEvent} {now : ℤ} {r : Reply}

theorem KeepsPaid.of_eq (h : db'.purchases = db.purchases) : KeepsPaid db db' :=
  fun _ hp _ => h ▸ hp

theorem KeepsPaid.of_update (ht : db.purchases.update q f = some t)
    (hq : ∀ p ∈ db.purchases, q p → p.amountPaidCents = 0) (h : db'.purchases = t) :
    KeepsPaid db db' := by
  intro p hp hpa
  rw [h]
  apply mem_update_of_not ht hp
  cases hs : q p with
  | false => rfl
  | true => exact absurd (hq p hp hs) hpa

theorem finishEvent_purchases {r : Unit × Database}
    (h : finishEvent eventId outcome errorCode now db = .ok r) :
    r.2.purchases = db.purchases := by
  obtain ⟨_, -, hr⟩ := finishEvent_ok h
  rw [hr]

theorem checkoutTransaction_keepsPaid
    (h : checkoutTransaction stripe freshId event session purchaseId now db = .ok (r, db')) :
    KeepsPaid db db' := by
  obtain hd | ⟨_, hp, hu, _, h⟩ := checkoutTransaction_ok h
  · exact .of_eq hd.purchases
  · obtain ⟨_, _, _, _, -, -, ht, hd⟩ := fulfilPurchase_ok h
    refine .of_update ht (fun q hq hse => ?_) hd.purchases
    rw [eq_of_key hq hp (of_decide_eq_true hse)]
    exact hu

theorem checkoutFailureTransaction_keepsPaid
    (h : checkoutFailureTransaction event session purchaseId now db = .ok (r, db')) :
    KeepsPaid db db' := by
  obtain ⟨_, hd, rfl | ⟨_, hp, hu, _, -, ht⟩⟩ := checkoutFailureTransaction_ok h
  · exact .of_eq hd.purchases
  · refine .of_update ht (fun q hq hs => ?_) hd.purchases
    rw [eq_of_key hq hp (of_decide_eq_true hs)]
    exact hu

theorem registerEvent_purchases {r : Unit × Database}
    (h : registerEvent event now db = .ok r) : r.2.purchases = db.purchases := by
  rcases registerEvent_ok h with ⟨-, hr⟩ | ⟨_, _, -, -, -, -, hr⟩ <;> rw [hr]

end

end Notary.Billing
