import Notary.Billing.Deliveries

/-! The invariant of the purchase ledger: purchased credit has one grant for each paid
purchase, and the adjustments of a purchase follow its refunded and disputed cents. -/

namespace Notary.Billing
open Relational Platform List Table

def BelongsTo (g : CreditGrant) (m : Money) : Prop :=
  g.sourceKind = .externalPurchase ∧ g.creditSubject = accountCreditSubject m.accountId ∧
    m.paymentIntentId = some g.sourceReference
  deriving Decidable

/-- The bytes by which the adjustments of a purchase change its credit. -/
def adjustmentBytes (db : Database) (purchaseId : String) : ℤ :=
  ((db.adjustments.rows.filter fun a => a.purchaseId = purchaseId).map
    CreditAdjustment.amountBytes).sum

structure PurchaseInv (db : Database) : Prop where
  unit : ∀ m ∈ moneyRows db, m.unitAmountCents = centsPerGb
  unpaid : ∀ m ∈ moneyRows db, m.paidCents = 0 → m.paymentIntentId = none
  paid : ∀ m ∈ moneyRows db, m.paidCents ≠ 0 →
    m.paidCents = m.unitAmountCents * m.quantityGb ∧ ∃ g ∈ db.grants, BelongsTo g m
  owned : ∀ g ∈ db.grants, g.sourceKind = .externalPurchase →
    ∃ m ∈ moneyRows db, BelongsTo g m ∧ g.amountBytes = bytesPerGb * m.quantityGb
  adjusted : ∀ m ∈ moneyRows db,
    adjustmentBytes db m.id = -bytesPerCent * (m.refundedCents + m.disputedCents)
  traced : ∀ a ∈ db.adjustments,
    (∃ m ∈ moneyRows db, m.id = a.purchaseId) ∧ Finished db a.sourceReference

variable {db : Database} {m n : Money} {ref : String}

theorem exists_of_mem_moneyRows (h : m ∈ moneyRows db) :
    ∃ p ∈ db.purchases, money p = m := mem_map.mp h

theorem mem_moneyRows_insert (ht : db.purchases.insert p = some t) :
    m ∈ moneyRows { db with purchases := t } ↔ m ∈ moneyRows db ∨ m = money p := by
  simp [moneyRows, rows_of_insert ht]

theorem eq_of_money_id (hm : m ∈ moneyRows db) (hn : n ∈ moneyRows db) (hi : m.id = n.id) :
    m = n := by
  obtain ⟨_, hp, rfl⟩ := exists_of_mem_moneyRows hm
  obtain ⟨_, hq, rfl⟩ := exists_of_mem_moneyRows hn
  rw [eq_of_key hp hq hi]

theorem eq_of_paymentIntentId (hm : m ∈ moneyRows db) (hn : n ∈ moneyRows db)
    (hmr : m.paymentIntentId = some ref) (hnr : n.paymentIntentId = some ref) : m = n := by
  obtain ⟨p, hp, rfl⟩ := exists_of_mem_moneyRows hm
  obtain ⟨q, hq, rfl⟩ := exists_of_mem_moneyRows hn
  have hs : sameUnique p.providerPaymentIntentId q.providerPaymentIntentId :=
    ⟨by rw [show p.providerPaymentIntentId = some ref from hmr]; rfl, hmr.trans hnr.symm⟩
  rw [eq_of_clash hp hq (.inr (.inr (.inl hs)))]

theorem quantityGb_pos (hm : m ∈ moneyRows db) : 1 ≤ m.quantityGb := by
  obtain ⟨_, hp, rfl⟩ := exists_of_mem_moneyRows hm
  exact (Table.check hp).2.2.2.1.1

variable {db' : Database}

theorem adjustmentBytes_insert (h : db.adjustments.insert a = some db'.adjustments) (id : String) :
    adjustmentBytes db' id =
      adjustmentBytes db id + if a.purchaseId = id then a.amountBytes else 0 := by
  unfold adjustmentBytes
  rw [rows_of_insert h, filter_append, map_append, sum_append]
  by_cases hi : a.purchaseId = id <;> simp [hi]

theorem adjustmentBytes_congr (h : db'.adjustments = db.adjustments) (id : String) :
    adjustmentBytes db' id = adjustmentBytes db id := by
  rw [adjustmentBytes, h, adjustmentBytes]

namespace PurchaseInv

variable {eventId : String} {charges : String → Option StripeCharge} {db db' : Database}

theorem empty : PurchaseInv {} := by
  constructor <;> simp [moneyRows]

theorem idle (inv : PurchaseInv db) (h : Idle eventId db db') : PurchaseInv db' where
  unit := by rw [h.purchases]; exact inv.unit
  unpaid := by rw [h.purchases]; exact inv.unpaid
  paid := by rw [h.purchases, h.grants]; exact inv.paid
  owned := by rw [h.purchases, h.grants]; exact inv.owned
  adjusted m hm := by
    rw [h.purchases] at hm
    rw [adjustmentBytes_congr h.adjustments]
    exact inv.adjusted m hm
  traced a ha := by
    rw [h.adjustments] at ha
    rw [h.purchases]
    exact ⟨(inv.traced a ha).1, h.events.finished _ (inv.traced a ha).2⟩

/-- The rows after one of them is replaced: the new one, and the others as they were. -/
theorem mem_replace {g : Money → Money} (hm : m ∈ moneyRows db)
    (hr : moneyRows db' = (moneyRows db).map fun n => if n.id = m.id then g n else n) :
    n ∈ moneyRows db' ↔ n = g m ∨ n ∈ moneyRows db ∧ n.id ≠ m.id := by
  rw [hr, mem_map]
  constructor
  · rintro ⟨_, hk, rfl⟩
    split_ifs with hi
    · exact .inl (by rw [eq_of_money_id hk hm hi])
    · exact .inr ⟨hk, hi⟩
  · rintro (rfl | ⟨hn, hi⟩)
    · exact ⟨m, hm, if_pos rfl⟩
    · exact ⟨n, hn, if_neg hi⟩

section

variable (inv : PurchaseInv db)
include inv

/-- A payment always brings a new grant: one that was there belongs to another purchase,
which has the same payment. -/
theorem grant_is_new {spec : CreditGrantSpec} (hm : m ∈ moneyRows db) (hu : m.paidCents = 0)
    (hr : moneyRows db' = (moneyRows db).map fun n => if n.id = m.id then n.pay ref charge else n)
    (hk : spec.sourceKind = .externalPurchase) (hre : spec.sourceReference = ref) (i : String) :
    spec.toGrant i ∉ db.grants := by
  intro hme
  obtain ⟨n, hn, hb, -⟩ := inv.owned _ hme hk
  have hnr : n.paymentIntentId = some ref := hb.2.2.trans (congrArg some hre)
  by_cases hi : n.id = m.id
  · rw [eq_of_money_id hn hm hi, inv.unpaid m hm hu] at hnr
    cases hnr
  · have hn' : n ∈ moneyRows db' := (mem_replace hm hr).mpr (.inr ⟨hn, hi⟩)
    have hm' : m.pay ref charge ∈ moneyRows db' := (mem_replace hm hr).mpr (.inl rfl)
    have he := eq_of_paymentIntentId hn' hm' hnr rfl
    rw [he] at hi
    exact hi rfl

theorem pay (hm : m ∈ moneyRows db) (hu : m.paidCents = 0)
    (hr : moneyRows db' = (moneyRows db).map fun n => if n.id = m.id then n.pay ref charge else n)
    (hgr : db.grants.insert ((externalPurchaseSpec m.accountId ref (bytesPerGb * m.quantityGb)
      createdAt).toGrant i) = some db'.grants) (had : db'.adjustments = db.adjustments)
    (he : EventsAdvance eventId db db') : PurchaseInv db' where
  unit n hn := by
    rcases (mem_replace hm hr).mp hn with rfl | ⟨hn, -⟩
    · exact inv.unit m hm
    · exact inv.unit n hn
  unpaid n hn hz := by
    rcases (mem_replace hm hr).mp hn with rfl | ⟨hn, -⟩
    · have hq := quantityGb_pos hm
      have hp : m.unitAmountCents * m.quantityGb = 0 := hz
      rw [inv.unit m hm] at hp
      simp only [centsPerGb] at hp
      omega
    · exact inv.unpaid n hn hz
  paid n hn hne := by
    rcases (mem_replace hm hr).mp hn with rfl | ⟨hn, -⟩
    · exact ⟨rfl, _, (mem_of_insert hgr).mpr (.inr rfl), rfl, rfl, rfl⟩
    · obtain ⟨hp, g, hg, hb⟩ := inv.paid n hn hne
      exact ⟨hp, g, (mem_of_insert hgr).mpr (.inl hg), hb⟩
  owned g hg hk := by
    rcases (mem_of_insert hgr).mp hg with hg | rfl
    · obtain ⟨n, hn, hb, hby⟩ := inv.owned g hg hk
      refine ⟨n, (mem_replace hm hr).mpr (.inr ⟨hn, fun hi => ?_⟩), hb, hby⟩
      have hno := inv.unpaid m hm hu
      rw [← eq_of_money_id hn hm hi, hb.2.2] at hno
      cases hno
    · exact ⟨m.pay ref charge, (mem_replace hm hr).mpr (.inl rfl), ⟨rfl, rfl, rfl⟩, rfl⟩
  adjusted n hn := by
    rw [adjustmentBytes_congr had]
    rcases (mem_replace hm hr).mp hn with rfl | ⟨hn, -⟩
    · exact inv.adjusted m hm
    · exact inv.adjusted n hn
  traced a ha := by
    rw [had] at ha
    obtain ⟨⟨n, hn, hi⟩, hd⟩ := inv.traced a ha
    refine ⟨?_, he.finished _ hd⟩
    by_cases hnm : n.id = m.id
    · exact ⟨m.pay ref charge, (mem_replace hm hr).mpr (.inl rfl), hnm.symm.trans hi⟩
    · exact ⟨n, (mem_replace hm hr).mpr (.inr ⟨hn, hnm⟩), hi⟩

/-- The adjustments move by the difference of the totals, because an event that is still
pending has left no adjustment. -/
theorem adjustmentBytes_adjusted {id : String} (hp : ¬ Finished db eventId)
    (h : Adjusted db db' eventId id delta) (k : String) :
    adjustmentBytes db' k = adjustmentBytes db k + if id = k then -bytesPerCent * delta else 0 := by
  rcases h with ⟨hs, hz | ⟨a, ha, hr⟩⟩ | ⟨a, hi, hid, -, hb⟩
  · rw [adjustmentBytes_congr hs, hz]
    simp
  · exact absurd (hr ▸ (inv.traced a ha).2) hp
  · rw [adjustmentBytes_insert hi, hid, hb]

theorem adjust {refunded disputed : ℤ} (hm : m ∈ moneyRows db)
    (hp : ¬ Finished db eventId) (hd : Finished db' eventId) (hr : moneyRows db' =
      (moneyRows db).map fun n => if n.id = m.id then n.adjust refunded disputed else n)
    (hgr : db'.grants = db.grants) (had : Adjusted db db' eventId m.id
      (refunded + disputed - (m.refundedCents + m.disputedCents)))
    (he : EventsAdvance eventId db db') : PurchaseInv db' where
  unit n hn := by
    rcases (mem_replace hm hr).mp hn with rfl | ⟨hn, -⟩
    · exact inv.unit m hm
    · exact inv.unit n hn
  unpaid n hn := by
    rcases (mem_replace hm hr).mp hn with rfl | ⟨hn, -⟩
    · exact inv.unpaid m hm
    · exact inv.unpaid n hn
  paid n hn := by
    rw [hgr]
    rcases (mem_replace hm hr).mp hn with rfl | ⟨hn, -⟩
    · exact inv.paid m hm
    · exact inv.paid n hn
  owned g hg hki := by
    rw [hgr] at hg
    obtain ⟨n, hn, hb, hby⟩ := inv.owned g hg hki
    by_cases hi : n.id = m.id
    · obtain rfl := eq_of_money_id hn hm hi
      exact ⟨_, (mem_replace hm hr).mpr (.inl rfl), hb, hby⟩
    · exact ⟨n, (mem_replace hm hr).mpr (.inr ⟨hn, hi⟩), hb, hby⟩
  adjusted n hn := by
    rw [inv.adjustmentBytes_adjusted hp had]
    rcases (mem_replace hm hr).mp hn with rfl | ⟨hn, hi⟩
    · have ho := inv.adjusted m hm
      simp only [Money.adjust, if_true]
      rw [ho]
      ring
    · rw [if_neg (Ne.symm hi), add_zero]
      exact inv.adjusted n hn
  traced a ha := by
    have hro : ∀ k : Money, k ∈ moneyRows db → ∃ n ∈ moneyRows db', n.id = k.id := by
      intro k hk
      by_cases hi : k.id = m.id
      · exact ⟨_, (mem_replace hm hr).mpr (.inl rfl), hi.symm⟩
      · exact ⟨k, (mem_replace hm hr).mpr (.inr ⟨hk, hi⟩), rfl⟩
    have ho : a ∈ db.adjustments →
        (∃ n ∈ moneyRows db', n.id = a.purchaseId) ∧ Finished db' a.sourceReference := by
      intro ha
      obtain ⟨⟨k, hk, hi⟩, hf⟩ := inv.traced a ha
      obtain ⟨n, hn, hni⟩ := hro k hk
      exact ⟨⟨n, hn, hni.trans hi⟩, he.finished _ hf⟩
    rcases had with ⟨hs, -⟩ | ⟨_, hin, hi, hre, -⟩
    · exact ho (hs ▸ ha)
    · rcases (mem_of_insert hin).mp ha with ha | rfl
      · exact ho ha
      · rw [hi, hre]
        exact ⟨hro m hm, hd⟩

/-- Every change that a transaction of an event can make keeps the invariant. -/
theorem change (h : Change eventId charges db db') : PurchaseInv db' := by
  cases h with
  | idle h => exact inv.idle h
  | pay _ _ _ _ hm hu hr hgr ha he =>
    rcases hgr with ⟨-, i, hme⟩ | ⟨i, hi⟩
    · exact absurd hme (inv.grant_is_new hm hu hr rfl rfl i)
    · exact inv.pay hm hu hr hi ha he
  | adjust _ _ _ hm _ hp hd hr hg ha he => exact inv.adjust hm hp hd hr hg ha he

theorem changes (h : Changes eventId charges db db') : PurchaseInv db' := by
  induction h with
  | refl => exact inv
  | tail _ hs ih => exact ih.change hs

/-- A new purchase has paid nothing and is adjusted by nothing. -/
theorem start (ht : db.purchases.insert p = some t) (hu : p.unitAmountCents = centsPerGb)
    (hi : p.providerPaymentIntentId = none) (hp : p.amountPaidCents = 0)
    (hre : p.amountRefundedCents = 0) (hd : p.amountDisputedCents = 0) :
    PurchaseInv { db with purchases := t } := by
  have hr {m : Money} := mem_moneyRows_insert (m := m) ht
  have hf : ∀ m ∈ moneyRows db, m.id ≠ p.id := by
    intro m hm
    obtain ⟨_, hq, rfl⟩ := exists_of_mem_moneyRows hm
    exact fresh_of_insert ht hq
  constructor
  case unit =>
    intro m hm
    rcases hr.mp hm with hm | rfl
    · exact inv.unit m hm
    · exact hu
  case unpaid =>
    intro m hm hz
    rcases hr.mp hm with hm | rfl
    · exact inv.unpaid m hm hz
    · exact hi
  case paid =>
    intro m hm hne
    rcases hr.mp hm with hm | rfl
    · exact inv.paid m hm hne
    · exact absurd hp hne
  case owned =>
    intro g hg hk
    obtain ⟨m, hm, hb⟩ := inv.owned g hg hk
    exact ⟨m, hr.mpr (.inl hm), hb⟩
  case adjusted =>
    intro m hm
    rcases hr.mp hm with hm | rfl
    · exact inv.adjusted m hm
    · have hn : db.adjustments.rows.filter (fun a => a.purchaseId = p.id) = [] := by
        rw [filter_eq_nil_iff]
        intro a ha
        obtain ⟨⟨m, hm, hid⟩, -⟩ := inv.traced a ha
        simpa [← hid] using hf m hm
      simp [adjustmentBytes, money, hn, hre, hd]
  case traced =>
    intro a ha
    obtain ⟨⟨m, hm, hid⟩, hdo⟩ := inv.traced a ha
    exact ⟨⟨m, hr.mpr (.inl hm), hid⟩, hdo⟩

end

end PurchaseInv

/-- What a change can make of the money of a purchase: an unpaid one may be paid, and otherwise
the payment stays and the refunds are those of its charge. -/
def Succeeds (charges : String → Option StripeCharge) (m n : Money) : Prop :=
  n.id = m.id ∧ (m.paidCents = 0 ∧ n.refundedCents = m.refundedCents ∨
    (n.accountId = m.accountId ∧ n.paymentIntentId = m.paymentIntentId ∧
      n.chargeId = m.chargeId ∧ n.paidCents = m.paidCents) ∧
    RefundSource charges m n.refundedCents)

theorem Succeeds.refl (charges : String → Option StripeCharge) (m : Money) : Succeeds charges m m :=
  ⟨rfl, .inr ⟨⟨rfl, rfl, rfl, rfl⟩, .inl rfl⟩⟩

/-- A row is replaced by one that succeeds it, and the others stay. -/
theorem succeeds_replace {g : Money → Money} (hm : m ∈ moneyRows db) (hs : Succeeds charges m (g m))
    (hr : moneyRows db' = (moneyRows db).map fun n => if n.id = m.id then g n else n) :
    (∀ k ∈ moneyRows db, ∃ n ∈ moneyRows db', Succeeds charges k n) ∧
      ∀ n ∈ moneyRows db', ∃ k ∈ moneyRows db, Succeeds charges k n := by
  constructor
  · intro k hk
    by_cases hi : k.id = m.id
    · obtain rfl := eq_of_money_id hk hm hi
      exact ⟨_, (PurchaseInv.mem_replace hm hr).mpr (.inl rfl), hs⟩
    · exact ⟨k, (PurchaseInv.mem_replace hm hr).mpr (.inr ⟨hk, hi⟩), .refl charges k⟩
  · intro n hn
    rcases (PurchaseInv.mem_replace hm hr).mp hn with rfl | ⟨hn, -⟩
    · exact ⟨m, hm, hs⟩
    · exact ⟨n, hn, .refl charges n⟩

theorem Change.succeeds (h : Change eventId charges db db') :
    (∀ m ∈ moneyRows db, ∃ n ∈ moneyRows db', Succeeds charges m n) ∧
      ∀ n ∈ moneyRows db', ∃ m ∈ moneyRows db, Succeeds charges m n := by
  cases h with
  | idle h =>
    rw [h.purchases]
    exact ⟨fun m hm => ⟨m, hm, .refl charges m⟩, fun m hm => ⟨m, hm, .refl charges m⟩⟩
  | pay _ _ _ _ hm hu hr => exact succeeds_replace hm ⟨rfl, .inl ⟨hu, rfl⟩⟩ hr
  | adjust _ _ _ hm hs _ _ hr =>
    exact succeeds_replace hm ⟨rfl, .inr ⟨⟨rfl, rfl, rfl, rfl⟩, hs⟩⟩ hr

/-- Grants stay, and a paid purchase keeps its payment. -/
structure PaymentsKept (db db' : Database) : Prop where
  grants : ∀ g ∈ db.grants, g ∈ db'.grants
  paid : ∀ m ∈ moneyRows db, m.paidCents ≠ 0 → ∃ n ∈ moneyRows db', n.id = m.id ∧
    n.accountId = m.accountId ∧ n.paymentIntentId = m.paymentIntentId ∧ n.paidCents = m.paidCents

namespace PaymentsKept

variable {eventId : String} {charges : String → Option StripeCharge} {a b c : Database}

theorem refl (a : Database) : PaymentsKept a a :=
  ⟨fun _ h => h, fun m hm _ => ⟨m, hm, rfl, rfl, rfl, rfl⟩⟩

theorem trans (h : PaymentsKept a b) (k : PaymentsKept b c) : PaymentsKept a c where
  grants g hg := k.grants g (h.grants g hg)
  paid m hm hne := by
    obtain ⟨n, hn, hid, ha, hi, hp⟩ := h.paid m hm hne
    obtain ⟨o, ho, hid', ha', hi', hp'⟩ := k.paid n hn (hp ▸ hne)
    exact ⟨o, ho, hid'.trans hid, ha'.trans ha, hi'.trans hi, hp'.trans hp⟩

theorem of_change (h : Change eventId charges a b) : PaymentsKept a b where
  grants g hg := by
    cases h with
    | idle h => rwa [h.grants]
    | pay _ _ _ _ _ _ _ hgn =>
      rcases hgn with ⟨hs, -⟩ | ⟨_, hin⟩
      · rwa [hs]
      · exact (mem_of_insert hin).mpr (.inl hg)
    | adjust _ _ _ _ _ _ _ _ hgr => rwa [hgr]
  paid m hm hne := by
    obtain ⟨n, hn, hi, ⟨hu, -⟩ | ⟨⟨ha, hpi, -, hp⟩, -⟩⟩ := h.succeeds.1 m hm
    · exact absurd hu hne
    · exact ⟨n, hn, hi, ha, hpi, hp⟩

theorem of_changes (h : Changes eventId charges a b) : PaymentsKept a b := by
  induction h with
  | refl => exact .refl a
  | tail _ hs ih => exact ih.trans (.of_change hs)

end PaymentsKept

end Notary.Billing
