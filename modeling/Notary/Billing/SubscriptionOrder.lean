import Notary.Billing.Effects
import Notary.Billing.Subscriptions
import Notary.Lib.Transition

/-! Webhook handlers that fetch a subscription and store it later. The stored subscription never
moves backwards as long as the handlers commit in the order in which they fetched. -/

namespace Notary.Billing
open Relational Platform Transition List Option Tx TableRef Table

/-- The versions that the provider's subscription object goes through. -/
structure SubscriptionHistory where
  id : String
  version : ℕ → StripeSubscription
  id_version : ∀ n, (version n).id = id

inductive Progress
  | fetched | stored | failed
  deriving DecidableEq

/-- The handlers stand in the order of their fetches, each with the version it fetched; the log
holds the versions that were committed, the last one at its end. -/
structure FetchWorld where
  db : Database
  current : ℕ
  handlers : List (ℕ × Progress)
  log : List ℕ

inductive FetchAct
  | evolve
  | fetch
  | store (handler : ℕ) (accountId : String) (plan : Plan) (now : ℤ)
  | fail (handler : ℕ)

/-- The part of a handler after its fetch: the checks of the fetched object and the transaction
that stores it. -/
def storeFetched (stripe : StripeClient) (accountId : String) (plan : Plan)
    (subscription : StripeSubscription) (now : ℤ) : Request Unit := do
  Tx.ofExcept (validateSubscription stripe accountId plan
    (subscription.customer.idOf StripeReference.id) subscription)
  storeSubscription accountId plan subscription now

def FetchWorld.act (stripe : StripeClient) (h : SubscriptionHistory) (w : FetchWorld) :
    FetchAct → Option FetchWorld
  | .evolve => some { w with current := w.current + 1 }
  | .fetch => some { w with handlers := w.handlers ++ [(w.current, .fetched)] }
  | .store handler accountId plan now =>
    match w.handlers[handler]? with
    | some (n, .fetched) =>
      match storeFetched stripe accountId plan (h.version n) now w.db with
      | .error _ => none
      | .ok (_, db) => some
          { w with
            db := db
            handlers := w.handlers.set handler (n, .stored)
            log := w.log ++ [n] }
    | _ => none
  | .fail handler =>
    match w.handlers[handler]? with
    | some (n, .fetched) => some { w with handlers := w.handlers.set handler (n, .failed) }
    | _ => none

/-- Any number of concurrent handlers, with acts that are allowed. -/
def fetchRuns (stripe : StripeClient) (h : SubscriptionHistory)
    (Allowed : FetchWorld → FetchAct → Prop) : System FetchWorld where
  Init w := w.handlers = [] ∧ w.log = []
  Step w w' := ∃ a, Allowed w a ∧ w.act stripe h a = some w'

/-- A handler stores its version before every handler that fetched later. -/
def InFetchOrder (w : FetchWorld) : FetchAct → Prop
  | .store handler _ _ _ => ∀ later ∈ w.handlers.drop (handler + 1), later.2 ≠ .stored
  | _ => True

instance (w : FetchWorld) (a : FetchAct) : Decidable (InFetchOrder w a) :=
  match a with
  | .store handler _ _ _ =>
    inferInstanceAs (Decidable (∀ later ∈ w.handlers.drop (handler + 1), later.2 ≠ .stored))
  | .evolve | .fetch | .fail _ => isTrue trivial

/-- The row holds what this version of the object says. -/
structure StoredAs (row : BillingSubscription) (subscription : StripeSubscription) : Prop where
  id : row.providerSubscriptionId = subscription.id
  customer : row.providerCustomerId = subscription.customer.idOf StripeReference.id
  price : subscriptionPrice subscription = .ok row.providerPriceId
  status : parseSubscriptionStatus subscription.status = some row.status
  livemode : row.livemode = subscription.livemode
  periodEnd : row.currentPeriodEnd =
    subscription.items.data.head?.bind StripeSubscriptionItem.currentPeriodEnd
  cancel : row.cancelAtPeriodEnd = subscription.cancelAtPeriodEnd

/-- Commits never go back to an older version, the last committed version is the stored one, and
it is the newest one that was fetched when every handler has stored its own. -/
structure SubscriptionLaw (h : SubscriptionHistory) (w : FetchWorld) : Prop where
  ordered : w.log.Pairwise (· ≤ ·)
  last : ∀ n, w.log.getLast? = some n → ∃ row ∈ w.db.subscriptions, StoredAs row (h.version n)
  newest : w.handlers ≠ [] → (∀ e ∈ w.handlers, e.2 = .stored) → ∃ n ∈ w.handlers.map Prod.fst,
    (∀ e ∈ w.handlers, e.1 ≤ n) ∧ ∃ row ∈ w.db.subscriptions, StoredAs row (h.version n)

variable {w : FetchWorld} {before after : List (ℕ × Progress)} {n : ℕ}

section

variable {stripe : StripeClient} {h : SubscriptionHistory} {db db' : Database}

theorem storedAs_subscriptionRow (hp : subscriptionPrice subscription = .ok priceId)
    (hs : parseSubscriptionStatus subscription.status = some status) (createdAt : ℤ) :
    StoredAs { subscriptionRow accountId plan subscription priceId status now with
      createdAt := createdAt } subscription :=
  ⟨rfl, rfl, hp, hs, rfl, rfl, rfl⟩

theorem upsertSubscription_mem (hu : upsertSubscription row db = .ok (1, db')) :
    ∃ createdAt, { row with createdAt := createdAt } ∈ db'.subscriptions := by
  simp only [upsertSubscription, bind_ok, selectByKey_ok] at hu
  obtain ⟨existing, _, ⟨-, rfl⟩, hu⟩ := hu
  cases existing with
  | none =>
    simp only [bind_ok, insert_ok, pure_ok] at hu
    obtain ⟨_, _, ⟨_, ht, rfl⟩, -, rfl⟩ := hu
    exact ⟨row.createdAt, (mem_of_insert ht).mpr (.inr rfl)⟩
  | some =>
    obtain ⟨hc, _, ht, rfl⟩ := update_ok.mp hu
    obtain ⟨s, hs, hse⟩ := exists_of_count_pos (Nat.lt_of_lt_of_eq Nat.one_pos hc.symm)
    exact ⟨s.createdAt, mem_update_of ht hs hse⟩

theorem storeFetched_stored
    (hs : storeFetched stripe accountId plan subscription now db = .ok (u, db')) :
    ∃ row ∈ db'.subscriptions, StoredAs row subscription := by
  simp only [storeFetched, bind_ok, ofExcept_ok] at hs
  obtain ⟨_, _, ⟨-, rfl⟩, hs⟩ := hs
  obtain ⟨_, _, db₁, hp, hst, hu, hre⟩ := storeSubscription_stores hs
  obtain ⟨createdAt, hm⟩ := upsertSubscription_mem hu
  obtain ⟨t, hr⟩ := recomputeAccountBillingState_ok hre
  rw [show db' = { db₁ with profiles := t } from hr]
  exact ⟨_, hm, storedAs_subscriptionRow hp hst createdAt⟩

/-- The handlers' versions follow the order of their fetches, and the log holds the versions of
the handlers that have stored theirs. -/
structure FetchInv (h : SubscriptionHistory) (w : FetchWorld) : Prop where
  sorted : (w.handlers.map Prod.fst).Pairwise (· ≤ ·)
  current : ∀ e ∈ w.handlers, e.1 ≤ w.current
  ordered : w.log.Pairwise (· ≤ ·)
  logged : ∀ n, n ∈ w.log ↔ (n, .stored) ∈ w.handlers
  last : ∀ n, w.log.getLast? = some n → ∃ row ∈ w.db.subscriptions, StoredAs row (h.version n)

theorem FetchInv.fetch (inv : FetchInv h w) :
    FetchInv h { w with handlers := w.handlers ++ [(w.current, .fetched)] } where
  sorted := by
    rw [map_append, pairwise_append]
    refine ⟨inv.sorted, pairwise_singleton _ _, ?_⟩
    intro n hn m hm
    obtain ⟨e, he, rfl⟩ := List.mem_map.mp hn
    obtain rfl : m = w.current := by simpa using hm
    exact inv.current e he
  current e he := by
    rcases mem_append.mp he with he | he
    · exact inv.current e he
    · rw [mem_singleton.mp he]
  ordered := inv.ordered
  logged n := by
    rw [inv.logged]
    simp
  last := inv.last

theorem split_handlers {handlers : List (ℕ × Progress)} {i : ℕ} {e : ℕ × Progress}
    (hi : handlers[i]? = some e) :
    ∃ before after, handlers = before ++ e :: after ∧ before.length = i := by
  obtain ⟨hl, rfl⟩ := List.getElem?_eq_some_iff.mp hi
  refine ⟨handlers.take i, handlers.drop (i + 1), ?_, length_take_of_le hl.le⟩
  rw [cons_getElem_drop_succ, take_append_drop]

/-- What a handler that leaves the fetched state does: it fails, or it stores its version. -/
theorem FetchWorld.act_cases (ha : w.act stripe h a = some w') :
    (a = .evolve ∧ w' = { w with current := w.current + 1 }) ∨
    (a = .fetch ∧ w' = { w with handlers := w.handlers ++ [(w.current, .fetched)] }) ∨
    ∃ before n after, w.handlers = before ++ (n, .fetched) :: after ∧
      (w' = { w with handlers := before ++ (n, .failed) :: after } ∨
        ∃ accountId plan now db', a = .store before.length accountId plan now ∧
          storeFetched stripe accountId plan (h.version n) now w.db = .ok ((), db') ∧
          w' = { w with
            db := db'
            handlers := before ++ (n, .stored) :: after
            log := w.log ++ [n] }) := by
  cases a with
  | evolve => exact .inl ⟨rfl, (some_inj.mp ha).symm⟩
  | fetch => exact .inr (.inl ⟨rfl, (some_inj.mp ha).symm⟩)
  | store _ accountId plan now =>
    simp only [FetchWorld.act] at ha
    split at ha
    · rename_i n hi
      obtain ⟨before, after, hs, rfl⟩ := split_handlers hi
      split at ha
      · cases ha
      · rename_i db' hst
        refine .inr (.inr ⟨before, n, after, hs, .inr ⟨accountId, plan, now, db', rfl, hst, ?_⟩⟩)
        rw [← some_inj.mp ha, hs]
        simp
    · cases ha
  | fail =>
    simp only [FetchWorld.act] at ha
    split at ha
    · rename_i n hi
      obtain ⟨before, after, hs, rfl⟩ := split_handlers hi
      refine .inr (.inr ⟨before, n, after, hs, .inl ?_⟩)
      rw [← some_inj.mp ha, hs]
      simp
    · cases ha

section

variable (inv : FetchInv h w)
include inv

theorem FetchInv.versions (hsp : w.handlers = before ++ (n, .fetched) :: after) (p : Progress) :
    ((before ++ (n, p) :: after).map Prod.fst).Pairwise (· ≤ ·) ∧
      ∀ e ∈ before ++ (n, p) :: after, e.1 ≤ w.current := by
  have hs := inv.sorted
  have hc := inv.current
  rw [hsp] at hs hc
  refine ⟨by simpa using hs, ?_⟩
  intro e he
  rw [mem_append, mem_cons] at he
  rcases he with he | rfl | he
  · exact hc e (mem_append_left _ he)
  · exact hc (n, .fetched) (by simp)
  · exact hc e (mem_append_right _ (mem_cons_of_mem _ he))

theorem FetchInv.fail (hs : w.handlers = before ++ (n, .fetched) :: after) :
    FetchInv h { w with handlers := before ++ (n, .failed) :: after } where
  sorted := (inv.versions hs _).1
  current := (inv.versions hs _).2
  ordered := inv.ordered
  logged k := by
    rw [inv.logged, hs]
    simp
  last := inv.last

/-- The handlers that stored before fetched before, so their versions are not newer. -/
theorem FetchInv.store (hs : w.handlers = before ++ (n, .fetched) :: after)
    (ho : ∀ later ∈ after, later.2 ≠ .stored)
    (hr : ∃ row ∈ db'.subscriptions, StoredAs row (h.version n)) :
    FetchInv h { w with
      db := db'
      handlers := before ++ (n, .stored) :: after
      log := w.log ++ [n] } where
  sorted := (inv.versions hs _).1
  current := (inv.versions hs _).2
  ordered := by
    rw [pairwise_append]
    refine ⟨inv.ordered, pairwise_singleton _ _, ?_⟩
    intro m hm k hk
    obtain rfl : k = n := mem_singleton.mp hk
    have hst := (inv.logged m).mp hm
    rw [hs, mem_append, mem_cons] at hst
    rcases hst with hb | he | ha
    · have hso := inv.sorted
      rw [hs, map_append, pairwise_append] at hso
      exact hso.2.2 m (List.mem_map.mpr ⟨_, hb, rfl⟩) k (by simp)
    · cases he
    · exact absurd rfl (ho _ ha)
  logged k := by
    have hl := inv.logged k
    rw [hs] at hl
    simp only [mem_append, mem_cons, Prod.mk.injEq, reduceCtorEq,
      and_false, false_or, and_true, not_mem_nil, or_false] at hl ⊢
    rw [hl]
    tauto
  last k hk := by
    rw [getLast?_concat, some_inj] at hk
    rwa [← hk]

theorem FetchInv.act (ho : InFetchOrder w a) (ha : w.act stripe h a = some w') : FetchInv h w' := by
  rcases FetchWorld.act_cases ha with ⟨-, rfl⟩ | ⟨-, rfl⟩ | ⟨_, _, _, hs, hc⟩
  · exact { inv with current := fun e he => (inv.current e he).trans (Nat.le_succ _) }
  · exact inv.fetch
  · rcases hc with rfl | ⟨_, _, _, _, rfl, hst, rfl⟩
    · exact inv.fail hs
    · apply inv.store hs _ (storeFetched_stored hst)
      simpa [InFetchOrder, hs] using ho

/-- The last committed version is at least as new as every other one, and every handler that has
stored its version is in the log. -/
theorem FetchInv.law : SubscriptionLaw h w where
  ordered := inv.ordered
  last := inv.last
  newest hn ha := by
    have hlo : ∀ e ∈ w.handlers, e.1 ∈ w.log := fun e he =>
      (inv.logged e.1).mpr (by rw [← ha e he]; exact he)
    obtain ⟨e, he⟩ := exists_mem_of_ne_nil _ hn
    cases hl : w.log.getLast? with
    | none =>
      rw [getLast?_eq_none_iff] at hl
      have hm := hlo e he
      rw [hl] at hm
      cases hm
    | some n =>
      obtain ⟨_, hs⟩ := getLast?_eq_some_iff.mp hl
      have ho := inv.ordered
      rw [hs, pairwise_append] at ho
      refine ⟨n, ?_, ?_, inv.last n hl⟩
      · have hm : n ∈ w.log := hs ▸ mem_append_right _ (mem_singleton_self n)
        exact List.mem_map.mpr ⟨_, (inv.logged n).mp hm, rfl⟩
      · intro d hd
        have hm := hlo d hd
        rw [hs, mem_append, mem_singleton] at hm
        rcases hm with hea | heq
        · exact ho.2.2 _ hea n (mem_singleton_self n)
        · exact heq.le

end

end

/-- In every run in which the handlers commit in the order of their fetches, the stored
subscription never moves backwards. -/
theorem subscription_order {stripe : StripeClient} {h : SubscriptionHistory} {w : FetchWorld}
    (hw : (fetchRuns stripe h InFetchOrder).Reachable w) : SubscriptionLaw h w := by
  have hinv : FetchInv h w := by
    refine hw.invariant (I := FetchInv h) ?_ ?_
    · rintro _ ⟨hhandlers, hlog⟩
      constructor <;> simp [hhandlers, hlog]
    · rintro _ _ ha ⟨_, horder, hact⟩
      exact ha.act horder hact
  exact hinv.law

/-- A subscription that is active and is canceled from its first change on. -/
def sampleHistory : SubscriptionHistory where
  id := "sub_1"
  version n :=
    { id := "sub_1"
      status := if n = 0 then "active" else "canceled"
      livemode := true
      customer := .id "cus_1"
      items := ⟨[⟨⟨"price_one"⟩, some 1, none⟩], false⟩
      metadata := [("account_id", "account-1")]
      cancelAtPeriodEnd := false }
  id_version _ := rfl

def historyClient : StripeClient := ⟨true, "price_credit", some "price_one", some "price_ten"⟩

/-- Two handlers that fetch before and after the change, and the order in which they store. -/
def historyActs (order : List ℕ) : List FetchAct :=
  [.fetch, .evolve, .fetch] ++ order.map fun handler => .store handler "account-1" .oneGb 500

theorem exists_historyRun (Allowed : FetchWorld → FetchAct → Prop) [∀ w a, Decidable (Allowed w a)]
    {P : FetchWorld → Prop} [DecidablePred P] (order : List ℕ)
    (h : (System.runActs (FetchWorld.act historyClient sampleHistory) Allowed ⟨{}, 0, [], []⟩
      (historyActs order)).any (P ·) = true) :
    ∃ w, (fetchRuns historyClient sampleHistory Allowed).Reachable w ∧ P w :=
  System.Reachable.exists_runActs (.init ⟨rfl, rfl⟩) (fun _ a _ ha hac => ⟨a, ha, hac⟩) _ h

theorem subscription_order_sample :
    ∃ w, (fetchRuns historyClient sampleHistory InFetchOrder).Reachable w ∧ w.log = [0, 1] ∧
      (∀ e ∈ w.handlers, e.2 = .stored) ∧ SubscriptionLaw sampleHistory w := by
  obtain ⟨w, hreach, hlog, hstored⟩ := exists_historyRun InFetchOrder [0, 1]
    (P := fun w => w.log = [0, 1] ∧ ∀ e ∈ w.handlers, e.2 = .stored) (by decide +kernel)
  exact ⟨w, hreach, hlog, hstored, subscription_order hreach⟩

/-- The handler that fetched the canceled subscription commits first; the other one then stores
the active subscription again. -/
theorem older_version_overwrites :
    ∃ w, (fetchRuns historyClient sampleHistory fun _ _ => True).Reachable w ∧
      w.handlers = [(0, .stored), (1, .stored)] ∧ w.log = [1, 0] ∧
      w.db.subscriptions.rows.map BillingSubscription.status = [.active] :=
  exists_historyRun _ [1, 0] (by decide +kernel)

end Notary.Billing
