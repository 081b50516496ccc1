import Notary.Platform.LedgerInvariant

/-! The ledger seen one operation at a time: what each transaction does to the row under
an identifier, and which rows belong to a Notary instance. -/

namespace Notary.Platform
open Relational Option Tx Table

def operationAt (db : Database) (operationId : String) : Option AdmittedOperation :=
  db.operations.find? operationId

variable {db db' : Database} {i instanceId : String} {o operation : AdmittedOperation}
  {cfg : PlatformConfig} {request : RedeemAdmissionRequest} {now : ℤ} {ticket : AdmissionTicket}
  {p : AdmittedOperation → Bool} {f : AdmittedOperation → AdmittedOperation}

theorem operationAt_eq_some : operationAt db i = some o ↔ o ∈ db.operations ∧ o.operationId = i :=
  find?_eq_some

/-- The operation under an identifier, if this instance redeemed it. -/
def ownedAt (instanceId : String) (db : Database) (operationId : String) :
    Option AdmittedOperation :=
  (operationAt db operationId).filter fun o => o.notaryInstanceId = instanceId

theorem ownedAt_eq_some : ownedAt instanceId db i = some o ↔
      operationAt db i = some o ∧ o.notaryInstanceId = instanceId := by
  simp [ownedAt, filter_eq_some_iff]

theorem operationAt_of_operations (h : db'.operations = db.operations) (i : String) :
    operationAt db' i = operationAt db i := by
  unfold operationAt
  rw [h]

theorem Redeemed.operationAt_eq (h : Redeemed cfg request now db db' ticket operation)
    (i : String) :
    operationAt db' i = if operation.operationId = i then some operation else operationAt db i :=
  find?_of_insert h.operations i

/-- The identifier of an admitted operation was not in use. -/
theorem Redeemed.operationAt_none (h : Redeemed cfg request now db db' ticket operation) :
    operationAt db operation.operationId = none := by
  unfold operationAt
  rw [find?_eq_none]
  intro _ ho
  exact fresh_of_insert h.operations ho

theorem operationAt_update (h : db.operations.update p f = some t)
    (hi : ∀ o, (f o).operationId = o.operationId) (i : String) :
    operationAt { db with operations := t } i =
      (operationAt db i).map fun o => if p o then f o else o :=
  find?_of_update h hi i

theorem operationAt_update_other (h : db.operations.update p f = some t)
    (hid : ∀ o, (f o).operationId = o.operationId) (hp : ∀ o, p o → o.operationId = i)
    (hj : j ≠ i) :
    operationAt { db with operations := t } j = operationAt db j := by
  rw [operationAt_update h hid]
  cases hr : operationAt db j with
  | none => rfl
  | some o =>
    have hn : ¬ p o := by
      intro hpo
      have hi := hp o hpo
      have hj' := (operationAt_eq_some.mp hr).2
      exact hj (hj'.symm.trans hi)
    simp [hn]

theorem id_of_activates (h : activates i o) : o.operationId = i := by
  simp only [activates, decide_eq_true_eq] at h
  exact h.1

theorem id_of_settles (h : settles i o) : o.operationId = i := by
  simp only [settles, decide_eq_true_eq] at h
  exact h.1

/-- A committed activation concerns the operation it names: activated already, or pending
and activated now. -/
theorem operationAt_activate {request : ActivateOperationRequest}
    (h : activateOperation request now db = .ok r) :
    (∃ o o', operationAt db request.operationId = some o ∧
      operationAt r.2 request.operationId = some o' ∧
      o.notaryInstanceId = request.notaryInstanceId ∧ o.mode = request.mode ∧
      ((o' = o ∧ o.activatedAt.isSome) ∨
        (o.terminalOutcome = none ∧ o' = { o with activatedAt := some now }))) ∧
    ∀ j, j ≠ request.operationId → operationAt r.2 j = operationAt db j := by
  obtain ⟨o, hme, hid, hi, hm, ⟨ha, hr⟩ | ⟨hs, -, _, ht, hr⟩⟩ := activateOperation_ok h
  · have hro := operationAt_eq_some.mpr ⟨hme, hid⟩
    rw [hr]
    exact ⟨⟨o, o, hro, hro, hi, hm, .inl ⟨rfl, ha⟩⟩, fun _ _ => rfl⟩
  · have hro := operationAt_eq_some.mpr ⟨hme, hid⟩
    rw [hr]
    constructor
    · refine ⟨o, { o with activatedAt := some now }, hro, ?_, hi, hm,
        .inr ⟨pending_of_activates hs, rfl⟩⟩
      rw [operationAt_update ht (fun _ => rfl), hro]
      simp [hs]
    · intro _ hj
      exact operationAt_update_other ht (fun _ => rfl) (fun _ => id_of_activates) hj

/-- A committed settlement concerns the operation it names: settled with this report
already, or pending and settled now. -/
theorem operationAt_settle {request : UsageSettlementRequest}
    (h : settleUsage ids request now db = .ok r) :
    (∃ o o', operationAt db request.operationId = some o ∧
      operationAt r.2 request.operationId = some o' ∧
      o.notaryInstanceId = request.notaryInstanceId ∧
      ((o' = o ∧ o.terminalOutcome = some request.outcome ∧
          o.settledAuthenticatedBytes = some request.authenticatedBytes) ∨
        (o.terminalOutcome = none ∧
          o' = o.settled request.outcome request.authenticatedBytes now))) ∧
    ∀ j, j ≠ request.operationId → operationAt r.2 j = operationAt db j := by
  obtain ⟨-, o, hm, hid, hi, -, -, ⟨ho, hb, hr⟩ | hs⟩ := settleUsage_ok h
  · have hro := operationAt_eq_some.mpr ⟨hm, hid⟩
    rw [hr]
    exact ⟨⟨o, o, hro, hro, hi, .inl ⟨rfl, ho, hb⟩⟩, fun _ _ => rfl⟩
  · have hro := operationAt_eq_some.mpr ⟨hm, hid⟩
    obtain ⟨_, _, t, ht, hr⟩ := hs.effect
    -- The debit does not touch the operations, so the rows are those of the update.
    have ha (j : String) : operationAt r.2 j = operationAt { db with operations := t } j := by
      rw [hr]
      rfl
    constructor
    · refine ⟨o, _, hro, ?_, hi, .inr ⟨hs.pending, rfl⟩⟩
      rw [ha, operationAt_update ht (fun _ => rfl), hro]
      simp [settles, hs.pending]
    · intro _ _
      rw [ha]
      apply operationAt_update_other ht (fun _ => rfl) (fun _ => id_of_settles)
      rwa [hid]

theorem operationAt_recover (h : recoverExpiredActivations now db = .ok r) (i : String) :
    operationAt r.2 i =
      (operationAt db i).map fun o =>
        if expired now o then o.settled .serviceFailed 0 now else o := by
  obtain ⟨_, ht, hr⟩ := recoverExpiredActivations_ok h
  rw [hr]
  exact operationAt_update ht (fun _ => rfl) i

/-- The transactions that no request of this instance causes. -/
def Transaction.Foreign (instanceId : String) : Transaction → Prop
  | redeem _ _ request _ => request.notaryInstanceId ≠ instanceId
  | activate request _ => request.notaryInstanceId ≠ instanceId
  | settle _ request _ => request.notaryInstanceId ≠ instanceId
  | _ => True

private theorem ownedAt_eq_none (h : operationAt db i = some o)
    (hn : o.notaryInstanceId ≠ instanceId) : ownedAt instanceId db i = none := by
  simp [ownedAt, h, Option.filter, hn]

private theorem ownedAt_congr (h : operationAt db' i = operationAt db i) :
    ownedAt instanceId db' i = ownedAt instanceId db i := by
  simp [ownedAt, h]

/-- To an operation of this instance a foreign transaction can do one thing: settle it
without bytes after its activation window. -/
theorem Transaction.ownedAt_foreign (inv : LedgerInv cfg db) {t : Transaction}
    (hf : t.Foreign instanceId) (i : String) :
    ownedAt instanceId (t.run cfg db) i = ownedAt instanceId db i ∨
      ∃ o now, ownedAt instanceId db i = some o ∧ expired now o ∧
        ownedAt instanceId (t.run cfg db) i = some (o.settled .serviceFailed 0 now) := by
  let P (db' : Database) : Prop := ownedAt instanceId db' i = ownedAt instanceId db i ∨
    ∃ o now, ownedAt instanceId db i = some o ∧ expired now o ∧
      ownedAt instanceId db' i = some (o.settled .serviceFailed 0 now)
  have hw := inv.operations.windows
  have hs : P db := .inl rfl
  have hos {db' : Database} (h : db'.operations = db.operations) : P db' :=
    .inl (ownedAt_congr (operationAt_of_operations h i))
  cases t with
  | issue =>
    refine exec_inv (P := P) hs fun r db' h => ?_
    obtain ⟨_, _, _, -, -, -, -, -, rfl⟩ := issueAdmission_ok hw h
    exact hos rfl
  | redeem =>
    refine exec_inv (P := P) hs fun r db' h => ?_
    obtain ⟨_, operation, hr, -⟩ := redeemAdmission_ok hw h
    left
    by_cases hi : operation.operationId = i
    · have hnw : operationAt db' i = some operation := by rw [hr.operationAt_eq]; simp [hi]
      have hol : operationAt db i = none := hi ▸ hr.operationAt_none
      have hin : operation.notaryInstanceId ≠ instanceId := by
        obtain ⟨_, _, hop⟩ := hr.admitted
        rw [hop]
        exact hf
      rw [ownedAt_eq_none hnw hin]
      simp [ownedAt, hol]
    · exact ownedAt_congr (by rw [hr.operationAt_eq]; simp [hi])
  | activate request =>
    refine exec_inv (P := P) hs fun r db' h => ?_
    obtain ⟨⟨o, o', ho, ho', hin, -, hc⟩, hot⟩ := operationAt_activate h
    left
    by_cases hi : i = request.operationId
    · have hi' : o'.notaryInstanceId = o.notaryInstanceId := by
        rcases hc with ⟨rfl, -⟩ | ⟨-, rfl⟩ <;> rfl
      have hn : o.notaryInstanceId ≠ instanceId := hin ▸ hf
      rw [hi, ownedAt_eq_none ho hn, ownedAt_eq_none ho' (hi' ▸ hn)]
    · exact ownedAt_congr (hot i hi)
  | recover now =>
    refine exec_inv (P := P) hs fun r db' h => ?_
    have hro := operationAt_recover h i
    cases ho : operationAt db i with
    | none => exact .inl (ownedAt_congr (by rw [hro, ho]; rfl))
    | some o =>
      rw [ho] at hro
      by_cases he : expired now o
      · simp only [map_some, he, if_true] at hro
        by_cases hin : o.notaryInstanceId = instanceId
        · exact .inr ⟨o, now, ownedAt_eq_some.mpr ⟨ho, hin⟩, he, ownedAt_eq_some.mpr ⟨hro, hin⟩⟩
        · exact .inl (by rw [ownedAt_eq_none ho hin, ownedAt_eq_none hro hin])
      · simp only [map_some, he] at hro
        exact .inl (ownedAt_congr (by rw [hro, ho]; rfl))
  | settle _ request =>
    refine exec_inv (P := P) hs fun r db' h => ?_
    obtain ⟨⟨o, o', ho, ho', hin, hc⟩, hot⟩ := operationAt_settle h
    left
    by_cases hi : i = request.operationId
    · have hi' : o'.notaryInstanceId = o.notaryInstanceId := by
        rcases hc with ⟨rfl, -⟩ | ⟨-, rfl⟩ <;> rfl
      have hn : o.notaryInstanceId ≠ instanceId := hin ▸ hf
      rw [hi, ownedAt_eq_none ho hn, ownedAt_eq_none ho' (hi' ▸ hn)]
    · exact ownedAt_congr (hot i hi)
  | purchase =>
    refine exec_inv (P := P) hs fun r db' h => ?_
    rcases createCreditGrant_ok h with ⟨rfl, -⟩ | ⟨-, _, -, rfl⟩
    · exact hs
    · exact hos rfl
  | billing =>
    refine exec_inv (P := P) hs fun r db' h => ?_
    obtain ⟨_, rfl, -⟩ := setAccountBillingState_ok h
    exact hos rfl

/-- Notarization tickets and operations carry their allowance. The column check cannot
say so: a missing value passes it. -/
structure AllowanceInv (db : Database) : Prop where
  tickets : ∀ t ∈ db.tickets, t.mode = .notarization → t.notarizationAllowanceBytes.isSome
  operations : ∀ o ∈ db.operations, o.mode = .notarization →
    o.notarizationAllowanceBytes.isSome

theorem AllowanceInv.update (inv : AllowanceInv db)
    (h : db.operations.update p f = some db'.operations) (ht : db'.tickets = db.tickets)
    (hs : ∀ o : AdmittedOperation, o.SameAdmission (f o)) : AllowanceInv db' := by
  constructor
  · rw [ht]
    exact inv.tickets
  · intro _ ho'
    obtain ⟨o, ho, rfl⟩ := (mem_of_update h).mp ho'
    have hol := inv.operations o ho
    split_ifs
    · rw [hs o]
      exact hol
    · exact hol

theorem AllowanceInv.redeem (inv : AllowanceInv db)
    (h : Redeemed cfg request now db db' ticket operation) : AllowanceInv db' := by
  constructor
  · intro _ ht'
    obtain ⟨t, ht, rfl⟩ := (mem_of_update h.tickets).mp ht'
    have hol := inv.tickets t ht
    split_ifs <;> exact hol
  · intro o ho
    rcases (mem_of_insert h.operations).mp ho with ho | rfl
    · exact inv.operations o ho
    · obtain ⟨_, _, hop⟩ := h.admitted
      have hti := inv.tickets ticket h.ticket_mem
      rw [h.mode] at hti
      rw [hop]
      exact hti

theorem Transaction.run_allowance (inv : LedgerInv cfg db) (ha : AllowanceInv db)
    (t : Transaction) :
    AllowanceInv (t.run cfg db) := by
  have hw := inv.operations.windows
  cases t with
  | issue =>
    refine exec_inv (P := AllowanceInv) ha fun r db' h => ?_
    obtain ⟨_, _, _, -, hti, htt, -, -, rfl⟩ := issueAdmission_ok hw h
    refine ⟨fun t ht => ?_, ha.operations⟩
    rcases (mem_of_insert htt).mp ht with ht | rfl
    · exact ha.tickets t ht
    · exact hti
  | redeem =>
    refine exec_inv (P := AllowanceInv) ha fun r db' h => ?_
    obtain ⟨_, _, hr, -⟩ := redeemAdmission_ok hw h
    exact ha.redeem hr
  | activate =>
    refine exec_inv (P := AllowanceInv) ha fun r db' h => ?_
    obtain ⟨_, -, -, -, -, ⟨-, rfl⟩ | ⟨-, -, _, ht, rfl⟩⟩ := activateOperation_ok h
    · exact ha
    · exact ha.update ht rfl fun _ => rfl
  | recover =>
    refine exec_inv (P := AllowanceInv) ha fun r db' h => ?_
    obtain ⟨_, ht, rfl⟩ := recoverExpiredActivations_ok h
    exact ha.update ht rfl fun _ => rfl
  | settle =>
    refine exec_inv (P := AllowanceInv) ha fun r db' h => ?_
    obtain ⟨-, _, -, -, -, -, -, ⟨-, -, rfl⟩ | hs⟩ := settleUsage_ok h
    · exact ha
    · obtain ⟨_, hd, _, ht, rfl⟩ := hs.effect
      refine ha.update ht ?_ fun _ => rfl
      split_ifs at hd
      · rw [hd.frame]
      · rw [hd]
  | purchase =>
    refine exec_inv (P := AllowanceInv) ha fun r db' h => ?_
    rcases createCreditGrant_ok h with ⟨rfl, -⟩ | ⟨-, _, -, rfl⟩
    · exact ha
    · exact ⟨ha.tickets, ha.operations⟩
  | billing =>
    refine exec_inv (P := AllowanceInv) ha fun r db' h => ?_
    obtain ⟨_, rfl, -⟩ := setAccountBillingState_ok h
    exact ⟨ha.tickets, ha.operations⟩

theorem allowanceInv_of_reachable (h : (ledger cfg).Reachable db) : AllowanceInv db := by
  obtain ⟨i, hi, hru⟩ := h
  have he : AllowanceInv i := by
    rw [show i = {} from hi]
    constructor <;> intro x hx <;> simp at hx
  refine (Transition.System.Reachable.init hi).stable hru he ?_
  rintro _ _ hr ha ⟨t, rfl⟩
  exact t.run_allowance (ledgerInv_of_reachable hr) ha

/-- A grant books the overage of an operation only once the operation has been debited. -/
def OverageDebited (db : Database) : Prop :=
  ∀ g ∈ db.grants, ∀ i, g.BooksOverage i → ∃ d ∈ db.debits, d.operationId = some i

theorem not_booksOverage {g : CreditGrant} {c : Char} (hk : g.idempotencyKey.toList.head? = some c)
    (hc : c ≠ 'o') (hs : g.sourceKind ≠ .operationOverage) (i : String) : ¬g.BooksOverage i := by
  rintro (h | h)
  · rw [h, String.toList_append] at hk
    exact hc (Option.some.inj hk).symm
  · exact hs h.1

namespace OverageDebited

variable (h : OverageDebited db)
include h

theorem insert {g : CreditGrant} (ht : db.grants.insert g = some t)
    (hg : ∀ i, ¬g.BooksOverage i) : OverageDebited { db with grants := t } := by
  intro k hk i hi
  rcases (mem_of_insert ht).mp hk with hk | rfl
  · exact h k hk i hi
  · exact absurd hi (hg i)

theorem ensure (hm : ensureMonthlyGrant cal freshId subject accountId policy kind now db =
    .ok ((), db₁)) : OverageDebited db₁ := by
  obtain ⟨_, _, -, rfl, hg⟩ := ensureMonthlyGrant_mem hm
  intro k hk i hi
  rcases hg k hk with hk | ⟨g, hg, -, rfl⟩ | ⟨_, rfl⟩
  · exact h k hk i hi
  · exact h g hg i hi
  · refine absurd hi (not_booksOverage (c := 'm') ?_ (by decide) ?_ i)
    · simp [CreditGrantSpec.toGrant, monthlyGrantSpec]
    · simp [CreditGrantSpec.toGrant, monthlyGrantSpec]

theorem run (t : Transaction) : OverageDebited (t.run cfg db) := by
  cases t with
  | issue =>
    refine exec_inv (P := OverageDebited) h fun r db' ho => ?_
    obtain ⟨_, _, _, hm, -, -, rfl⟩ := issueAdmission_ensures ho
    have hi := h.ensure hm
    exact hi
  | redeem =>
    refine exec_inv (P := OverageDebited) h fun r db' ho => ?_
    obtain ⟨_, _, _, _, _, -, -, hm, -, -, he⟩ := redeemAdmission_ensures ho
    cases he
    have hi := h.ensure hm
    exact hi
  | activate =>
    refine exec_inv (P := OverageDebited) h fun r db' ho => ?_
    obtain ⟨_, -, -, -, -, ⟨-, rfl⟩ | ⟨-, -, _, -, rfl⟩⟩ := activateOperation_ok ho
    · exact h
    · exact h
  | recover =>
    refine exec_inv (P := OverageDebited) h fun r db' ho => ?_
    obtain ⟨_, -, rfl⟩ := recoverExpiredActivations_ok ho
    exact h
  | settle =>
    refine exec_inv (P := OverageDebited) h fun r db' ho => ?_
    obtain ⟨-, _, -, -, -, -, -, ⟨-, -, rfl⟩ | hs⟩ := settleUsage_ok ho
    · exact h
    · obtain ⟨db₁, hd, _, -, rfl⟩ := hs.effect
      split_ifs at hd
      · intro k hk i hi
        have hold (hk : k ∈ db.grants) : ∃ d ∈ db₁.debits, d.operationId = some i :=
          (h k hk i hi).imp fun _ hx => ⟨(mem_of_insert hd.debits).mpr (.inl hx.1), hx.2⟩
        rcases hd.grants with he | ⟨_, -, ht, hb⟩
        · exact hold (he ▸ hk)
        · rcases (mem_of_insert ht).mp hk with hk | rfl
          · exact hold hk
          · exact ⟨_, (mem_of_insert hd.debits).mpr (.inr rfl), hb i hi⟩
      · exact hd ▸ h
  | purchase =>
    refine exec_inv (P := OverageDebited) h fun r db' ho => ?_
    rcases createCreditGrant_ok ho with ⟨rfl, -⟩ | ⟨-, _, ht, rfl⟩
    · exact h
    · exact h.insert ht (not_booksOverage (c := 'e') (by simp [CreditGrantSpec.toGrant,
        externalPurchaseSpec]) (by decide) nofun)
  | billing =>
    refine exec_inv (P := OverageDebited) h fun r db' ho => ?_
    obtain ⟨_, rfl, -⟩ := setAccountBillingState_ok ho
    exact h

end OverageDebited

theorem overageDebited_of_reachable (h : (ledger cfg).Reachable db) : OverageDebited db := by
  refine h.invariant ?_ ?_
  · rintro _ rfl g hg
    exact absurd hg (Table.not_mem_empty g)
  · rintro _ _ hi ⟨t, rfl⟩
    exact hi.run t

end Notary.Platform
