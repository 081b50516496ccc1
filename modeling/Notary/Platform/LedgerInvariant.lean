import Notary.Lib.Transition
import Notary.Platform.Transitions

/-! The ledger invariant over every interleaving of the ledger transactions, and what
later states keep of earlier ones. -/

namespace Notary.Platform
open Relational List Table Tx

/-- The transactions that write tickets, operations, grants or debits, with the values
they draw from the clock and the random generator. Purchases and billing states come from
the billing handlers. -/
inductive Transaction
  | issue (freshGrantId token : String) (identity : AdmissionIdentity)
      (request : IssueAdmissionRequest) (now : ℤ)
  | redeem (freshGrantId freshOperationId : String) (request : RedeemAdmissionRequest) (now : ℤ)
  | activate (request : ActivateOperationRequest) (now : ℤ)
  | recover (now : ℤ)
  | settle (ids : SettlementIds) (request : UsageSettlementRequest) (now : ℤ)
  | purchase (freshId accountId paymentReference : String) (amountBytes createdAt : ℤ)
  | billing (accountId : String) (plan : Plan) (status : BillingStatus) (updatedAt : ℤ)

def Transaction.run (cfg : PlatformConfig) : Transaction → Database → Database
  | issue freshGrantId token identity request now =>
    (issueAdmission cfg freshGrantId token identity request now).exec
  | redeem freshGrantId freshOperationId request now =>
    (redeemAdmission cfg freshGrantId freshOperationId request now).exec
  | activate request now => (activateOperation request now).exec
  | recover now => (recoverExpiredActivations now).exec
  | settle ids request now => (settleUsage ids request now).exec
  | purchase freshId accountId paymentReference amountBytes createdAt =>
    (grantExternalPurchase freshId accountId paymentReference amountBytes createdAt).exec
  | billing accountId plan status updatedAt =>
    (setAccountBillingState accountId plan status updatedAt).exec

/-- The ledger starts empty and runs transactions in any order with any arguments. -/
def ledger (cfg : PlatformConfig) : Transition.System Database where
  Init db := db = {}
  Step db db' := ∃ t : Transaction, t.run cfg db = db'

/-- The settled bytes of an operation respect its activation and its allowance. -/
def AdmittedOperation.SettledSound (o : AdmittedOperation) : Prop :=
  ∀ b, o.settledAuthenticatedBytes = some b →
    (o.activatedAt = none → b = 0) ∧
    (o.mode = .notarization → (b = 0 ∨ o.notarizationAllowanceBytes = some b) ∧
      (o.terminalOutcome = some .completed → o.notarizationAllowanceBytes = some b))

/-- Two versions of one operation agree on everything its admission fixed. -/
def AdmittedOperation.SameAdmission (o o' : AdmittedOperation) : Prop :=
  o' = { o with
    activatedAt := o'.activatedAt
    terminalOutcome := o'.terminalOutcome
    settledAuthenticatedBytes := o'.settledAuthenticatedBytes
    settledAt := o'.settledAt }

/-- Each operation consumed its ticket, is funded by a grant that was live when it was
admitted, and is settled soundly. -/
structure OperationsInv (cfg : PlatformConfig) (db : Database) : Prop where
  windows : MonthlyWindows cfg.calendar db.grants
  consumed : ∀ o ∈ db.operations, ∃ t ∈ db.tickets,
    t.tokenHash = o.ticketTokenHash ∧ t.consumedAt.isSome
  funded : ∀ o ∈ db.operations, ∃ g ∈ db.grants,
    g.funds o.creditSubject (.forMode o.mode) o.admittedAt
  sound : ∀ o ∈ db.operations, o.SettledSound

def debitAllocations (db : Database) (debitId : String) : List CreditAllocation :=
  db.allocations.rows.filter fun a => a.debitId = debitId

/-- Debits correspond to the operations settled with positive bytes, and the allocations of
each debit add up to it. -/
structure DebitsInv (db : Database) : Prop where
  debited : ∀ o ∈ db.operations, ∀ b, o.settledAuthenticatedBytes = some b → 0 < b →
    ∃ d ∈ db.debits, d.operationId = some o.operationId
  settled : ∀ d ∈ db.debits, ∃ o ∈ db.operations, d.operationId = some o.operationId ∧
    o.settledAuthenticatedBytes = some d.allowanceBytes ∧ 0 < d.allowanceBytes
  owned : ∀ a ∈ db.allocations, ∃ d ∈ db.debits, d.id = a.debitId
  total : ∀ d ∈ db.debits,
    ((debitAllocations db d.id).map (·.amountBytes)).sum = d.allowanceBytes

variable {t : Table AdmittedOperation} {o operation : AdmittedOperation} {cfg : PlatformConfig}
  {db db' db₁ : Database} {operationId : String} {now : ℤ} {p : AdmittedOperation → Bool}
  {f : AdmittedOperation → AdmittedOperation}

/-- The terminal columns are set together, so a pending operation has no settled bytes. -/
theorem settledBytes_of_pending (ho : o ∈ t) (h : o.terminalOutcome = none) :
    o.settledAuthenticatedBytes = none := by
  have hc := (Table.check ho).2.2.2.2.2.2.2.1
  simpa [h] using hc.symm

theorem terminal_of_settledBytes (ho : o ∈ t) (h : o.settledAuthenticatedBytes = some b) :
    o.terminalOutcome.isSome := by
  have hc := (Table.check ho).2.2.2.2.2.2.2.1
  simpa [h] using hc

/-- The operation invariant survives a step whose operations are old ones up to activation
and settlement, or new ones that come with their ticket and their grant. -/
theorem OperationsInv.step (inv : OperationsInv cfg db)
    (hti : ∀ t ∈ db.tickets, t.consumedAt.isSome → t ∈ db'.tickets)
    (hg : GrantsPersist db.grants db'.grants) (hw : MonthlyWindows cfg.calendar db'.grants)
    (hor : ∀ o' ∈ db'.operations, (∃ o ∈ db.operations, o.SameAdmission o') ∨
      ((∃ t ∈ db'.tickets, t.tokenHash = o'.ticketTokenHash ∧ t.consumedAt.isSome) ∧
        ∃ g ∈ db'.grants, g.funds o'.creditSubject (.forMode o'.mode) o'.admittedAt))
    (hso : ∀ o' ∈ db'.operations, o'.SettledSound) : OperationsInv cfg db' := by
  refine ⟨hw, ?_, ?_, hso⟩
  · intro o' ho'
    rcases hor o' ho' with ⟨o, ho, hs⟩ | ⟨h, -⟩
    · obtain ⟨t, ht, hto, hc⟩ := inv.consumed o ho
      rw [hs]
      exact ⟨t, hti t ht hc, hto, hc⟩
    · exact h
  · intro o' ho'
    rcases hor o' ho' with ⟨o, ho, hs⟩ | ⟨-, h⟩
    · obtain ⟨g, hgm, hf⟩ := inv.funded o ho
      obtain ⟨h, hh, hte⟩ := hg g hgm
      rw [hs]
      exact ⟨h, hh, by rw [hte.funds_eq]; exact hf⟩
    · exact h

theorem pending_of_activates (h : activates operationId o) : o.terminalOutcome = none := by
  simp only [activates, decide_eq_true_eq] at h
  exact h.2.2

theorem pending_of_settles (h : settles operationId o) : o.terminalOutcome = none := by
  simp only [settles, decide_eq_true_eq] at h
  exact h.2

theorem pending_of_expired (h : expired now o) : o.terminalOutcome = none := by
  simp only [expired, decide_eq_true_eq] at h
  exact h.2.1

theorem Redeemed.consumed_mem {request : RedeemAdmissionRequest} {ticket t : AdmissionTicket}
    (h : Redeemed cfg request now db db' ticket operation) (ht : t ∈ db.tickets)
    (hc : t.consumedAt.isSome) : t ∈ db'.tickets := by
  refine mem_update_of_not h.tickets ht ?_
  simp only [decide_eq_false_iff_not, not_and]
  exact fun _ hn => by simp [hn] at hc

theorem OperationsInv.update (inv : OperationsInv cfg db)
    (hop : db.operations.update p f = some db'.operations) (hti : db'.tickets = db.tickets)
    (hg : GrantsPersist db.grants db'.grants) (hw : MonthlyWindows cfg.calendar db'.grants)
    (hsa : ∀ o : AdmittedOperation, o.SameAdmission (f o))
    (hs : ∀ o ∈ db.operations, p o → (f o).SettledSound) : OperationsInv cfg db' := by
  have hor {o' : AdmittedOperation} (ho' : o' ∈ db'.operations) :
      (∃ o ∈ db.operations, o.SameAdmission o') ∧ o'.SettledSound := by
    obtain ⟨o, ho, rfl⟩ := (mem_of_update hop).mp ho'
    by_cases hp : p o
    · simpa [hp] using ⟨⟨o, ho, hsa o⟩, hs o ho hp⟩
    · simpa [hp] using ⟨⟨o, ho, rfl⟩, inv.sound o ho⟩
  exact inv.step (fun t ht _ => hti ▸ ht) hg hw (fun o' ho' => .inl (hor ho').1)
    fun o' ho' => (hor ho').2

theorem DebitsInv.of_debit (inv : DebitsInv db) (ho : o ∈ db.operations) (hd : d ∈ db.debits)
    (hi : d.operationId = some o.operationId) :
    o.settledAuthenticatedBytes = some d.allowanceBytes ∧ 0 < d.allowanceBytes := by
  obtain ⟨o', ho', hi', hb, hp⟩ := inv.settled d hd
  have hk : o'.operationId = o.operationId := Option.some_inj.mp (hi'.symm.trans hi)
  obtain rfl := eq_of_key ho' ho hk
  exact ⟨hb, hp⟩

/-- Updating pending operations to zero settled bytes, or none, needs no debit. -/
theorem DebitsInv.update (inv : DebitsInv db) (hop : db.operations.update p f = some t)
    (hpe : ∀ o : AdmittedOperation, p o → o.terminalOutcome = none)
    (hz : ∀ o ∈ db.operations, p o → ∀ b, (f o).settledAuthenticatedBytes = some b → b = 0) :
    DebitsInv { db with operations := t } := by
  refine { inv with debited := ?_, settled := ?_ }
  · intro _ ho' b hb hpo
    obtain ⟨o, ho, rfl⟩ := (mem_of_update hop).mp ho'
    by_cases hp : p o
    · simp only [hp, if_true] at hb
      exact absurd (hz o ho hp b hb) (by omega)
    · simp only [hp] at hb ⊢
      exact inv.debited o ho b hb hpo
  · intro d hd
    obtain ⟨o, ho, hi, hb, hpo⟩ := inv.settled d hd
    have hp : p o = false := by
      by_contra hp
      have := settledBytes_of_pending ho (hpe o (by simpa using hp))
      simp [this] at hb
    exact ⟨o, mem_update_of_not hop ho hp, hi, hb, hpo⟩

/-- Recording the debit of a pending operation and then settling it with the same bytes
keeps debits and operations matched. -/
theorem DebitsInv.settle (inv : DebitsInv db) (hm : operation ∈ db.operations)
    (ht : operation.terminalOutcome = none) (hr : DebitRecorded db db₁ debit)
    (hi : debit.operationId = some operation.operationId) (hby : debit.allowanceBytes = bytes)
    (hpo : 0 < bytes) (hop : db.operations.update (settles operation.operationId)
      (·.settled outcome bytes now) = some t) : DebitsInv { db₁ with operations := t } := by
  have hde {d : CreditDebit} : d ∈ db₁.debits ↔ d ∈ db.debits ∨ d = debit := mem_of_insert hr.debits
  obtain ⟨new, hro, hn, hs⟩ := hr.allocations
  -- The new debit's identifier is fresh, so no earlier allocation carries it.
  have hf : ∀ a ∈ db.allocations, a.debitId ≠ debit.id := by
    intro a ha he
    obtain ⟨_, hd, hda⟩ := inv.owned a ha
    exact fresh_of_insert hr.debits hd (hda.trans he)
  refine ⟨?_, ?_, ?_, ?_⟩
  · intro _ ho' b hb hb'
    obtain ⟨o, ho, rfl⟩ := (mem_of_update hop).mp ho'
    by_cases hp : settles operation.operationId o
    · refine ⟨debit, hde.mpr (.inr rfl), ?_⟩
      simp only [settles, decide_eq_true_eq] at hp
      simp [settles, hp, AdmittedOperation.settled, hi]
    · simp only [hp] at hb ⊢
      obtain ⟨d, hd, hdo⟩ := inv.debited o ho b hb hb'
      exact ⟨d, hde.mpr (.inl hd), hdo⟩
  · intro d hd
    rcases hde.mp hd with hd | rfl
    · obtain ⟨o, ho, hdo, hb, hb'⟩ := inv.settled d hd
      have hp : settles operation.operationId o = false := by
        by_contra hp
        simp only [settles, Bool.not_eq_false, decide_eq_true_eq] at hp
        simp [settledBytes_of_pending ho hp.2] at hb
      exact ⟨o, mem_update_of_not hop ho hp, hdo, hb, hb'⟩
    · exact ⟨_, mem_update_of hop hm (by simp [settles, ht]), hi,
        by rw [hby]; rfl, by omega⟩
  · intro a ha
    have ha' : a ∈ db.allocations.rows ++ new := hro ▸ ha
    rcases mem_append.mp ha' with ha | ha
    · obtain ⟨d, hd, hda⟩ := inv.owned a ha
      exact ⟨d, hde.mpr (.inl hd), hda⟩
    · exact ⟨debit, hde.mpr (.inr rfl), (hn a ha).symm⟩
  · intro d hd
    change (((db₁.allocations.rows.filter fun a => a.debitId = d.id)).map _).sum = _
    rw [hro, filter_append]
    rcases hde.mp hd with hd | rfl
    · have hno : new.filter (fun a => a.debitId = d.id) = [] := by
        simp only [filter_eq_nil_iff, decide_eq_true_eq]
        intro a ha he
        exact fresh_of_insert hr.debits hd (he.symm.trans (hn a ha))
      rw [hno, append_nil]
      exact inv.total d hd
    · have hol : db.allocations.rows.filter (fun a => a.debitId = d.id) = [] :=
        filter_eq_nil_iff.mpr fun a ha => by simpa using hf a ha
      have hal : new.filter (fun a => a.debitId = d.id) = new := by
        simpa only [filter_eq_self, decide_eq_true_eq] using hn
      rw [hol, hal, nil_append, hs]

structure LedgerInv (cfg : PlatformConfig) (db : Database) : Prop where
  operations : OperationsInv cfg db
  debits : DebitsInv db

theorem ledgerInv_empty (cfg : PlatformConfig) : LedgerInv cfg {} := by
  refine ⟨⟨?_, ?_, ?_, ?_⟩, ⟨?_, ?_, ?_, ?_⟩⟩ <;> intro x hx <;> simp at hx

namespace LedgerInv

variable {cfg : PlatformConfig} {db : Database}

section

variable (inv : LedgerInv cfg db)
include inv

theorem redeem (h : Redeemed cfg request now db db' ticket operation) :
    LedgerInv cfg db' := by
  obtain ⟨_, _, hop⟩ := h.admitted
  have hm {o : AdmittedOperation} : o ∈ db'.operations ↔ o ∈ db.operations ∨ o = operation :=
    mem_of_insert h.operations
  refine ⟨inv.operations.step ?_ h.persist h.windows ?_ ?_, ?_⟩
  · exact fun t ht hc => h.consumed_mem ht hc
  · intro o' ho'
    rcases hm.mp ho' with ho | rfl
    · exact .inl ⟨o', ho, rfl⟩
    · have hco := mem_update_of h.tickets h.ticket_mem (by simp [h.unconsumed])
      rw [hop]
      exact .inr ⟨⟨_, hco, rfl, rfl⟩, h.funded⟩
  · intro o' ho'
    rcases hm.mp ho' with ho | rfl
    · exact inv.operations.sound o' ho
    · rw [hop]
      intro _ hb
      simp [admittedOperation] at hb
  · rw [h.frame]
    refine { inv.debits with debited := ?_, settled := ?_ }
    · intro o' ho' b hb hp
      rcases hm.mp ho' with ho | rfl
      · exact inv.debits.debited o' ho b hb hp
      · rw [hop] at hb
        simp [admittedOperation] at hb
    · intro d hd
      obtain ⟨o, ho, rest⟩ := inv.debits.settled d hd
      exact ⟨o, hm.mpr (.inl ho), rest⟩

theorem activate (ht : db.operations.update (activates operationId)
      (fun o => { o with activatedAt := some now }) = some t) :
    LedgerInv cfg { db with operations := t } := by
  -- An activated row was pending, so it has no settled bytes.
  have hn : ∀ o ∈ db.operations, activates operationId o → o.settledAuthenticatedBytes = none := by
    exact fun o ho hp => settledBytes_of_pending ho (pending_of_activates hp)
  refine ⟨inv.operations.update ht rfl (.refl _) inv.operations.windows (fun _ => rfl) ?_,
    inv.debits.update ht (fun _ => pending_of_activates) ?_⟩
  · intro o ho hp _ hb
    simp [hn o ho hp] at hb
  · intro o ho hp _ hb
    simp [hn o ho hp] at hb

theorem recover
    (ht : db.operations.update (expired now) (·.settled .serviceFailed 0 now) = some t) :
    LedgerInv cfg { db with operations := t } := by
  refine ⟨inv.operations.update ht rfl (.refl _) inv.operations.windows (fun _ => rfl) ?_,
    inv.debits.update ht (fun _ => pending_of_expired) ?_⟩
  · intro _ _ _ b hb
    obtain rfl : 0 = b := by simpa [AdmittedOperation.settled] using hb
    exact ⟨fun _ => rfl, fun _ => ⟨.inl rfl, by simp [AdmittedOperation.settled]⟩⟩
  · intro _ _ _ _ hb
    simpa [AdmittedOperation.settled, eq_comm] using hb

theorem settle (hme : operation ∈ db.operations) (hmo : operation.mode = request.mode)
    (hv : SettlementBytesValid operation request) (hne : 0 ≤ request.authenticatedBytes)
    (h : Settled ids request now db db' operation) : LedgerInv cfg db' := by
  obtain ⟨db₁, hd, _, ht, rfl⟩ := h.effect
  -- The update selects the operation itself, because identifiers are unique.
  have hse : ∀ o ∈ db.operations, settles operation.operationId o → o = operation := by
    intro _ ho hp
    simp only [settles, decide_eq_true_eq] at hp
    exact eq_of_key ho hme hp.1
  have hso : (operation.settled request.outcome request.authenticatedBytes now).SettledSound := by
    intro b hb
    obtain rfl : request.authenticatedBytes = b := by simpa [AdmittedOperation.settled] using hb
    refine ⟨fun hn => (h.activated hn).2, fun hm => ?_⟩
    have hm' : request.mode = .notarization := hmo ▸ hm
    simp only [SettlementBytesValid, hm'] at hv
    obtain ⟨_, ha, hz, hc⟩ := hv
    refine ⟨hz.imp id fun e => by rw [e]; exact ha, fun ho => ?_⟩
    rw [hc (by simpa [AdmittedOperation.settled] using ho)]
    exact ha
  have hs : ∀ o ∈ db.operations, settles operation.operationId o →
      (o.settled request.outcome request.authenticatedBytes now).SettledSound :=
    fun o ho hp => hse o ho hp ▸ hso
  split_ifs at hd with hpo
  · have hti : db₁.tickets = db.tickets := by rw [hd.frame]
    have hgr : GrantsPersist db.grants db₁.grants ∧ MonthlyWindows cfg.calendar db₁.grants := by
      rcases hd.grants with e | ⟨_, hov, hg, -⟩
      · rw [e]
        exact ⟨.refl _, inv.operations.windows⟩
      · exact ⟨grantsPersist_of_insert hg,
          monthlyWindows_insert inv.operations.windows hg (by simp [hov])⟩
    exact ⟨inv.operations.update ht hti hgr.1 hgr.2 (fun _ => rfl) hs,
      inv.debits.settle hme h.pending hd rfl rfl hpo ht⟩
  · subst hd
    refine ⟨inv.operations.update ht rfl (.refl _) inv.operations.windows (fun _ => rfl) hs,
      inv.debits.update ht (fun _ => pending_of_settles) fun o ho hp b hb => ?_⟩
    obtain rfl : request.authenticatedBytes = b := by simpa [AdmittedOperation.settled] using hb
    omega

/-- A step that only adds tickets or grants, or touches the billing profiles. -/
theorem frame (hti : ∀ t ∈ db.tickets, t ∈ tickets) (hg : GrantsPersist db.grants grants)
    (hw : MonthlyWindows cfg.calendar grants) :
    LedgerInv cfg { db with tickets := tickets, grants := grants, profiles := profiles } :=
  ⟨inv.operations.step (fun t ht _ => hti t ht) hg hw (fun o ho => .inl ⟨o, ho, rfl⟩)
    inv.operations.sound, { inv.debits with }⟩

end

end LedgerInv

/-- What a later version of the tables keeps: consumed tickets, settled operations, and the
admission of every operation. -/
structure Persists (db db' : Database) : Prop where
  tickets : ∀ t ∈ db.tickets, t.consumedAt.isSome → t ∈ db'.tickets
  terminal : ∀ o ∈ db.operations, o.terminalOutcome.isSome → o ∈ db'.operations
  operations : ∀ o ∈ db.operations, ∃ o' ∈ db'.operations, o.SameAdmission o'

theorem Persists.of_tables (hop : db'.operations = db.operations)
    (hti : ∀ t ∈ db.tickets, t ∈ db'.tickets) : Persists db db' :=
  ⟨fun t ht _ => hti t ht, fun _ ho _ => hop ▸ ho, fun o ho => ⟨o, hop ▸ ho, rfl⟩⟩

theorem Persists.refl (db : Database) : Persists db db := .of_tables rfl fun _ ht => ht

theorem Persists.trans (h : Persists db₁ db₂) (h' : Persists db₂ db₃) :
    Persists db₁ db₃ := by
  refine ⟨fun t ht hc => h'.tickets t (h.tickets t ht hc) hc,
    fun o ho hs => h'.terminal o (h.terminal o ho hs) hs, fun o ho => ?_⟩
  obtain ⟨o', ho', hs⟩ := h.operations o ho
  obtain ⟨o'', ho'', hs'⟩ := h'.operations o' ho'
  refine ⟨o'', ho'', ?_⟩
  rw [AdmittedOperation.SameAdmission, hs', hs]

theorem Persists.update (ht : db.operations.update p f = some t) (hti : db₁.tickets = db.tickets)
    (hpe : ∀ o : AdmittedOperation, p o → o.terminalOutcome = none)
    (hsa : ∀ o : AdmittedOperation, o.SameAdmission (f o)) :
    Persists db { db₁ with operations := t } := by
  refine ⟨fun k hk _ => hti ▸ hk, fun o ho hs => ?_, fun o ho => ?_⟩
  · refine mem_update_of_not ht ho ?_
    by_contra hp
    simp [hpe o (by simpa using hp)] at hs
  · refine ⟨_, (mem_of_update ht).mpr ⟨o, ho, rfl⟩, ?_⟩
    split
    · exact hsa o
    · rfl

/-- The invariant holds afterwards and nothing that must persist was lost. -/
def Keeps (cfg : PlatformConfig) (db db' : Database) : Prop :=
  LedgerInv cfg db' ∧ Persists db db'

theorem Transaction.run_keeps (inv : LedgerInv cfg db) (t : Transaction) :
    Keeps cfg db (t.run cfg db) := by
  have hw := inv.operations.windows
  have hsa : Keeps cfg db db := ⟨inv, .refl db⟩
  cases t with
  | issue =>
    refine exec_inv (P := Keeps cfg db) hsa fun r db' h => ?_
    obtain ⟨_, _, tt, -, -, htt, hg, hw', rfl⟩ := issueAdmission_ok hw h
    have hk : ∀ t ∈ db.tickets, t ∈ tt := fun t ht => (mem_of_insert htt).mpr (.inl ht)
    exact ⟨inv.frame hk hg hw', .of_tables rfl hk⟩
  | redeem =>
    refine exec_inv (P := Keeps cfg db) hsa fun r db' h => ?_
    obtain ⟨_, _, hr, -⟩ := redeemAdmission_ok hw h
    have hk : ∀ o ∈ db.operations, o ∈ db'.operations :=
      fun o ho => (mem_of_insert hr.operations).mpr (.inl ho)
    refine ⟨inv.redeem hr, fun t ht hc => ?_, fun o ho _ => hk o ho, fun o ho => ⟨o, hk o ho, rfl⟩⟩
    exact hr.consumed_mem ht hc
  | activate =>
    refine exec_inv (P := Keeps cfg db) hsa fun r db' h => ?_
    obtain ⟨_, -, -, -, -, ⟨-, rfl⟩ | ⟨-, -, _, ht, rfl⟩⟩ := activateOperation_ok h
    · exact hsa
    · exact ⟨inv.activate ht, .update ht rfl (fun _ => pending_of_activates) fun _ => rfl⟩
  | recover =>
    refine exec_inv (P := Keeps cfg db) hsa fun r db' h => ?_
    obtain ⟨_, ht, rfl⟩ := recoverExpiredActivations_ok h
    exact ⟨inv.recover ht, .update ht rfl (fun _ => pending_of_expired) fun _ => rfl⟩
  | settle =>
    refine exec_inv (P := Keeps cfg db) hsa fun r db' h => ?_
    obtain ⟨hn, _, hme, -, -, hm, hv, ⟨-, -, rfl⟩ | hs⟩ := settleUsage_ok h
    · exact hsa
    · refine ⟨inv.settle hme hm hv hn hs, ?_⟩
      obtain ⟨_, hd, _, ht, rfl⟩ := hs.effect
      refine .update ht ?_ (fun _ => pending_of_settles) fun _ => rfl
      split_ifs at hd
      · rw [hd.frame]
      · rw [hd]
  | purchase =>
    refine exec_inv (P := Keeps cfg db) hsa fun r db' h => ?_
    rcases createCreditGrant_ok h with ⟨rfl, -⟩ | ⟨-, _, ht, rfl⟩
    · exact hsa
    · exact ⟨inv.frame (fun _ ht => ht) (grantsPersist_of_insert ht) (monthlyWindows_insert hw ht
          (by simp [CreditGrantSpec.toGrant, externalPurchaseSpec])),
        .of_tables rfl fun _ ht => ht⟩
  | billing =>
    refine exec_inv (P := Keeps cfg db) hsa fun r db' h => ?_
    obtain ⟨_, rfl, -⟩ := setAccountBillingState_ok h
    exact ⟨inv.frame (fun _ ht => ht) (.refl _) hw, .of_tables rfl fun _ ht => ht⟩

theorem ledgerInv_of_reachable (h : (ledger cfg).Reachable db) : LedgerInv cfg db := by
  refine h.invariant (fun i hi => ?_) ?_
  · rw [show i = {} from hi]
    exact ledgerInv_empty cfg
  · rintro _ _ inv ⟨t, rfl⟩
    exact (t.run_keeps inv).1

theorem persists_of_run (h : (ledger cfg).Reachable db) (hr : (ledger cfg).Run db db') :
    Persists db db' := by
  refine h.stable hr (.refl db) ?_
  rintro _ _ ha hp ⟨t, rfl⟩
  exact hp.trans (t.run_keeps (ledgerInv_of_reachable ha)).2

end Notary.Platform
