import Notary.Platform.Admissions

/-! What each committed admission handler can do to the database. -/

namespace Notary.Platform
open Relational Tx TableRef Table

theorem validateOpaque_readOnly (value : String) (maximum : ℕ) (message : String) :
    (validateOpaque value maximum message).ReadOnly :=
  readOnly_ensure _ _

theorem checkTicketBilling_readOnly (ticket : AdmissionTicket) :
    (checkTicketBilling ticket).ReadOnly := by
  unfold checkTicketBilling
  cases ticket.accountId with
  | none => exact readOnly_pure _
  | some accountId =>
    have hr : (accountBillingState accountId).ReadOnly :=
      readOnly_bind (readOnly_query _) fun _ => readOnly_pure _
    exact readOnly_bind hr fun _ =>
      readOnly_bind (readOnly_ensure _ _) fun _ => readOnly_ensure _ _

variable {cfg : PlatformConfig} {now : ℤ} {db : Database} {r : Unit × Database}

variable {request : RedeemAdmissionRequest}

theorem redeemableTicket_ok
    (h : redeemableTicket cfg request now generation db = .ok (ticket, db')) :
    db = db' ∧ db.tickets.find? (cfg.sha256Hex request.ticket) = some ticket ∧
      ticket.consumedAt = none ∧ ticket.mode = request.mode ∧
      checkTicketBilling ticket db = .ok ((), db) := by
  simp only [redeemableTicket, bind_ok, ensure_ok, require_ok, selectByKey_ok, pure_ok] at h
  obtain ⟨_, _, ⟨rfl, rfl⟩, _, _, ⟨hf, rfl⟩, _, _, ⟨hc, rfl⟩, _, _, ⟨-, rfl⟩, _, _,
    ⟨⟨hm, -⟩, rfl⟩, _, _, hb, rfl, rfl⟩ := h
  obtain rfl := checkTicketBilling_readOnly _ hb
  exact ⟨rfl, hf, hc, hm, hb⟩

variable {freshGrantId : String}

/-- A redemption consumes its ticket, ensures the grant of the ticket's subject with the allowance
of its tier, and admits an operation. -/
theorem redeemAdmission_ensures {r : RedeemedOperationResponse × Database}
    (h : redeemAdmission cfg freshGrantId freshOperationId request now db = .ok r) :
    ∃ ticket db₁ deadline operations tickets,
      db.tickets.find? (cfg.sha256Hex request.ticket) = some ticket ∧
      (ticket.consumedAt = none ∧ ticket.mode = request.mode ∧
        checkTicketBilling ticket db = .ok ((), db)) ∧
      ensureMonthlyGrant cfg.calendar freshGrantId ticket.creditSubject ticket.accountId
        (policyForPool cfg ticket.admissionTier) (.forMode request.mode) now db = .ok ((), db₁) ∧
      db₁.operations.insert (admittedOperation freshOperationId (cfg.sha256Hex request.ticket)
        request ticket now deadline) = some operations ∧
      db₁.tickets.update (fun t => t.tokenHash = cfg.sha256Hex request.ticket ∧ t.consumedAt = none)
        (fun t => { t with consumedAt := some now }) = some tickets ∧
      r = (⟨freshOperationId, deadline, ticket.maxAttestableHttpBytes, ticket.maxFrameBytes,
        ticket.recordDigest, ticket.notarizationAllowanceBytes⟩,
          { db₁ with operations := operations, tickets := tickets }) := by
  simp only [redeemAdmission, validateOpaque, bind_ok, ensure_ok] at h
  obtain ⟨_, _, ⟨-, rfl⟩, _, _, ⟨-, rfl⟩, _, _, ⟨-, rfl⟩, _, _, ⟨-, rfl⟩, h⟩ := h
  simp only [redeemOneOperation, bind_ok, ensure_ok, require_ok, insert_ok, update_ok, pure_ok] at h
  obtain ⟨ticket, _, hti, _, db₁, hm, _, _, hp, deadline, _, ⟨-, rfl⟩, _, _,
    ⟨tops, hto, rfl⟩, _, _, ⟨-, tt, htt, rfl⟩, _, _, ⟨-, rfl⟩, h₃, h₄⟩ := h
  obtain ⟨rfl, hf, ht⟩ := redeemableTicket_ok hti
  obtain rfl := preflight_readOnly _ _ _ _ hp
  exact ⟨ticket, db₁, deadline, tops, tt, hf, ht, hm, hto, htt, Prod.ext h₃.symm h₄.symm⟩

/-- An admitted operation together with the tables its redemption wrote. -/
structure Redeemed (cfg : PlatformConfig) (request : RedeemAdmissionRequest) (now : ℤ)
    (db db' : Database) (ticket : AdmissionTicket) (operation : AdmittedOperation) : Prop where
  ticket_mem : ticket ∈ db.tickets
  token : ticket.tokenHash = cfg.sha256Hex request.ticket
  unconsumed : ticket.consumedAt = none
  mode : ticket.mode = request.mode
  admitted : ∃ id deadline,
    operation = admittedOperation id ticket.tokenHash request ticket now deadline
  frame : db' = { db with
    grants := db'.grants, operations := db'.operations, tickets := db'.tickets }
  persist : GrantsPersist db.grants db'.grants
  windows : MonthlyWindows cfg.calendar db'.grants
  funded : ∃ g ∈ db'.grants, g.funds ticket.creditSubject (.forMode request.mode) now
  operations : db.operations.insert operation = some db'.operations
  tickets : db.tickets.update
    (fun t => t.tokenHash = ticket.tokenHash ∧ t.consumedAt = none)
    (fun t => { t with consumedAt := some now }) = some db'.tickets

theorem redeemAdmission_ok {r : RedeemedOperationResponse × Database}
    (hw : MonthlyWindows cfg.calendar db.grants)
    (h : redeemAdmission cfg freshGrantId freshOperationId request now db = .ok r) :
    ∃ ticket operation, Redeemed cfg request now db r.2 ticket operation ∧
      operation.operationId = freshOperationId ∧
      r.1 = {
        operationId := operation.operationId
        activationDeadline := operation.activationDeadline
        maxAttestableHttpBytes := operation.maxAttestableHttpBytes
        maxFrameBytes := ticket.maxFrameBytes
        recordDigest := operation.recordDigest
        notarizationAllowanceBytes := operation.notarizationAllowanceBytes } := by
  obtain ⟨ticket, _, _, _, _, hf, ⟨hc, hmo, -⟩, hm, hto, htt, rfl⟩ :=
    redeemAdmission_ensures h
  obtain ⟨hme, ht⟩ := find?_eq_some.mp hf
  obtain ⟨_, rfl, hpe, hwi, hfu⟩ := ensureMonthlyGrant_ok hw hm
  rw [← show ticket.tokenHash = _ from ht] at hto htt
  exact ⟨ticket, _, ⟨hme, ht, hc, hmo, ⟨_, _, rfl⟩, rfl, hpe, hwi, hfu, hto, htt⟩, rfl, rfl⟩

def activates (operationId : String) (o : AdmittedOperation) : Bool :=
  o.operationId = operationId ∧ o.activatedAt = none ∧ o.terminalOutcome = none

/-- An activation finds the operation activated, or activates it in time. -/
theorem activateOperation_ok {request : ActivateOperationRequest}
    (h : activateOperation request now db = .ok r) :
    ∃ operation ∈ db.operations, operation.operationId = request.operationId ∧
      operation.notaryInstanceId = request.notaryInstanceId ∧ operation.mode = request.mode ∧
      ((operation.activatedAt.isSome ∧ r.2 = db) ∨
        (activates request.operationId operation ∧ now < operation.activationDeadline ∧
          ∃ t, db.operations.update (activates request.operationId)
            (fun o => { o with activatedAt := some now }) = some t ∧
            r.2 = { db with operations := t })) := by
  simp only [activateOperation, validateOpaque, bind_ok, ensure_ok, require_ok, selectByKey_ok] at h
  obtain ⟨_, _, ⟨-, rfl⟩, _, _, ⟨-, rfl⟩, _, _, ⟨rfl, rfl⟩, operation, _, ⟨hf, rfl⟩, _, _,
    ⟨⟨hi, hm⟩, rfl⟩, h⟩ := h
  obtain ⟨hme, hid⟩ := find?_eq_some.mp hf
  change operation.operationId = request.operationId at hid
  refine ⟨operation, hme, hid, hi, hm, ?_⟩
  split_ifs at h with ha
  · simp only [pure_ok] at h
    exact .inl ⟨ha, h.2.symm⟩
  · simp only [bind_ok, ensure_ok, update_ok] at h
    obtain ⟨_, _, ⟨⟨hte, _⟩, rfl⟩, _, _, ⟨-, t, ht, rfl⟩, -, hr⟩ := h
    have hn : operation.activatedAt = none := by simpa using ha
    exact .inr ⟨by simp [activates, hid, hn, hte], by omega, t, ht, hr.symm⟩

/-- The settlement rules on bytes and outcome for the mode of an operation. -/
def SettlementBytesValid (operation : AdmittedOperation) (request : UsageSettlementRequest) :
    Prop :=
  match request.mode with
  | .capture => request.outcome = .completed →
      request.authenticatedBytes ≤ operation.maxAttestableHttpBytes
  | .notarization => ∃ allowance, operation.notarizationAllowanceBytes = some allowance ∧
      (request.authenticatedBytes = 0 ∨ request.authenticatedBytes = allowance) ∧
      (request.outcome = .completed → request.authenticatedBytes = allowance)

theorem validateSettlementBytes_ok {request : UsageSettlementRequest} :
    validateSettlementBytes operation request db = .ok r ↔
      SettlementBytesValid operation request ∧ db = r.2 := by
  unfold validateSettlementBytes SettlementBytesValid
  cases request.mode with
  | capture => simp only [ensure_ok, not_and, not_lt]
  | notarization =>
    simp only [bind_ok, require_ok, ensure_ok, not_and, not_not]
    constructor
    · rintro ⟨allowance, _, ⟨ha, rfl⟩, _, _, ⟨_, rfl⟩, hc, rfl⟩
      exact ⟨⟨allowance, ha, by tauto, hc⟩, rfl⟩
    · rintro ⟨⟨allowance, ha, _, hc⟩, rfl⟩
      exact ⟨allowance, _, ⟨ha, rfl⟩, (), _, ⟨by tauto, rfl⟩, hc, rfl⟩

def settles (operationId : String) (o : AdmittedOperation) : Bool :=
  o.operationId = operationId ∧ o.terminalOutcome = none

def AdmittedOperation.settled (o : AdmittedOperation) (outcome : UsageSettlementOutcome)
    (bytes now : ℤ) : AdmittedOperation :=
  { o with
    terminalOutcome := some outcome
    settledAuthenticatedBytes := some bytes
    settledAt := some now }

/-- The effect of a first settlement: the debit, if any bytes were used, and then the
terminal columns of the operation. -/
structure Settled (ids : SettlementIds) (request : UsageSettlementRequest) (now : ℤ)
    (db db' : Database) (operation : AdmittedOperation) : Prop where
  pending : operation.terminalOutcome = none
  activated : operation.activatedAt = none →
    request.outcome = .serviceFailed ∧ request.authenticatedBytes = 0
  effect : ∃ db₁, (if 0 < request.authenticatedBytes then
      DebitRecorded db db₁ (operationDebit ids.debitId operation.operationId
        operation.creditSubject operation.accountId request.mode request.authenticatedBytes
        operation.admittedAt)
      else db₁ = db) ∧
    ∃ t, db.operations.update (settles operation.operationId)
      (·.settled request.outcome request.authenticatedBytes now) = some t ∧
      db' = { db₁ with operations := t }

/-- A settlement repeats the recorded report or settles a pending operation. -/
theorem settleUsage_ok {request : UsageSettlementRequest}
    (h : settleUsage ids request now db = .ok r) : 0 ≤ request.authenticatedBytes ∧
    ∃ operation ∈ db.operations, operation.operationId = request.operationId ∧
      operation.notaryInstanceId = request.notaryInstanceId ∧ operation.mode = request.mode ∧
      SettlementBytesValid operation request ∧
      ((operation.terminalOutcome = some request.outcome ∧
          operation.settledAuthenticatedBytes = some request.authenticatedBytes ∧ r.2 = db) ∨
        Settled ids request now db r.2 operation) := by
  simp only [settleUsage, validateOpaque, bind_ok, ensure_ok, require_ok, selectByKey_ok,
    validateSettlementBytes_ok, not_lt] at h
  obtain ⟨_, _, ⟨-, rfl⟩, _, _, ⟨-, rfl⟩, _, _, ⟨hne, rfl⟩, _, _, ⟨rfl, rfl⟩, operation, _,
    ⟨hf, rfl⟩, _, _, ⟨⟨hi, hm⟩, rfl⟩, _, _, ⟨hb, rfl⟩, h⟩ := h
  obtain ⟨hme, hid⟩ := find?_eq_some.mp hf
  change operation.operationId = request.operationId at hid
  refine ⟨hne, operation, hme, hid, hi, hm, hb, ?_⟩
  cases hte : operation.terminalOutcome with
  | some =>
    simp only [hte, ensure_ok] at h
    obtain ⟨⟨rfl, hs⟩, rfl⟩ := h
    exact .inl ⟨rfl, hs, rfl⟩
  | none =>
    simp only [hte, bind_ok, ensure_ok, update_ok, pure_ok] at h
    obtain ⟨_, _, ⟨_, rfl⟩, _, db₁, hd, _, _, ⟨-, t, ht, rfl⟩, -, hr⟩ := h
    refine .inr ⟨hte, fun hn => by tauto, db₁, ?_⟩
    unfold recordUsage at hd
    split_ifs at hd ⊢ with hp
    · have hde := recordOperationDebit_ok hp hd
      rw [hde.operations_eq] at ht
      exact ⟨hde, t, ht, hr.symm⟩
    · obtain rfl := (pure_ok.mp hd).2
      exact ⟨rfl, t, ht, hr.symm⟩

def expired (now : ℤ) (o : AdmittedOperation) : Bool :=
  o.activatedAt = none ∧ o.terminalOutcome = none ∧ o.activationDeadline ≤ now

theorem recoverExpiredActivations_ok {r : ℕ × Database}
    (h : recoverExpiredActivations now db = .ok r) :
    ∃ t, db.operations.update (expired now) (·.settled .serviceFailed 0 now) = some t ∧
      r.2 = { db with operations := t } := by
  simp only [recoverExpiredActivations, update_ok] at h
  obtain ⟨-, t, ht, hr⟩ := h
  exact ⟨t, ht, hr.symm⟩

theorem validateTicketRequest_readOnly (request : IssueAdmissionRequest)
    (policy : AdmissionTierLimits) : (validateTicketRequest request policy).ReadOnly := by
  unfold validateTicketRequest
  cases request.mode with
  | capture => exact readOnly_bind (readOnly_ensure _ _) fun _ => readOnly_pure _
  | notarization =>
    exact readOnly_bind (readOnly_require _ _) fun _ =>
      readOnly_bind (readOnly_require _ _) fun _ =>
        readOnly_bind (readOnly_ensure _ _) fun _ => readOnly_pure _

theorem ticketAllowance_readOnly (mode : AdmissionMode) (subject : String) (requested now : ℤ) :
    (ticketAllowance mode subject requested now).ReadOnly := by
  cases mode with
  | capture =>
    exact readOnly_bind (availableCreditBytes_readOnly _ _ _) fun _ =>
      boundedCaptureAllowance_readOnly _ _
  | notarization => exact readOnly_pure _

/-- Issuing a ticket ensures the grant of its subject and adds a ticket of the caller's tier. -/
theorem issueAdmission_ensures {request : IssueAdmissionRequest}
    {r : AdmissionTicketResponse × Database}
    (h : issueAdmission cfg freshGrantId token identity request now db = .ok r) :
    ∃ db₁ ticket t, ensureMonthlyGrant cfg.calendar freshGrantId identity.creditSubject
        identity.accountId? (policyForPool cfg identity.pool) (.forMode request.mode) now db =
          .ok ((), db₁) ∧
      (ticket.accountId = identity.accountId? ∧ ticket.creditSubject = identity.creditSubject ∧
        ticket.admissionTier = identity.pool ∧ ticket.issuedAt = now ∧ ticket.consumedAt = none ∧
        (ticket.mode = .notarization → ticket.notarizationAllowanceBytes.isSome)) ∧
      db₁.tickets.insert ticket = some t ∧ r.2 = { db₁ with tickets := t } := by
  simp only [issueAdmission, bind_ok, ensure_ok, require_ok, insert_ok, pure_ok] at h
  obtain ⟨_, _, ⟨-, rfl⟩, ⟨_, _⟩, _, hv, _, _, ⟨-, rfl⟩, _, _, hm, _, _,
    ha, _, _, hp, _, _, ⟨tt, ht, rfl⟩, -, hr⟩ := h
  obtain rfl := validateTicketRequest_readOnly _ _ hv
  obtain rfl := preflight_readOnly _ _ _ _ hp
  obtain rfl := ticketAllowance_readOnly _ _ _ _ ha
  exact ⟨_, _, tt, hm, ⟨rfl, rfl, rfl, rfl, rfl, fun hm => by simp_all⟩, ht, hr.symm⟩

theorem issueAdmission_ok {request : IssueAdmissionRequest} {r : AdmissionTicketResponse × Database}
    (hw : MonthlyWindows cfg.calendar db.grants)
    (h : issueAdmission cfg freshGrantId token identity request now db = .ok r) :
    ∃ ticket tg tt, ticket.consumedAt = none ∧
      (ticket.mode = .notarization → ticket.notarizationAllowanceBytes.isSome) ∧
      db.tickets.insert ticket = some tt ∧ GrantsPersist db.grants tg ∧
      MonthlyWindows cfg.calendar tg ∧ r.2 = { db with grants := tg, tickets := tt } := by
  obtain ⟨_, ticket, tt, hm, ⟨-, -, -, -, hc, ha⟩, ht, hr⟩ := issueAdmission_ensures h
  obtain ⟨tg, rfl, hpe, hwi, -⟩ := ensureMonthlyGrant_ok hw hm
  exact ⟨ticket, tg, tt, hc, ha, ht, hpe, hwi, hr⟩

end Notary.Platform
