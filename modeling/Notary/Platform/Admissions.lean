import Notary.Platform.Allocation

/-! Admission tickets and the lifecycle of an admitted operation: redeem, activate,
recover and settle. Each handler holds the ledger lock, so it runs as one step. -/

namespace Notary.Platform
open Relational

def activationWindowSecs : ℤ := 60

def maxTicketBytes : ℕ := 512

def maxInstanceIdBytes : ℕ := 128

/-- Server configuration, with the two external functions the handlers call. -/
structure PlatformConfig where
  calendar : CreditCalendar
  sha256Hex : String → String
  ticketTtlSecs : ℤ
  registryGeneration : ℕ
  publicTier : AdmissionTierLimits
  free : AdmissionTierLimits
  oneGb : AdmissionTierLimits
  tenGb : AdmissionTierLimits

def policyForPool (cfg : PlatformConfig) : AdmissionTier → AdmissionTierLimits
  | .publicTier => cfg.publicTier
  | .free => cfg.free
  | .oneGb => cfg.oneGb
  | .tenGb => cfg.tenGb

structure AccountBillingState where
  plan : Plan
  billingStatus : BillingStatus
  deriving DecidableEq

/-- An account without a profile is on the free plan. -/
def accountBillingState (accountId : String) : Request AccountBillingState := do
  let row ← TableRef.profiles.selectByKey accountId
  pure <| match row with
    | some profile => ⟨profile.plan, profile.billingStatus⟩
    | none => ⟨.free, .active⟩

def validateOpaque (value : String) (maximum : ℕ) (message : String) : Request Unit :=
  Tx.ensure (value ≠ "" ∧ value.utf8ByteSize ≤ maximum ∧
    value.toList.all fun c => c.isAlphanum || c == '-' || c == '_') (.badRequest message)

def billingReview : ApiError := .coded 402 "billing_review"
  "Hosted capture and notarization are unavailable while billing is under review"

/-- Who asks for a ticket. The billing state of an account was read before the
transaction, and the subject of an anonymous caller is derived from its address. -/
inductive AdmissionIdentity
  | account (accountId : String) (billing : AccountBillingState)
  | anonymous (creditSubject : String)
  deriving DecidableEq

namespace AdmissionIdentity

def accountId? : AdmissionIdentity → Option String
  | account accountId _ => some accountId
  | anonymous _ => none

def creditSubject : AdmissionIdentity → String
  | account accountId _ => accountCreditSubject accountId
  | anonymous creditSubject => creditSubject

def pool : AdmissionIdentity → AdmissionTier
  | account _ ⟨.free, _⟩ => .free
  | account _ ⟨.oneGb, _⟩ => .oneGb
  | account _ ⟨.tenGb, _⟩ => .tenGb
  | anonymous _ => .publicTier

def billingStatus : AdmissionIdentity → BillingStatus
  | account _ billing => billing.billingStatus
  | anonymous _ => .active

end AdmissionIdentity

structure IssueAdmissionRequest where
  mode : AdmissionMode
  recordDigest : Option String
  requestedAllowanceBytes : Option ℤ
  deriving DecidableEq

def validateTicketRequest (request : IssueAdmissionRequest) (policy : AdmissionTierLimits) :
    Request (Option String × ℤ) :=
  match request.mode with
  | .capture => do
    Tx.ensure (request.recordDigest = none ∧ request.requestedAllowanceBytes = none)
      (.badRequest "capture admission must not include notarization fields")
    pure (none, policy.maxAttestableHttpBytes)
  | .notarization => do
    let digest ← Tx.require (request.recordDigest.filter isDigest)
      (.badRequest "record_digest must be 32-byte lowercase hex")
    let allowance ← Tx.require (request.requestedAllowanceBytes.filter fun a => 0 < a)
      (.badRequest "requested notarization allowance must be positive")
    Tx.ensure (¬ policy.maxAttestableHttpBytes < allowance)
      (.badRequest "requested notarization allowance exceeds the per-session limit")
    pure (some digest, allowance)

/-- A capture ticket is bounded by the credit that is left. -/
def ticketAllowance (mode : AdmissionMode) (creditSubject : String) (requested now : ℤ) :
    Request ℤ :=
  match mode with
  | .capture => do
    let available ← availableCreditBytes creditSubject .capture now
    boundedCaptureAllowance requested available
  | .notarization => pure requested

structure AdmissionTicketResponse where
  ticket : String
  expiresAt : ℤ
  registryGeneration : ℕ
  maxAttestableHttpBytes : ℤ
  maxFrameBytes : ℤ
  deriving DecidableEq

def issueAdmission (cfg : PlatformConfig) (freshGrantId token : String)
    (identity : AdmissionIdentity) (request : IssueAdmissionRequest) (now : ℤ) :
    Request AdmissionTicketResponse := do
  Tx.ensure (identity.billingStatus ≠ .review) billingReview
  let policy := policyForPool cfg identity.pool
  let (recordDigest, requestedAllowance) ← validateTicketRequest request policy
  let registryGeneration ← Tx.require (bigint? cfg.registryGeneration)
    (.internal "Registry generation is too large")
  let kind := CreditKind.forMode request.mode
  ensureMonthlyGrant cfg.calendar freshGrantId identity.creditSubject identity.accountId? policy
    kind now
  let allowance ← ticketAllowance request.mode identity.creditSubject requestedAllowance now
  preflight identity.creditSubject kind allowance now
  TableRef.tickets.insert {
    tokenHash := cfg.sha256Hex token
    accountId := identity.accountId?
    creditSubject := identity.creditSubject
    admissionTier := identity.pool
    mode := request.mode
    registryGeneration := registryGeneration
    recordDigest := recordDigest
    notarizationAllowanceBytes :=
      if request.mode = .notarization then some allowance else none
    maxAttestableHttpBytes := policy.maxAttestableHttpBytes
    maxFrameBytes := policy.maxFrameBytes
    issuedAt := now
    expiresAt := now + cfg.ticketTtlSecs
    consumedAt := none }
  pure {
    ticket := token
    expiresAt := now + cfg.ticketTtlSecs
    registryGeneration := cfg.registryGeneration
    maxAttestableHttpBytes := policy.maxAttestableHttpBytes
    maxFrameBytes := policy.maxFrameBytes }

structure RedeemAdmissionRequest where
  ticket : String
  notaryInstanceId : String
  mode : AdmissionMode
  registryGeneration : ℕ
  usageSettlement : Bool
  deriving DecidableEq

structure RedeemedOperationResponse where
  operationId : String
  activationDeadline : ℤ
  maxAttestableHttpBytes : ℤ
  maxFrameBytes : ℤ
  recordDigest : Option String
  notarizationAllowanceBytes : Option ℤ
  deriving DecidableEq

def admissionTicketExpired : ApiError :=
  .coded 410 "admission_ticket_expired" "admission ticket is invalid or expired"

/-- The operation that a redeemed ticket admits. -/
def admittedOperation (operationId ticketTokenHash : String) (request : RedeemAdmissionRequest)
    (ticket : AdmissionTicket) (now deadline : ℤ) : AdmittedOperation where
  operationId := operationId
  ticketTokenHash := ticketTokenHash
  notaryInstanceId := request.notaryInstanceId
  accountId := ticket.accountId
  creditSubject := ticket.creditSubject
  admissionTier := ticket.admissionTier
  mode := request.mode
  recordDigest := ticket.recordDigest
  notarizationAllowanceBytes := ticket.notarizationAllowanceBytes
  maxAttestableHttpBytes := ticket.maxAttestableHttpBytes
  admittedAt := now
  activationDeadline := deadline
  activatedAt := none
  terminalOutcome := none
  settledAuthenticatedBytes := none
  settledAt := none

/-- An account ticket is void while billing is under review, and a paid tier needs the
plan it was issued for. -/
def checkTicketBilling (ticket : AdmissionTicket) : Request Unit :=
  match ticket.accountId with
  | none => pure ()
  | some accountId => do
    let billing ← accountBillingState accountId
    Tx.ensure (billing.billingStatus ≠ .review) billingReview
    Tx.ensure (¬ ((ticket.admissionTier = .oneGb ∧ billing.plan ≠ .oneGb) ∨
        (ticket.admissionTier = .tenGb ∧ billing.plan ≠ .tenGb)))
      (.coded 402 "billing_plan_changed"
        "The account plan changed after this admission ticket was issued")

/-- The ticket a redemption may consume: known, unconsumed, unexpired, issued for this
mode and registry generation, and still covered by the account's plan. -/
def redeemableTicket (cfg : PlatformConfig) (request : RedeemAdmissionRequest)
    (now requestedGeneration : ℤ) : Request AdmissionTicket := do
  let row ← TableRef.tickets.selectByKey (cfg.sha256Hex request.ticket)
  let ticket ← Tx.require row admissionTicketExpired
  Tx.ensure (ticket.consumedAt = none) (.conflict "admission ticket was already consumed")
  Tx.ensure (¬ ticket.expiresAt ≤ now) admissionTicketExpired
  Tx.ensure (ticket.mode = request.mode ∧ ticket.registryGeneration = requestedGeneration)
    (.conflict "admission ticket audience does not match")
  checkTicketBilling ticket
  pure ticket

def redeemOneOperation (cfg : PlatformConfig) (freshGrantId freshOperationId : String)
    (request : RedeemAdmissionRequest) (now requestedGeneration : ℤ) :
    Request RedeemedOperationResponse := do
  let ticket ← redeemableTicket cfg request now requestedGeneration
  let policy := policyForPool cfg ticket.admissionTier
  let kind := CreditKind.forMode request.mode
  ensureMonthlyGrant cfg.calendar freshGrantId ticket.creditSubject ticket.accountId policy kind
    now
  preflight ticket.creditSubject kind (ticket.notarizationAllowanceBytes.getD 1) now
  let deadline ← Tx.require (bigint? (now + activationWindowSecs))
    (.internal "activation deadline overflow")
  TableRef.operations.insert (admittedOperation freshOperationId (cfg.sha256Hex request.ticket)
    request ticket now deadline)
  let updated ← TableRef.tickets.update
    (fun t => t.tokenHash = cfg.sha256Hex request.ticket ∧ t.consumedAt = none)
    fun t => { t with consumedAt := some now }
  Tx.ensure (updated = 1) (.conflict "admission ticket was already consumed")
  pure {
    operationId := freshOperationId
    activationDeadline := deadline
    maxAttestableHttpBytes := ticket.maxAttestableHttpBytes
    maxFrameBytes := ticket.maxFrameBytes
    recordDigest := ticket.recordDigest
    notarizationAllowanceBytes := ticket.notarizationAllowanceBytes }

def redeemAdmission (cfg : PlatformConfig) (freshGrantId freshOperationId : String)
    (request : RedeemAdmissionRequest) (now : ℤ) : Request RedeemedOperationResponse := do
  validateOpaque request.ticket maxTicketBytes "invalid admission ticket"
  validateOpaque request.notaryInstanceId maxInstanceIdBytes
    "invalid notary instance identifier"
  Tx.ensure request.usageSettlement
    (.badRequest "durable operation usage settlement is required")
  Tx.ensure (bigint? request.registryGeneration).isSome
    (.badRequest "Registry generation is too large")
  redeemOneOperation cfg freshGrantId freshOperationId request now request.registryGeneration

structure ActivateOperationRequest where
  operationId : String
  notaryInstanceId : String
  mode : AdmissionMode
  deriving DecidableEq

def unknownOperation : ApiError := .gone "admitted operation is unknown"

def activateOperation (request : ActivateOperationRequest) (now : ℤ) : Request Unit := do
  validateOpaque request.operationId 128 "invalid operation identifier"
  validateOpaque request.notaryInstanceId maxInstanceIdBytes
    "invalid notary instance identifier"
  let row ← TableRef.operations.selectByKey request.operationId
  let operation ← Tx.require row unknownOperation
  Tx.ensure (operation.notaryInstanceId = request.notaryInstanceId ∧
      operation.mode = request.mode)
    (.conflict "activation does not match the admitted operation")
  if operation.activatedAt.isSome then pure ()
  else do
    Tx.ensure (operation.terminalOutcome = none ∧ ¬ operation.activationDeadline ≤ now)
      (.gone "operation activation window expired")
    let updated ← TableRef.operations.update
      (fun o => o.operationId = request.operationId ∧ o.activatedAt = none ∧
        o.terminalOutcome = none)
      fun o => { o with activatedAt := some now }
    Tx.ensure (updated = 1) (.gone "operation activation window expired")

structure UsageSettlementRequest where
  operationId : String
  notaryInstanceId : String
  mode : AdmissionMode
  authenticatedBytes : ℤ
  outcome : UsageSettlementOutcome
  deriving DecidableEq

def validateSettlementBytes (operation : AdmittedOperation) (request : UsageSettlementRequest) :
    Request Unit :=
  match request.mode with
  | .capture =>
    Tx.ensure (¬ (request.outcome = .completed ∧
        operation.maxAttestableHttpBytes < request.authenticatedBytes))
      (.badRequest "completed capture usage exceeds the admitted protocol limit")
  | .notarization => do
    let allowance ← Tx.require operation.notarizationAllowanceBytes
      (.internal "notarization operation is missing its authenticated allowance")
    Tx.ensure (¬ (request.authenticatedBytes ≠ 0 ∧ request.authenticatedBytes ≠ allowance))
      (.badRequest "notarization usage does not match its authenticated allowance")
    Tx.ensure (¬ (request.outcome = .completed ∧ request.authenticatedBytes ≠ allowance))
      (.badRequest "completed notarization usage must match its authenticated allowance")

/-- Only positive usage is debited. -/
def recordUsage (ids : SettlementIds) (operation : AdmittedOperation)
    (request : UsageSettlementRequest) : Request Unit :=
  if 0 < request.authenticatedBytes then
    recordOperationDebit ids operation.operationId operation.creditSubject operation.accountId
      request.mode request.authenticatedBytes operation.admittedAt
  else pure ()

def settleUsage (ids : SettlementIds) (request : UsageSettlementRequest) (now : ℤ) :
    Request Unit := do
  validateOpaque request.operationId 128 "invalid operation identifier"
  validateOpaque request.notaryInstanceId maxInstanceIdBytes
    "invalid notary instance identifier"
  Tx.ensure (¬ request.authenticatedBytes < 0)
    (.badRequest "authenticated usage must not be negative")
  let row ← TableRef.operations.selectByKey request.operationId
  let operation ← Tx.require row unknownOperation
  Tx.ensure (operation.notaryInstanceId = request.notaryInstanceId ∧
      operation.mode = request.mode)
    (.conflict "usage report does not match the admitted operation")
  validateSettlementBytes operation request
  match operation.terminalOutcome with
  | some previous =>
    Tx.ensure (previous = request.outcome ∧
        operation.settledAuthenticatedBytes = some request.authenticatedBytes)
      (.conflict "operation usage was already settled with different data")
  | none => do
    Tx.ensure (¬ (operation.activatedAt = none ∧
        (request.outcome ≠ .serviceFailed ∨ request.authenticatedBytes ≠ 0)))
      (.conflict "admitted operation is not activated")
    recordUsage ids operation request
    let _ ← TableRef.operations.update
      (fun o => o.operationId = operation.operationId ∧ o.terminalOutcome = none)
      fun o => { o with
        terminalOutcome := some request.outcome
        settledAuthenticatedBytes := some request.authenticatedBytes
        settledAt := some now }

/-- Settle every operation that was redeemed but not activated in time, and return how
many there were. -/
def recoverExpiredActivations (now : ℤ) : Request ℕ :=
  TableRef.operations.update
    (fun o => o.activatedAt = none ∧ o.terminalOutcome = none ∧ o.activationDeadline ≤ now)
    fun o => { o with
      terminalOutcome := some .serviceFailed
      settledAuthenticatedBytes := some 0
      settledAt := some now }

end Notary.Platform
