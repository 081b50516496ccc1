import Notary.Lib.Table
import Notary.Lib.Transaction

/-! Rows and constraints of the admission and credit tables of the platform database,
after the three migrations. Constant columns are left out, and a check that evaluates
to `NULL` passes, as it does in SQL. -/

namespace Notary.Platform
open Relational

/-- An error reply. `logged` is the cause that `internal` writes to the log and keeps
out of the reply. -/
structure ApiError where
  status : ℕ
  code : String
  message : String
  logged : Option String := none
  deriving DecidableEq

namespace ApiError

def coded (status : ℕ) (code message : String) : ApiError := ⟨status, code, message, none⟩

def badRequest (message : String) : ApiError := coded 400 message message

def gone (message : String) : ApiError := coded 410 message message

def conflict (message : String) : ApiError := coded 409 message message

def internal (cause : String) : ApiError :=
  ⟨500, "internal server error", "internal server error", some cause⟩

end ApiError

/-- Every failure of a statement, including a violated constraint. -/
def databaseError : ApiError := .internal "database error"

inductive AdmissionMode
  | capture | notarization
  deriving DecidableEq

/-- The tier `publicTier` is the pool of requests without an account. -/
inductive AdmissionTier
  | publicTier | free | oneGb | tenGb
  deriving DecidableEq

inductive Plan
  | free | oneGb | tenGb
  deriving DecidableEq

inductive CreditKind
  | capture | notarization
  deriving DecidableEq

namespace CreditKind

def asStr : CreditKind → String
  | capture => "capture"
  | notarization => "notarization"

def forMode : AdmissionMode → CreditKind
  | .capture => capture
  | .notarization => notarization

end CreditKind

inductive BillingStatus
  | active | review
  deriving DecidableEq

inductive UsageSettlementOutcome
  | completed | clientFailed | serviceFailed
  deriving DecidableEq

/-- `octet_length(text) BETWEEN low AND high`. -/
def octetsBetween (low high : ℕ) (text : String) : Prop :=
  low ≤ text.utf8ByteSize ∧ text.utf8ByteSize ≤ high
  deriving Decidable

/-- Sixty-four lowercase hexadecimal digits, the pattern of a digest column. -/
def isDigest (text : String) : Bool :=
  text.length == 64 && text.toList.all fun c => c.isDigit || ('a' ≤ c && c ≤ 'f')

/-- The check that ties the notarization columns to the mode. A missing value makes the
condition `NULL`, so only a present value is tested in notarization mode. -/
def modeColumnsCheck (mode : AdmissionMode) (recordDigest : Option String)
    (allowance : Option ℤ) : Prop :=
  match mode with
  | .capture => recordDigest = none ∧ allowance = none
  | .notarization => recordDigest.all isDigest ∧ allowance.all fun a => 0 < a

instance (mode : AdmissionMode) (recordDigest : Option String) (allowance : Option ℤ) :
    Decidable (modeColumnsCheck mode recordDigest allowance) :=
  match mode with
  | .capture => inferInstanceAs (Decidable (recordDigest = none ∧ allowance = none))
  | .notarization =>
    inferInstanceAs (Decidable (recordDigest.all isDigest ∧ allowance.all fun a => 0 < a))

/-- A row of `admission_tickets`. -/
structure AdmissionTicket where
  tokenHash : String
  accountId : Option String
  creditSubject : String
  admissionTier : AdmissionTier
  mode : AdmissionMode
  registryGeneration : ℤ
  recordDigest : Option String
  notarizationAllowanceBytes : Option ℤ
  maxAttestableHttpBytes : ℤ
  maxFrameBytes : ℤ
  issuedAt : ℤ
  expiresAt : ℤ
  consumedAt : Option ℤ
  deriving DecidableEq

instance : Schema AdmissionTicket where
  Key := String
  key := AdmissionTicket.tokenHash
  Check t := octetsBetween 1 160 t.creditSubject ∧ 0 ≤ t.registryGeneration ∧
    0 < t.maxAttestableHttpBytes ∧ 0 < t.maxFrameBytes ∧
    modeColumnsCheck t.mode t.recordDigest t.notarizationAllowanceBytes
  Clash _ _ := False

/-- A row of `admitted_operations`. -/
structure AdmittedOperation where
  operationId : String
  ticketTokenHash : String
  notaryInstanceId : String
  accountId : Option String
  creditSubject : String
  admissionTier : AdmissionTier
  mode : AdmissionMode
  recordDigest : Option String
  notarizationAllowanceBytes : Option ℤ
  maxAttestableHttpBytes : ℤ
  admittedAt : ℤ
  activationDeadline : ℤ
  activatedAt : Option ℤ
  terminalOutcome : Option UsageSettlementOutcome
  settledAuthenticatedBytes : Option ℤ
  settledAt : Option ℤ
  deriving DecidableEq

instance : Schema AdmittedOperation where
  Key := String
  key := AdmittedOperation.operationId
  Check o := octetsBetween 1 128 o.notaryInstanceId ∧ octetsBetween 1 160 o.creditSubject ∧
    0 < o.maxAttestableHttpBytes ∧
    (o.settledAuthenticatedBytes.all fun b => 0 ≤ b) ∧
    o.admittedAt ≤ o.activationDeadline ∧
    (o.activatedAt.all fun a => o.admittedAt ≤ a ∧ a ≤ o.activationDeadline) ∧
    modeColumnsCheck o.mode o.recordDigest o.notarizationAllowanceBytes ∧
    (o.terminalOutcome.isSome = o.settledAuthenticatedBytes.isSome ∧
      o.terminalOutcome.isSome = o.settledAt.isSome)
  Clash o p := o.ticketTokenHash = p.ticketTokenHash

/-- A row of `account_billing_profiles`. -/
structure AccountBillingProfile where
  accountId : String
  plan : Plan
  billingStatus : BillingStatus
  updatedAt : ℤ
  deriving DecidableEq

instance : Schema AccountBillingProfile where
  Key := String
  key := AccountBillingProfile.accountId
  Check _ := True
  Clash _ _ := False

inductive GrantSource
  | includedMonthly | promotion | manualAdjustment | externalPurchase | serviceRefund
  | operationOverage
  deriving DecidableEq

/-- A row of `credit_grants`. -/
structure CreditGrant where
  id : String
  creditSubject : String
  accountId : Option String
  creditKind : CreditKind
  amountBytes : ℤ
  sourceKind : GrantSource
  sourceReference : String
  idempotencyKey : String
  periodStart : Option ℤ
  periodEnd : Option ℤ
  createdAt : ℤ
  availableAt : ℤ
  expiresAt : Option ℤ
  displayLabel : Option String
  deriving DecidableEq

instance : Schema CreditGrant where
  Key := String
  key := CreditGrant.id
  Check g := octetsBetween 1 160 g.creditSubject ∧
    (if g.sourceKind = .operationOverage then g.amountBytes = 0 else 0 < g.amountBytes) ∧
    octetsBetween 1 256 g.sourceReference ∧ octetsBetween 1 256 g.idempotencyKey ∧
    (g.displayLabel.all fun l => l.utf8ByteSize ≤ 120) ∧
    (g.expiresAt.all fun e => g.availableAt < e) ∧
    (g.periodStart.isSome = decide (g.sourceKind = .includedMonthly) ∧
      g.periodEnd.isSome = decide (g.sourceKind = .includedMonthly))
  Clash g h := g.creditSubject = h.creditSubject ∧
    (g.idempotencyKey = h.idempotencyKey ∨
      g.sourceKind = h.sourceKind ∧ g.sourceReference = h.sourceReference)

/-- A row of `credit_debits`. -/
structure CreditDebit where
  id : String
  creditSubject : String
  accountId : Option String
  creditKind : CreditKind
  allowanceBytes : ℤ
  createdAt : ℤ
  operationId : Option String
  deriving DecidableEq

instance : Schema CreditDebit where
  Key := String
  key := CreditDebit.id
  Check d := octetsBetween 1 160 d.creditSubject ∧ 0 ≤ d.allowanceBytes
  Clash d e := d.operationId.isSome ∧ d.operationId = e.operationId

/-- A row of `credit_debit_allocations`. -/
structure CreditAllocation where
  debitId : String
  grantId : String
  amountBytes : ℤ
  allocationOrder : ℤ
  deriving DecidableEq

instance : Schema CreditAllocation where
  Key := String × String
  key a := (a.debitId, a.grantId)
  Check a := 0 < a.amountBytes ∧ 0 ≤ a.allocationOrder
  Clash a b := a.debitId = b.debitId ∧ a.allocationOrder = b.allocationOrder

inductive AdjustmentSource
  | purchaseRefund | purchaseDispute | disputeReinstatement
  deriving DecidableEq

/-- The credit subject of an account. -/
def accountCreditSubject (accountId : String) : String := "account:" ++ accountId

/-- A row of `credit_adjustments`. -/
structure CreditAdjustment where
  id : String
  creditSubject : String
  accountId : String
  purchaseId : String
  amountBytes : ℤ
  sourceKind : AdjustmentSource
  sourceReference : String
  idempotencyKey : String
  displayLabel : String
  createdAt : ℤ
  deriving DecidableEq

instance : Schema CreditAdjustment where
  Key := String
  key := CreditAdjustment.id
  Check a := octetsBetween 1 160 a.creditSubject ∧
    octetsBetween 1 256 a.sourceReference ∧ octetsBetween 1 256 a.idempotencyKey ∧
    octetsBetween 1 120 a.displayLabel ∧
    a.creditSubject = accountCreditSubject a.accountId ∧
    (if a.sourceKind = .disputeReinstatement then 0 < a.amountBytes else a.amountBytes < 0)
  Clash a b := a.creditSubject = b.creditSubject ∧
    (a.idempotencyKey = b.idempotencyKey ∨
      a.sourceKind = b.sourceKind ∧ a.sourceReference = b.sourceReference)

end Notary.Platform
