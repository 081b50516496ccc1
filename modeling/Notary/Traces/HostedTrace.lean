import Notary.Lib.Table
import Notary.Lib.Utf8
import Notary.Platform.Schema

/-! The rows of the `traces` table and what each statement of the service makes of one. Columns
that no modelled statement reads are left out. -/

namespace Notary.Traces
open Relational
open Utf8 (Bytes)
open Platform (Plan)

inductive TraceStatus
  | uploading | queued | verifying | shared | stopped | rejected | failed
  deriving DecidableEq

/-- The states that count against the storage allowance. -/
def TraceStatus.stored : TraceStatus → Bool
  | uploading | queued | verifying | shared | stopped => true
  | rejected | failed => false

/-- Object keys by the parts that the key text is made of. -/
inductive ObjectKey
  | staging (accountId traceId : String) (generation : ℕ)
  | committedStaging (accountId traceId : String) (generation : ℕ)
  | content (traceId verificationClaim sha256 : String)
  | package (traceId verificationClaim sha256 : String)
  deriving DecidableEq

structure StoredPublicArtifacts where
  contentObjectKey : ObjectKey
  contentSizeBytes : ℤ
  contentSha256 : String
  packageObjectKey : ObjectKey
  packageSizeBytes : ℤ
  packageSha256 : String
  deriving DecidableEq

structure HostedTrace where
  traceId : String
  accountId : String
  sourceTraceId : String
  idempotencyKey : String
  status : TraceStatus
  declaredPackageSizeBytes : ℤ
  declaredPackageSha256 : String
  uploadExpiresAt : ℤ
  uploadGeneration : ℕ
  /-- The generation in the two staging keys, which are written together. -/
  keyGeneration : ℕ
  accessExpiresAt : Option ℤ
  allowHighEntropy : Bool
  failureCode : Option String
  verificationClaim : Option String
  verificationStartedAt : Option ℤ
  /-- Set together, by the admission. -/
  artifacts : Option StoredPublicArtifacts
  deriving DecidableEq

instance : Schema HostedTrace where
  Key := String
  key := HostedTrace.traceId
  Check r := 0 < r.declaredPackageSizeBytes ∧
    (r.status = .shared ∨ r.status = .stopped → r.artifacts.isSome)
  Clash r s := r.accountId = s.accountId ∧
    (r.sourceTraceId = s.sourceTraceId ∨ r.idempotencyKey = s.idempotencyKey)

/-- A create request with its expiry already turned into a time. -/
structure CreateHostedTraceRequest where
  accountId : String
  sourceTraceId : String
  idempotencyKey : String
  packageSizeBytes : ℤ
  packageSha256 : String
  expiresAtChanged : Bool
  accessExpiresAt : Option ℤ
  allowHighEntropy : Bool
  reactivate : Bool
  deriving DecidableEq

/-- `None` means there is no fixed plan ceiling. -/
def traceStorageBytes : Plan → Option ℤ
  | .free => some 1000000000
  | .oneGb => some 10000000000
  | .tenGb => none

def maxI64 : ℤ := 2 ^ 63 - 1

/-- Rust's `saturating_add` on two amounts that are not negative. -/
def traceStorageAllows (limit : Option ℤ) (storedBytes requestedBytes : ℤ) : Bool :=
  limit.all (min (storedBytes + requestedBytes) maxI64 ≤ ·)

namespace HostedTrace

def stagingObjectKey (r : HostedTrace) : ObjectKey :=
  .staging r.accountId r.traceId r.keyGeneration

def committedStagingObjectKey (r : HostedTrace) : ObjectKey :=
  .committedStaging r.accountId r.traceId r.keyGeneration

def create (request : CreateHostedTraceRequest) (jobId : String) (uploadExpiresAt : ℤ) :
    HostedTrace where
  traceId := jobId
  accountId := request.accountId
  sourceTraceId := request.sourceTraceId
  idempotencyKey := request.idempotencyKey
  status := .uploading
  declaredPackageSizeBytes := request.packageSizeBytes
  declaredPackageSha256 := request.packageSha256
  uploadExpiresAt
  uploadGeneration := 0
  keyGeneration := 0
  accessExpiresAt := request.accessExpiresAt
  allowHighEntropy := request.allowHighEntropy
  failureCode := none
  verificationClaim := none
  verificationStartedAt := none
  artifacts := none

/-- An upload that expired may start again, and so may a trace rejected for a high entropy value,
with an override that it did not have. -/
def retryable (r : HostedTrace) (allowHighEntropy : Bool) : Bool :=
  (r.status = .failed && r.failureCode = some "upload_expired") ||
    (r.status = .rejected && !r.allowHighEntropy && allowHighEntropy &&
      r.failureCode.any ("high_entropy_value_".toList.isPrefixOf ·.toList))

def withAccess (r : HostedTrace) (request : CreateHostedTraceRequest) : HostedTrace :=
  { r with
    accessExpiresAt :=
      if request.expiresAtChanged then request.accessExpiresAt else r.accessExpiresAt }

/-- The new attempt gets its keys from the generation that the request read before it had the
lock. -/
def reopened (r : HostedTrace) (request : CreateHostedTraceRequest) (readGeneration : ℕ)
    (uploadExpiresAt : ℤ) : HostedTrace :=
  { r.withAccess request with
    status := .uploading
    uploadExpiresAt
    uploadGeneration := r.uploadGeneration + 1
    keyGeneration := readGeneration + 1
    allowHighEntropy := request.allowHighEntropy
    failureCode := none }

def reactivated (r : HostedTrace) (request : CreateHostedTraceRequest) : HostedTrace :=
  { r.withAccess request with status := .shared }

/-- The upload attempt that a completion or an expiry read is still open. -/
def sameAttempt (job r : HostedTrace) : Bool :=
  r.status = .uploading && r.accountId = job.accountId &&
    r.uploadGeneration = job.uploadGeneration && r.stagingObjectKey = job.stagingObjectKey &&
    r.committedStagingObjectKey = job.committedStagingObjectKey &&
    r.uploadExpiresAt = job.uploadExpiresAt

def claimed (r : HostedTrace) (claim : String) (now : ℤ) : HostedTrace :=
  { r with
    status := .verifying, verificationClaim := some claim, verificationStartedAt := some now
    failureCode := none }

def holds (r : HostedTrace) (claim : String) : Bool :=
  r.status = .verifying && r.verificationClaim = some claim

def admitted (r : HostedTrace) (stored : StoredPublicArtifacts) : HostedTrace :=
  { r with status := .shared, artifacts := some stored, verificationClaim := none }

def refused (r : HostedTrace) (code : String) : HostedTrace :=
  { r with status := .rejected, failureCode := some code, verificationClaim := none }

def requeued (r : HostedTrace) : HostedTrace :=
  { r with status := .queued, verificationClaim := none, verificationStartedAt := none }

/-- The row references an object key as its content or its package. -/
def references (r : HostedTrace) (key : ObjectKey) : Bool :=
  r.artifacts.any fun stored => stored.contentObjectKey = key || stored.packageObjectKey = key

/-- What an owner or a visitor may read of a row as public artifacts. -/
def publicArtifacts (r : HostedTrace) (now : ℤ) : Option StoredPublicArtifacts :=
  if r.status = .shared && r.accessExpiresAt.all (now < ·) then r.artifacts else none

/-- The object keys that account deletion leaves to the cleanup. -/
def objectKeys (r : HostedTrace) : List ObjectKey :=
  [r.stagingObjectKey, r.committedStagingObjectKey] ++
    (r.artifacts.map fun stored => [stored.contentObjectKey, stored.packageObjectKey]).getD []

end HostedTrace

end Notary.Traces
