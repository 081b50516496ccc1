import Notary.Lib.Statement
import Notary.Lib.Utf8

/-! The metadata records of the capture daemon and the tables of its local store. -/

namespace Notary.Daemon
open Relational

inductive CaptureStatus
  | capturing | captured | failed
  deriving DecidableEq

inductive NotarizationStatus
  | notRequested | queued | running | interrupted | failed | succeeded
  deriving DecidableEq

inductive OperationState
  | queued | running | interrupted | failed | succeeded
  deriving DecidableEq

/-- The value of `notarization_status` that names the state of an operation. -/
def OperationState.status : OperationState → NotarizationStatus
  | queued => .queued
  | running => .running
  | interrupted => .interrupted
  | failed => .failed
  | succeeded => .succeeded

inductive AttemptState
  | running | interrupted | failed | succeeded
  deriving DecidableEq

def AttemptState.operationState : AttemptState → OperationState
  | running => .running
  | interrupted => .interrupted
  | failed => .failed
  | succeeded => .succeeded

inductive ArtifactKind
  | captureCheckpoint | tracePackage
  deriving DecidableEq

/-- The durable capture fields that are safe and useful to query locally. -/
structure NewTrace where
  traceId : String
  createdAtUnixMs : UInt64
  provider : String
  operation : String
  requestedModel : Option String
  streaming : Bool
  requestBytes : UInt64
  promptPreview : String
  promptPreviewTruncated : Bool
  configFingerprint : String
  deriving DecidableEq

/-- Capture fields committed after the encrypted artifact is durably stored. -/
structure CaptureCompletion where
  traceId : String
  completedAtUnixMs : UInt64
  durationMs : UInt64
  httpStatus : UInt16
  responseBytes : UInt64
  responseModel : Option String
  outputPreview : String
  outputPreviewTruncated : Bool
  expectedArtifactSizeBytes : UInt64
  expectedArtifactSha256 : String
  deriving DecidableEq

structure ArtifactRecord where
  traceId : String
  kind : ArtifactKind
  locator : String
  sizeBytes : UInt64
  sha256 : String
  deriving DecidableEq

structure IncompleteCapture where
  traceId : String
  completion : Option CaptureCompletion
  deriving DecidableEq

/-- A column holds a signed 64-bit integer. -/
def FitsI64 (n : UInt64) : Prop := n.toNat < 2 ^ 63
  deriving Decidable

/-- A nullable column holds such an integer. -/
def NullableI64 (n : Option UInt64) : Prop := ∀ m ∈ n, FitsI64 m

instance : (n : Option UInt64) → Decidable (NullableI64 n)
  | none => isTrue (by simp [NullableI64])
  | some m => decidable_of_iff (FitsI64 m) (by simp [NullableI64])

/-- The characters outside `[^A-Za-z0-9._-]`. -/
def isIdentifierChar (c : Char) : Bool := c.isAlphanum || c = '.' || c = '_' || c = '-'

/-- The check on an identifier column: its tag, its length, and its characters. -/
def Identifier (tag : String) (shortest : ℕ) (s : String) : Prop :=
  shortest ≤ (Utf8.chars s).length ∧ (Utf8.chars s).length ≤ 128 ∧
    Utf8.chars tag <+: Utf8.chars s ∧ (Utf8.chars s).all isIdentifierChar = true
  deriving Decidable

/-- A row of `traces`. -/
structure Trace where
  traceId : String
  createdAtUnixMs : UInt64
  completedAtUnixMs : Option UInt64
  provider : String
  operation : String
  requestedModel : Option String
  responseModel : Option String
  httpStatus : Option UInt16
  streaming : Bool
  requestBytes : UInt64
  responseBytes : Option UInt64
  durationMs : Option UInt64
  promptPreview : String
  promptPreviewTruncated : Bool
  outputPreview : String
  outputPreviewTruncated : Bool
  configFingerprint : String
  captureStatus : CaptureStatus
  notarizationStatus : NotarizationStatus
  failureCode : Option String
  expectedArtifactSizeBytes : Option UInt64
  expectedArtifactSha256 : Option String
  deriving DecidableEq

instance : Schema Trace where
  Key := String
  key := Trace.traceId
  Check t := Identifier "trc-" 5 t.traceId ∧
    t.expectedArtifactSizeBytes.isNone = t.expectedArtifactSha256.isNone ∧
    NullableI64 t.completedAtUnixMs ∧ NullableI64 t.durationMs ∧ NullableI64 t.responseBytes ∧
    NullableI64 t.expectedArtifactSizeBytes
  Clash _ _ := False

/-- A row of `artifacts`. -/
structure Artifact where
  traceId : String
  kind : ArtifactKind
  locator : String
  sizeBytes : UInt64
  sha256 : String
  deriving DecidableEq

instance : Schema Artifact where
  Key := String × ArtifactKind
  key a := (a.traceId, a.kind)
  Check _ := True
  Clash _ _ := False

/-- The values of `progress_phase`. -/
inductive ProgressPhase
  | queued | preparing | proving | signing | packaging | complete
  deriving DecidableEq

/-- The milestones that a running notarization reports. -/
inductive NotarizationPhase
  | proving | signing | packaging
  deriving DecidableEq

def NotarizationPhase.column : NotarizationPhase → ProgressPhase
  | proving => .proving
  | signing => .signing
  | packaging => .packaging

def NotarizationPhase.message : NotarizationPhase → String
  | proving => "Generating private proof"
  | signing => "Requesting notary signature"
  | packaging => "Building verified package"

/-- How far the proof work of an operation is. -/
structure Progress where
  phase : ProgressPhase
  updatedAtUnixMs : UInt64
  proofBytesCompleted : UInt64
  proofBytesTotal : UInt64
  proofCommitmentsCompleted : UInt64
  proofCommitmentsTotal : UInt64
  deriving DecidableEq

def Progress.reset (phase : ProgressPhase) (now : UInt64) : Progress :=
  ⟨phase, now, 0, 0, 0, 0⟩

/-- A row of `operations`. -/
structure Operation where
  operationId : String
  traceId : String
  state : OperationState
  attempt : ℕ
  createdAtUnixMs : UInt64
  startedAtUnixMs : Option UInt64
  completedAtUnixMs : Option UInt64
  failureCode : Option String
  progress : Progress
  deriving DecidableEq

instance : Schema Operation where
  Key := String
  key := Operation.operationId
  Check o := Identifier "op-" 4 o.operationId ∧
    o.progress.proofBytesCompleted ≤ o.progress.proofBytesTotal ∧
    o.progress.proofCommitmentsCompleted ≤ o.progress.proofCommitmentsTotal
  Clash o p := o.traceId = p.traceId

/-- A row of `operation_attempts`. -/
structure OperationAttempt where
  operationId : String
  attempt : ℕ
  state : AttemptState
  startedAtUnixMs : UInt64
  completedAtUnixMs : Option UInt64
  failureCode : Option String
  deriving DecidableEq

instance : Schema OperationAttempt where
  Key := String × ℕ
  key a := (a.operationId, a.attempt)
  Check a := 0 < a.attempt
  Clash _ _ := False

/-- A row of `events`. -/
structure Event where
  eventId : ℕ
  createdAtUnixMs : UInt64
  eventType : String
  traceId : Option String
  operationId : Option String
  severity : String
  message : String
  deriving DecidableEq

inductive ShareProgress
  | verifying | shared | stopped | rejected | failed
  deriving DecidableEq

/-- A row of `trace_shares`. -/
structure TraceShare where
  traceId : String
  hostedTraceId : String
  progress : ShareProgress
  accessEnabled : Bool
  deriving DecidableEq

instance : Schema TraceShare where
  Key := String
  key := TraceShare.traceId
  Check s := 1 ≤ (Utf8.chars s.hostedTraceId).length ∧ (Utf8.chars s.hostedTraceId).length ≤ 256
  Clash s t := s.hostedTraceId = t.hostedTraceId

/-- A row of `trace_search`. -/
structure SearchDocument where
  traceId : String
  promptPreview : String
  outputPreview : String
  deriving DecidableEq

/-- The local store: its tables, the last event number, and its one option. -/
structure Database where
  traces : Table Trace := ∅
  artifacts : Table Artifact := ∅
  operations : Table Operation := ∅
  operationAttempts : Table OperationAttempt := ∅
  traceShares : Table TraceShare := ∅
  events : List Event := []
  lastEventId : ℕ := 0
  traceSearch : List SearchDocument := []
  fullTextSearch : Bool := true

def traces : Ref Database Trace := ⟨Database.traces, fun t db => { db with traces := t }⟩

def artifacts : Ref Database Artifact :=
  ⟨Database.artifacts, fun t db => { db with artifacts := t }⟩

def operations : Ref Database Operation :=
  ⟨Database.operations, fun t db => { db with operations := t }⟩

def operationAttempts : Ref Database OperationAttempt :=
  ⟨Database.operationAttempts, fun t db => { db with operationAttempts := t }⟩

def traceShares : Ref Database TraceShare :=
  ⟨Database.traceShares, fun t db => { db with traceShares := t }⟩

end Notary.Daemon
