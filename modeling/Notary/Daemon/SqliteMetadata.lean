import Notary.Daemon.Metadata

/-! The calls of the local metadata store. Each one is a transaction: an error rolls it back. -/

namespace Notary.Daemon
open Relational Tx

/-- A call of the store; its error is the message of the failure. -/
abbrev Call := Tx Database String

def constraintFailed : String := "constraint failed"

def outOfRange : String := "out of range integral type conversion attempted"

def noRows : String := "Query returned no rows"

namespace Database

/-- The notarization operation of a trace. -/
def operationOf (db : Database) (traceId : String) : Option Operation :=
  db.operations.rows.find? (·.traceId = traceId)

def attemptsOf (db : Database) (operationId : String) : List OperationAttempt :=
  db.operationAttempts.rows.filter (·.operationId = operationId)

end Database

def insertEvent (now : UInt64) (eventType : String) (traceId operationId : Option String)
    (severity message : String) : Call Unit := do
  ensure (FitsI64 now) outOfRange
  change fun db => { db with
    events := db.events ++
      [⟨db.lastEventId + 1, now, eventType, traceId, operationId, severity, message⟩]
    lastEventId := db.lastEventId + 1 }

/-! Captures. -/

def beginCapture (capture : NewTrace) : Call Unit := do
  ensure (FitsI64 capture.createdAtUnixMs ∧ FitsI64 capture.requestBytes) outOfRange
  traces.insert
    { traceId := capture.traceId
      createdAtUnixMs := capture.createdAtUnixMs
      completedAtUnixMs := none
      provider := capture.provider
      operation := capture.operation
      requestedModel := capture.requestedModel
      responseModel := none
      httpStatus := none
      streaming := capture.streaming
      requestBytes := capture.requestBytes
      responseBytes := none
      durationMs := none
      promptPreview := capture.promptPreview
      promptPreviewTruncated := capture.promptPreviewTruncated
      outputPreview := ""
      outputPreviewTruncated := false
      configFingerprint := capture.configFingerprint
      captureStatus := .capturing
      notarizationStatus := .notRequested
      failureCode := none
      expectedArtifactSizeBytes := none
      expectedArtifactSha256 := none } constraintFailed

def markCaptureFailed (traceId failureCode : String) : Call Unit := do
  let row ← traces.select traceId
  let current ← require row "capture does not exist"
  if current.captureStatus = .failed ∧ current.failureCode = some failureCode then
    pure ()
  else do
    ensure (current.captureStatus = .capturing) "capture is not active"
    let changed ← traces.update (fun t => t.traceId = traceId && t.captureStatus = .capturing)
      (fun t => { t with captureStatus := .failed, failureCode := some failureCode })
      constraintFailed
    ensure (changed = 1) "active capture transition was lost"

namespace CaptureCompletion

def Fits (c : CaptureCompletion) : Prop :=
  FitsI64 c.completedAtUnixMs ∧ FitsI64 c.durationMs ∧ FitsI64 c.responseBytes ∧
    FitsI64 c.expectedArtifactSizeBytes
  deriving Decidable

/-- The columns that `UPDATE traces SET ...` writes for a completion. -/
def stage (c : CaptureCompletion) (t : Trace) : Trace :=
  { t with
    completedAtUnixMs := some c.completedAtUnixMs
    durationMs := some c.durationMs
    httpStatus := some c.httpStatus
    responseBytes := some c.responseBytes
    responseModel := c.responseModel
    outputPreview := c.outputPreview
    outputPreviewTruncated := c.outputPreviewTruncated
    expectedArtifactSizeBytes := some c.expectedArtifactSizeBytes
    expectedArtifactSha256 := some c.expectedArtifactSha256 }

def Matches (c : CaptureCompletion) (t : Trace) : Prop :=
  t.completedAtUnixMs = some c.completedAtUnixMs ∧ t.durationMs = some c.durationMs ∧
    t.httpStatus = some c.httpStatus ∧ t.responseBytes = some c.responseBytes ∧
    t.responseModel = c.responseModel ∧ t.outputPreview = c.outputPreview ∧
    t.outputPreviewTruncated = c.outputPreviewTruncated ∧
    t.expectedArtifactSizeBytes = some c.expectedArtifactSizeBytes ∧
    t.expectedArtifactSha256 = some c.expectedArtifactSha256
  deriving Decidable

end CaptureCompletion

def captureCompletionMatches (completion : CaptureCompletion) : Call Bool := do
  ensure completion.Fits outOfRange
  let row ← traces.select completion.traceId
  pure (row.any fun t => decide (completion.Matches t))

def prepareCaptureCompletion (completion : CaptureCompletion) : Call Unit := do
  let row ← traces.select completion.traceId
  let current ← require row "capture does not exist"
  ensure (current.captureStatus = .capturing ∨ current.captureStatus = .captured)
    "capture cannot accept completion metadata"
  if current.completedAtUnixMs.isSome then do
    let same ← captureCompletionMatches completion
    ensure (same = true) "capture completion conflicts with persisted metadata"
  else do
    ensure (current.captureStatus = .capturing) "capture is not active"
    ensure completion.Fits outOfRange
    let changed ← traces.update
      (fun t => t.traceId = completion.traceId && t.captureStatus = .capturing &&
        t.completedAtUnixMs.isNone)
      completion.stage constraintFailed
    ensure (changed = 1) "capture completion staging was lost"

def requireArtifact (artifact : ArtifactRecord) (traceId : String) (kind : ArtifactKind) :
    Call Unit := do
  ensure (artifact.traceId = traceId) "artifact capture does not match metadata transition"
  ensure (artifact.kind = kind) "artifact kind does not match metadata transition"

def ArtifactRecord.row (artifact : ArtifactRecord) : Artifact :=
  ⟨artifact.traceId, artifact.kind, artifact.locator, artifact.sizeBytes, artifact.sha256⟩

def artifactExistsExact (artifact : ArtifactRecord) : Call Bool := do
  ensure (FitsI64 artifact.sizeBytes) outOfRange
  let row ← artifacts.select (artifact.traceId, artifact.kind)
  pure (row = some artifact.row)

/-- `INSERT ... ON CONFLICT DO NOTHING`, after which the row has to be this one. -/
def insertArtifact (artifact : ArtifactRecord) : Call Unit := do
  ensure (FitsI64 artifact.sizeBytes) outOfRange
  let existing ← artifacts.select (artifact.traceId, artifact.kind)
  if existing.isNone then
    artifacts.insert artifact.row constraintFailed
  else do
    let exact ← artifactExistsExact artifact
    ensure (exact = true) "artifact metadata conflicts with an existing immutable record"

def indexForSearch (traceId outputPreview : String) : Call Unit :=
  change fun db =>
    if db.fullTextSearch then
      { db with
        traceSearch := db.traceSearch.filter (·.traceId ≠ traceId) ++
          [⟨traceId, (((db.traces.find? traceId).map Trace.promptPreview).getD ""),
            outputPreview⟩] }
    else db

/-- A completion that was staged before has to be this one. -/
def checkStaged (current : Trace) (completion : CaptureCompletion) : Call Unit :=
  if current.completedAtUnixMs.isSome then do
    let same ← captureCompletionMatches completion
    ensure (same = true) "capture completion conflicts with staged metadata"
  else pure ()

def completeCaptureRecord (completion : CaptureCompletion) (artifact : ArtifactRecord) :
    Call Unit := do
  requireArtifact artifact completion.traceId .captureCheckpoint
  ensure (artifact.sizeBytes = completion.expectedArtifactSizeBytes ∧
    artifact.sha256 = completion.expectedArtifactSha256)
    "artifact does not match the staged capture commit"
  let row ← traces.select completion.traceId
  let current ← require row "capture does not exist"
  if current.captureStatus = .captured then do
    let same ← captureCompletionMatches completion
    let exact ← artifactExistsExact artifact
    ensure (same = true ∧ exact = true) "capture completion conflicts with persisted metadata"
  else do
    ensure (current.captureStatus = .capturing) "capture is not active"
    checkStaged current completion
    ensure completion.Fits outOfRange
    let changed ← traces.update
      (fun t => t.traceId = completion.traceId && t.captureStatus = .capturing)
      (fun t => { completion.stage t with captureStatus := .captured, failureCode := none })
      constraintFailed
    ensure (changed = 1) "active capture transition was lost"
    insertArtifact artifact
    indexForSearch completion.traceId completion.outputPreview

/-- The completion that a row holds, if it has all of its columns. -/
def Trace.stagedCompletion (t : Trace) : Option CaptureCompletion := do
  let completedAtUnixMs ← t.completedAtUnixMs
  let durationMs ← t.durationMs
  let httpStatus ← t.httpStatus
  let responseBytes ← t.responseBytes
  let expectedArtifactSizeBytes ← t.expectedArtifactSizeBytes
  let expectedArtifactSha256 ← t.expectedArtifactSha256
  pure
    { traceId := t.traceId
      completedAtUnixMs, durationMs, httpStatus, responseBytes
      responseModel := t.responseModel
      outputPreview := t.outputPreview
      outputPreviewTruncated := t.outputPreviewTruncated
      expectedArtifactSizeBytes, expectedArtifactSha256 }

/-- The captures left active when a single-daemon process stopped. -/
def incompleteCaptures (db : Database) : List IncompleteCapture :=
  (db.traces.rows.filter (·.captureStatus = .capturing)).map fun t =>
    ⟨t.traceId, t.stagedCompletion⟩

/-! Notarization operations. -/

/-- A captured exchange with a successful response. -/
def Trace.Notarizable (t : Trace) : Prop :=
  t.captureStatus = .captured ∧ t.httpStatus.any fun s => decide (200 ≤ s ∧ s ≤ 299)
  deriving Decidable

def Operation.requeue (now : UInt64) (o : Operation) : Operation :=
  { o with
    state := .queued
    startedAtUnixMs := none
    completedAtUnixMs := none
    failureCode := none
    progress := .reset .queued now }

def Operation.start (now : UInt64) (o : Operation) : Operation :=
  { o with
    state := .running
    attempt := o.attempt + 1
    startedAtUnixMs := some now
    completedAtUnixMs := none
    failureCode := none
    progress := .reset .preparing now }

def Operation.succeed (now : UInt64) (o : Operation) : Operation :=
  { o with
    state := .succeeded
    completedAtUnixMs := some now
    failureCode := none
    progress := { o.progress with phase := .complete, updatedAtUnixMs := now } }

def Operation.stop (state : OperationState) (now : UInt64) (failureCode : String)
    (o : Operation) : Operation :=
  { o with state, completedAtUnixMs := some now, failureCode := some failureCode }

def Operation.retryable (o : Operation) : Bool := o.state = .failed || o.state = .interrupted

/-- `UPDATE traces SET notarization_status = ? WHERE trace_id = ?`. -/
def setNotarizationStatus (traceId : String) (status : NotarizationStatus) : Call ℕ :=
  traces.update (·.traceId = traceId) ({ · with notarizationStatus := status }) constraintFailed

def setOperationTraceStatus (operationId : String) (status : NotarizationStatus) : Call ℕ := do
  let row ← operations.select operationId
  match row with
  | some o => setNotarizationStatus o.traceId status
  | none => pure 0

def selectOperation (operationId : String) : Call Operation := do
  let row ← operations.select operationId
  require row noRows

/-- Queues, resumes, or returns the one durable notarization operation for a trace. A new
operation takes the given identifier. -/
def enqueueNotarization (traceId operationId : String) (now : UInt64) :
    Call (Option (Operation × Bool)) := do
  let row ← traces.select traceId
  let found ← query (·.operationOf traceId)
  if row.any fun t => decide t.Notarizable then
    match found with
    | some operation =>
      if operation.retryable then do
        ensure (FitsI64 now) outOfRange
        let _ ← operations.update
          (fun o => o.operationId = operation.operationId && o.retryable)
          (Operation.requeue now) constraintFailed
        let _ ← setNotarizationStatus traceId .queued
        insertEvent now "notarization_queued" traceId operation.operationId "info"
          "Notarization retry queued"
        let operation ← selectOperation operation.operationId
        pure (some (operation, false))
      else pure (some (operation, true))
    | none => do
      ensure (FitsI64 now) outOfRange
      operations.insert
        { operationId, traceId
          state := .queued
          attempt := 0
          createdAtUnixMs := now
          startedAtUnixMs := none
          completedAtUnixMs := none
          failureCode := none
          progress := .reset .queued now } constraintFailed
      let _ ← setNotarizationStatus traceId .queued
      insertEvent now "notarization_queued" traceId operationId "info" "Notarization queued"
      let operation ← selectOperation operationId
      pure (some (operation, false))
  else pure none

def Database.nextQueued (db : Database) : Option Operation :=
  (db.operations.rows.filter (·.state = .queued)).argmin fun o => o.createdAtUnixMs.toNat

/-- The attempt number as the store hands it out: a column beyond 32 bits reads as zero. -/
def attemptNumber (n : ℕ) : ℕ := if n < 2 ^ 32 then n else 0

def claimNextNotarization (now : UInt64) : Call (Option Operation) := do
  let next ← query Database.nextQueued
  match next with
  | none => pure none
  | some queued => do
    ensure (FitsI64 now) outOfRange
    let _ ← operations.update (fun o => o.operationId = queued.operationId && o.state = .queued)
      (Operation.start now) constraintFailed
    let _ ← setOperationTraceStatus queued.operationId .running
    let operation ← selectOperation queued.operationId
    operationAttempts.insert
      { operationId := operation.operationId
        attempt := attemptNumber operation.attempt
        state := .running
        startedAtUnixMs := now
        completedAtUnixMs := none
        failureCode := none } constraintFailed
    insertEvent now "notarization_started" operation.traceId operation.operationId "info"
      "Notarization started"
    pure (some { operation with attempt := attemptNumber operation.attempt })

/-- Outcome of an attempted terminal operation transition. -/
inductive TerminalOperationResult
  | applied
  | alreadyApplied
  | notFound
  | conflict (currentState : OperationState)
  deriving DecidableEq

/-- `UPDATE operation_attempts` for the current attempt of an operation. -/
def closeCurrentAttempt (operationId : String) (state : AttemptState) (now : UInt64)
    (failureCode : Option String) : Call ℕ := do
  let row ← operations.select operationId
  operationAttempts.update
    (fun a => a.operationId = operationId && row.any fun o => a.attempt = o.attempt)
    ({ · with state, completedAtUnixMs := some now, failureCode }) constraintFailed

def completeNotarization (operationId : String) (artifact : ArtifactRecord) (now : UInt64) :
    Call TerminalOperationResult := do
  let row ← operations.select operationId
  match row with
  | none => pure .notFound
  | some current => do
    requireArtifact artifact current.traceId .tracePackage
    if current.state = .succeeded then do
      let exact ← artifactExistsExact artifact
      ensure (exact = true) "trace package artifact does not match persisted metadata"
      pure .alreadyApplied
    else if current.state ≠ .running then
      pure (.conflict current.state)
    else do
      insertArtifact artifact
      ensure (FitsI64 now) outOfRange
      let changed ← operations.update
        (fun o => o.operationId = operationId && o.state = .running)
        (Operation.succeed now) constraintFailed
      ensure (changed = 1) "running operation transition was lost"
      let changed ← closeCurrentAttempt operationId .succeeded now none
      ensure (changed = 1) "running operation has no current attempt"
      let changed ← setOperationTraceStatus operationId .succeeded
      ensure (changed = 1) "notarization operation has no capture"
      insertEvent now "notarization_completed" current.traceId operationId "success"
        "Notarization completed"
      pure .applied

def failOperation (operationId : String) (now : UInt64) (failureCode : String) :
    Call TerminalOperationResult := do
  let row ← operations.select operationId
  match row with
  | none => pure .notFound
  | some current =>
    if current.state = .failed ∧ current.failureCode = some failureCode then
      pure .alreadyApplied
    else if current.state ≠ .running then
      pure (.conflict current.state)
    else do
      ensure (FitsI64 now) outOfRange
      let changed ← operations.update
        (fun o => o.operationId = operationId && o.state = .running)
        (Operation.stop .failed now failureCode) constraintFailed
      ensure (changed = 1) "running operation transition was lost"
      let changed ← closeCurrentAttempt operationId .failed now (some failureCode)
      ensure (changed = 1) "running operation has no current attempt"
      let changed ← setOperationTraceStatus operationId .failed
      ensure (changed = 1) "notarization operation has no capture"
      let operation ← selectOperation operationId
      insertEvent now "notarization_failed" operation.traceId operationId "error"
        "Notarization failed"
      pure .applied

/-- One operation that a stopped daemon left running. -/
def interruptOperation (now : UInt64) (operation : Operation) : Call Unit := do
  ensure (FitsI64 now) outOfRange
  let _ ← operations.update (·.operationId = operation.operationId)
    (Operation.stop .interrupted now "service_restarted") constraintFailed
  let _ ← closeCurrentAttempt operation.operationId .interrupted now (some "service_restarted")
  let _ ← setNotarizationStatus operation.traceId .interrupted
  insertEvent now "notarization_interrupted" operation.traceId operation.operationId "warning"
    "Notarization interrupted by service restart"

def interruptAll (now : UInt64) : List Operation → Call Unit
  | [] => pure ()
  | operation :: rest => do
    interruptOperation now operation
    interruptAll now rest

def recoverOperations (now : UInt64) : Call ℕ := do
  let interrupted ← query fun db => db.operations.rows.filter (·.state = .running)
  interruptAll now interrupted
  pure interrupted.length

def retryOperation (operationId : String) (now : UInt64) : Call (Option Operation) := do
  ensure (FitsI64 now) outOfRange
  let accepted ← query fun db => fun o : Operation =>
    (db.traces.find? o.traceId).any fun t =>
      t.httpStatus.any fun s => decide (200 ≤ s ∧ s ≤ 299)
  let changed ← operations.update
    (fun o => o.operationId = operationId && o.retryable && accepted o)
    (Operation.requeue now) constraintFailed
  if changed = 0 then
    pure none
  else do
    let _ ← setOperationTraceStatus operationId .queued
    let operation ← selectOperation operationId
    insertEvent now "notarization_retried" operation.traceId operationId "info"
      "Notarization queued for retry"
    pure (some operation)

/-- A late milestone of an operation that no longer runs is ignored. -/
def updateOperationProgress (operationId : String) (phase : NotarizationPhase) (now : UInt64) :
    Call Bool := do
  ensure (FitsI64 now) outOfRange
  let changed ← operations.update
    (fun o => o.operationId = operationId && o.state = .running &&
      o.progress.phase ≠ phase.column)
    (fun o => { o with
      progress := { o.progress with phase := phase.column, updatedAtUnixMs := now } })
    constraintFailed
  if changed = 0 then
    pure false
  else do
    let operation ← selectOperation operationId
    insertEvent now "notarization_progress" operation.traceId operationId "info" phase.message
    pure true

/-! Shares and deletion. -/

/-- The reference to the trace is the foreign key of the table. -/
def putTraceShare (share : TraceShare) : Call Unit := do
  let trace ← traces.select share.traceId
  ensure (trace.isSome = true) constraintFailed
  let existing ← traceShares.select share.traceId
  if existing.isNone then
    traceShares.insert share constraintFailed
  else do
    let _ ← traceShares.update (·.traceId = share.traceId) (fun _ => share) constraintFailed
    pure ()

def deleteTraceShare (traceId : String) : Call Bool := do
  let changed ← traceShares.delete (·.traceId = traceId)
  pure (decide (0 < changed))

inductive TraceDeletionOutcome
  | notFound | captureActive | notarizationActive | shareActive | deleted
  deriving DecidableEq

def OperationState.active (s : OperationState) : Bool := s = .queued || s = .running

def NotarizationStatus.active (s : NotarizationStatus) : Bool := s = .queued || s = .running

def deleteTrace (traceId : String) : Call TraceDeletionOutcome := do
  let row ← traces.select traceId
  let operation ← query (·.operationOf traceId)
  let share ← traceShares.select traceId
  match row with
  | none => pure .notFound
  | some current =>
    if current.captureStatus = .capturing then
      pure .captureActive
    else if current.notarizationStatus.active ∨ operation.any fun o => o.state.active then
      pure .notarizationActive
    else if share.any fun s => s.progress = .verifying || s.accessEnabled then
      pure .shareActive
    else do
      let owned (operationId : String) := operation.any fun o => o.operationId = operationId
      change fun db => { db with
        events := db.events.filter fun e =>
          !(e.traceId = some traceId || e.operationId.any owned) }
      let _ ← operationAttempts.delete fun a => owned a.operationId
      let _ ← operations.delete (·.traceId = traceId)
      let _ ← artifacts.delete (·.traceId = traceId)
      let _ ← traceShares.delete (·.traceId = traceId)
      change fun db => { db with
        traceSearch := db.traceSearch.filter (·.traceId ≠ traceId) }
      let changed ← traces.delete (·.traceId = traceId)
      ensure (changed = 1) "Trace deletion lost its metadata row"
      pure .deleted

inductive Request
  | beginCapture (capture : NewTrace)
  | markCaptureFailed (traceId failureCode : String)
  | prepareCaptureCompletion (completion : CaptureCompletion)
  | completeCaptureRecord (completion : CaptureCompletion) (artifact : ArtifactRecord)
  | enqueueNotarization (traceId operationId : String) (now : UInt64)
  | claimNextNotarization (now : UInt64)
  | completeNotarization (operationId : String) (artifact : ArtifactRecord) (now : UInt64)
  | failOperation (operationId : String) (now : UInt64) (failureCode : String)
  | recoverOperations (now : UInt64)
  | retryOperation (operationId : String) (now : UInt64)
  | updateOperationProgress (operationId : String) (phase : NotarizationPhase) (now : UInt64)
  | putTraceShare (share : TraceShare)
  | deleteTraceShare (traceId : String)
  | deleteTrace (traceId : String)
  deriving DecidableEq

def Request.run : Request → Database → Database
  | beginCapture capture => (Daemon.beginCapture capture).exec
  | markCaptureFailed traceId failureCode => (Daemon.markCaptureFailed traceId failureCode).exec
  | prepareCaptureCompletion completion => (Daemon.prepareCaptureCompletion completion).exec
  | completeCaptureRecord completion artifact =>
    (Daemon.completeCaptureRecord completion artifact).exec
  | enqueueNotarization traceId operationId now =>
    (Daemon.enqueueNotarization traceId operationId now).exec
  | claimNextNotarization now => (Daemon.claimNextNotarization now).exec
  | completeNotarization operationId artifact now =>
    (Daemon.completeNotarization operationId artifact now).exec
  | failOperation operationId now failureCode =>
    (Daemon.failOperation operationId now failureCode).exec
  | recoverOperations now => (Daemon.recoverOperations now).exec
  | retryOperation operationId now => (Daemon.retryOperation operationId now).exec
  | updateOperationProgress operationId phase now =>
    (Daemon.updateOperationProgress operationId phase now).exec
  | putTraceShare share => (Daemon.putTraceShare share).exec
  | deleteTraceShare traceId => (Daemon.deleteTraceShare traceId).exec
  | deleteTrace traceId => (Daemon.deleteTrace traceId).exec

end Notary.Daemon
