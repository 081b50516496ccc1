import Notary.Daemon.SqliteMetadata

/-! The life of one trace: capturing, then failed or captured, then notarized in attempts.
A state of the life says what every table holds about the trace. -/

namespace Notary.Daemon

/-- What a staged completion fixes about the artifact and the response. -/
structure Commit where
  sizeBytes : UInt64
  sha256 : String
  httpStatus : UInt16
  deriving DecidableEq

def Commit.Accepted (c : Commit) : Prop := 200 ≤ c.httpStatus ∧ c.httpStatus ≤ 299
  deriving Decidable

/-- How an attempt ends without a package. -/
inductive Stop
  | failed | interrupted
  deriving DecidableEq

def Stop.attemptState : Stop → AttemptState
  | failed => .failed
  | interrupted => .interrupted

inductive Phase
  | queued
  | running
  | stopped (how : Stop)
  | succeeded
  deriving DecidableEq

namespace Phase

def state : Phase → OperationState
  | queued => .queued
  | running => .running
  | stopped how => how.attemptState.operationState
  | succeeded => .succeeded

def attempt : Phase → List AttemptState
  | queued => []
  | running => [.running]
  | stopped how => [how.attemptState]
  | succeeded => [.succeeded]

end Phase

/-- A notarization operation: the attempts that stopped before, and where it is now. -/
structure Notarization where
  earlier : List Stop
  phase : Phase
  deriving DecidableEq

def Notarization.attempts (n : Notarization) : List AttemptState :=
  n.earlier.map Stop.attemptState ++ n.phase.attempt

inductive Life
  | absent
  | capturing (staged : Option Commit)
  | failed (staged : Option Commit)
  | captured (commit : Commit)
  | notarizing (commit : Commit) (accepted : commit.Accepted) (notarization : Notarization)

namespace Life

/-- No capture and no notarization of the trace is active. -/
def Settled : Life → Prop
  | failed _ | captured _ => True
  | notarizing _ _ n => n.phase ≠ .queued ∧ n.phase ≠ .running
  | _ => False

/-- The changes in the life of a trace that is not deleted. -/
inductive Step : Life → Life → Prop
  | begin : Step .absent (.capturing none)
  | stage (c : Commit) : Step (.capturing none) (.capturing (some c))
  | complete (staged : Option Commit) (c : Commit) (h : ∀ s ∈ staged, s = c) :
      Step (.capturing staged) (.captured c)
  | fail (staged : Option Commit) : Step (.capturing staged) (.failed staged)
  | enqueue (c : Commit) (h : c.Accepted) : Step (.captured c) (.notarizing c h ⟨[], .queued⟩)
  | claim (c : Commit) (h : c.Accepted) (earlier : List Stop) :
      Step (.notarizing c h ⟨earlier, .queued⟩) (.notarizing c h ⟨earlier, .running⟩)
  | stop (c : Commit) (h : c.Accepted) (earlier : List Stop) (how : Stop) :
      Step (.notarizing c h ⟨earlier, .running⟩) (.notarizing c h ⟨earlier, .stopped how⟩)
  | succeed (c : Commit) (h : c.Accepted) (earlier : List Stop) :
      Step (.notarizing c h ⟨earlier, .running⟩) (.notarizing c h ⟨earlier, .succeeded⟩)
  | requeue (c : Commit) (h : c.Accepted) (earlier : List Stop) (how : Stop) :
      Step (.notarizing c h ⟨earlier, .stopped how⟩)
        (.notarizing c h ⟨earlier ++ [how], .queued⟩)

def Steps : Life → Life → Prop := Relation.ReflTransGen Step

end Life

/-- The columns of a trace row that its life is about. -/
structure TraceView where
  captureStatus : CaptureStatus
  notarizationStatus : NotarizationStatus
  prepared : Bool
  staged : Option Commit
  deriving DecidableEq

/-- What the tables hold about one trace. -/
structure View where
  trace : Option TraceView
  checkpoint : Option (UInt64 × String)
  package : Bool
  operation : Option (OperationState × ℕ)
  attempts : List (AttemptState × ℕ)
  deriving DecidableEq

def CaptureCompletion.commit (c : CaptureCompletion) : Commit :=
  ⟨c.expectedArtifactSizeBytes, c.expectedArtifactSha256, c.httpStatus⟩

def Trace.view (t : Trace) : TraceView :=
  ⟨t.captureStatus, t.notarizationStatus, t.completedAtUnixMs.isSome,
    t.stagedCompletion.map CaptureCompletion.commit⟩

def Operation.view (o : Operation) : OperationState × ℕ := (o.state, o.attempt)

def OperationAttempt.view (a : OperationAttempt) : AttemptState × ℕ := (a.state, a.attempt)

namespace Database

def attemptViews (db : Database) (operationId : String) : List (AttemptState × ℕ) :=
  (db.attemptsOf operationId).map OperationAttempt.view

def view (db : Database) (traceId : String) : View where
  trace := (db.traces.find? traceId).map Trace.view
  checkpoint := (db.artifacts.find? (traceId, .captureCheckpoint)).map fun a =>
    (a.sizeBytes, a.sha256)
  package := (db.artifacts.find? (traceId, .tracePackage)).isSome
  operation := (db.operationOf traceId).map Operation.view
  attempts := (db.operationOf traceId).elim [] fun o => db.attemptViews o.operationId

end Database

/-- What the tables hold about a trace at each point of its life. -/
def Life.view : Life → View
  | absent => ⟨none, none, false, none, []⟩
  | capturing staged => ⟨some ⟨.capturing, .notRequested, staged.isSome, staged⟩, none, false,
      none, []⟩
  | failed staged => ⟨some ⟨.failed, .notRequested, staged.isSome, staged⟩, none, false, none, []⟩
  | captured c => ⟨some ⟨.captured, .notRequested, true, some c⟩, some (c.sizeBytes, c.sha256),
      false, none, []⟩
  | notarizing c _ n => ⟨some ⟨.captured, n.phase.state.status, true, some c⟩,
      some (c.sizeBytes, c.sha256), n.phase = .succeeded,
      some (n.phase.state, n.attempts.length), n.attempts.zipIdx 1⟩

end Notary.Daemon
