import Notary.Daemon.RecoveryPass
import Notary.Lib.Transition

/-! The capture protocol of the local daemon, with crashes, late writes and recovery passes. -/

namespace Notary.Daemon
open Notary.Core (Crates sha256Hex maxArchiveWireBytes)
open Utf8 (Bytes)
open Relational Tx

/-- How far the task that serves a captured exchange is. -/
inductive LivePhase
  | begun
  | staged (completion : CaptureCompletion) (data : Bytes)
  | stored (completion : CaptureCompletion) (artifact : ArtifactRecord)
  | failing (code : String)
  deriving DecidableEq

/-- A running recovery pass: what it still has to look at, and the capture it is about to act
on. -/
structure Pass where
  startup : Bool
  remaining : List IncompleteCapture
  current : Option (IncompleteCapture × RecoveryAct) := none
  deriving DecidableEq

/-- The two stores, the writes whose outcome is unknown, and what runs in memory. -/
structure Service where
  db : Database
  store : ArtifactStore
  unknown : List (String × Bytes) := []
  live : String → Option LivePhase := fun _ => none
  passes : ℕ → Option Pass := fun _ => none

namespace Service

inductive Act
  | begin (capture : NewTrace)
  | stage (completion : CaptureCompletion) (data : Bytes)
  | put (traceId : String)
  | putFails (traceId : String) (error : ArtifactStoreError)
  | complete (traceId : String)
  | fail (traceId code : String)
  | abandon (traceId : String)
  | appear (traceId : String) (data : Bytes)
  | startPass (n : ℕ) (startup : Bool) (listing : List IncompleteCapture)
  | examine (n : ℕ)
  | perform (n : ℕ)
  | dropPass (n : ℕ)
  | crash
  deriving DecidableEq

def Act.pass? : Act → Option ℕ
  | startPass n _ _ => some n
  | examine n => some n
  | perform n => some n
  | dropPass n => some n
  | _ => none

def recoverableArtifactCommitFailure (code : String) : Bool := code = "artifact_backend_unavailable"

/-- `artifact_expectation`: the size and digest that a completion stages for its bytes. -/
def Expects (c : Crates) (completion : CaptureCompletion) (data : Bytes) : Prop :=
  completion.expectedArtifactSizeBytes = UInt64.ofNat data.length ∧
    completion.expectedArtifactSha256 = sha256Hex c data
  deriving Decidable

def setLive (s : Service) (traceId : String) (phase : Option LivePhase) : Service :=
  { s with live := Function.update s.live traceId phase }

def setPass (s : Service) (n : ℕ) (pass : Option Pass) : Service :=
  { s with passes := Function.update s.passes n pass }

/-- A failed write leaves the capture to recovery if the outcome is unknown, and otherwise
fails it. -/
def afterPutError (error : ArtifactStoreError) : Option LivePhase :=
  if recoverableArtifactCommitFailure error.failureCode then none
  else some (.failing error.failureCode)

variable (c : Crates)

def begin (s : Service) (capture : NewTrace) : Service :=
  match (beginCapture capture).attempt s.db with
  | (.ok (), db) => { s with db }.setLive capture.traceId (some .begun)
  | (.error _, db) => { s with db }

def stage (s : Service) (completion : CaptureCompletion) (data : Bytes) : Service :=
  match (prepareCapture completion).attempt s.db with
  | (.ok (), db) => { s with db }.setLive completion.traceId (some (.staged completion data))
  | (.error _, db) =>
    { s with db }.setLive completion.traceId (some (.failing "metadata_prepare_error"))

def put (s : Service) (completion : CaptureCompletion) (data : Bytes) : Service :=
  match s.store.put c completion.traceId data maxArchiveWireBytes with
  | .ok (artifact, store) =>
    { s with store }.setLive completion.traceId (some (.stored completion artifact))
  | .error error => s.setLive completion.traceId (afterPutError error)

/-- The write may take effect at any later time. -/
def putFails (s : Service) (traceId : String) (data : Bytes) (error : ArtifactStoreError) :
    Service :=
  { s with unknown := (traceId, data) :: s.unknown }.setLive traceId (afterPutError error)

def complete (s : Service) (completion : CaptureCompletion) (artifact : ArtifactRecord) : Service :=
  { s with db := (completeCapture completion artifact).exec s.db }.setLive completion.traceId none

def fail (s : Service) (traceId code : String) : Service :=
  { s with db := (failCapture traceId code).exec s.db }.setLive traceId none

def appear (s : Service) (traceId : String) (data : Bytes) : Service :=
  { s with store := { s.store with slot := Function.update s.store.slot traceId (.stored data) } }

/-- The pass looks at the artifact of its next capture. -/
def examine (s : Service) (n : ℕ) (pass : Pass) (i : IncompleteCapture)
    (rest : List IncompleteCapture) : Service :=
  match examineCapture c s.store pass.startup i with
  | .ok act => s.setPass n (some { pass with remaining := rest, current := some (i, act) })
  | .error _ => s.setPass n none

/-- The pass calls the metadata store; an error ends it. -/
def perform (s : Service) (n : ℕ) (pass : Pass) (act : RecoveryAct) : Service :=
  match act.perform.attempt s.db with
  | (.ok (), db) => { s with db }.setPass n (some { pass with current := none })
  | (.error _, db) => { s with db }.setPass n none

def step (s : Service) : Act → Option Service
  | .begin capture => some (s.begin capture)
  | .stage completion data =>
    if s.live completion.traceId = some .begun ∧ Expects c completion data then
      some (s.stage completion data)
    else none
  | .put traceId =>
    match s.live traceId with
    | some (.staged completion data) => some (s.put c completion data)
    | _ => none
  | .putFails traceId error =>
    match s.live traceId with
    | some (.staged _ data) => some (s.putFails traceId data error)
    | _ => none
  | .complete traceId =>
    match s.live traceId with
    | some (.stored completion artifact) => some (s.complete completion artifact)
    | _ => none
  | .fail traceId code =>
    if s.live traceId = some .begun ∨ s.live traceId = some (.failing code) then
      some (s.fail traceId code)
    else none
  | .abandon traceId => some (s.setLive traceId none)
  | .appear traceId data =>
    if (traceId, data) ∈ s.unknown ∧ s.store.slot traceId = .missing then
      some (s.appear traceId data)
    else none
  | .startPass n startup listing =>
    if s.passes n = none ∧ listing.Perm (incompleteCaptures s.db) then
      some (s.setPass n (some { startup, remaining := listing }))
    else none
  | .examine n =>
    match s.passes n with
    | some ⟨startup, i :: rest, none⟩ => some (s.examine c n ⟨startup, i :: rest, none⟩ i rest)
    | _ => none
  | .perform n =>
    match s.passes n with
    | some ⟨startup, remaining, some (i, act)⟩ =>
      some (s.perform n ⟨startup, remaining, some (i, act)⟩ act)
    | _ => none
  | .dropPass n => some (s.setPass n none)
  | .crash => some { s with live := fun _ => none, passes := fun _ => none }

def Fresh (s : Service) : Prop :=
  (∃ fullTextSearch, s.db = { fullTextSearch }) ∧ (∀ traceId, s.store.slot traceId = .missing) ∧
    s.unknown = [] ∧ (∀ traceId, s.live traceId = none) ∧ ∀ n, s.passes n = none

def protocol : Transition.System Service where
  Init := Fresh
  Step s t := ∃ a, step c s a = some t

end Service

end Notary.Daemon
