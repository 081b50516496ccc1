import Notary.Lib.Transition
import Notary.Traces.HostedTrace

/-! The hosted trace service as a transition system: requests, verification workers, cleanup
passes and account deletions over one database and one object store. A step is a statement, a
transaction whose row locks make it one, or an object operation; a process may stop after any. -/

namespace Notary.Traces
open Relational
open Utf8 (Bytes)
open Platform (Plan)

structure VerifiedPackage where
  sourceTraceId : String
  trace : Bytes
  deriving DecidableEq

/-- What the service takes from elsewhere. The verifier answers with a rejection code or with what
it verified; that it is unavailable is not an answer. -/
structure Service where
  sha256Hex : Bytes → String
  verifyForAdmission : Bytes → Bool → Except String VerifiedPackage
  uploadTtlSecs : ℤ
  plan : String → Plan

/-! A create request works in two transactions that take the account's advisory lock: one inserts
a row, the other opens a failed upload again. -/

inductive UploadTarget
  | insert (jobId : String)
  | reopen (job : HostedTrace)
  deriving DecidableEq

/-- `checked` has the generation read under the lock of a row that may be opened again, or zero if
there is no row yet; nothing stands for a row to be left alone. -/
inductive LockStage
  | waiting | locked
  | checked (generation : Option ℕ)
  deriving DecidableEq

structure UploadCall where
  request : CreateHostedTraceRequest
  target : UploadTarget
  now : ℤ
  stage : LockStage
  deriving DecidableEq

inductive CompletionStage
  | loaded | promoted | checked | lost | superseded | mismatched
  deriving DecidableEq

structure Completion where
  job : HostedTrace
  stage : CompletionStage
  deriving DecidableEq

/-- The next statement of `store_committed_artifacts`, or the admission after it. -/
inductive StoreStep
  | contentIntent | packageIntent | writeContent | writePackage | checkPackage | admission
  deriving DecidableEq

inductive WorkerStage
  | claimed
  | rejecting (code : String)
  | storing (archive content : Bytes) (next : StoreStep)
  | reconciling (archive content : Bytes)
  | cleaningUp (archive content : Bytes) (contentQueued : Bool)
  | retrying
  | purging
  deriving DecidableEq

structure Worker where
  job : HostedTrace
  claim : String
  stage : WorkerStage
  deriving DecidableEq

structure Admission where
  traceId : String
  claim : String
  archive : Bytes
  content : Bytes
  deriving DecidableEq

/-- What a worker learns of its admission: the statement was executed and says so, or executed
without a word, or is still to be executed, or never will be. -/
inductive UpdateAnswer
  | reported | unreported | outstanding | dropped
  deriving DecidableEq

structure Cleaner where
  objectKey : ObjectKey
  removed : Bool
  deriving DecidableEq

structure Deletion where
  accountId : String
  /-- The entries that the first statement adds to the cleanup queue. -/
  intents : List (ObjectKey × String)
  deriving DecidableEq

def Deletion.intent (deletion : Deletion) (key : ObjectKey) : Option String :=
  (deletion.intents.find? fun p => p.1 = key).map Prod.snd

structure World where
  traces : Table HostedTrace := ∅
  /-- The cleanup queue: object keys with the trace they belong to. -/
  queue : ObjectKey → Option String := fun _ => none
  objects : ObjectKey → Option Bytes := fun _ => none
  accounts : String → Bool
  /-- The holders of the advisory locks. -/
  locks : String → Option ℕ := fun _ => none
  calls : ℕ → Option UploadCall := fun _ => none
  completions : ℕ → Option Completion := fun _ => none
  workers : ℕ → Option Worker := fun _ => none
  outstanding : List Admission := []
  purges : ℕ → Option HostedTrace := fun _ => none
  cleaners : ℕ → Option Cleaner := fun _ => none
  deletions : ℕ → Option Deletion := fun _ => none
  /-- The trace and claim identifiers used so far; a new one is none of them. -/
  traceIds : List String := []
  claims : List String := []

namespace World

def trace (w : World) (id : String) : Option HostedTrace := w.traces.find? id

/-- `UPDATE traces SET f WHERE trace_id = id AND p`. -/
def updateTrace (w : World) (id : String) (p : HostedTrace → Bool)
    (f : HostedTrace → HostedTrace) : Option World :=
  (w.traces.update (fun r => r.traceId = id && p r) f).map fun traces => { w with traces }

/-- The update of a trace would affect its row. -/
def affects (w : World) (id : String) (p : HostedTrace → Bool) : Bool := (w.trace id).any p

/-- `INSERT ... ON CONFLICT (object_key) DO NOTHING`. -/
def enqueue (w : World) (key : ObjectKey) (traceId : String) : World :=
  { w with queue := Function.update w.queue key (some ((w.queue key).getD traceId)) }

def dequeue (w : World) (key : ObjectKey) : World :=
  { w with queue := Function.update w.queue key none }

def putObject (w : World) (key : ObjectKey) (bytes : Bytes) : World :=
  { w with objects := Function.update w.objects key (some bytes) }

def removeObject (w : World) (key : ObjectKey) : World :=
  { w with objects := Function.update w.objects key none }

def setCall (w : World) (n : ℕ) (call : Option UploadCall) : World :=
  { w with calls := Function.update w.calls n call }

def setCompletion (w : World) (n : ℕ) (completion : Option Completion) : World :=
  { w with completions := Function.update w.completions n completion }

def setWorker (w : World) (n : ℕ) (worker : Option Worker) : World :=
  { w with workers := Function.update w.workers n worker }

def setPurge (w : World) (n : ℕ) (job : Option HostedTrace) : World :=
  { w with purges := Function.update w.purges n job }

def setCleaner (w : World) (n : ℕ) (cleaner : Option Cleaner) : World :=
  { w with cleaners := Function.update w.cleaners n cleaner }

def setDeletion (w : World) (n : ℕ) (deletion : Option Deletion) : World :=
  { w with deletions := Function.update w.deletions n deletion }

/-- What a numbered slot holds after one slot was set. -/
theorem slot_of_update {α : Type} {slots : ℕ → Option α} {n m : ℕ} {new : Option α} {a : α}
    (h : Function.update slots n new m = some a) :
    (m = n ∧ new = some a) ∨ (m ≠ n ∧ slots m = some a) := by
  by_cases hm : m = n
  · subst hm
    exact .inl ⟨rfl, by simpa using h⟩
  · exact .inr ⟨hm, by simpa [Function.update_of_ne hm] using h⟩

/-! ### Create requests -/

/-- The sum of the declared sizes of an account's traces in the states that count. -/
def storedBytes (w : World) (accountId : String) : ℤ :=
  ((w.traces.rows.filter fun r => r.accountId = accountId && r.status.stored).map
    (·.declaredPackageSizeBytes)).sum

/-- The row of an account's source trace. -/
def bySource (w : World) (accountId sourceTraceId : String) : Option HostedTrace :=
  w.traces.rows.find? fun r => r.accountId = accountId && r.sourceTraceId = sourceTraceId

def startCreate (w : World) (n : ℕ) (request : CreateHostedTraceRequest) (jobId : String)
    (now : ℤ) : Option World :=
  if w.calls n = none ∧ 0 < request.packageSizeBytes then
    some (w.setCall n (some ⟨request, .insert jobId, now, .waiting⟩))
  else none

/-- The request goes on to a row that it may open again. -/
def startReopen (w : World) (n : ℕ) (request : CreateHostedTraceRequest) (now : ℤ) :
    Option World :=
  match w.bySource request.accountId request.sourceTraceId with
  | some job =>
    if w.calls n = none ∧ job.declaredPackageSizeBytes = request.packageSizeBytes ∧
        job.declaredPackageSha256 = request.packageSha256 ∧
        job.retryable request.allowHighEntropy then
      some (w.setCall n (some ⟨request, .reopen job, now, .waiting⟩))
    else none
  | none => none

def lock (w : World) (n : ℕ) : Option World :=
  match w.calls n with
  | some ⟨request, target, now, .waiting⟩ =>
    if w.locks request.accountId = none then
      some ({ w with locks := Function.update w.locks request.accountId (some n) }.setCall n
        (some ⟨request, target, now, .locked⟩))
    else none
  | _ => none

/-- The end of a transaction gives its advisory lock back. -/
def release (w : World) (n : ℕ) : World :=
  { w with locks := fun account => if w.locks account = some n then none else w.locks account }

def endCall (w : World) (n : ℕ) : World := (w.setCall n none).release n

/-- The generation to go on with, once the allowance is checked; the call fails without one. -/
def checkedGeneration (w : World) (svc : Service) (request : CreateHostedTraceRequest) :
    UploadTarget → Option (Option ℕ)
  | .insert _ =>
    if w.traces.rows.any fun r => r.accountId = request.accountId &&
        r.idempotencyKey = request.idempotencyKey &&
        r.sourceTraceId ≠ request.sourceTraceId then none
    else if (w.bySource request.accountId request.sourceTraceId).isSome then some none
    else if traceStorageAllows (traceStorageBytes (svc.plan request.accountId))
        (w.storedBytes request.accountId) request.packageSizeBytes then some (some 0)
    else none
  | .reopen job =>
    match w.trace job.traceId with
    | none => none
    | some current =>
      if ¬current.retryable request.allowHighEntropy then some none
      else if traceStorageAllows (traceStorageBytes (svc.plan request.accountId))
          (w.storedBytes request.accountId) job.declaredPackageSizeBytes then
        some (some current.uploadGeneration)
      else none

def checkQuota (w : World) (svc : Service) (n : ℕ) : Option World :=
  match w.calls n with
  | some ⟨request, target, now, .locked⟩ =>
    match w.checkedGeneration svc request target with
    | some generation => some (w.setCall n (some ⟨request, target, now, .checked generation⟩))
    | none => some (w.endCall n)
  | _ => none

/-- The last statement of the transaction and its commit. -/
def writeUpload (w : World) (svc : Service) (request : CreateHostedTraceRequest) (now : ℤ)
    (generation : Option ℕ) : UploadTarget → Option World
  | .insert jobId =>
    if (w.bySource request.accountId request.sourceTraceId).isSome then some w
    else if w.accounts request.accountId ∧ jobId ∉ w.traceIds then
      (w.traces.insert (.create request jobId (now + svc.uploadTtlSecs))).map
        fun traces => { w with traces, traceIds := jobId :: w.traceIds }
    else none
  | .reopen job =>
    match generation with
    | some generation =>
      w.updateTrace job.traceId (fun r => r.accountId = request.accountId &&
          r.retryable request.allowHighEntropy && r.uploadGeneration = generation)
        (·.reopened request job.uploadGeneration (now + svc.uploadTtlSecs))
    | none => some w

def commitUpload (w : World) (svc : Service) (n : ℕ) : Option World :=
  match w.calls n with
  | some ⟨request, target, now, .checked generation⟩ =>
    (w.writeUpload svc request now generation target).map (·.endCall n)
  | _ => none

/-- A stopped trace with an expired access needs a new expiry. -/
def reactivate (w : World) (request : CreateHostedTraceRequest) (now : ℤ) : Option World :=
  match w.bySource request.accountId request.sourceTraceId with
  | some job =>
    if request.reactivate ∧ (job.accessExpiresAt.all (now < ·) ∨ request.expiresAtChanged) then
      w.updateTrace job.traceId (fun r => r.status = .stopped && r.artifacts.isSome)
        (·.reactivated request)
    else none
  | none => none

/-! ### The owner's other requests -/

def updateAccess (w : World) (traceId : String) (accessExpiresAt : Option ℤ) : Option World :=
  w.updateTrace traceId (fun _ => true) ({ · with accessExpiresAt })

def stop (w : World) (traceId : String) : Option World :=
  w.updateTrace traceId (·.status = .shared) ({ · with status := .stopped })

/-- Whoever has an upload URL writes under a staging key. -/
def upload (w : World) (accountId traceId : String) (generation : ℕ) (bytes : Bytes) : World :=
  w.putObject (.staging accountId traceId generation) bytes

def expire (w : World) (traceId : String) (now : ℤ) : Option World :=
  match w.trace traceId with
  | some job =>
    if job.status = .uploading ∧ job.uploadExpiresAt ≤ now then
      (w.updateTrace traceId job.sameAttempt
        ({ · with status := .failed, failureCode := some "upload_expired" })).map
          fun w => (w.enqueue job.stagingObjectKey traceId).enqueue job.committedStagingObjectKey
            traceId
    else none
  | none => none

def startCompletion (w : World) (n : ℕ) (traceId : String) (now : ℤ) : Option World :=
  match w.trace traceId with
  | some job =>
    if w.completions n = none ∧ job.status = .uploading ∧ now < job.uploadExpiresAt then
      some (w.setCompletion n (some ⟨job, .loaded⟩))
    else none
  | none => none

/-- The copy under the committed key. -/
def promote (w : World) (n : ℕ) : Option World :=
  match w.completions n with
  | some ⟨job, .loaded⟩ =>
    match w.objects job.stagingObjectKey with
    | some bytes =>
      if (bytes.length : ℤ) = job.declaredPackageSizeBytes then
        some ((w.putObject job.committedStagingObjectKey bytes).setCompletion n
          (some ⟨job, .promoted⟩))
      else none
    | none => none
  | _ => none

/-- The store says whether the copy has the size and the metadata of the declared package. -/
def headPromoted (w : World) (n : ℕ) (asDeclared : Bool) : Option World :=
  match w.completions n with
  | some ⟨job, .promoted⟩ =>
    if (w.objects job.committedStagingObjectKey).isNone then some (w.setCompletion n none)
    else some (w.setCompletion n (some ⟨job, if asDeclared then .checked else .mismatched⟩))
  | _ => none

def queueCompleted (w : World) (n : ℕ) : Option World :=
  match w.completions n with
  | some ⟨job, .checked⟩ =>
    if w.affects job.traceId job.sameAttempt then
      (w.updateTrace job.traceId job.sameAttempt ({ · with status := .queued })).map
        fun w => (w.enqueue job.stagingObjectKey job.traceId).setCompletion n none
    else some (w.setCompletion n (some ⟨job, .lost⟩))
  | _ => none

/-- A completion that lost reads the row once more. -/
def reload (w : World) (n : ℕ) : Option World :=
  match w.completions n with
  | some ⟨job, .lost⟩ =>
    match w.trace job.traceId with
    | none => some (w.setCompletion n none)
    | some current =>
      if current.status = .queued ∧ current.uploadGeneration = job.uploadGeneration then
        some (w.setCompletion n none)
      else some (w.setCompletion n (some ⟨job, .superseded⟩))
  | _ => none

def enqueuePrivateCleanupPair (w : World) (job : HostedTrace) : World :=
  (w.enqueue job.stagingObjectKey job.traceId).enqueue job.committedStagingObjectKey job.traceId

def enqueueLeftovers (w : World) (n : ℕ) : Option World :=
  match w.completions n with
  | some ⟨job, .superseded⟩ => some ((w.enqueuePrivateCleanupPair job).setCompletion n none)
  | some ⟨job, .mismatched⟩ =>
    some ((w.enqueue job.committedStagingObjectKey job.traceId).setCompletion n none)
  | _ => none

end World

end Notary.Traces
