import Notary.Lib.Hex
import Notary.Traces.Service

/-! Verification workers, the cleanup of objects, account deletion, and the steps of the whole
service. -/

namespace Notary.Traces
open Relational
open Utf8 (Bytes)

/-- The public objects of a package, under keys of the claim that verified it. -/
def Service.storedArtifacts (svc : Service) (traceId claim : String) (archive content : Bytes) :
    StoredPublicArtifacts where
  contentObjectKey := .content traceId claim (svc.sha256Hex content)
  contentSizeBytes := content.length
  contentSha256 := svc.sha256Hex content
  packageObjectKey := .package traceId claim (svc.sha256Hex archive)
  packageSizeBytes := archive.length
  packageSha256 := svc.sha256Hex archive

def Admission.stored (a : Admission) (svc : Service) : StoredPublicArtifacts :=
  svc.storedArtifacts a.traceId a.claim a.archive a.content

/-- What a worker makes of the package that it read. -/
def Service.examine (svc : Service) (job : HostedTrace) (archive : Bytes) : WorkerStage :=
  if (archive.length : ℤ) ≠ job.declaredPackageSizeBytes then .rejecting "object_size_mismatch"
  else if svc.sha256Hex archive ≠ job.declaredPackageSha256 then
    .rejecting "object_sha256_mismatch"
  else match svc.verifyForAdmission archive job.allowHighEntropy with
    | .error code => .rejecting code
    | .ok verified =>
      if verified.sourceTraceId ≠ job.sourceTraceId then .rejecting "source_trace_id_mismatch"
      else .storing archive verified.trace .contentIntent

/-- Where an error leaves a worker: an error of a public write queues both objects again, and one
of the last statements ends the work. -/
def WorkerStage.failed : WorkerStage → Option WorkerStage
  | storing archive content .writeContent | storing archive content .writePackage
  | storing archive content .checkPackage => some (cleaningUp archive content false)
  | claimed | storing _ _ _ | cleaningUp _ _ _ => some retrying
  | rejecting _ | reconciling _ _ | retrying | purging => none

namespace World

def claimNextJob (w : World) (n : ℕ) (traceId claim : String) (now : ℤ) : Option World :=
  match w.trace traceId with
  | some job =>
    if w.workers n = none ∧ claim ∉ w.claims ∧ job.status = .queued then
      (w.updateTrace traceId (·.status = .queued) (·.claimed claim now)).map fun w =>
        { w with claims := claim :: w.claims }.setWorker n
          (some ⟨job.claimed claim now, claim, .claimed⟩)
    else none
  | none => none

def fetch (w : World) (svc : Service) (n : ℕ) (unavailable : Bool) : Option World :=
  match w.workers n with
  | some ⟨job, claim, .claimed⟩ =>
    let stage := match w.objects job.committedStagingObjectKey with
      | none => .rejecting "object_missing"
      | some archive => svc.examine job archive
    some (w.setWorker n (some ⟨job, claim, if unavailable then .retrying else stage⟩))
  | _ => none

/-- One statement of `store_committed_artifacts`, with the stage it leaves. -/
def storeStep (w : World) (stored : StoredPublicArtifacts) (traceId : String)
    (archive content : Bytes) : StoreStep → Option (World × WorkerStage)
  | .contentIntent =>
    some (w.enqueue stored.contentObjectKey traceId, .storing archive content .packageIntent)
  | .packageIntent =>
    some (w.enqueue stored.packageObjectKey traceId, .storing archive content .writeContent)
  | .writeContent =>
    some (w.putObject stored.contentObjectKey content, .storing archive content .writePackage)
  | .writePackage =>
    some (w.putObject stored.packageObjectKey archive, .storing archive content .checkPackage)
  | .checkPackage =>
    if w.objects stored.packageObjectKey = some archive then
      some (w, .storing archive content .admission)
    else some (w, .cleaningUp archive content false)
  | .admission => none

def store (w : World) (svc : Service) (n : ℕ) : Option World :=
  match w.workers n with
  | some ⟨job, claim, .storing archive content next⟩ =>
    (w.storeStep (svc.storedArtifacts job.traceId claim archive content) job.traceId archive
      content next).map fun (w, stage) => w.setWorker n (some ⟨job, claim, stage⟩)
  | _ => none

/-- The condition of the admission statement. -/
def admissible (claim : String) (r : HostedTrace) : Bool := r.holds claim && r.artifacts.isNone

def admitClaim (w : World) (svc : Service) (a : Admission) : Option World :=
  w.updateTrace a.traceId (admissible a.claim) (·.admitted (a.stored svc))

def admitStored (w : World) (svc : Service) (n : ℕ) (answer : UpdateAnswer) : Option World :=
  match w.workers n with
  | some ⟨job, claim, .storing archive content .admission⟩ =>
    let a : Admission := ⟨job.traceId, claim, archive, content⟩
    let reconciling : Worker := ⟨job, claim, .reconciling archive content⟩
    match answer with
    | .reported =>
      (w.admitClaim svc a).map (·.setWorker n (some
        (if w.affects job.traceId (admissible claim) then ⟨job, claim, .purging⟩
          else reconciling)))
    | .unreported => (w.admitClaim svc a).map (·.setWorker n (some reconciling))
    | .outstanding =>
      some ({ w with outstanding := w.outstanding ++ [a] }.setWorker n (some reconciling))
    | .dropped => some (w.setWorker n (some reconciling))
  | _ => none

def admitLate (w : World) (svc : Service) (index : ℕ) : Option World :=
  match w.outstanding[index]? with
  | some a =>
    (w.admitClaim svc a).map fun w' => { w' with outstanding := w.outstanding.eraseIdx index }
  | none => none

/-- After an admission that was not reported: the public row has the artifacts, or another one, or
it could not be read. -/
def reconcile (w : World) (svc : Service) (n : ℕ) (readable : Bool) (now : ℤ) : Option World :=
  match w.workers n with
  | some ⟨job, claim, .reconciling archive content⟩ =>
    let stored := svc.storedArtifacts job.traceId claim archive content
    let stage : WorkerStage :=
      if ¬readable then .retrying
      else if (w.trace job.traceId).bind (·.publicArtifacts now) = some stored then .purging
      else .cleaningUp archive content false
    some (w.setWorker n (some ⟨job, claim, stage⟩))
  | _ => none

/-- `cleanup_committed_artifacts` up to its two cleanups, which are those of a pass. -/
def cleanUp (w : World) (svc : Service) (n : ℕ) : Option World :=
  match w.workers n with
  | some ⟨job, claim, .cleaningUp archive content contentQueued⟩ =>
    let stored := svc.storedArtifacts job.traceId claim archive content
    if contentQueued then
      some ((w.enqueue stored.packageObjectKey job.traceId).setWorker n
        (some ⟨job, claim, .retrying⟩))
    else
      some ((w.enqueue stored.contentObjectKey job.traceId).setWorker n
        (some ⟨job, claim, .cleaningUp archive content true⟩))
  | _ => none

def failWorker (w : World) (n : ℕ) : Option World :=
  match w.workers n with
  | some ⟨job, claim, stage⟩ => some (w.setWorker n (stage.failed.map (⟨job, claim, ·⟩)))
  | none => none

def rejectClaim (w : World) (n : ℕ) : Option World :=
  match w.workers n with
  | some ⟨job, claim, .rejecting code⟩ =>
    (w.updateTrace job.traceId (·.holds claim) (·.refused code)).map (·.setWorker n
      (if w.affects job.traceId (·.holds claim) then some ⟨job, claim, .purging⟩ else none))
  | _ => none

def retryClaim (w : World) (n : ℕ) : Option World :=
  match w.workers n with
  | some ⟨job, claim, .retrying⟩ =>
    (w.updateTrace job.traceId (·.holds claim) (·.requeued)).map (·.setWorker n none)
  | _ => none

def claimTimeoutSecs : ℤ := 15 * 60

def recoverStaleClaim (w : World) (traceId : String) (now : ℤ) : Option World :=
  w.updateTrace traceId (fun r => r.status = .verifying && r.artifacts.isNone &&
    r.verificationStartedAt.any (· < now - claimTimeoutSecs)) (·.requeued)

def purgeClaimed (w : World) (n : ℕ) : Option World :=
  match w.workers n with
  | some ⟨job, _, .purging⟩ => some ((w.enqueuePrivateCleanupPair job).setWorker n none)
  | _ => none

/-- `purge_verified_private_objects` reads rows first and purges them one by one. -/
def startPurge (w : World) (n : ℕ) (traceId : String) : Option World :=
  match w.trace traceId with
  | some job =>
    if w.purges n = none ∧ (job.status = .shared ∨ job.status = .rejected) then
      some (w.setPurge n (some job))
    else none
  | none => none

def purgeVerified (w : World) (n : ℕ) : Option World :=
  match w.purges n with
  | some job => some ((w.enqueuePrivateCleanupPair job).setPurge n none)
  | none => none

/-! ### Cleanup of one object -/

/-- The first transaction of `cleanup_object`, which locks the entry and the row: a referenced
object only loses its entry, and nothing is decided during a verification. -/
def decideCleanup (w : World) (n : ℕ) (key : ObjectKey) : Option World :=
  match w.queue key with
  | none => none
  | some traceId =>
    if (w.trace traceId).any (·.references key) then some (w.dequeue key)
    else if w.cleaners n = none ∧ (w.trace traceId).all (·.status ≠ .verifying) then
      some (w.setCleaner n (some ⟨key, false⟩))
    else none

def deleteObject (w : World) (n : ℕ) : Option World :=
  match w.cleaners n with
  | some ⟨key, false⟩ => some ((w.removeObject key).setCleaner n (some ⟨key, true⟩))
  | _ => none

def forgetObject (w : World) (n : ℕ) : Option World :=
  match w.cleaners n with
  | some ⟨key, true⟩ => some ((w.dequeue key).setCleaner n none)
  | _ => none

/-! ### Account deletion -/

/-- The first statement adds the keys of the account's traces that have no entry. -/
def startDeletion (w : World) (n : ℕ) (accountId : String) : Option World :=
  if w.deletions n = none then
    let rows := w.traces.rows.filter (·.accountId = accountId)
    let keys := rows.flatMap fun r => r.objectKeys.map (·, r.traceId)
    some (w.setDeletion n (some ⟨accountId, keys.filter fun p => (w.queue p.1).isNone⟩))
  else none

/-- The second statement deletes the account with its traces, and the commit shows both. -/
def commitDeletion (w : World) (n : ℕ) : Option World :=
  match w.deletions n with
  | some deletion =>
    let deleted := { w with
      traces := w.traces.delete (·.accountId = deletion.accountId)
      accounts := Function.update w.accounts deletion.accountId false
      queue := fun key => (w.queue key).or (deletion.intent key) }
    some (deleted.setDeletion n none)
  | none => none

end World

/-- Something that can stop before its next step. -/
inductive Process
  | call (n : ℕ)
  | completion (n : ℕ)
  | worker (n : ℕ)
  | purge (n : ℕ)
  | cleaner (n : ℕ)
  | deletion (n : ℕ)
  deriving DecidableEq

inductive Act
  | startCreate (n : ℕ) (request : CreateHostedTraceRequest) (jobId : String) (now : ℤ)
  | startReopen (n : ℕ) (request : CreateHostedTraceRequest) (now : ℤ)
  | lock (n : ℕ)
  | checkQuota (n : ℕ)
  | commitUpload (n : ℕ)
  | reactivate (request : CreateHostedTraceRequest) (now : ℤ)
  | updateAccess (traceId : String) (accessExpiresAt : Option ℤ)
  | stop (traceId : String)
  | upload (accountId traceId : String) (generation : ℕ) (bytes : Bytes)
  | expire (traceId : String) (now : ℤ)
  | startCompletion (n : ℕ) (traceId : String) (now : ℤ)
  | promote (n : ℕ)
  | headPromoted (n : ℕ) (asDeclared : Bool)
  | queueCompleted (n : ℕ)
  | reload (n : ℕ)
  | enqueueLeftovers (n : ℕ)
  | claimNextJob (n : ℕ) (traceId claim : String) (now : ℤ)
  | fetch (n : ℕ) (unavailable : Bool)
  | store (n : ℕ)
  | admitStored (n : ℕ) (answer : UpdateAnswer)
  | admitLate (index : ℕ)
  | reconcile (n : ℕ) (readable : Bool) (now : ℤ)
  | cleanUp (n : ℕ)
  | failWorker (n : ℕ)
  | rejectClaim (n : ℕ)
  | retryClaim (n : ℕ)
  | recoverStaleClaim (traceId : String) (now : ℤ)
  | purgeClaimed (n : ℕ)
  | startPurge (n : ℕ) (traceId : String)
  | purgeVerified (n : ℕ)
  | decideCleanup (n : ℕ) (key : ObjectKey)
  | deleteObject (n : ℕ)
  | forgetObject (n : ℕ)
  | startDeletion (n : ℕ) (accountId : String)
  | commitDeletion (n : ℕ)
  | die (process : Process)
  deriving DecidableEq

namespace World

def die (w : World) : Process → World
  | .call n => w.endCall n
  | .completion n => w.setCompletion n none
  | .worker n => w.setWorker n none
  | .purge n => w.setPurge n none
  | .cleaner n => w.setCleaner n none
  | .deletion n => w.setDeletion n none

def step (svc : Service) (w : World) : Act → Option World
  | .startCreate n request jobId now => w.startCreate n request jobId now
  | .startReopen n request now => w.startReopen n request now
  | .lock n => w.lock n
  | .checkQuota n => w.checkQuota svc n
  | .commitUpload n => w.commitUpload svc n
  | .reactivate request now => w.reactivate request now
  | .updateAccess traceId accessExpiresAt => w.updateAccess traceId accessExpiresAt
  | .stop traceId => w.stop traceId
  | .upload accountId traceId generation bytes =>
    some (w.upload accountId traceId generation bytes)
  | .expire traceId now => w.expire traceId now
  | .startCompletion n traceId now => w.startCompletion n traceId now
  | .promote n => w.promote n
  | .headPromoted n asDeclared => w.headPromoted n asDeclared
  | .queueCompleted n => w.queueCompleted n
  | .reload n => w.reload n
  | .enqueueLeftovers n => w.enqueueLeftovers n
  | .claimNextJob n traceId claim now => w.claimNextJob n traceId claim now
  | .fetch n unavailable => w.fetch svc n unavailable
  | .store n => w.store svc n
  | .admitStored n answer => w.admitStored svc n answer
  | .admitLate index => w.admitLate svc index
  | .reconcile n readable now => w.reconcile svc n readable now
  | .cleanUp n => w.cleanUp svc n
  | .failWorker n => w.failWorker n
  | .rejectClaim n => w.rejectClaim n
  | .retryClaim n => w.retryClaim n
  | .recoverStaleClaim traceId now => w.recoverStaleClaim traceId now
  | .purgeClaimed n => w.purgeClaimed n
  | .startPurge n traceId => w.startPurge n traceId
  | .purgeVerified n => w.purgeVerified n
  | .decideCleanup n key => w.decideCleanup n key
  | .deleteObject n => w.deleteObject n
  | .forgetObject n => w.forgetObject n
  | .startDeletion n accountId => w.startDeletion n accountId
  | .commitDeletion n => w.commitDeletion n
  | .die process => some (w.die process)

end World

/-- The runs of the service in which every act meets a condition on the state it finds. -/
def hosting (svc : Service) (Init : World → Prop) (Allowed : World → Act → Prop) :
    Transition.System World where
  Init := Init
  Step w w' := ∃ act, Allowed w act ∧ w.step svc act = some w'

/-- No trace and no object yet, and nothing under way. -/
def World.Empty (w : World) : Prop := ∃ accounts, w = { accounts }

/-- SHA-256 of the bytes 1, 2, 3. -/
def sampleDigest : String := "039058c6f2c0cb492c533b0a4d14ef77cc0f78abccced5287d84a1a2011cfb81"

def sampleRequest : CreateHostedTraceRequest where
  accountId := "acc-1"
  sourceTraceId := "trc-local"
  idempotencyKey := "hosted-trace:trc-local"
  packageSizeBytes := 3
  packageSha256 := sampleDigest
  expiresAtChanged := false
  accessExpiresAt := none
  allowHighEntropy := false
  reactivate := false

/-- A service whose verifier takes every package as its own trace, with the digest of the only
package that it meets. -/
def sampleService : Service where
  sha256Hex b := if b = [1, 2, 3] then sampleDigest else "not " ++ Hex.encode b
  verifyForAdmission archive _ := .ok ⟨"trc-local", archive⟩
  uploadTtlSecs := 900
  plan _ := .free

theorem sampleService_sha256Hex_injective : Function.Injective sampleService.sha256Hex := by
  have hn (b : Bytes) : sampleDigest ≠ "not " ++ Hex.encode b := by
    intro h
    have hl := congrArg (fun s => s.toList.head?) h
    simp [sampleDigest] at hl
  intro a b h
  simp only [sampleService] at h
  split_ifs at h with ha hb hb
  · rw [ha, hb]
  · exact absurd h (hn b)
  · exact absurd h.symm (hn a)
  · exact Hex.encode_injective (String.append_right_inj _ |>.mp h)

def World.sample : World := { accounts := fun account => account = "acc-1" }

theorem World.empty_sample : World.sample.Empty := ⟨_, rfl⟩

/-- A create request up to the row it inserts. -/
def createTrace : List Act :=
  [.startCreate 0 sampleRequest "trc-1" 0, .lock 0, .checkQuota 0, .commitUpload 0]

/-- The package of a trace is uploaded and queued for verification. -/
def completeUpload (n : ℕ) : List Act :=
  [.upload "acc-1" "trc-1" 0 [1, 2, 3], .startCompletion n "trc-1" 1, .promote n,
    .headPromoted n true, .queueCompleted n]

def runAll (acts : List Act) : Option World :=
  Transition.System.runActs (World.step sampleService) (fun _ _ => True) .sample acts

end Notary.Traces
