import Notary.Traces.Worker

/-! What each act of the service does, once and for all: the state it finds and the state it
leaves. -/

namespace Notary.Traces
open Relational Option List Table
open Utf8 (Bytes)

/-- `UPDATE traces SET f WHERE trace_id = id AND p` leaves these rows. -/
def World.Updates (w : World) (id : String) (p : HostedTrace → Bool)
    (f : HostedTrace → HostedTrace) (traces : Table HostedTrace) : Prop :=
  w.traces.update (fun r => r.traceId = id && p r) f = some traces

/-- The rows and the identifiers that the last statement of an upload transaction leaves. -/
inductive World.Written (w : World) (svc : Service) (request : CreateHostedTraceRequest) (now : ℤ) :
    UploadTarget → Option ℕ → Table HostedTrace → List String → Prop
  | kept :
    w.Written svc request now target generation w.traces w.traceIds
  | inserted {traces : Table HostedTrace}
    (hnew : ¬(w.bySource request.accountId request.sourceTraceId).isSome = true)
    (haccount : w.accounts request.accountId = true) (hfresh : jobId ∉ w.traceIds)
    (hinsert : w.traces.insert (.create request jobId (now + svc.uploadTtlSecs)) = some traces) :
    w.Written svc request now (.insert jobId) generation traces (jobId :: w.traceIds)
  | reopened {traces : Table HostedTrace}
    (hupdate : w.Updates job.traceId (fun r => r.accountId = request.accountId &&
        r.retryable request.allowHighEntropy && r.uploadGeneration = generation)
      (·.reopened request job.uploadGeneration (now + svc.uploadTtlSecs)) traces) :
    w.Written svc request now (.reopen job) (some generation) traces w.traceIds

/-- What an account deletion leaves to the cleanup: the keys of the account's traces that have no
entry yet. -/
def World.leftKeys (w : World) (accountId : String) : List (ObjectKey × String) :=
  ((w.traces.rows.filter (·.accountId = accountId)).flatMap fun r =>
    r.objectKeys.map (·, r.traceId)).filter fun p => (w.queue p.1).isNone

/-- The rows and the entries after an account deletion. -/
def World.deleteAccount (w : World) (deletion : Deletion) : World :=
  { w with
    traces := w.traces.delete (·.accountId = deletion.accountId)
    accounts := Function.update w.accounts deletion.accountId false
    queue := fun key => (w.queue key).or (deletion.intent key) }

/-- The acts by what they find and leave. -/
inductive Effect (svc : Service) (w : World) : Act → World → Prop
  | startCreate
    (hidle : w.calls n = none) :
    Effect svc w (.startCreate n request jobId now)
      (w.setCall n (some ⟨request, .insert jobId, now, .waiting⟩))
  | startReopen
    (hjob : w.bySource request.accountId request.sourceTraceId = some job)
    (hretryable : job.retryable request.allowHighEntropy = true) :
    Effect svc w (.startReopen n request now)
      (w.setCall n (some ⟨request, .reopen job, now, .waiting⟩))
  | lock
    (hcall : w.calls n = some ⟨request, target, now, .waiting⟩)
    (hfree : w.locks request.accountId = none) :
    Effect svc w (.lock n)
      ({ w with locks := Function.update w.locks request.accountId (some n) }.setCall n
        (some ⟨request, target, now, .locked⟩))
  | checked (hcall : w.calls n = some ⟨request, target, now, .locked⟩)
    (hcheck : w.checkedGeneration svc request target = some generation) :
    Effect svc w (.checkQuota n)
      (w.setCall n (some ⟨request, target, now, .checked generation⟩))
  | refused : Effect svc w (.checkQuota n) (w.endCall n)
  | committed
    (hcall : w.calls n = some ⟨request, target, now, .checked generation⟩)
    (hwritten : w.Written svc request now target generation traces traceIds) :
    Effect svc w (.commitUpload n) ({ w with traces, traceIds }.endCall n)
  | reactivated {job : HostedTrace} (hupdate : w.Updates job.traceId
      (fun r => r.status = .stopped && r.artifacts.isSome) (·.reactivated request) traces) :
    Effect svc w (.reactivate request now) { w with traces }
  | accessUpdated
    (hupdate : w.Updates traceId (fun _ => true) ({ · with accessExpiresAt }) traces) :
    Effect svc w (.updateAccess traceId accessExpiresAt) { w with traces }
  | stopped
    (hupdate : w.Updates traceId (·.status = .shared) ({ · with status := .stopped }) traces) :
    Effect svc w (.stop traceId) { w with traces }
  | uploaded :
    Effect svc w (.upload accountId traceId generation bytes)
      (w.putObject (.staging accountId traceId generation) bytes)
  | expired
    (hjob : w.trace traceId = some job) (huploading : job.status = .uploading)
    (hupdate : w.Updates traceId job.sameAttempt
      ({ · with status := .failed, failureCode := some "upload_expired" }) traces) :
    Effect svc w (.expire traceId now)
      (({ w with traces }.enqueue job.stagingObjectKey traceId).enqueue
        job.committedStagingObjectKey traceId)
  | startCompletion
    (hjob : w.trace traceId = some job) (huploading : job.status = .uploading) :
    Effect svc w (.startCompletion n traceId now) (w.setCompletion n (some ⟨job, .loaded⟩))
  | promoted
    (hcompletion : w.completions n = some ⟨job, .loaded⟩)
    (hstaged : w.objects job.stagingObjectKey = some bytes) :
    Effect svc w (.promote n) ((w.putObject job.committedStagingObjectKey bytes).setCompletion n
      (some ⟨job, .promoted⟩))
  | missing :
    Effect svc w (.headPromoted n asDeclared) (w.setCompletion n none)
  | headed
    (hcompletion : w.completions n = some ⟨job, .promoted⟩)
    (hthere : w.objects job.committedStagingObjectKey ≠ none) :
    Effect svc w (.headPromoted n asDeclared)
      (w.setCompletion n (some ⟨job, if asDeclared then .checked else .mismatched⟩))
  | queued
    (hcompletion : w.completions n = some ⟨job, .checked⟩)
    (hupdate : w.Updates job.traceId job.sameAttempt ({ · with status := .queued }) traces) :
    Effect svc w (.queueCompleted n)
      (({ w with traces }.enqueue job.stagingObjectKey job.traceId).setCompletion n none)
  | lost (hcompletion : w.completions n = some ⟨job, .checked⟩)
    (hchanged : w.affects job.traceId job.sameAttempt = false) :
    Effect svc w (.queueCompleted n) (w.setCompletion n (some ⟨job, .lost⟩))
  | settled : Effect svc w (.reload n) (w.setCompletion n none)
  | superseded
    (hcompletion : w.completions n = some ⟨job, .lost⟩)
    (hcurrent : w.trace job.traceId = some current)
    (hnot : ¬(current.status = .queued ∧ current.uploadGeneration = job.uploadGeneration)) :
    Effect svc w (.reload n) (w.setCompletion n (some ⟨job, .superseded⟩))
  | leftPair (hcompletion : w.completions n = some ⟨job, .superseded⟩) :
    Effect svc w (.enqueueLeftovers n) ((w.enqueuePrivateCleanupPair job).setCompletion n none)
  | leftCopy (hcompletion : w.completions n = some ⟨job, .mismatched⟩) :
    Effect svc w (.enqueueLeftovers n)
      ((w.enqueue job.committedStagingObjectKey job.traceId).setCompletion n none)
  | claimed (hjob : w.trace traceId = some job) (hfresh : claim ∉ w.claims)
    (hidle : w.workers n = none) (hqueued : job.status = .queued)
    (hupdate : w.Updates traceId (·.status = .queued) (·.claimed claim now) traces) :
    Effect svc w (.claimNextJob n traceId claim now)
      ({ w with traces, claims := claim :: w.claims }.setWorker n
        (some ⟨job.claimed claim now, claim, .claimed⟩))
  | unfetched
    (hworker : w.workers n = some ⟨job, claim, .claimed⟩) :
    Effect svc w (.fetch n unavailable) (w.setWorker n (some ⟨job, claim, .retrying⟩))
  | absent
    (hworker : w.workers n = some ⟨job, claim, .claimed⟩)
    (hmissing : w.objects job.committedStagingObjectKey = none) :
    Effect svc w (.fetch n unavailable)
      (w.setWorker n (some ⟨job, claim, .rejecting "object_missing"⟩))
  | fetched
    (hworker : w.workers n = some ⟨job, claim, .claimed⟩)
    (harchive : w.objects job.committedStagingObjectKey = some archive) :
    Effect svc w (.fetch n unavailable)
      (w.setWorker n (some ⟨job, claim, svc.examine job archive⟩))
  | stored {next : StoreStep}
    (hworker : w.workers n = some ⟨job, claim, .storing archive content next⟩)
    (hwritten : w.storeStep (svc.storedArtifacts job.traceId claim archive content) job.traceId
      archive content next = some (written, stage)) :
    Effect svc w (.store n) (written.setWorker n (some ⟨job, claim, stage⟩))
  | admitted
    (hworker : w.workers n = some ⟨job, claim, .storing archive content .admission⟩)
    (hupdate : w.Updates job.traceId (World.admissible claim)
      (·.admitted (svc.storedArtifacts job.traceId claim archive content)) traces)
    (hstage : stage = .reconciling archive content ∨
      stage = .purging ∧ w.affects job.traceId (World.admissible claim) = true) :
    Effect svc w (.admitStored n answer) ({ w with traces }.setWorker n (some ⟨job, claim, stage⟩))
  | postponed
    (hworker : w.workers n = some ⟨job, claim, .storing archive content .admission⟩) :
    Effect svc w (.admitStored n .outstanding)
      ({ w with
        outstanding := w.outstanding ++ [(⟨job.traceId, claim, archive, content⟩ : Admission)]
      }.setWorker n (some ⟨job, claim, .reconciling archive content⟩))
  | dropped
    (hworker : w.workers n = some ⟨job, claim, .storing archive content .admission⟩) :
    Effect svc w (.admitStored n .dropped)
      (w.setWorker n (some ⟨job, claim, .reconciling archive content⟩))
  | admittedLate
    (hlate : w.outstanding[index]? = some a)
    (hupdate : w.Updates a.traceId (World.admissible a.claim) (·.admitted (a.stored svc)) traces) :
    Effect svc w (.admitLate index)
      { w with traces, outstanding := w.outstanding.eraseIdx index }
  | reconciled
    (hworker : w.workers n = some ⟨job, claim, .reconciling archive content⟩)
    (hstage : stage = .retrying ∨ stage = .cleaningUp archive content false ∨
      stage = .purging ∧ (w.trace job.traceId).bind (·.publicArtifacts now) =
        some (svc.storedArtifacts job.traceId claim archive content)) :
    Effect svc w (.reconcile n readable now) (w.setWorker n (some ⟨job, claim, stage⟩))
  | contentQueued
    (hworker : w.workers n = some ⟨job, claim, .cleaningUp archive content false⟩) :
    Effect svc w (.cleanUp n)
      ((w.enqueue (svc.storedArtifacts job.traceId claim archive content).contentObjectKey
        job.traceId).setWorker n (some ⟨job, claim, .cleaningUp archive content true⟩))
  | packageQueued
    (hworker : w.workers n = some ⟨job, claim, .cleaningUp archive content true⟩) :
    Effect svc w (.cleanUp n)
      ((w.enqueue (svc.storedArtifacts job.traceId claim archive content).packageObjectKey
        job.traceId).setWorker n (some ⟨job, claim, .retrying⟩))
  | failed
    (hworker : w.workers n = some ⟨job, claim, stage⟩) :
    Effect svc w (.failWorker n) (w.setWorker n (stage.failed.map (⟨job, claim, ·⟩)))
  | rejected (hworker : w.workers n = some ⟨job, claim, .rejecting code⟩)
    (hupdate : w.Updates job.traceId (·.holds claim) (·.refused code) traces)
    (hnext : worker = none ∨ worker = some ⟨job, claim, .purging⟩ ∧
      w.affects job.traceId (·.holds claim) = true) :
    Effect svc w (.rejectClaim n) ({ w with traces }.setWorker n worker)
  | retried
    (hworker : w.workers n = some ⟨job, claim, .retrying⟩)
    (hupdate : w.Updates job.traceId (·.holds claim) (·.requeued) traces) :
    Effect svc w (.retryClaim n) ({ w with traces }.setWorker n none)
  | recovered
    (hupdate : w.Updates traceId (fun r => r.status = .verifying && r.artifacts.isNone &&
      r.verificationStartedAt.any (· < now - claimTimeoutSecs)) (·.requeued) traces) :
    Effect svc w (.recoverStaleClaim traceId now) { w with traces }
  | purgedClaimed
    (hworker : w.workers n = some ⟨job, claim, .purging⟩) :
    Effect svc w (.purgeClaimed n) ((w.enqueuePrivateCleanupPair job).setWorker n none)
  | startPurge (hjob : w.trace traceId = some job)
    (hdone : job.status = .shared ∨ job.status = .rejected) :
    Effect svc w (.startPurge n traceId) (w.setPurge n (some job))
  | purgedVerified (hpurge : w.purges n = some job) :
    Effect svc w (.purgeVerified n) ((w.enqueuePrivateCleanupPair job).setPurge n none)
  | unqueued (hqueue : w.queue key = some traceId)
    (hreferenced : (w.trace traceId).any (·.references key) = true) :
    Effect svc w (.decideCleanup n key) (w.dequeue key)
  | decided (hqueue : w.queue key = some traceId)
    (hunreferenced : (w.trace traceId).any (·.references key) = false)
    (hsettled : (w.trace traceId).all (·.status ≠ .verifying) = true) :
    Effect svc w (.decideCleanup n key) (w.setCleaner n (some ⟨key, false⟩))
  | removed (hcleaner : w.cleaners n = some ⟨key, false⟩) :
    Effect svc w (.deleteObject n) ((w.removeObject key).setCleaner n (some ⟨key, true⟩))
  | forgotten (hcleaner : w.cleaners n = some ⟨key, true⟩) :
    Effect svc w (.forgetObject n) ((w.dequeue key).setCleaner n none)
  | startDeletion (hidle : w.deletions n = none) :
    Effect svc w (.startDeletion n accountId)
      (w.setDeletion n (some ⟨accountId, w.leftKeys accountId⟩))
  | deleted (hdeletion : w.deletions n = some deletion) :
    Effect svc w (.commitDeletion n) ((w.deleteAccount deletion).setDeletion n none)
  | died : Effect svc w (.die process) (w.die process)

variable {w : World} {id claim traceId : String} {p : HostedTrace → Bool}
  {f : HostedTrace → HostedTrace} {r : HostedTrace} {traces : Table HostedTrace} {now : ℤ} {n : ℕ}

theorem World.updateTrace_eq_some (h : w.updateTrace id p f = some w') :
    ∃ traces, w.Updates id p f traces ∧ w' = { w with traces } := by
  obtain ⟨traces, hu, rfl⟩ := map_eq_some_iff.mp h
  exact ⟨traces, hu, rfl⟩

theorem World.traceId_of_trace (h : w.trace id = some r) : r.traceId = id :=
  (find?_eq_some.mp h).2

theorem World.Updates.trace (h : w.Updates id p f traces)
    (hr : ({ w with traces } : World).trace k = some r')
    (hf : ∀ r : HostedTrace, (f r).traceId = r.traceId := by intro; rfl) :
    ∃ r, w.trace k = some r ∧ (r' = r ∨ k = id ∧ p r = true ∧ r' = f r) := by
  have hfi := find?_of_update h hf k
  rw [World.trace, hfi, map_eq_some_iff] at hr
  obtain ⟨r, hr, rfl⟩ := hr
  refine ⟨r, hr, ?_⟩
  split
  · rename_i hp
    simp only [Bool.and_eq_true, decide_eq_true_eq] at hp
    exact .inr ⟨(World.traceId_of_trace hr).symm.trans hp.1, hp.2, rfl⟩
  · exact .inl rfl

theorem World.Updates.trace_of (h : w.Updates id p f traces) (hr : w.trace k = some r)
    (hf : ∀ r : HostedTrace, (f r).traceId = r.traceId := by intro; rfl) :
    ∃ r', ({ w with traces } : World).trace k = some r' ∧ (r' = r ∨ p r = true ∧ r' = f r) := by
  have hfi := find?_of_update h hf k
  refine ⟨_, hfi.trans (congrArg _ hr), ?_⟩
  dsimp only
  split
  · rename_i hp
    simp only [Bool.and_eq_true] at hp
    exact .inr ⟨hp.2, rfl⟩
  · exact .inl rfl

theorem World.Updates.trace_affected (h : w.Updates id p f traces) (ha : w.affects id p = true)
    (hr' : ({ w with traces } : World).trace id = some r')
    (hf : ∀ r : HostedTrace, (f r).traceId = r.traceId := by intro; rfl) :
    ∃ r, w.trace id = some r ∧ p r = true ∧ r' = f r := by
  obtain ⟨r, hr⟩ := isSome_iff_exists.mp (isSome_of_any ha)
  rw [World.affects, hr, any_some] at ha
  refine ⟨r, hr, ha, ?_⟩
  have hfi := (find?_of_update h hf id).trans (congrArg _ hr)
  have hro : (decide (r.traceId = id) && p r) = true := by simp [World.traceId_of_trace hr, ha]
  simp only [map_some, hro, if_true] at hfi
  exact Option.some.inj (hr'.symm.trans hfi)

theorem HostedTrace.references_iff : r.references key = true ↔
    ∃ stored, r.artifacts = some stored ∧
      (stored.contentObjectKey = key ∨ stored.packageObjectKey = key) := by
  simp [references, Option.any_eq_true]

/-- A key that an account deletion leaves is one of a trace of the account. -/
theorem World.trace_of_intent
    (h : (⟨accountId, w.leftKeys accountId⟩ : Deletion).intent key = some traceId) :
    ∃ r, w.trace traceId = some r ∧ r.accountId = accountId ∧
      (key = r.stagingObjectKey ∨ key = r.committedStagingObjectKey ∨ r.references key = true) := by
  obtain ⟨⟨k, _⟩, hf, rfl⟩ := map_eq_some_iff.mp h
  have hm := mem_of_find?_eq_some hf
  obtain rfl : k = key := by simpa using find?_some hf
  simp only [leftKeys, mem_filter, mem_flatMap, List.mem_map, Prod.mk.injEq] at hm
  obtain ⟨⟨r, ⟨hr, ha⟩, _, hk, rfl, rfl⟩, -⟩ := hm
  refine ⟨r, find?_eq_some.mpr ⟨hr, rfl⟩, by simpa using ha, ?_⟩
  simp only [HostedTrace.objectKeys, cons_append, nil_append, mem_cons] at hk
  refine hk.imp_right (Or.imp_right fun hk => ?_)
  cases hs : r.artifacts with
  | none => simp [hs] at hk
  | some stored =>
    exact HostedTrace.references_iff.mpr ⟨stored, hs, by simpa [hs, eq_comm] using hk⟩

theorem HostedTrace.holds_iff :
    r.holds claim = true ↔ r.status = .verifying ∧ r.verificationClaim = some claim := by
  simp [holds]

theorem HostedTrace.sameAttempt_status {job : HostedTrace} (h : job.sameAttempt r = true) :
    r.status = .uploading := by
  simp only [sameAttempt, Bool.and_eq_true, decide_eq_true_eq] at h
  exact h.1.1.1.1.1

namespace World

variable {svc : Service} {w w' : World}

theorem admissible_iff : admissible claim r = true ↔ r.holds claim = true ∧ r.artifacts = none := by
  simp [admissible]

/-- Storing artifacts changes only the queue and the objects. -/
theorem storeStep_frame {stored : StoredPublicArtifacts} {archive content : Bytes}
    {next : StoreStep} {stage : WorkerStage}
    (h : w.storeStep stored traceId archive content next = some (w', stage)) :
    w' = { w with queue := w'.queue, objects := w'.objects } := by
  cases next with
  | contentIntent | packageIntent | writeContent | writePackage =>
    cases h
    rfl
  | checkPackage =>
    simp only [storeStep] at h
    split at h <;> cases h <;> rfl
  | admission => cases h

theorem writeUpload_written (h : w.writeUpload svc request now generation target = some w') :
    ∃ traces traceIds, w.Written svc request now target generation traces traceIds ∧
      w' = { w with traces, traceIds } := by
  cases target with
  | insert =>
    simp only [writeUpload] at h
    split at h
    · cases h
      exact ⟨_, _, .kept, rfl⟩
    · rename_i hn
      rw [ite_none_right_eq_some, map_eq_some_iff] at h
      obtain ⟨⟨ha, hf⟩, traces, hi, rfl⟩ := h
      exact ⟨traces, _, .inserted hn ha hf hi, rfl⟩
  | reopen =>
    cases generation with
    | some =>
      obtain ⟨traces, hu, rfl⟩ := updateTrace_eq_some h
      exact ⟨traces, _, .reopened hu, rfl⟩
    | none =>
      cases h
      exact ⟨_, _, .kept, rfl⟩

theorem checkQuota_effect (h : w.checkQuota svc n = some w') : Effect svc w (.checkQuota n) w' := by
  unfold checkQuota at h
  split at h
  · rename_i hca
    split at h
    · rename_i hc
      cases h
      exact .checked hca hc
    · cases h
      exact .refused
  · cases h

theorem commitUpload_effect (h : w.commitUpload svc n = some w') :
    Effect svc w (.commitUpload n) w' := by
  unfold commitUpload at h
  split at h
  · rename_i hc
    obtain ⟨_, hw, rfl⟩ := map_eq_some_iff.mp h
    obtain ⟨_, _, hr, rfl⟩ := writeUpload_written hw
    exact .committed hc hr
  · cases h

theorem expire_effect (h : w.expire traceId now = some w') :
    Effect svc w (.expire traceId now) w' := by
  unfold expire at h
  split at h
  · rename_i hj
    rw [ite_none_right_eq_some, map_eq_some_iff] at h
    obtain ⟨⟨hu, -⟩, _, hw, rfl⟩ := h
    obtain ⟨_, hup, rfl⟩ := updateTrace_eq_some hw
    exact .expired hj hu hup
  · cases h

theorem promote_effect (h : w.promote n = some w') : Effect svc w (.promote n) w' := by
  unfold promote at h
  split at h
  · rename_i hc
    split at h
    · rename_i hs
      rw [ite_none_right_eq_some] at h
      cases h.2
      exact .promoted hc hs
    · cases h
  · cases h

theorem headPromoted_effect {asDeclared : Bool} (h : w.headPromoted n asDeclared = some w') :
    Effect svc w (.headPromoted n asDeclared) w' := by
  unfold headPromoted at h
  split at h
  · rename_i hc
    split at h
    · cases h
      exact .missing
    · rename_i ht
      cases h
      exact .headed hc (by simpa using ht)
  · cases h

theorem queueCompleted_effect (h : w.queueCompleted n = some w') :
    Effect svc w (.queueCompleted n) w' := by
  unfold queueCompleted at h
  split at h
  · rename_i hc
    split at h
    · obtain ⟨_, hw, rfl⟩ := map_eq_some_iff.mp h
      obtain ⟨_, hu, rfl⟩ := updateTrace_eq_some hw
      exact .queued hc hu
    · rename_i hch
      cases h
      exact .lost hc (by simpa using hch)
  · cases h

theorem reload_effect (h : w.reload n = some w') : Effect svc w (.reload n) w' := by
  unfold reload at h
  split at h
  · rename_i hc
    split at h
    · cases h
      exact .settled
    · rename_i hcu
      split at h
      · cases h
        exact .settled
      · rename_i hn
        cases h
        exact .superseded hc hcu hn
  · cases h

theorem claimNextJob_effect (h : w.claimNextJob n traceId claim now = some w') :
    Effect svc w (.claimNextJob n traceId claim now) w' := by
  unfold claimNextJob at h
  split at h
  · rename_i hj
    rw [ite_none_right_eq_some, map_eq_some_iff] at h
    obtain ⟨⟨hi, hf, hq⟩, _, hw, rfl⟩ := h
    obtain ⟨_, hu, rfl⟩ := updateTrace_eq_some hw
    exact .claimed hj hf hi hq hu
  · cases h

theorem fetch_effect {unavailable : Bool} (h : w.fetch svc n unavailable = some w') :
    Effect svc w (.fetch n unavailable) w' := by
  unfold fetch at h
  split at h
  · rename_i job _ hw
    cases h
    cases unavailable with
    | true => exact .unfetched hw
    | false =>
      cases ha : w.objects job.committedStagingObjectKey with
      | none => exact .absent hw ha
      | some => exact .fetched hw ha
  · cases h

theorem store_effect (h : w.store svc n = some w') : Effect svc w (.store n) w' := by
  unfold store at h
  split at h
  · rename_i hwo
    obtain ⟨⟨_, _⟩, hw, rfl⟩ := map_eq_some_iff.mp h
    exact .stored hwo hw
  · cases h

theorem admitStored_effect {answer : UpdateAnswer} (h : w.admitStored svc n answer = some w') :
    Effect svc w (.admitStored n answer) w' := by
  unfold admitStored at h
  split at h
  · rename_i hw
    cases answer with
    | reported =>
      obtain ⟨_, hwr, rfl⟩ := map_eq_some_iff.mp h
      obtain ⟨_, hu, rfl⟩ := updateTrace_eq_some hwr
      split
      · rename_i ha
        exact .admitted hw hu (.inr ⟨rfl, ha⟩)
      · exact .admitted hw hu (.inl rfl)
    | unreported =>
      obtain ⟨_, hwr, rfl⟩ := map_eq_some_iff.mp h
      obtain ⟨_, hu, rfl⟩ := updateTrace_eq_some hwr
      exact .admitted hw hu (.inl rfl)
    | outstanding =>
      cases h
      exact .postponed hw
    | dropped =>
      cases h
      exact .dropped hw
  · cases h

theorem admitLate_effect {index : ℕ} (h : w.admitLate svc index = some w') :
    Effect svc w (.admitLate index) w' := by
  unfold admitLate at h
  split at h
  · rename_i hl
    obtain ⟨_, hw, rfl⟩ := map_eq_some_iff.mp h
    obtain ⟨_, hu, rfl⟩ := updateTrace_eq_some hw
    exact .admittedLate hl hu
  · cases h

theorem reconcile_effect {readable : Bool} (h : w.reconcile svc n readable now = some w') :
    Effect svc w (.reconcile n readable now) w' := by
  unfold reconcile at h
  split at h
  · rename_i hw
    cases h
    refine .reconciled hw ?_
    split
    · exact .inl rfl
    · split
      · rename_i hp
        exact .inr (.inr ⟨rfl, hp⟩)
      · exact .inr (.inl rfl)
  · cases h

theorem cleanUp_effect (h : w.cleanUp svc n = some w') : Effect svc w (.cleanUp n) w' := by
  unfold cleanUp at h
  split at h
  · rename_i contentQueued hw
    cases contentQueued with
    | true =>
      cases h
      exact .packageQueued hw
    | false =>
      cases h
      exact .contentQueued hw
  · cases h

theorem rejectClaim_effect (h : w.rejectClaim n = some w') : Effect svc w (.rejectClaim n) w' := by
  unfold rejectClaim at h
  split at h
  · rename_i hwo
    obtain ⟨_, hw, rfl⟩ := map_eq_some_iff.mp h
    obtain ⟨_, hu, rfl⟩ := updateTrace_eq_some hw
    refine .rejected hwo hu ?_
    split
    · rename_i ha
      exact .inr ⟨rfl, ha⟩
    · exact .inl rfl
  · cases h

theorem retryClaim_effect (h : w.retryClaim n = some w') : Effect svc w (.retryClaim n) w' := by
  unfold retryClaim at h
  split at h
  · rename_i hwo
    obtain ⟨_, hw, rfl⟩ := map_eq_some_iff.mp h
    obtain ⟨_, hu, rfl⟩ := updateTrace_eq_some hw
    exact .retried hwo hu
  · cases h

theorem decideCleanup_effect {key : ObjectKey} (h : w.decideCleanup n key = some w') :
    Effect svc w (.decideCleanup n key) w' := by
  unfold decideCleanup at h
  split at h
  · cases h
  · rename_i hq
    split at h
    · rename_i hr
      cases h
      exact .unqueued hq hr
    · rename_i hu
      rw [ite_none_right_eq_some] at h
      obtain ⟨⟨-, hs⟩, he⟩ := h
      cases he
      exact .decided hq (by simpa using hu) hs

theorem step_effect {act : Act} (h : w.step svc act = some w') : Effect svc w act w' := by
  cases act with
  | startCreate =>
    simp only [step, startCreate, ite_none_right_eq_some] at h
    obtain ⟨⟨hi, -⟩, he⟩ := h
    cases he
    exact .startCreate hi
  | startReopen =>
    simp only [step, startReopen] at h
    split at h
    · rename_i hj
      rw [ite_none_right_eq_some] at h
      obtain ⟨⟨-, -, -, hr⟩, he⟩ := h
      cases he
      exact .startReopen hj hr
    · cases h
  | lock =>
    simp only [step, lock] at h
    split at h
    · rename_i hca
      rw [ite_none_right_eq_some] at h
      cases h.2
      exact .lock hca h.1
    · cases h
  | checkQuota => exact checkQuota_effect h
  | commitUpload => exact commitUpload_effect h
  | reactivate =>
    simp only [step, reactivate] at h
    split at h
    · rw [ite_none_right_eq_some] at h
      obtain ⟨_, hu, rfl⟩ := updateTrace_eq_some h.2
      exact .reactivated hu
    · cases h
  | updateAccess =>
    obtain ⟨_, hu, rfl⟩ := updateTrace_eq_some h
    exact .accessUpdated hu
  | stop =>
    obtain ⟨_, hu, rfl⟩ := updateTrace_eq_some h
    exact .stopped hu
  | upload =>
    cases h
    exact .uploaded
  | expire => exact expire_effect h
  | startCompletion =>
    simp only [step, startCompletion] at h
    split at h
    · rename_i hj
      rw [ite_none_right_eq_some] at h
      obtain ⟨⟨-, hup, -⟩, he⟩ := h
      cases he
      exact .startCompletion hj hup
    · cases h
  | promote => exact promote_effect h
  | headPromoted => exact headPromoted_effect h
  | queueCompleted => exact queueCompleted_effect h
  | reload => exact reload_effect h
  | enqueueLeftovers =>
    simp only [step, enqueueLeftovers] at h
    split at h
    · rename_i hc
      cases h
      exact .leftPair hc
    · rename_i hc
      cases h
      exact .leftCopy hc
    · cases h
  | claimNextJob => exact claimNextJob_effect h
  | fetch => exact fetch_effect h
  | store => exact store_effect h
  | admitStored => exact admitStored_effect h
  | admitLate => exact admitLate_effect h
  | reconcile => exact reconcile_effect h
  | cleanUp => exact cleanUp_effect h
  | failWorker =>
    simp only [step, failWorker] at h
    split at h
    · rename_i hw
      cases h
      exact .failed hw
    · cases h
  | rejectClaim => exact rejectClaim_effect h
  | retryClaim => exact retryClaim_effect h
  | recoverStaleClaim =>
    obtain ⟨_, hu, rfl⟩ := updateTrace_eq_some h
    exact .recovered hu
  | purgeClaimed =>
    simp only [step, purgeClaimed] at h
    split at h
    · rename_i hw
      cases h
      exact .purgedClaimed hw
    · cases h
  | startPurge =>
    simp only [step, startPurge] at h
    split at h
    · rename_i hj
      rw [ite_none_right_eq_some] at h
      obtain ⟨⟨-, hdo⟩, he⟩ := h
      cases he
      exact .startPurge hj hdo
    · cases h
  | purgeVerified =>
    simp only [step, purgeVerified] at h
    split at h
    · rename_i hp
      cases h
      exact .purgedVerified hp
    · cases h
  | decideCleanup => exact decideCleanup_effect h
  | deleteObject =>
    simp only [step, deleteObject] at h
    split at h
    · rename_i hcl
      cases h
      exact .removed hcl
    · cases h
  | forgetObject =>
    simp only [step, forgetObject] at h
    split at h
    · rename_i hcl
      cases h
      exact .forgotten hcl
    · cases h
  | startDeletion =>
    simp only [step, startDeletion, ite_none_right_eq_some] at h
    cases h.2
    exact .startDeletion h.1
  | commitDeletion =>
    simp only [step, commitDeletion] at h
    split at h
    · rename_i hd
      cases h
      exact .deleted hd
    · cases h
  | die =>
    cases h
    exact .died

end World

end Notary.Traces
