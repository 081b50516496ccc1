import Notary.Core.ArchiveRoundTrip
import Notary.Daemon.ArtifactStore
import Notary.Daemon.LifecycleInvariant

/-! Recovery of the captures that an earlier process left active. -/

namespace Notary.Daemon
open Option
open Notary.Core (Crates sha256Hex maxArchiveWireBytes)
open Utf8 (Bytes)
open Relational Tx

/-! The checks that the store's interface makes before a call. -/

def validateTraceId (traceId : String) : Call Unit :=
  ensure (isValidTraceId traceId) "invalid_trace_id"

def validateCompletion (completion : CaptureCompletion) : Call Unit := do
  validateTraceId completion.traceId
  ensure (FitsI64 completion.completedAtUnixMs) "capture_completed_at_out_of_range"
  ensure (FitsI64 completion.durationMs) "duration_out_of_range"
  ensure (FitsI64 completion.responseBytes) "response_bytes_out_of_range"
  ensure (FitsI64 completion.expectedArtifactSizeBytes) "artifact_size_out_of_range"
  ensure (isLowercaseSha256Hex completion.expectedArtifactSha256)
    "invalid_expected_artifact_sha256"

/-- The invariants of a record that crosses a backend boundary. -/
def ArtifactRecord.validate (artifact : ArtifactRecord) : Prop :=
  isValidTraceId artifact.traceId ∧ isLowercaseSha256Hex artifact.sha256 ∧
    artifact.locator ≠ "" ∧ '\x00' ∉ Utf8.chars artifact.locator
  deriving Decidable

def validateArtifactSize (artifact : ArtifactRecord) : Call Unit := do
  ensure artifact.validate "invalid_artifact_record"
  ensure (FitsI64 artifact.sizeBytes) "artifact_size_out_of_range"

def prepareCapture (completion : CaptureCompletion) : Call Unit := do
  validateCompletion completion
  prepareCaptureCompletion completion

def completeCapture (completion : CaptureCompletion) (artifact : ArtifactRecord) : Call Unit := do
  validateCompletion completion
  validateArtifactSize artifact
  completeCaptureRecord completion artifact

def failCapture (traceId failureCode : String) : Call Unit := do
  validateTraceId traceId
  markCaptureFailed traceId failureCode

/-! One recovery pass. -/

/-- The result of reconciling traces that were active when the prior process stopped. -/
structure RecoverySummary where
  recoveredCheckpoints : ℕ := 0
  interruptedCaptures : ℕ := 0
  pendingCommits : ℕ := 0
  deriving DecidableEq

/-- What a pass does with one capture, once it has looked at the artifact. -/
inductive RecoveryAct
  | complete (completion : CaptureCompletion) (artifact : ArtifactRecord)
  | interrupt (traceId : String)
  | wait
  | leave
  deriving DecidableEq

namespace RecoveryAct

def perform : RecoveryAct → Call Unit
  | complete completion artifact => completeCapture completion artifact
  | interrupt traceId => failCapture traceId "interrupted"
  | wait => pure ()
  | leave => pure ()

def count (summary : RecoverySummary) : RecoveryAct → RecoverySummary
  | complete _ _ => { summary with recoveredCheckpoints := summary.recoveredCheckpoints + 1 }
  | interrupt _ => { summary with interruptedCaptures := summary.interruptedCaptures + 1 }
  | wait => { summary with pendingCommits := summary.pendingCommits + 1 }
  | leave => summary

end RecoveryAct

variable (c : Crates) (store : ArtifactStore)

/-- The artifact that was found against the completion that was staged. -/
def attachFound (completion : CaptureCompletion) :
    Except ArtifactStoreError (Option ArtifactRecord) → Except String RecoveryAct
  | .error error => .error error.message
  | .ok none => .ok .wait
  | .ok (some artifact) =>
    if artifact.sizeBytes = completion.expectedArtifactSizeBytes ∧
        artifact.sha256 = completion.expectedArtifactSha256 then
      .ok (.complete completion artifact)
    else .error "stored artifact does not match the prepared capture commit"

def examineCapture (interruptUnprepared : Bool) (incomplete : IncompleteCapture) :
    Except String RecoveryAct :=
  match incomplete.completion with
  | some completion =>
    if isValidTraceId incomplete.traceId then
      attachFound completion (store.find c incomplete.traceId maxArchiveWireBytes)
    else .error "trace ID must use the trc- prefix and be a bounded safe ASCII path component"
  | none => .ok (if interruptUnprepared then .interrupt incomplete.traceId else .leave)

/-- Each call of the store commits on its own; the first error ends the pass. -/
def reconcileEach (interruptUnprepared : Bool) :
    List IncompleteCapture → RecoverySummary → Database → Except String RecoverySummary × Database
  | [], summary, db => (.ok summary, db)
  | incomplete :: rest, summary, db =>
    match examineCapture c store interruptUnprepared incomplete with
    | .error error => (.error error, db)
    | .ok act =>
      match act.perform.attempt db with
      | (.error error, db') => (.error error, db')
      | (.ok (), db') => reconcileEach interruptUnprepared rest (act.count summary) db'

def reconcileCaptures (interruptUnprepared : Bool) (db : Database) :
    Except String RecoverySummary × Database :=
  reconcileEach c store interruptUnprepared (incompleteCaptures db) {} db

def reconcileIncompleteCaptures : Database → Except String RecoverySummary × Database :=
  reconcileCaptures c store true

def reconcilePendingCommits : Database → Except String RecoverySummary × Database :=
  reconcileCaptures c store false

/-! The calls that a pass makes on an active capture go through. -/

variable {c store} {db db' : Database} {i : IncompleteCapture}

/-- The capture is listed as its row is, and has no checkpoint yet. -/
structure Active (db : Database) (i : IncompleteCapture) : Prop where
  row : ∃ t, db.traces.find? i.traceId = some t ∧ t.captureStatus = .capturing ∧
    t.stagedCompletion = i.completion
  unrecorded : db.artifacts.find? (i.traceId, .captureCheckpoint) = none

/-- The rows of all other traces are as they were. -/
structure OnlyTrace (db db' : Database) (traceId : String) : Prop where
  traces : ∀ k, k ≠ traceId → db'.traces.find? k = db.traces.find? k
  artifacts : ∀ k kind, k ≠ traceId → db'.artifacts.find? (k, kind) = db.artifacts.find? (k, kind)

theorem OnlyTrace.refl (db : Database) (traceId : String) : OnlyTrace db db traceId :=
  ⟨fun _ _ => rfl, fun _ _ _ => rfl⟩

variable {traceId : String} {t : Trace} {completion : CaptureCompletion} {artifact : ArtifactRecord}

theorem OnlyTrace.active (h : OnlyTrace db db' traceId) (hn : i.traceId ≠ traceId)
    (ha : Active db i) : Active db' i where
  row := by
    rw [h.traces _ hn]
    exact ha.row
  unrecorded := by rw [h.artifacts _ _ hn, ha.unrecorded]

def HasStatus (db : Database) (traceId : String) (status : CaptureStatus) : Prop :=
  ∃ t, db.traces.find? traceId = some t ∧ t.captureStatus = status

theorem Active.hasStatus (h : Active db i) : HasStatus db i.traceId .capturing := by
  obtain ⟨t, ht, hs, -⟩ := h.row
  exact ⟨t, ht, hs⟩

theorem HasStatus.unique (ha : HasStatus db traceId a) (hb : HasStatus db traceId b) : a = b := by
  obtain ⟨t, ht, rfl⟩ := ha
  obtain ⟨u, hu, rfl⟩ := hb
  rw [Option.some.inj (ht.symm.trans hu)]

theorem Active.validTraceId (h : Active db i) : isValidTraceId i.traceId := by
  obtain ⟨t, ht, -⟩ := h.row
  obtain ⟨hm, hk⟩ := Table.find?_eq_some.mp ht
  rw [← show t.traceId = i.traceId from hk]
  exact (Table.check hm).1

theorem ensure_of {p : Prop} [Decidable p] (h : p) :
    (ensure p e : Call Unit) db = .ok ((), db) := ensure_ok.mpr ⟨h, rfl⟩

theorem select_trace (ht : db.traces.find? traceId = some t) :
    (traces.select traceId : Call (Option Trace)) db = .ok (some t, db) :=
  Ref.select_ok.mpr ⟨ht, rfl⟩

theorem require_some {α : Type} (a : α) (e : String) :
    (require (some a) e : Call α) db = .ok (a, db) := rfl

theorem find?_trace_update {guard : Trace → Bool} {f : Trace → Trace} {table : Table Trace}
    (h : db.traces.update (fun r => r.traceId = traceId && guard r) f = some table)
    (hke : ∀ r, (f r).traceId = r.traceId) (ht : db.traces.find? traceId = some t)
    (hg : guard t = true) (k : String) :
    table.find? k = if k = traceId then some (f t) else db.traces.find? k := by
  rw [Table.find?_of_update h hke]
  split_ifs with hk
  · subst hk
    have hi : t.traceId = k := (Table.find?_eq_some.mp ht).2
    rw [ht]
    simp [hi, hg]
  · cases hf : db.traces.find? k with
    | none => rfl
    | some r =>
      have hn : r.traceId ≠ traceId := (Table.find?_eq_some.mp hf).2.trans_ne hk
      simp [hn]

theorem exists_update_active (ht : db.traces.find? traceId = some t)
    (hst : t.captureStatus = .capturing) (f : Trace → Trace)
    (hk : ∀ r, (f r).traceId = r.traceId) (hc : Schema.Check (f t)) :
    ∃ table, traces.update (fun r => r.traceId = traceId && r.captureStatus = .capturing) f
        constraintFailed db = .ok (1, { db with traces := table }) ∧
      ∀ k, table.find? k = if k = traceId then some (f t) else db.traces.find? k := by
  obtain ⟨hm, hi⟩ := Table.find?_eq_some.mp ht
  obtain ⟨table, hta⟩ : ∃ table, db.traces.update
      (fun r => r.traceId = traceId && r.captureStatus = .capturing) f = some table := by
    refine Table.update_of_check hk (fun _ _ h => h.elim) fun r hr hp => ?_
    simp only [Bool.and_eq_true, decide_eq_true_eq] at hp
    rwa [Table.eq_of_key hr hm (hp.1.trans hi.symm)]
  refine ⟨table, ?_, find?_trace_update hta hk ht (decide_eq_true hst)⟩
  refine Ref.update_ok.mpr ⟨table, hta, ?_, rfl⟩
  refine Table.count_eq_one hm ?_ fun s hs => ?_
  · simp only [Bool.and_eq_true, decide_eq_true_eq]
    exact ⟨hi, hst⟩
  · simp only [Bool.and_eq_true, decide_eq_true_eq] at hs
    exact hs.1.trans hi.symm

theorem failCapture_active (h : Active db i) (code : String) :
    ∃ db', failCapture i.traceId code db = .ok ((), db') ∧ HasStatus db' i.traceId .failed ∧
      OnlyTrace db db' i.traceId := by
  obtain ⟨t, ht, hs, -⟩ := h.row
  have hc : Schema.Check t := Table.check (Table.find?_eq_some.mp ht).1
  obtain ⟨table, hu, hf⟩ := exists_update_active ht hs
    (fun t => { t with captureStatus := .failed, failureCode := some code })
    (fun _ => rfl) hc
  have ho : ¬(t.captureStatus = .failed ∧ t.failureCode = some code) := by simp [hs]
  refine ⟨{ db with traces := table }, ?_, ⟨_, (hf _).trans (if_pos rfl), rfl⟩,
    fun k hk => (hf k).trans (if_neg hk), fun _ _ _ => rfl⟩
  rw [failCapture, validateTraceId, bind_of_ok (ensure_of h.validTraceId), markCaptureFailed,
    bind_of_ok (select_trace ht), bind_of_ok (require_some t _), if_neg ho,
    bind_of_ok (ensure_of hs), bind_of_ok hu]
  exact ensure_of rfl

/-- A listed completion is the one in the row. -/
theorem Trace.matches_staged (h : t.stagedCompletion = some completion) :
    completion.Matches t ∧ completion.traceId = t.traceId := by
  simp only [Trace.stagedCompletion, bind_eq_bind, bind_eq_some_iff,
    pure_def, Option.some.injEq] at h
  obtain ⟨_, h₁, _, h₂, _, h₃, _, h₄, _, h₅, _, h₆, rfl⟩ := h
  exact ⟨⟨h₁, h₂, h₃, h₄, rfl, rfl, rfl, h₅, h₆⟩, rfl⟩

theorem Trace.fits_staged (hc : Schema.Check t) (hm : completion.Matches t) : completion.Fits := by
  obtain ⟨-, -, h₁, h₂, h₄, h₅⟩ := hc
  obtain ⟨e₁, e₂, -, e₄, -, -, -, e₅, -⟩ := hm
  exact ⟨h₁ _ e₁, h₂ _ e₂, h₄ _ e₄, h₅ _ e₅⟩

theorem validateCompletion_of (ht : isValidTraceId completion.traceId) (hf : completion.Fits)
    (hs : isLowercaseSha256Hex completion.expectedArtifactSha256) :
    validateCompletion completion db = .ok ((), db) := by
  obtain ⟨h₁, h₂, h₃, h₄⟩ := hf
  rw [validateCompletion, validateTraceId, bind_of_ok (ensure_of ht),
    bind_of_ok (ensure_of h₁), bind_of_ok (ensure_of h₂), bind_of_ok (ensure_of h₃),
    bind_of_ok (ensure_of h₄)]
  exact ensure_of hs

theorem validateArtifactSize_of (hv : artifact.validate) (hs : FitsI64 artifact.sizeBytes) :
    validateArtifactSize artifact db = .ok ((), db) := by
  rw [validateArtifactSize, bind_of_ok (ensure_of hv)]
  exact ensure_of hs

theorem requireArtifact_of (ht : artifact.traceId = traceId) (hk : artifact.kind = kind) :
    requireArtifact artifact traceId kind db = .ok ((), db) := by
  rw [requireArtifact, bind_of_ok (ensure_of ht)]
  exact ensure_of hk

theorem checkStaged_of (ht : db.traces.find? completion.traceId = some t)
    (hm : completion.Matches t) (hf : completion.Fits) :
    checkStaged t completion db = .ok ((), db) := by
  have hs : captureCompletionMatches completion db = .ok (true, db) := by
    rw [captureCompletionMatches, bind_of_ok (ensure_of hf), bind_of_ok (select_trace ht)]
    change Except.ok (decide (completion.Matches t), db) = _
    rw [decide_eq_true hm]
  rw [checkStaged, if_pos (by rw [hm.1]; rfl), bind_of_ok hs]
  exact ensure_of rfl

theorem insertArtifact_of (hsi : FitsI64 artifact.sizeBytes)
    (hn : db.artifacts.find? (artifact.traceId, artifact.kind) = none) :
    ∃ table, insertArtifact artifact db = .ok ((), { db with artifacts := table }) ∧
      ∀ key, key ≠ (artifact.traceId, artifact.kind) →
        table.find? key = db.artifacts.find? key := by
  obtain ⟨table, ht⟩ := Table.insert_of_check (r := artifact.row) hn trivial fun _ _ => ⟨id, id⟩
  refine ⟨table, ?_, fun key hk => ?_⟩
  · have hs : (artifacts.select (artifact.traceId, artifact.kind) :
        Call (Option Artifact)) db = .ok (none, db) := Ref.select_ok.mpr ⟨hn, rfl⟩
    rw [insertArtifact, bind_of_ok (ensure_of hsi), bind_of_ok hs]
    exact Ref.insert_ok.mpr ⟨table, ht, rfl⟩
  · rw [Table.find?_of_insert ht]
    exact if_neg fun h => hk h.symm

theorem completeCapture_active (h : Active db i) (hc : i.completion = some completion)
    (htr : artifact.traceId = i.traceId) (hki : artifact.kind = .captureCheckpoint)
    (hva : artifact.validate) (hsi : artifact.sizeBytes = completion.expectedArtifactSizeBytes)
    (hsh : artifact.sha256 = completion.expectedArtifactSha256) :
    ∃ db', completeCapture completion artifact db = .ok ((), db') ∧
      HasStatus db' i.traceId .captured ∧ OnlyTrace db db' i.traceId := by
  obtain ⟨t, ht, hs, hst⟩ := h.row
  obtain ⟨hme, hid⟩ := Table.find?_eq_some.mp ht
  obtain ⟨hm, ho⟩ := Trace.matches_staged (hst.trans hc)
  have hch : Schema.Check t := Table.check hme
  have hf := Trace.fits_staged hch hm
  have hke : i.traceId = completion.traceId := (ho.trans hid).symm
  have hd : isLowercaseSha256Hex completion.expectedArtifactSha256 := hsh ▸ hva.2.1
  have hft : FitsI64 artifact.sizeBytes := hsi ▸ hf.2.2.2
  have hv := h.validTraceId
  have hn := h.unrecorded
  rw [hke] at ht htr hv hn
  obtain ⟨table, hu, hfi⟩ := exists_update_active ht hs
    (fun t => { completion.stage t with captureStatus := .captured, failureCode := none })
    (fun _ => rfl)
    ⟨hch.1, rfl, by
      simpa [NullableI64, CaptureCompletion.stage, CaptureCompletion.Fits] using hf⟩
  have hfr : ({ db with traces := table } : Database).artifacts.find?
      (artifact.traceId, artifact.kind) = none := by
    rw [htr, hki]
    exact hn
  obtain ⟨records, hi, hr⟩ := insertArtifact_of hft hfr
  obtain ⟨last, hse⟩ : ∃ last, indexForSearch completion.traceId completion.outputPreview
      { db with traces := table, artifacts := records } = .ok ((), last) := ⟨_, rfl⟩
  obtain ⟨htc, ha, -, -⟩ := indexForSearch_ok hse
  have hro : last.traces.find? i.traceId = _ :=
    (congrArg (Table.find? · i.traceId) htc).trans ((hfi _).trans (if_pos hke))
  refine ⟨last, ?_, ⟨_, hro, rfl⟩, fun k hk => ?_, fun k kind hk => ?_⟩
  · rw [completeCapture, bind_of_ok (validateCompletion_of hv hf hd),
      bind_of_ok (validateArtifactSize_of hva hft), completeCaptureRecord,
      bind_of_ok (requireArtifact_of htr hki), bind_of_ok (ensure_of ⟨hsi, hsh⟩),
      bind_of_ok (select_trace ht), bind_of_ok (require_some t _), if_neg (by simp [hs]),
      bind_of_ok (ensure_of hs), bind_of_ok (checkStaged_of ht hm hf),
      bind_of_ok (ensure_of hf), bind_of_ok hu, bind_of_ok (ensure_of rfl),
      bind_of_ok hi]
    exact hse
  · rw [htc]
    exact (hfi k).trans (if_neg (hke ▸ hk))
  · rw [ha]
    exact hr _ fun he => hk ((congrArg Prod.fst he).trans (htr.trans hke.symm))

end Notary.Daemon
