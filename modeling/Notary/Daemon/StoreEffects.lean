import Notary.Daemon.SqliteMetadata

/-! What a successful call of the local store does to its tables. -/

namespace Notary.Daemon
open Relational Tx List Table

variable {o : Operation} {now : UInt64} {u : Unit} {traceId operationId : String}
  {completion : CaptureCompletion} {artifact : ArtifactRecord} {n : ℕ}

namespace Database

variable {db : Database} {id : String}

theorem operationOf_some : db.operationOf id = some o ↔ o ∈ db.operations ∧ o.traceId = id := by
  have hs {p : Operation} (h : db.operationOf id = some p) : p ∈ db.operations ∧ p.traceId = id :=
    ⟨mem_of_find?_eq_some h, by simpa using find?_some h⟩
  refine ⟨hs, ?_⟩
  rintro ⟨ho, rfl⟩
  have hso : (db.operationOf o.traceId).isSome := find?_isSome.mpr ⟨o, ho, by simp⟩
  obtain ⟨_, hp⟩ := Option.isSome_iff_exists.mp hso
  obtain ⟨hm, ht⟩ := hs hp
  rw [hp, eq_of_clash hm ho ht]

theorem operationOf_none : db.operationOf id = none ↔ ∀ o ∈ db.operations, o.traceId ≠ id := by
  simp [operationOf, find?_eq_none, mem_def]

/-- The row under an operation id is the operation of its trace. -/
theorem operationOf_of_select {k : String} (h : db.operations.find? k = some o) :
    db.operationOf o.traceId = some o ∧ o.operationId = k := by
  obtain ⟨ho, hk⟩ := find?_eq_some.mp h
  exact ⟨operationOf_some.mpr ⟨ho, rfl⟩, hk⟩

end Database

variable {db db' : Database}

structure SameTables (db db' : Database) : Prop where
  traces : db'.traces = db.traces
  artifacts : db'.artifacts = db.artifacts
  operations : db'.operations = db.operations
  operationAttempts : db'.operationAttempts = db.operationAttempts

theorem SameTables.refl (db : Database) : SameTables db db := ⟨rfl, rfl, rfl, rfl⟩

theorem insertEvent_ok {eventType severity message : String} {traceId operationId : Option String}
    (h : insertEvent now eventType traceId operationId severity message db = .ok (u, db')) :
    SameTables db db' := by
  simp only [insertEvent, bind_ok, ensure_ok, change_ok] at h
  obtain ⟨_, _, ⟨_, rfl⟩, _, rfl⟩ := h
  exact ⟨rfl, rfl, rfl, rfl⟩

theorem beginCapture_ok (h : beginCapture capture db = .ok (u, db')) :
    ∃ row t, db.traces.insert row = some t ∧ db' = { db with traces := t } ∧
      row.traceId = capture.traceId ∧ row.captureStatus = .capturing ∧
      row.notarizationStatus = .notRequested ∧ row.completedAtUnixMs = none ∧
      row.stagedCompletion = none := by
  simp only [beginCapture, bind_ok, ensure_ok, Ref.insert_ok] at h
  obtain ⟨_, _, ⟨_, rfl⟩, t, ht, rfl⟩ := h
  exact ⟨_, t, ht, rfl, rfl, rfl, rfl, rfl, rfl⟩

theorem markCaptureFailed_ok (h : markCaptureFailed traceId failureCode db = .ok (u, db')) :
    db' = db ∨ ∃ current t, db.traces.find? traceId = some current ∧
      current.captureStatus = .capturing ∧
      db.traces.update (fun t => t.traceId = traceId && t.captureStatus = .capturing)
        (fun t => { t with captureStatus := .failed, failureCode := some failureCode }) = some t ∧
      db' = { db with traces := t } := by
  simp only [markCaptureFailed, bind_ok, Ref.select_ok, require_ok] at h
  obtain ⟨_, _, ⟨rfl, rfl⟩, current, _, ⟨hc, rfl⟩, h⟩ := h
  split_ifs at h with hs
  · left
    exact (readOnly_pure _ h).symm
  · right
    simp only [bind_ok, ensure_ok, Ref.update_ok] at h
    obtain ⟨_, _, ⟨ha, rfl⟩, _, _, ⟨t, ht, _, rfl⟩, _, _, rfl⟩ := h
    exact ⟨current, t, hc, ha, ht, rfl⟩

theorem captureCompletionMatches_ok (h : captureCompletionMatches completion db = .ok (same, db')) :
    db' = db ∧ same = (db.traces.find? completion.traceId).any fun t =>
      decide (completion.Matches t) := by
  simp only [captureCompletionMatches, bind_ok, ensure_ok, Ref.select_ok, pure_ok] at h
  obtain ⟨_, _, ⟨_, rfl⟩, _, _, ⟨rfl, rfl⟩, rfl, rfl⟩ := h
  exact ⟨rfl, rfl⟩

theorem prepareCaptureCompletion_ok (h : prepareCaptureCompletion completion db = .ok (u, db')) :
    (db' = db ∧ ∃ current, db.traces.find? completion.traceId = some current ∧
      completion.Matches current) ∨ ∃ current t, db.traces.find? completion.traceId = some current ∧
      current.captureStatus = .capturing ∧ current.completedAtUnixMs = none ∧
      db.traces.update (fun t => t.traceId = completion.traceId && t.captureStatus = .capturing &&
        t.completedAtUnixMs.isNone) completion.stage = some t ∧ db' = { db with traces := t } := by
  simp only [prepareCaptureCompletion, bind_ok, Ref.select_ok, require_ok, ensure_ok] at h
  obtain ⟨_, _, ⟨rfl, rfl⟩, current, _, ⟨hc, rfl⟩, _, _, ⟨_, rfl⟩, h⟩ := h
  change db.traces.find? completion.traceId = some current at hc
  split_ifs at h with hp
  · left
    simp only [bind_ok, ensure_ok] at h
    obtain ⟨_, _, hm, hs, _, rfl⟩ := h
    obtain ⟨rfl, rfl⟩ := captureCompletionMatches_ok hm
    exact ⟨rfl, current, hc, by simpa [hc] using hs⟩
  · right
    simp only [bind_ok, ensure_ok, Ref.update_ok] at h
    obtain ⟨_, _, ⟨ha, rfl⟩, _, _, ⟨_, rfl⟩, _, _, ⟨t, ht, _, rfl⟩, _, _, rfl⟩ := h
    exact ⟨current, t, hc, ha, Option.not_isSome_iff_eq_none.mp hp, ht, rfl⟩

theorem requireArtifact_ok (h : requireArtifact artifact traceId kind db = .ok (u, db')) :
    artifact.traceId = traceId ∧ artifact.kind = kind ∧ db' = db := by
  simp only [requireArtifact, bind_ok, ensure_ok] at h
  obtain ⟨_, _, ⟨ht, rfl⟩, hk, _, rfl⟩ := h
  exact ⟨ht, hk, rfl⟩

theorem artifactExistsExact_ok (h : artifactExistsExact artifact db = .ok (exact, db')) :
    db' = db ∧ exact = decide (db.artifacts.find? (artifact.traceId, artifact.kind) =
      some artifact.row) := by
  simp only [artifactExistsExact, bind_ok, ensure_ok, Ref.select_ok, pure_ok] at h
  obtain ⟨_, _, ⟨_, rfl⟩, _, _, ⟨rfl, rfl⟩, rfl, rfl⟩ := h
  exact ⟨rfl, rfl⟩

theorem insertArtifact_ok (h : insertArtifact artifact db = .ok (u, db')) :
    ∃ t, db' = { db with artifacts := t } ∧ ∀ key, t.find? key =
      if key = (artifact.traceId, artifact.kind) then some artifact.row
      else db.artifacts.find? key := by
  simp only [insertArtifact, bind_ok, ensure_ok, Ref.select_ok] at h
  obtain ⟨_, _, ⟨_, rfl⟩, _, _, ⟨rfl, rfl⟩, h⟩ := h
  split_ifs at h with hn
  · rw [Ref.insert_ok] at h
    obtain ⟨t, ht, rfl⟩ := h
    refine ⟨t, rfl, fun key => ?_⟩
    rw [find?_of_insert ht]
    exact if_congr eq_comm rfl rfl
  · simp only [bind_ok, ensure_ok] at h
    obtain ⟨_, _, he, htr, _, rfl⟩ := h
    obtain ⟨rfl, rfl⟩ := artifactExistsExact_ok he
    refine ⟨_, rfl, fun key => ?_⟩
    split_ifs with hk
    · rw [hk]
      exact of_decide_eq_true htr
    · rfl

theorem indexForSearch_ok (h : indexForSearch traceId outputPreview db = .ok (u, db')) :
    SameTables db db' := by
  simp only [indexForSearch, change_ok] at h
  obtain ⟨_, rfl⟩ := h
  split_ifs <;> exact ⟨rfl, rfl, rfl, rfl⟩

theorem checkStaged_ok (h : checkStaged current completion db = .ok (u, db'))
    (hc : db.traces.find? completion.traceId = some current) :
    db' = db ∧ (current.completedAtUnixMs.isSome → completion.Matches current) := by
  unfold checkStaged at h
  split_ifs at h with hp
  · simp only [bind_ok, ensure_ok] at h
    obtain ⟨_, _, hm, hs, _, rfl⟩ := h
    obtain ⟨rfl, rfl⟩ := captureCompletionMatches_ok hm
    refine ⟨rfl, fun _ => ?_⟩
    simpa [hc] using hs
  · exact ⟨(readOnly_pure _ h).symm, fun h => absurd h hp⟩

theorem completeCaptureRecord_ok (h : completeCaptureRecord completion artifact db = .ok (u, db')) :
    db' = db ∨ ∃ current t a db₁, db.traces.find? completion.traceId = some current ∧
      current.captureStatus = .capturing ∧
      (current.completedAtUnixMs.isSome → completion.Matches current) ∧
      artifact.traceId = completion.traceId ∧ artifact.kind = .captureCheckpoint ∧
      artifact.sizeBytes = completion.expectedArtifactSizeBytes ∧
      artifact.sha256 = completion.expectedArtifactSha256 ∧
      db.traces.update (fun t => t.traceId = completion.traceId && t.captureStatus = .capturing)
        (fun t => { completion.stage t with captureStatus := .captured, failureCode := none }) =
          some t ∧
      (∀ key, a.find? key = if key = (artifact.traceId, artifact.kind) then some artifact.row
        else db.artifacts.find? key) ∧
      db₁ = { db with traces := t, artifacts := a } ∧ SameTables db₁ db' := by
  simp only [completeCaptureRecord, bind_ok, ensure_ok, Ref.select_ok, require_ok] at h
  obtain ⟨_, _, har, _, _, ⟨⟨hsi, hsh⟩, rfl⟩, _, _, ⟨rfl, rfl⟩, current, _, ⟨hc, rfl⟩, h⟩ := h
  obtain ⟨htr, hk, rfl⟩ := requireArtifact_ok har
  split_ifs at h with hca
  · left
    simp only [bind_ok, ensure_ok] at h
    obtain ⟨_, _, hm, _, _, he, _, _, rfl⟩ := h
    obtain ⟨rfl, -⟩ := captureCompletionMatches_ok hm
    exact (artifactExistsExact_ok he).1
  · right
    simp only [bind_ok, ensure_ok, Ref.update_ok] at h
    obtain ⟨_, _, ⟨hac, rfl⟩, _, _, hst, _, _, ⟨_, rfl⟩, _, _, ⟨t, ht, _, rfl⟩,
      _, _, ⟨_, rfl⟩, _, _, hi, hs⟩ := h
    obtain ⟨rfl, hm⟩ := checkStaged_ok hst hc
    obtain ⟨a, rfl, ha⟩ := insertArtifact_ok hi
    exact ⟨current, t, a, _, hc, hac, hm, htr, hk, hsi, hsh, ht, ha, rfl, indexForSearch_ok hs⟩

/-! Notarization. -/

theorem setNotarizationStatus_ok (h : setNotarizationStatus traceId status db = .ok (n, db')) :
    ∃ t, db.traces.update (·.traceId = traceId) ({ · with notarizationStatus := status }) = some t ∧
      db' = { db with traces := t } := by
  simp only [setNotarizationStatus, Ref.update_ok] at h
  obtain ⟨t, ht, _, rfl⟩ := h
  exact ⟨t, ht, rfl⟩

theorem setOperationTraceStatus_ok
    (h : setOperationTraceStatus operationId status db = .ok (n, db'))
    (ho : db.operations.find? operationId = some o) :
    ∃ t, db.traces.update (·.traceId = o.traceId) ({ · with notarizationStatus := status }) =
      some t ∧ db' = { db with traces := t } := by
  simp only [setOperationTraceStatus, bind_ok, Ref.select_ok] at h
  obtain ⟨row, _, ⟨hr, rfl⟩, h⟩ := h
  obtain rfl : some o = row := ho.symm.trans hr
  exact setNotarizationStatus_ok h

theorem selectOperation_ok (h : selectOperation operationId db = .ok (o, db')) :
    db.operations.find? operationId = some o ∧ db' = db := by
  simp only [selectOperation, bind_ok, Ref.select_ok, require_ok] at h
  obtain ⟨_, _, ⟨rfl, rfl⟩, ho, rfl⟩ := h
  exact ⟨ho, rfl⟩

theorem find?_operation_update {guard : Operation → Bool}
    (h : db.operations.update (fun r => r.operationId = k && guard r) f = some ops)
    (ho : db.operations.find? k = some o) (hg : guard o = true)
    (hk : ∀ r, (f r).operationId = r.operationId) : ops.find? k = some (f o) := by
  have hi := (find?_eq_some.mp ho).2
  rw [find?_of_update h hk, ho]
  simp [show o.operationId = k from hi, hg]

/-- The tables after an operation has moved: its own row, its attempts, and the status of its
trace. -/
structure OperationMoved (db db' : Database) (o : Operation) (guard : Operation → Bool)
    (f : Operation → Operation) (attempts : Table OperationAttempt) : Prop where
  row : db.operations.find? o.operationId = some o
  guarded : guard o = true
  operations : db.operations.update (fun r => r.operationId = o.operationId && guard r) f =
    some db'.operations
  traces : db.traces.update (·.traceId = o.traceId)
    ({ · with notarizationStatus := (f o).state.status }) = some db'.traces
  attempts : db'.operationAttempts = attempts

/-- The event that ends a move is in another table. -/
theorem SameTables.moved (hs : SameTables db₁ db') {guard : Operation → Bool}
    (hr : db.operations.find? o.operationId = some o) (hg : guard o = true)
    (ho : db.operations.update
      (fun r => r.operationId = o.operationId && guard r) f = some db₁.operations)
    (ht : db.traces.update (·.traceId = o.traceId)
      ({ · with notarizationStatus := (f o).state.status }) = some db₁.traces) :
    OperationMoved db db' o guard f db₁.operationAttempts :=
  ⟨hr, hg, hs.operations ▸ ho, hs.traces ▸ ht, hs.operationAttempts⟩

theorem mem_nextQueued (h : db.nextQueued = some o) : o ∈ db.operations ∧ o.state = .queued := by
  have hm := argmin_mem h
  simpa [mem_def] using mem_filter.mp hm

theorem claimNextNotarization_ok (h : claimNextNotarization now db = .ok (r, db')) :
    db' = db ∨ ∃ o attempt attempts, o.state = .queued ∧
      attempt.operationId = o.operationId ∧ attempt.attempt = attemptNumber (o.attempt + 1) ∧
      attempt.state = .running ∧ db.operationAttempts.insert attempt = some attempts ∧
      OperationMoved db db' o (·.state = .queued) (Operation.start now) attempts ∧
      db'.artifacts = db.artifacts := by
  simp only [claimNextNotarization, bind_ok, query_ok] at h
  obtain ⟨next, _, ⟨hn, rfl⟩, h⟩ := h
  cases next with
  | none => exact .inl (readOnly_pure _ h).symm
  | some o =>
    right
    obtain ⟨hme, hq⟩ := mem_nextQueued hn
    have hr : db.operations.find? o.operationId = some o := find?_eq_some.mpr ⟨hme, rfl⟩
    simp only [bind_ok, ensure_ok, Ref.update_ok, Ref.insert_ok, pure_ok] at h
    obtain ⟨_, _, ⟨_, rfl⟩, _, _, ⟨_, ho, _, rfl⟩, _, _, hst, o', _, hse, _, _,
      ⟨attempts, ha, rfl⟩, _, _, he, _, rfl⟩ := h
    have hm := find?_operation_update ho hr (by simpa using hq) fun _ => rfl
    obtain ⟨_, ht, rfl⟩ := setOperationTraceStatus_ok hst hm
    obtain ⟨hf, rfl⟩ := selectOperation_ok hse
    obtain rfl : _ = o' := Option.some.inj (hm.symm.trans hf)
    have hs := insertEvent_ok he
    exact ⟨o, _, attempts, hq, rfl, rfl, rfl, ha, hs.moved hr (by simpa using hq) ho ht,
      hs.artifacts⟩

theorem enqueueNotarization_ok {r : Option (Operation × Bool)}
    (h : enqueueNotarization traceId operationId now db = .ok (r, db')) : db' = db ∨
      (∃ o, db.operationOf traceId = some o ∧
        OperationMoved db db' o Operation.retryable (Operation.requeue now) db.operationAttempts ∧
        db'.artifacts = db.artifacts) ∨ ∃ trace o, db.operations.insert o = some db'.operations ∧
        db.traces.find? traceId = some trace ∧ trace.Notarizable ∧
        db.operationOf traceId = none ∧ o.operationId = operationId ∧ o.traceId = traceId ∧
        o.state = .queued ∧ o.attempt = 0 ∧
        db.traces.update (·.traceId = traceId) ({ · with notarizationStatus := .queued }) =
          some db'.traces ∧
        db'.operationAttempts = db.operationAttempts ∧ db'.artifacts = db.artifacts := by
  simp only [enqueueNotarization, bind_ok, query_ok, Ref.select_ok] at h
  obtain ⟨row, _, ⟨hro, rfl⟩, found, _, ⟨hf, rfl⟩, h⟩ := h
  split_ifs at h with ha
  swap
  · exact .inl (readOnly_pure _ h).symm
  cases found with
  | some o =>
    dsimp only at h
    split_ifs at h with hre
    swap
    · exact .inl (readOnly_pure _ h).symm
    refine .inr (.inl ⟨o, hf, ?_⟩)
    have hon := Database.operationOf_some.mp hf
    have hse : db.operations.find? o.operationId = some o := find?_eq_some.mpr ⟨hon.1, rfl⟩
    simp only [bind_ok, ensure_ok, Ref.update_ok, pure_ok] at h
    obtain ⟨_, _, ⟨_, rfl⟩, _, _, ⟨_, ho, _, rfl⟩, _, _, hst, _, _, he, _, _, hr, _, rfl⟩ := h
    obtain ⟨_, ht, rfl⟩ := setNotarizationStatus_ok hst
    obtain ⟨-, rfl⟩ := selectOperation_ok hr
    have hs := insertEvent_ok he
    exact ⟨hs.moved hse hre ho (by rw [hon.2]; exact ht), hs.artifacts⟩
  | none =>
    obtain ⟨trace, htr, hn⟩ : ∃ trace, row = some trace ∧ trace.Notarizable := by
      cases row with
      | none => cases ha
      | some trace => exact ⟨trace, rfl, of_decide_eq_true ha⟩
    simp only [bind_ok, ensure_ok, Ref.insert_ok, pure_ok] at h
    obtain ⟨_, _, ⟨_, rfl⟩, _, _, ⟨_, ho, rfl⟩, _, _, hst, _, _, he, _, _, hr, _, rfl⟩ := h
    obtain ⟨_, ht, rfl⟩ := setNotarizationStatus_ok hst
    obtain ⟨-, rfl⟩ := selectOperation_ok hr
    have hs := insertEvent_ok he
    rw [hs.operations, hs.traces]
    exact .inr (.inr ⟨trace, _, ho, hro.trans htr, hn, hf, rfl, rfl, rfl, rfl,
      ht, hs.operationAttempts, hs.artifacts⟩)

theorem closeCurrentAttempt_ok
    (h : closeCurrentAttempt operationId state now failureCode db = .ok (n, db'))
    (ho : db.operations.find? operationId = some o) : ∃ attempts, db.operationAttempts.update
      (fun a => a.operationId = operationId && a.attempt = o.attempt)
      ({ · with state, completedAtUnixMs := some now, failureCode }) = some attempts ∧
      db' = { db with operationAttempts := attempts } := by
  simp only [closeCurrentAttempt, bind_ok, Ref.select_ok, Ref.update_ok] at h
  obtain ⟨row, _, ⟨hr, rfl⟩, attempts, ha, _, rfl⟩ := h
  obtain rfl : some o = row := ho.symm.trans hr
  exact ⟨attempts, ha, rfl⟩

/-- The current attempt of an operation is closed in the given state. -/
def AttemptClosed (db : Database) (o : Operation) (state : AttemptState)
    (attempts : Table OperationAttempt) : Prop :=
  ∃ now failureCode, db.operationAttempts.update
    (fun a => a.operationId = o.operationId && a.attempt = o.attempt)
    ({ · with state, completedAtUnixMs := some now, failureCode }) = some attempts

theorem completeNotarization_ok
    (h : completeNotarization operationId artifact now db = .ok (r, db')) :
    db' = db ∨ ∃ o attempts, artifact.traceId = o.traceId ∧ artifact.kind = .tracePackage ∧
      AttemptClosed db o .succeeded attempts ∧
      OperationMoved db db' o (·.state = .running) (Operation.succeed now) attempts ∧
      ∀ key, db'.artifacts.find? key =
        if key = (artifact.traceId, artifact.kind) then some artifact.row
        else db.artifacts.find? key := by
  simp only [completeNotarization, bind_ok, Ref.select_ok] at h
  obtain ⟨row, _, ⟨hro, rfl⟩, h⟩ := h
  cases row with
  | none => exact .inl (readOnly_pure _ h).symm
  | some o =>
    obtain ⟨-, rfl⟩ := Database.operationOf_of_select hro
    simp only [bind_ok] at h
    obtain ⟨_, _, har, h⟩ := h
    obtain ⟨htr, hk, rfl⟩ := requireArtifact_ok har
    split_ifs at h with hsu hr
    · left
      simp only [bind_ok, ensure_ok, pure_ok] at h
      obtain ⟨_, _, hex, _, _, ⟨_, rfl⟩, _, rfl⟩ := h
      exact (artifactExistsExact_ok hex).1
    · exact .inl (readOnly_pure _ h).symm
    · right
      have hg : decide (o.state = .running) = true := decide_eq_true (not_not.mp hr)
      simp only [bind_ok, ensure_ok, Ref.update_ok, pure_ok] at h
      obtain ⟨_, _, hi, _, _, ⟨_, rfl⟩, _, _, ⟨_, ho, _, rfl⟩, _, _, ⟨_, rfl⟩, _, _,
        hatt, _, _, ⟨_, rfl⟩, _, _, hst, _, _, ⟨_, rfl⟩, _, _, he, _, rfl⟩ := h
      obtain ⟨_, rfl, ha⟩ := insertArtifact_ok hi
      have hm := find?_operation_update ho hro hg fun _ => rfl
      obtain ⟨attempts, hat, rfl⟩ := closeCurrentAttempt_ok hatt hm
      obtain ⟨_, ht, rfl⟩ := setOperationTraceStatus_ok hst hm
      have hs := insertEvent_ok he
      refine ⟨o, attempts, htr, hk, ⟨now, none, hat⟩, hs.moved hro hg ho ht, ?_⟩
      rw [hs.artifacts]
      exact ha

theorem failOperation_ok (h : failOperation operationId now failureCode db = .ok (r, db')) :
    db' = db ∨ ∃ o attempts, AttemptClosed db o .failed attempts ∧
      OperationMoved db db' o (·.state = .running) (Operation.stop .failed now failureCode)
        attempts ∧ db'.artifacts = db.artifacts := by
  simp only [failOperation, bind_ok, Ref.select_ok] at h
  obtain ⟨row, _, ⟨hro, rfl⟩, h⟩ := h
  cases row with
  | none => exact .inl (readOnly_pure _ h).symm
  | some o =>
    obtain ⟨-, rfl⟩ := Database.operationOf_of_select hro
    dsimp only at h
    split_ifs at h with hf hr
    · exact .inl (readOnly_pure _ h).symm
    · exact .inl (readOnly_pure _ h).symm
    · right
      have hg : decide (o.state = .running) = true := decide_eq_true (not_not.mp hr)
      simp only [bind_ok, ensure_ok, Ref.update_ok, pure_ok] at h
      obtain ⟨_, _, ⟨_, rfl⟩, _, _, ⟨_, ho, _, rfl⟩, _, _, ⟨_, rfl⟩, _, _, hat, _, _,
        ⟨_, rfl⟩, _, _, hst, _, _, ⟨_, rfl⟩, _, _, hre, _, _, he, _, rfl⟩ := h
      have hm := find?_operation_update ho hro hg fun _ => rfl
      obtain ⟨attempts, ha, rfl⟩ := closeCurrentAttempt_ok hat hm
      obtain ⟨_, ht, rfl⟩ := setOperationTraceStatus_ok hst hm
      obtain ⟨-, rfl⟩ := selectOperation_ok hre
      have hs := insertEvent_ok he
      exact ⟨o, attempts, ⟨now, some failureCode, ha⟩, hs.moved hro hg ho ht, hs.artifacts⟩

theorem interruptOperation_ok (h : interruptOperation now o db = .ok (u, db'))
    (hr : db.operations.find? o.operationId = some o) :
    ∃ attempts, AttemptClosed db o .interrupted attempts ∧ OperationMoved db db' o (fun _ => true)
        (Operation.stop .interrupted now "service_restarted") attempts ∧
      db'.artifacts = db.artifacts := by
  simp only [interruptOperation, bind_ok, ensure_ok, Ref.update_ok] at h
  obtain ⟨_, _, ⟨_, rfl⟩, _, _, ⟨ops, ho, _, rfl⟩, _, _, hat, _, _, hst, he⟩ := h
  have ho' : db.operations.update (fun r => r.operationId = o.operationId && true)
      (Operation.stop .interrupted now "service_restarted") = some ops := by
    simp only [Bool.and_true]
    exact ho
  have hm := find?_operation_update ho' hr rfl fun _ => rfl
  obtain ⟨attempts, ha, rfl⟩ := closeCurrentAttempt_ok hat hm
  obtain ⟨_, ht, rfl⟩ := setNotarizationStatus_ok hst
  have hs := insertEvent_ok he
  exact ⟨attempts, ⟨now, some "service_restarted", ha⟩, hs.moved hr rfl ho' ht, hs.artifacts⟩

theorem retryOperation_ok (h : retryOperation operationId now db = .ok (r, db')) :
    db' = db ∨ ∃ o guard, (∀ o, guard o = true → o.retryable) ∧
      OperationMoved db db' o guard (Operation.requeue now) db.operationAttempts ∧
      db'.artifacts = db.artifacts := by
  simp only [retryOperation, bind_ok, ensure_ok, query_ok, Ref.update_ok, Bool.and_assoc] at h
  obtain ⟨_, _, ⟨_, rfl⟩, _, _, ⟨_, rfl⟩, _, _, ⟨_, hop, hc, rfl⟩, h⟩ := h
  split_ifs at h with hn
  · left
    obtain rfl := readOnly_pure _ h
    have hu : db.operations.update _ (Operation.requeue now) = some db.operations :=
      update_of_fixed fun o ho hs =>
        absurd hs (countP_eq_zero.mp (hc.trans hn) o ho)
    obtain rfl := Option.some.inj (hu.symm.trans hop)
    rfl
  · right
    obtain ⟨o, ho, hs⟩ := exists_of_count_pos (hc ▸ Nat.pos_of_ne_zero hn)
    obtain ⟨hi, hg⟩ := Bool.and_eq_true_iff.mp hs
    obtain rfl := of_decide_eq_true hi
    have hro : db.operations.find? o.operationId = some o := find?_eq_some.mpr ⟨ho, rfl⟩
    simp only [bind_ok, pure_ok] at h
    obtain ⟨_, _, hst, _, _, hr, _, _, he, _, rfl⟩ := h
    have hm := find?_operation_update hop hro hg fun _ => rfl
    obtain ⟨_, ht, rfl⟩ := setOperationTraceStatus_ok hst hm
    obtain ⟨-, rfl⟩ := selectOperation_ok hr
    have hsa := insertEvent_ok he
    exact ⟨o, _, fun _ h => (Bool.and_eq_true_iff.mp h).1, hsa.moved hro hg hop ht, hsa.artifacts⟩

theorem updateOperationProgress_ok
    (h : updateOperationProgress operationId phase now db = .ok (r, db')) :
    ∃ (p : Operation → Bool) (progress : Operation → Progress),
      db.operations.update p (fun o => { o with progress := progress o }) = some db'.operations ∧
      db'.traces = db.traces ∧ db'.artifacts = db.artifacts ∧
      db'.operationAttempts = db.operationAttempts := by
  simp only [updateOperationProgress, bind_ok, ensure_ok, Ref.update_ok] at h
  obtain ⟨_, _, ⟨_, rfl⟩, _, _, ⟨_, ho, _, rfl⟩, h⟩ := h
  split_ifs at h with hn
  · obtain rfl := readOnly_pure _ h
    exact ⟨_, _, ho, rfl, rfl, rfl⟩
  · simp only [bind_ok, pure_ok] at h
    obtain ⟨_, _, hr, _, _, he, _, rfl⟩ := h
    obtain ⟨-, rfl⟩ := selectOperation_ok hr
    have hs := insertEvent_ok he
    rw [hs.operations]
    exact ⟨_, _, ho, hs.traces, hs.artifacts, hs.operationAttempts⟩

theorem putTraceShare_ok (h : putTraceShare share db = .ok (u, db')) :
    SameTables db db' := by
  simp only [putTraceShare, bind_ok, ensure_ok, Ref.select_ok] at h
  obtain ⟨_, _, ⟨rfl, rfl⟩, _, _, ⟨_, rfl⟩, _, _, ⟨rfl, rfl⟩, h⟩ := h
  split_ifs at h
  · rw [Ref.insert_ok] at h
    obtain ⟨_, _, rfl⟩ := h
    exact ⟨rfl, rfl, rfl, rfl⟩
  · simp only [bind_ok, Ref.update_ok, pure_ok] at h
    obtain ⟨_, _, ⟨_, _, _, rfl⟩, _, rfl⟩ := h
    exact ⟨rfl, rfl, rfl, rfl⟩

theorem deleteTraceShare_ok (h : deleteTraceShare traceId db = .ok (r, db')) :
    SameTables db db' := by
  simp only [deleteTraceShare, bind_ok, Ref.delete_ok, pure_ok] at h
  obtain ⟨_, _, ⟨_, rfl⟩, _, rfl⟩ := h
  exact ⟨rfl, rfl, rfl, rfl⟩

theorem deleteTrace_ok (h : deleteTrace traceId db = .ok (r, db')) :
    db' = db ∨ ∃ current, db.traces.find? traceId = some current ∧
      current.captureStatus ≠ .capturing ∧ current.notarizationStatus.active = false ∧
      db'.operationAttempts = db.operationAttempts.delete (fun a =>
        (db.operationOf traceId).any fun o => o.operationId = a.operationId) ∧
      db'.operations = db.operations.delete (·.traceId = traceId) ∧
      db'.artifacts = db.artifacts.delete (·.traceId = traceId) ∧
      db'.traces = db.traces.delete (·.traceId = traceId) := by
  simp only [deleteTrace, bind_ok, Ref.select_ok, query_ok] at h
  obtain ⟨row, _, ⟨hr, rfl⟩, _, _, ⟨ho, rfl⟩, _, _, ⟨rfl, rfl⟩, h⟩ := h
  cases row with
  | none => exact .inl (readOnly_pure _ h).symm
  | some current =>
    dsimp only at h
    split_ifs at h with hc ha hs
    · exact .inl (readOnly_pure _ h).symm
    · exact .inl (readOnly_pure _ h).symm
    · exact .inl (readOnly_pure _ h).symm
    · simp only [bind_ok, change_ok, Ref.delete_ok, ensure_ok, pure_ok] at h
      obtain ⟨_, _, ⟨_, rfl⟩, _, _, ⟨_, rfl⟩, _, _, ⟨_, rfl⟩, _, _, ⟨_, rfl⟩, _, _, ⟨_, rfl⟩, _, _,
        ⟨_, rfl⟩, _, _, ⟨_, rfl⟩, _, _, ⟨_, rfl⟩, _, rfl⟩ := h
      have hi := (not_or.mp ha).1
      exact .inr ⟨current, hr, hc, Bool.eq_false_iff.mpr hi, by rw [ho]; rfl,
        rfl, rfl, rfl⟩

end Notary.Daemon
