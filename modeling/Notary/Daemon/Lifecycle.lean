import Notary.Daemon.StoreEffects
import Notary.Daemon.TraceLife
import Notary.Lib.Transition

/-! Every call of the local store moves each trace along its life. -/

namespace Notary.Daemon
open Relational Tx List Option Table Database

/-- From one store to another each trace goes along its life. -/
def Moves (db db' : Database) : Prop :=
  ∀ (id : String) (life : Life), db.view id = life.view →
    ∃ life' : Life, life.Steps life' ∧ db'.view id = life'.view

variable {db db' : Database} {t : TraceView} {p : Phase} {f : Trace → Trace}
  {id traceId failureCode operationId : String} {u : Unit} {now : UInt64}

theorem Moves.of_view (h : ∀ id, db'.view id = db.view id) : Moves db db' :=
  fun id life hl => ⟨life, .refl, (h id).trans hl⟩

theorem Moves.trans (h₁ : Moves a b) (h₂ : Moves b c) : Moves a c := by
  intro id life hl
  obtain ⟨life₁, hs1, hv1⟩ := h₁ id life hl
  obtain ⟨life₂, hs2, hv2⟩ := h₂ id life₁ hv1
  exact ⟨life₂, hs1.trans hs2, hv2⟩

/-- A call that acts on one trace takes one step of its life. -/
theorem Moves.of_step (target : String) (ho : ∀ id, id ≠ target → db'.view id = db.view id)
    (hst : ∀ life : Life, db.view target = life.view →
      ∃ life' : Life, life.Step life' ∧ db'.view target = life'.view) : Moves db db' := by
  intro id life hl
  by_cases hi : id = target
  · subst hi
    obtain ⟨life', hs, hv⟩ := hst life hl
    exact ⟨life', .single hs, hv⟩
  · exact ⟨life, .refl, (ho id hi).trans hl⟩

/-- A call may also delete a trace that is settled. -/
def Evolves (db db' : Database) : Prop :=
  ∀ (id : String) (life : Life), db.view id = life.view →
    ∃ life' : Life, (life.Steps life' ∨ life.Settled ∧ life' = .absent) ∧ db'.view id = life'.view

theorem Moves.evolves (h : Moves db db') : Evolves db db' := by
  intro id life hl
  obtain ⟨life', hs, hv⟩ := h id life hl
  exact ⟨life', .inl hs, hv⟩

/-! What a view says about the life behind it. -/

section Inversion

variable {life : Life} {v : View}

theorem Life.of_absent (h : v = life.view) (hv : v.trace = none) : life = .absent := by
  subst h
  cases life <;> simp_all [Life.view]

theorem Life.of_capturing (h : v = life.view) (hv : v.trace = some t)
    (ht : t.captureStatus = .capturing) :
    ∃ staged, life = .capturing staged ∧
      t = ⟨.capturing, .notRequested, staged.isSome, staged⟩ := by
  subst h
  cases life with
  | capturing staged =>
    cases hv
    exact ⟨staged, rfl, rfl⟩
  | _ => cases hv <;> cases ht

/-- A trace without an active capture or notarization can be deleted. -/
theorem Life.of_inactive (h : v = life.view) (hv : v.trace = some t)
    (hc : t.captureStatus ≠ .capturing) (ha : t.notarizationStatus.active = false) :
    life.Settled := by
  subst h
  cases life with
  | absent => cases hv
  | capturing =>
    cases hv
    exact absurd rfl hc
  | failed | captured => trivial
  | notarizing _ _ n =>
    cases hv
    obtain ⟨_, phase⟩ := n
    cases phase <;>
      simp_all [Settled, Phase.state, OperationState.status, NotarizationStatus.active]

theorem Life.of_captured (h : v = life.view) (hv : v.trace = some t)
    (ht : t.captureStatus = .captured) (hn : v.operation = none) :
    ∃ c, life = .captured c ∧ t = ⟨.captured, .notRequested, true, some c⟩ := by
  subst h
  cases life with
  | captured c =>
    cases hv
    exact ⟨c, rfl, rfl⟩
  | notarizing => cases hn
  | _ => cases hv <;> cases ht

/-- An operation belongs to the notarization of a captured exchange. -/
theorem Life.of_operation (h : v = life.view) (hv : v.operation = some o) :
    ∃ c accepted n, life = .notarizing c accepted n ∧ n.phase.state = o.1 ∧
      n.attempts.length = o.2 := by
  subst h
  cases life with
  | notarizing c accepted n =>
    cases hv
    exact ⟨c, accepted, n, rfl, rfl, rfl⟩
  | _ => cases hv

end Inversion

theorem Phase.of_queued (h : p.state = .queued) : p = .queued := by
  cases p with
  | stopped ho => cases ho <;> cases h
  | _ => first | rfl | cases h

theorem Phase.of_running (h : p.state = .running) : p = .running := by
  cases p with
  | stopped ho => cases ho <;> cases h
  | _ => first | rfl | cases h

theorem Phase.of_retryable (h : p.state = .failed ∨ p.state = .interrupted) :
    ∃ ho, p = .stopped ho := by
  cases p with
  | stopped ho => exact ⟨ho, rfl⟩
  | _ => rcases h with h | h <;> cases h

/-! How the tables of a store enter the view of a trace. -/

section Views

variable {db db' : Database}

theorem SameTables.view (h : SameTables db db') (id : String) : db'.view id = db.view id := by
  simp only [Database.view, Database.operationOf, Database.attemptViews, Database.attemptsOf,
    h.traces, h.artifacts, h.operations, h.operationAttempts]

theorem Database.view_traces_update {p : Trace → Bool} {t : Table Trace}
    (h : db.traces.update p f = some t) (hk : ∀ r, (f r).traceId = r.traceId) (id : String) :
    ({ db with traces := t } : Database).view id = { db.view id with
      trace := ((db.traces.find? id).map fun r => if p r then f r else r).map Trace.view } := by
  simp only [Database.view, find?_of_update h hk]
  rfl

theorem Database.view_traces_own {p : Trace → Bool} {t : Table Trace}
    (h : db.traces.update p f = some t) (hk : ∀ r, (f r).traceId = r.traceId)
    (hr : db.traces.find? id = some current) (hp : p current = true) :
    ({ db with traces := t } : Database).view id = { db.view id with
      trace := some (f current).view } := by
  rw [view_traces_update h hk, hr]
  simp [hp]

theorem Database.view_traces_other {p : Trace → Bool} {t : Table Trace}
    (h : db.traces.update p f = some t) (hk : ∀ r, (f r).traceId = r.traceId)
    (hp : ∀ r, p r → r.traceId = target) (hi : id ≠ target) :
    ({ db with traces := t } : Database).view id = db.view id := by
  rw [view_traces_update h hk]
  have hs : ((db.traces.find? id).map fun r => if p r then f r else r) = db.traces.find? id := by
    cases hro : db.traces.find? id with
    | none => rfl
    | some r =>
      have hr := (find?_eq_some.mp hro).2
      have hn : ¬p r := fun hpr => hi (hr.symm.trans (hp r hpr))
      simp [hn]
  rw [hs]
  rfl

end Views

/-! Captures. -/

section Captures

variable {db db' : Database}

theorem Database.view_trace {t : Trace} (h : db.traces.find? id = some t) :
    (db.view id).trace = some t.view := by
  simp [Database.view, h]

theorem beginCapture_moves (h : beginCapture capture db = .ok (u, db')) :
    Moves db db' := by
  obtain ⟨row, t, ht, rfl, -, hc, hst, hp, hs⟩ := beginCapture_ok h
  have hv (id : String) : ({ db with traces := t } : Database).view id = { db.view id with
      trace := if row.traceId = id then some row.view else (db.view id).trace } := by
    simp only [Database.view, find?_of_insert ht]
    by_cases hi : row.traceId = id
    · simp [hi, Schema.key, Database.operationOf, Database.attemptViews, Database.attemptsOf]
    · simp [hi, Schema.key, Database.operationOf, Database.attemptViews, Database.attemptsOf]
  apply Moves.of_step row.traceId
  · intro _ hi
    rw [hv, if_neg (Ne.symm hi)]
  · intro _ hl
    have hf : db.traces.find? row.traceId = none :=
      Table.find?_eq_none.mpr fun r hr => fresh_of_insert ht hr
    have hn : (db.view row.traceId).trace = none := by simp [Database.view, hf]
    obtain rfl := Life.of_absent hl hn
    refine ⟨_, .begin, ?_⟩
    rw [hv, if_pos rfl, hl]
    simp [Life.view, Trace.view, hc, hst, hp, hs]

theorem markCaptureFailed_moves (h : markCaptureFailed traceId failureCode db = .ok (u, db')) :
    Moves db db' := by
  rcases markCaptureFailed_ok h with rfl | ⟨current, _, hc, ha, ht, rfl⟩
  · exact Moves.of_view fun _ => rfl
  have hi : current.traceId = traceId := (find?_eq_some.mp hc).2
  apply Moves.of_step traceId
  · intro _ hn
    exact view_traces_other ht (fun _ => rfl) (by simp +contextual) hn
  · intro _ hl
    obtain ⟨_, rfl, hv⟩ := Life.of_capturing hl (view_trace hc) ha
    refine ⟨_, .fail _, ?_⟩
    rw [view_traces_own ht (fun _ => rfl) hc (by simp [hi, ha]), hl]
    have hf : Trace.view { current with
        captureStatus := .failed, failureCode := some failureCode } =
          { current.view with captureStatus := .failed } := rfl
    rw [hf, hv]
    rfl

theorem CaptureCompletion.view_stage (c : CaptureCompletion) (t : Trace) :
    (c.stage t).view = ⟨t.captureStatus, t.notarizationStatus, true, some c.commit⟩ := rfl

theorem prepareCaptureCompletion_moves {completion : CaptureCompletion}
    (h : prepareCaptureCompletion completion db = .ok (u, db')) : Moves db db' := by
  rcases prepareCaptureCompletion_ok h with ⟨rfl, -⟩ | ⟨current, _, hc, ha, hn, ht, rfl⟩
  · exact Moves.of_view fun _ => rfl
  have hi : current.traceId = completion.traceId := (find?_eq_some.mp hc).2
  apply Moves.of_step completion.traceId
  · intro _ hne
    exact view_traces_other ht (fun _ => rfl) (by simp +contextual) hne
  · intro _ hl
    obtain ⟨staged, rfl, hv⟩ := Life.of_capturing hl (view_trace hc) ha
    -- Nothing was staged before, since the completion time was not set.
    obtain rfl : staged = none := by
      have hp := congrArg TraceView.prepared hv
      simpa [Trace.view, hn] using hp.symm
    have hs : current.notarizationStatus = .notRequested := congrArg TraceView.notarizationStatus hv
    refine ⟨_, .stage completion.commit, ?_⟩
    rw [view_traces_own ht (fun _ => rfl) hc (by simp [hi, ha, hn]), hl,
      CaptureCompletion.view_stage, ha, hs]
    rfl

theorem CaptureCompletion.Matches.staged {c : CaptureCompletion} {t : Trace} (h : c.Matches t) :
    t.stagedCompletion.map CaptureCompletion.commit = some c.commit := by
  obtain ⟨h₁, h₂, h₃, h₄, -, -, -, h₅, h₆⟩ := h
  simp [Trace.stagedCompletion, h₁, h₂, h₃, h₄, h₅, h₆, CaptureCompletion.commit]

theorem completeCaptureRecord_moves {completion : CaptureCompletion} {artifact : ArtifactRecord}
    (h : completeCaptureRecord completion artifact db = .ok (u, db')) : Moves db db' := by
  rcases completeCaptureRecord_ok h with rfl | ⟨current, t, a, _, hc, hac, hm,
    htr, hk, hsi, hsh, ht, ha, rfl, hsa⟩
  · exact Moves.of_view fun _ => rfl
  have hi : current.traceId = completion.traceId := (find?_eq_some.mp hc).2
  rw [htr, hk] at ha
  -- The view after both statements: the trace as the update leaves it, with the new artifact.
  have hv (id : String) : db'.view id = { ({ db with traces := t } : Database).view id with
      checkpoint := (a.find? (id, .captureCheckpoint)).map fun a => (a.sizeBytes, a.sha256)
      package := (a.find? (id, .tracePackage)).isSome } := hsa.view id
  apply Moves.of_step completion.traceId
  · intro _ hne
    rw [hv, view_traces_other ht (fun _ => rfl) (by simp +contextual) hne, ha, ha]
    simp [hne, Database.view]
  · intro _ hl
    obtain ⟨staged, rfl, htv⟩ := Life.of_capturing hl (view_trace hc) hac
    refine ⟨_, .complete staged completion.commit ?_, ?_⟩
    · intro _ hs
      have hso : current.completedAtUnixMs.isSome := by
        have hp := congrArg TraceView.prepared htv
        simpa [Trace.view, mem_def.mp hs] using hp
      have hst := (hm hso).staged.symm.trans (congrArg TraceView.staged htv)
      rw [mem_def.mp hs] at hst
      exact (Option.some.inj hst).symm
    · have hsta : current.notarizationStatus = .notRequested :=
        congrArg TraceView.notarizationStatus htv
      have hpa : (db.view completion.traceId).package = false := by rw [hl]; rfl
      rw [hv, view_traces_own ht (fun _ => rfl) hc (by simp [hi, hac]), hl, ha, ha]
      have hn : (db.artifacts.find? (completion.traceId, .tracePackage)).isSome = false := hpa
      simp [Life.view, Trace.view, CaptureCompletion.stage, Trace.stagedCompletion, hsta,
        CaptureCompletion.commit, ArtifactRecord.row, hsi, hsh, hn]

end Captures

/-! Notarization. -/

section Operations

variable {db db' : Database} {o : Operation} {guard : Operation → Bool}
  {f : Operation → Operation} {attempts : Table OperationAttempt}

/-- The columns that identify an operation. -/
def KeepsIdentity (f : Operation → Operation) : Prop :=
  ∀ o, (f o).operationId = o.operationId ∧ (f o).traceId = o.traceId

theorem OperationMoved.operationOf (h : OperationMoved db db' o guard f attempts)
    (hf : KeepsIdentity f) (id : String) :
    db'.operationOf id = if id = o.traceId then some (f o) else db.operationOf id := by
  have hon := (operationOf_of_select h.row).1
  rw [Database.operationOf, first_of_update h.operations fun r => by rw [(hf r).2]]
  change (db.operationOf id).map _ = _
  split_ifs with hi
  · subst hi
    simp [hon, h.guarded]
  · -- Another trace has another operation.
    cases ho : db.operationOf id with
    | none => rfl
    | some r =>
      obtain ⟨hr, rfl⟩ := operationOf_some.mp ho
      have hn : r.operationId ≠ o.operationId := by
        intro he
        obtain rfl := eq_of_key hr (operationOf_some.mp hon).1 he
        exact hi rfl
      simp [hn]

theorem OperationMoved.trace (h : OperationMoved db db' o guard f attempts) (id : String) :
    (db'.view id).trace = (db.view id).trace.map fun t =>
      if id = o.traceId then { t with notarizationStatus := (f o).state.status } else t := by
  simp only [Database.view]
  rw [find?_of_update h.traces fun _ => rfl]
  cases hr : db.traces.find? id with
  | none => rfl
  | some t =>
    have ht : t.traceId = id := (find?_eq_some.mp hr).2
    by_cases hi : id = o.traceId
    · rw [map_some, if_pos (decide_eq_true (ht.trans hi)), map_some, map_some, map_some, if_pos hi]
      rfl
    · simp [ht, hi]

def OthersKept (db : Database) (o : Operation) (attempts : Table OperationAttempt) : Prop :=
  ∀ k, k ≠ o.operationId → attempts.rows.filter (·.operationId = k) = db.attemptsOf k

section

variable (h : OperationMoved db db' o guard f attempts)
include h

theorem OperationMoved.view_other
    (hf : KeepsIdentity f) (hot : OthersKept db o attempts) (hi : id ≠ o.traceId)
    (ha : ∀ kind, db'.artifacts.find? (id, kind) = db.artifacts.find? (id, kind)) :
    db'.view id = db.view id := by
  have ho : db'.operationOf id = db.operationOf id := by rw [h.operationOf hf, if_neg hi]
  have hat : (db'.operationOf id).elim [] (fun r => db'.attemptViews r.operationId) =
      (db.operationOf id).elim [] fun r => db.attemptViews r.operationId := by
    rw [ho]
    cases hoh : db.operationOf id with
    | none => rfl
    | some r =>
      obtain ⟨hr, rfl⟩ := operationOf_some.mp hoh
      have hn : r.operationId ≠ o.operationId := by
        intro he
        have hon := operationOf_some.mp (operationOf_of_select h.row).1
        obtain rfl := eq_of_key hr hon.1 he
        exact hi rfl
      have hk := hot _ hn
      simp only [elim_some, Database.attemptViews]
      rw [← hk, Database.attemptsOf, h.attempts]
  have ht : (db'.view id).trace = (db.view id).trace := by
    rw [h.trace]
    simp [hi]
  simp only [Database.view] at ht ⊢
  rw [ht, ha, ha, hat, ho]

theorem OperationMoved.view_own (hf : KeepsIdentity f) : db'.view o.traceId =
      { trace := (db.view o.traceId).trace.map fun t =>
          { t with notarizationStatus := (f o).state.status }
        checkpoint := (db'.view o.traceId).checkpoint
        package := (db'.view o.traceId).package
        operation := some (f o).view
        attempts := db'.attemptViews o.operationId } := by
  have ht := h.trace o.traceId
  have ho : db'.operationOf o.traceId = some (f o) := by rw [h.operationOf hf, if_pos rfl]
  simp only [if_true] at ht
  rw [← ht]
  simp only [Database.view, ho, map_some, elim_some, (hf o).1]

/-- An operation that moved takes one step of its notarization. -/
theorem OperationMoved.moves (hf : KeepsIdentity f) (hot : OthersKept db o attempts)
    (ha : ∀ id kind, id ≠ o.traceId →
      db'.artifacts.find? (id, kind) = db.artifacts.find? (id, kind))
    (hc : db'.artifacts.find? (o.traceId, .captureCheckpoint) =
      db.artifacts.find? (o.traceId, .captureCheckpoint))
    (hsp : ∀ c accepted n, db.view o.traceId = (Life.notarizing c accepted n).view →
      n.phase.state = o.state → n.attempts.length = o.attempt →
      db.attemptViews o.operationId = n.attempts.zipIdx 1 →
      ∃ n', (Life.notarizing c accepted n).Step (.notarizing c accepted n') ∧
        n'.phase.state = (f o).state ∧ n'.attempts.length = (f o).attempt ∧
        db'.attemptViews o.operationId = n'.attempts.zipIdx 1 ∧
        (db'.view o.traceId).package = decide (n'.phase = .succeeded)) : Moves db db' := by
  have hon := (operationOf_of_select h.row).1
  apply Moves.of_step o.traceId
  · intro id hi
    exact h.view_other hf hot hi fun kind => ha id kind hi
  · intro _ hl
    have ho : (db.view o.traceId).operation = some o.view := by simp [Database.view, hon]
    obtain ⟨c, accepted, n, rfl, hst, hat⟩ := Life.of_operation hl ho
    have hv : db.attemptViews o.operationId = n.attempts.zipIdx 1 := by
      have := congrArg View.attempts hl
      simpa [Database.view, hon, Life.view] using this
    obtain ⟨_, hs, hs', ha', hv', hp⟩ := hsp c accepted n hl hst hat hv
    refine ⟨_, hs, ?_⟩
    have hk : (db'.view o.traceId).checkpoint = (db.view o.traceId).checkpoint := by
      simp [Database.view, hc]
    rw [h.view_own hf, hk, hp, hv', hl]
    simp [Life.view, Operation.view, hs', ha']

end

theorem othersKept_of_eq (h : attempts = db.operationAttempts) : OthersKept db o attempts := by
  intro _ _
  rw [h]
  rfl

theorem othersKept_of_insert (ha : a.operationId = o.operationId)
    (h : db.operationAttempts.insert a = some attempts) : OthersKept db o attempts := by
  intro _ hk
  rw [selected_of_insert h]
  simp [ha, Ne.symm hk, Database.attemptsOf]

theorem AttemptClosed.othersKept (h : AttemptClosed db o state attempts) :
    OthersKept db o attempts := by
  obtain ⟨_, _, h⟩ := h
  intro k hk
  rw [selected_of_update h fun _ => rfl]
  change (db.attemptsOf k).map _ = db.attemptsOf k
  conv_rhs => rw [← List.map_id (db.attemptsOf k)]
  refine map_congr_left fun a ha => ?_
  have hi : a.operationId = k := by simpa using (mem_filter.mp ha).2
  simp [hi, hk]

theorem map_close_last (l : List AttemptState) (s s' : AttemptState) :
    ((l ++ [s]).zipIdx 1).map (fun v => if v.2 = (l ++ [s]).length then (s', v.2) else v) =
      (l ++ [s']).zipIdx 1 := by
  have he : (l.zipIdx 1).map
      (fun v => if v.2 = (l ++ [s]).length then (s', v.2) else v) = l.zipIdx 1 := by
    conv_rhs => rw [← List.map_id (l.zipIdx 1)]
    refine map_congr_left fun v hv => ?_
    have hl := (mem_zipIdx hv).2.1
    rw [if_neg]
    · rfl
    · simp only [length_append, length_singleton]
      omega
  rw [zipIdx_append, map_append, he, zipIdx_append]
  simp [Nat.add_comm]

theorem AttemptClosed.views (h : AttemptClosed db o state attempts)
    (hm : db'.operationAttempts = attempts)
    (hv : db.attemptViews o.operationId = (l ++ [s]).zipIdx 1)
    (hat : (l ++ [s]).length = o.attempt) :
    db'.attemptViews o.operationId = (l ++ [state]).zipIdx 1 := by
  obtain ⟨_, _, h⟩ := h
  have hs := selected_of_update
    (q := fun a : OperationAttempt => decide (a.operationId = o.operationId)) h fun _ => rfl
  rw [← map_close_last l s state, ← hv, Database.attemptViews, Database.attemptsOf, hm,
    hs, List.map_map, Database.attemptViews, List.map_map]
  refine map_congr_left fun a ha => ?_
  have hi : a.operationId = o.operationId := by simpa using (mem_filter.mp ha).2
  by_cases hl : a.attempt = o.attempt
  · simp [hi, hl, OperationAttempt.view, hat]
  · simp [hi, hl, OperationAttempt.view, hat]

theorem claimNextNotarization_moves (h : claimNextNotarization now db = .ok (r, db')) :
    Moves db db' := by
  rcases claimNextNotarization_ok h with rfl | ⟨o, a, _, hq, hid, hn, hr, hi, hm, ha⟩
  · exact Moves.of_view fun _ => rfl
  refine hm.moves (fun _ => ⟨rfl, rfl⟩) (othersKept_of_insert hid hi)
    (fun _ _ _ => by rw [ha]) (by rw [ha]) ?_
  rintro c accepted ⟨earlier, _⟩ hl hs hat hv
  obtain rfl := Phase.of_queued (hs.trans hq)
  -- A number beyond 32 bits would read as zero, which the table refuses.
  have hne : a.attempt = o.attempt + 1 := by
    have hp : 0 < a.attempt := Table.check ((mem_of_insert hi).mpr (.inr rfl))
    rw [hn] at hp ⊢
    unfold attemptNumber at hp ⊢
    split_ifs at hp ⊢
    · rfl
    · exact absurd hp (lt_irrefl 0)
  refine ⟨_, .claim c accepted earlier, rfl, ?_, ?_, ?_⟩
  · simpa [Notarization.attempts, Phase.attempt, Operation.start] using hat
  · have hatt := selected_of_insert
      (q := fun a : OperationAttempt => decide (a.operationId = o.operationId)) hi
    simp only [Notarization.attempts, Phase.attempt, append_nil] at hv hat
    rw [Database.attemptViews, Database.attemptsOf, hm.attempts, hatt, map_append]
    change db.attemptViews o.operationId ++ _ = _
    rw [hv, Notarization.attempts, zipIdx_append, hat]
    simp [hid, OperationAttempt.view, hr, hne, Phase.attempt, Nat.add_comm]
  · have hpa := congrArg View.package hl
    simpa [Database.view, Life.view, ha] using hpa

theorem Operation.of_retryable (h : o.retryable = true) :
    o.state = .failed ∨ o.state = .interrupted := by
  simpa [Operation.retryable] using h

theorem OperationMoved.requeue_moves
    (h : OperationMoved db db' o guard (Operation.requeue now) db.operationAttempts)
    (hr : o.retryable = true) (ha : db'.artifacts = db.artifacts) : Moves db db' := by
  refine h.moves (fun _ => ⟨rfl, rfl⟩) (othersKept_of_eq rfl) (fun _ _ _ => by rw [ha])
    (by rw [ha]) ?_
  rintro c accepted ⟨earlier, phase⟩ hl hst hat hv
  obtain ⟨ho, rfl⟩ := Phase.of_retryable (p := phase) (by
    rw [hst]
    exact Operation.of_retryable hr)
  have hs : (⟨earlier ++ [ho], .queued⟩ : Notarization).attempts =
      (⟨earlier, .stopped ho⟩ : Notarization).attempts := by
    simp [Notarization.attempts, Phase.attempt]
  refine ⟨_, .requeue c accepted earlier ho, rfl, ?_, ?_, ?_⟩
  · rw [hs]
    exact hat
  · rw [hs, ← hv, Database.attemptViews, Database.attemptsOf, h.attempts]
    rfl
  · have hp := congrArg View.package hl
    simpa [Database.view, Life.view, ha] using hp

theorem retryOperation_moves (h : retryOperation operationId now db = .ok (r, db')) :
    Moves db db' := by
  rcases retryOperation_ok h with rfl | ⟨o, _, hg, hm, ha⟩
  · exact Moves.of_view fun _ => rfl
  · exact hm.requeue_moves (hg o hm.guarded) ha

theorem OperationMoved.stop_moves (ho : Stop) (h : OperationMoved db db' o guard
      (Operation.stop ho.attemptState.operationState now failureCode) attempts)
    (hc : AttemptClosed db o ho.attemptState attempts) (hr : o.state = .running)
    (ha : db'.artifacts = db.artifacts) : Moves db db' := by
  refine h.moves (fun _ => ⟨rfl, rfl⟩) hc.othersKept (fun _ _ _ => by rw [ha]) (by rw [ha]) ?_
  rintro c accepted ⟨earlier, _⟩ hl hs hat hv
  obtain rfl := Phase.of_running (hs.trans hr)
  refine ⟨_, .stop c accepted earlier ho, rfl, ?_, hc.views h.attempts hv hat, ?_⟩
  · simpa [Notarization.attempts, Phase.attempt, Operation.stop] using hat
  · have hp := congrArg View.package hl
    simpa [Database.view, Life.view, ha] using hp

theorem failOperation_moves (h : failOperation operationId now failureCode db = .ok (r, db')) :
    Moves db db' := by
  rcases failOperation_ok h with rfl | ⟨_, _, hc, hm, ha⟩
  · exact Moves.of_view fun _ => rfl
  · exact hm.stop_moves .failed hc (of_decide_eq_true hm.guarded) ha

theorem completeNotarization_moves
    (h : completeNotarization operationId artifact now db = .ok (r, db')) : Moves db db' := by
  rcases completeNotarization_ok h with rfl | ⟨o, _, ht, hki, hc, hm, ha⟩
  · exact Moves.of_view fun _ => rfl
  rw [ht, hki] at ha
  have hk : ((o.traceId, .captureCheckpoint) : String × ArtifactKind) ≠
      (o.traceId, .tracePackage) := by simp
  refine hm.moves (fun _ => ⟨rfl, rfl⟩) hc.othersKept
    (fun id kind hi => by rw [ha, if_neg fun h => hi (congrArg Prod.fst h)])
    (by rw [ha]; exact if_neg hk) ?_
  rintro c accepted ⟨earlier, _⟩ _ hs hat hv
  obtain rfl := Phase.of_running (hs.trans (of_decide_eq_true hm.guarded))
  refine ⟨_, .succeed c accepted earlier, rfl, ?_, hc.views hm.attempts hv hat, ?_⟩
  · simpa [Notarization.attempts, Phase.attempt, Operation.succeed] using hat
  · simp [Database.view, ha]

def AttemptsOwned (db : Database) : Prop :=
  ∀ a ∈ db.operationAttempts, ∃ o ∈ db.operations, o.operationId = a.operationId

theorem AttemptsOwned.attemptsOf_fresh (h : AttemptsOwned db)
    (hk : ∀ o ∈ db.operations, o.operationId ≠ k) : db.attemptsOf k = [] := by
  rw [Database.attemptsOf, filter_eq_nil_iff]
  intro a ha hi
  obtain ⟨o, ho, hon⟩ := h a ha
  exact hk o ho (hon.trans (of_decide_eq_true hi))

theorem enqueueNotarization_moves {r : Option (Operation × Bool)} (hon : AttemptsOwned db)
    (h : enqueueNotarization traceId operationId now db = .ok (r, db')) : Moves db db' := by
  rcases enqueueNotarization_ok h with rfl | ⟨o, -, hmo, ha⟩ | ⟨trace, o, hi, ht,
    hn, hnn, _, rfl, hsta, hatt, hu, hat, ha⟩
  · exact Moves.of_view fun _ => rfl
  · exact hmo.requeue_moves hmo.guarded ha
  have ho (id : String) : db'.operationOf id =
      (db.operationOf id).or (if o.traceId = id then some o else none) := by
    rw [Database.operationOf, first_of_insert hi]
    simp [Database.operationOf]
  have hup (id : String) : (db'.view id).trace =
      (({ db with traces := db'.traces } : Database).view id).trace := rfl
  apply Moves.of_step o.traceId
  · intro id hne
    have hsa : db'.operationOf id = db.operationOf id := by rw [ho, if_neg (Ne.symm hne), or_none]
    have hts : ({ db with traces := db'.traces } : Database).view id = db.view id :=
      view_traces_other hu (fun _ => rfl) (by simp +contextual) hne
    have hv := congrArg View.trace hts
    simp only [Database.view] at hv ⊢
    rw [hv, hsa, ha]
    simp only [Database.attemptViews, Database.attemptsOf, hat]
  · intro _ hl
    have hno : (db.view o.traceId).operation = none := by simp [Database.view, hnn]
    obtain ⟨c, rfl, hv⟩ := Life.of_captured hl (view_trace ht) hn.1 hno
    have hm : c.Accepted := by
      have hsg := congrArg TraceView.staged hv
      obtain ⟨_, hc, rfl⟩ := map_eq_some_iff.mp hsg
      have hst := hn.2
      simp only [Trace.stagedCompletion, bind_eq_bind, bind_eq_some_iff,
        Option.pure_def, Option.some.injEq] at hc
      obtain ⟨_, -, _, -, _, hs, _, -, _, -, _, -, rfl⟩ := hc
      rw [hs] at hst
      exact of_decide_eq_true hst
    refine ⟨_, .enqueue c hm, ?_⟩
    have hown : db'.operationOf o.traceId = some o := by simp [ho, hnn]
    have hf : db.attemptsOf o.operationId = [] :=
      hon.attemptsOf_fresh fun p hp => fresh_of_insert hi hp
    have hnw : db'.attemptViews o.operationId = [] := by
      rw [Database.attemptViews, Database.attemptsOf, hat]
      exact congrArg (List.map _) hf
    have ht' := hup o.traceId
    have hi' : trace.traceId = o.traceId := (find?_eq_some.mp ht).2
    rw [view_traces_own hu (fun _ => rfl) ht (by simp [hi'])] at ht'
    have hq : Trace.view { trace with notarizationStatus := .queued } =
        { trace.view with notarizationStatus := .queued } := rfl
    rw [hq, hv] at ht'
    have hch := congrArg View.checkpoint hl
    have hpa := congrArg View.package hl
    simp only [Database.view, hown, ha, map_some, elim_some, hnw] at *
    rw [ht', hch, hpa]
    simp [Life.view, Operation.view, hsta, hatt, Notarization.attempts, Phase.attempt,
      Phase.state, OperationState.status]

theorem updateOperationProgress_moves
    (h : updateOperationProgress operationId phase now db = .ok (r, db')) : Moves db db' := by
  obtain ⟨p, progress, hop, ht, har, ha⟩ := updateOperationProgress_ok h
  apply Moves.of_view
  intro id
  have ho : db'.operationOf id = (db.operationOf id).map fun o =>
      if p o then { o with progress := progress o } else o := by
    rw [Database.operationOf, first_of_update hop fun _ => rfl]
    rfl
  simp only [Database.view, ho, ht, har]
  cases db.operationOf id with
  | none => rfl
  | some o =>
    by_cases hp : p o
    · simp [hp, Database.attemptViews, Database.attemptsOf, ha, Operation.view]
    · simp [hp, Database.attemptViews, Database.attemptsOf, ha]

theorem deleteTrace_evolves (h : deleteTrace traceId db = .ok (r, db')) :
    Evolves db db' := by
  rcases deleteTrace_ok h with rfl | ⟨_, hcu, hc, hi, hat, hor, har, htc⟩
  · exact (Moves.of_view fun _ => rfl).evolves
  intro id life hl
  by_cases hn : id ≠ traceId
  · refine ⟨life, .inl .refl, Eq.trans ?_ hl⟩
    have htr : db'.traces.find? id = db.traces.find? id := by
      rw [htc]
      refine find?_delete fun t ht => ?_
      have hti : t.traceId = id := ht
      simpa [hti] using hn
    have hk (kind : ArtifactKind) :
        db'.artifacts.find? (id, kind) = db.artifacts.find? (id, kind) := by
      rw [har]
      refine find?_delete fun a ha => ?_
      have hai : a.traceId = id := congrArg Prod.fst ha
      simpa [hai] using hn
    have hop : db'.operationOf id = db.operationOf id := by
      rw [Database.operationOf, hor]
      refine first_delete fun o ho => ?_
      have hoi : o.traceId = id := of_decide_eq_true ho
      simpa [hoi] using hn
    have hv : (db'.operationOf id).elim [] (fun o => db'.attemptViews o.operationId) =
        (db.operationOf id).elim [] fun o => db.attemptViews o.operationId := by
      rw [hop]
      cases hot : db.operationOf id with
      | none => rfl
      | some o =>
        obtain ⟨ho, rfl⟩ := operationOf_some.mp hot
        simp only [elim_some, Database.attemptViews, Database.attemptsOf, hat]
        rw [selected_delete]
        intro a ha
        have hai : a.operationId = o.operationId := of_decide_eq_true ha
        -- The deleted operation is another one, since it belongs to another trace.
        cases hon : db.operationOf traceId with
        | none => rfl
        | some p =>
          obtain ⟨hp, rfl⟩ := operationOf_some.mp hon
          have hpo : p.operationId ≠ a.operationId := by
            intro he
            obtain rfl := eq_of_key hp ho (he.trans hai)
            exact hn rfl
          simpa using hpo
    simp only [Database.view]
    rw [hv, htr, hop, hk, hk]
  · obtain rfl := not_not.mp hn
    have hs := Life.of_inactive hl (view_trace hcu) hc hi
    refine ⟨_, .inr ⟨hs, rfl⟩, ?_⟩
    have htr : db'.traces.find? id = none := by
      rw [htc]
      exact find?_delete_of fun t ht => decide_eq_true ht
    have hk (kind : ArtifactKind) : db'.artifacts.find? (id, kind) = none := by
      rw [har]
      exact find?_delete_of fun a ha => decide_eq_true (congrArg Prod.fst ha)
    have hop : db'.operationOf id = none := by
      rw [Database.operationOf, hor]
      exact first_delete_of fun o ho => ho
    simp [Database.view, htr, hk, hop, Life.view]

/-- The listed operations are running and have different identifiers. -/
def AllRunning (db : Database) (listed : List Operation) : Prop :=
  (listed.map Operation.operationId).Nodup ∧
    ∀ o ∈ listed, db.operations.find? o.operationId = some o ∧ o.state = .running

theorem interruptAll_rel {R : Database → Database → Prop} (hre : ∀ a, R a a)
    (ht : ∀ a b c, R a b → R b c → R a c)
    (hs : ∀ a b o attempts, o.state = .running → AttemptClosed a o .interrupted attempts →
      OperationMoved a b o (fun _ => true) (Operation.stop .interrupted now "service_restarted")
        attempts → b.artifacts = a.artifacts → R a b)
    (h : interruptAll now listed db = .ok (u, db')) (hl : AllRunning db listed) : R db db' := by
  induction listed generalizing db with
  | nil =>
    simp only [interruptAll, pure_ok] at h
    obtain ⟨_, rfl⟩ := h
    exact hre _
  | cons o _ ih =>
    simp only [interruptAll, bind_ok] at h
    obtain ⟨_, _, hf, hrs⟩ := h
    obtain ⟨hro, hr⟩ := hl.2 o mem_cons_self
    obtain ⟨attempts, hc, hm, ha⟩ := interruptOperation_ok hf hro
    refine ht _ _ _ (hs _ _ o attempts hr hc hm ha) (ih hrs ?_)
    obtain ⟨hno, hn⟩ := nodup_cons.mp hl.1
    refine ⟨hn, fun p hp => ?_⟩
    obtain ⟨hpw, hpr⟩ := hl.2 p (mem_cons_of_mem o hp)
    refine ⟨?_, hpr⟩
    have hne : p.operationId ≠ o.operationId := fun he =>
      hno (List.mem_map.mpr ⟨p, hp, he⟩)
    rw [find?_of_update hm.operations fun _ => rfl, hpw]
    simp [hne]

theorem allRunning_filter (db : Database) :
    AllRunning db (db.operations.rows.filter (·.state = .running)) := by
  refine ⟨db.operations.valid.1.sublist (filter_sublist.map _), fun o ho => ?_⟩
  obtain ⟨hm, hr⟩ := mem_filter.mp ho
  exact ⟨find?_eq_some.mpr ⟨hm, rfl⟩, of_decide_eq_true hr⟩

theorem recoverOperations_ok (h : recoverOperations now db = .ok (n, db')) :
    ∃ listed u, AllRunning db listed ∧ interruptAll now listed db = .ok (u, db') := by
  simp only [recoverOperations, bind_ok, query_ok, pure_ok] at h
  obtain ⟨_, _, ⟨rfl, rfl⟩, u, _, ha, _, rfl⟩ := h
  exact ⟨_, u, allRunning_filter db, ha⟩

theorem recoverOperations_moves {n : ℕ} (h : recoverOperations now db = .ok (n, db')) :
    Moves db db' := by
  obtain ⟨_, _, hl, hal⟩ := recoverOperations_ok h
  exact interruptAll_rel (fun _ => .of_view fun _ => rfl) (fun _ _ _ => .trans)
    (fun _ _ _ _ hr hc hm ha => hm.stop_moves .interrupted hc hr ha) hal hl

end Operations

end Notary.Daemon
