import Notary.Daemon.Lifecycle

/-! What holds of the local store after every sequence of calls. -/

namespace Notary.Daemon
open Relational Tx List Option Table Database

variable {db db' : Database}

/-- Every operation was there before, under the same trace. -/
def OperationsFrom (db db' : Database) : Prop :=
  ∀ o' ∈ db'.operations, ∃ o ∈ db.operations,
    o.operationId = o'.operationId ∧ o.traceId = o'.traceId

/-- What a call keeps beside the lives of the traces. -/
structure RowsKept (db db' : Database) : Prop where
  owned : AttemptsOwned db → AttemptsOwned db'
  identity : ∀ o ∈ db.operations, ∀ o' ∈ db'.operations, o'.operationId = o.operationId →
    o'.traceId = o.traceId

theorem RowsKept.of_from (hon : AttemptsOwned db → AttemptsOwned db')
    (h : OperationsFrom db db') : RowsKept db db' where
  owned := hon
  identity := by
    intro _ ho o' ho' hi
    obtain ⟨_, hp, hpi, hpt⟩ := h o' ho'
    rw [← hpt, eq_of_key hp ho (hpi.trans hi)]

theorem OperationsFrom.of_eq (h : db'.operations = db.operations) : OperationsFrom db db' := by
  intro o ho
  rw [h] at ho
  exact ⟨o, ho, rfl, rfl⟩

theorem OperationsFrom.trans (h₁ : OperationsFrom a b) (h₂ : OperationsFrom b c) :
    OperationsFrom a c := by
  intro o ho
  obtain ⟨p, hp, hpi, hpt⟩ := h₂ o ho
  obtain ⟨q, hq, hqi, hqt⟩ := h₁ p hp
  exact ⟨q, hq, hqi.trans hpi, hqt.trans hpt⟩

theorem operationsFrom_of_update (h : db.operations.update p f = some db'.operations)
    (hf : KeepsIdentity f) :
    OperationsFrom db db' := by
  intro _ ho'
  obtain ⟨o, ho, rfl⟩ := (mem_of_update h).mp ho'
  refine ⟨o, ho, ?_⟩
  split_ifs
  · exact ⟨(hf o).1.symm, (hf o).2.symm⟩
  · exact ⟨rfl, rfl⟩

theorem RowsKept.of_same (ho : db'.operations = db.operations)
    (ha : db'.operationAttempts = db.operationAttempts) : RowsKept db db' := by
  refine .of_from (fun h => ?_) (.of_eq ho)
  unfold AttemptsOwned
  rw [ho, ha]
  exact h

theorem SameTables.rowsKept (h : SameTables db db') : RowsKept db db' :=
  .of_same h.operations h.operationAttempts

theorem RowsKept.refl (db : Database) : RowsKept db db := .of_same rfl rfl

variable {k : String} {c : Commit}

theorem owned_of_update (h : db.operations.update p f = some db'.operations) (hf : KeepsIdentity f)
    (hk : ∃ o ∈ db.operations, o.operationId = k) : ∃ o ∈ db'.operations, o.operationId = k := by
  obtain ⟨o, ho, rfl⟩ := hk
  refine ⟨_, (mem_of_update h).mpr ⟨o, ho, rfl⟩, ?_⟩
  split_ifs
  · exact (hf o).1
  · rfl

section Operations

variable {o : Operation} {guard : Operation → Bool} {f : Operation → Operation}
  {attempts : Table OperationAttempt}

theorem OperationMoved.rowsKept (h : OperationMoved db db' o guard f attempts)
    (hf : KeepsIdentity f) (hat : ∀ a ∈ attempts, a.operationId = o.operationId ∨
      ∃ b ∈ db.operationAttempts, b.operationId = a.operationId) : RowsKept db db' := by
  refine .of_from (fun ho a ha => ?_) (operationsFrom_of_update h.operations hf)
  rw [h.attempts] at ha
  apply owned_of_update h.operations hf
  rcases hat a ha with hi | ⟨b, hb, hi⟩
  · exact ⟨o, (find?_eq_some.mp h.row).1, hi.symm⟩
  · obtain ⟨p, hp, hpi⟩ := ho b hb
    exact ⟨p, hp, hpi.trans hi⟩

theorem AttemptClosed.from_before (h : AttemptClosed db o state attempts) :
    ∀ a ∈ attempts, a.operationId = o.operationId ∨
      ∃ b ∈ db.operationAttempts, b.operationId = a.operationId := by
  obtain ⟨_, _, h⟩ := h
  intro _ ha
  obtain ⟨b, hb, rfl⟩ := (mem_of_update h).mp ha
  refine .inr ⟨b, hb, ?_⟩
  split_ifs <;> rfl

theorem same_from_before : ∀ a ∈ db.operationAttempts, a.operationId = o.operationId ∨
    ∃ b ∈ db.operationAttempts, b.operationId = a.operationId :=
  fun a ha => .inr ⟨a, ha, rfl⟩

end Operations

theorem recoverOperations_rowsKept (h : recoverOperations now db = .ok (n, db')) :
    RowsKept db db' := by
  obtain ⟨_, _, hl, ha⟩ := recoverOperations_ok h
  have hk := interruptAll_rel
    (R := fun a b => (AttemptsOwned a → AttemptsOwned b) ∧ OperationsFrom a b)
    (fun _ => ⟨id, .of_eq rfl⟩) (fun _ _ _ h₁ h₂ => ⟨h₂.1 ∘ h₁.1, h₁.2.trans h₂.2⟩)
    (fun _ _ _ _ _ hc hm _ => ⟨(hm.rowsKept (fun _ => ⟨rfl, rfl⟩) hc.from_before).owned,
        operationsFrom_of_update hm.operations fun _ => ⟨rfl, rfl⟩⟩) ha hl
  exact .of_from hk.1 hk.2

theorem enqueueNotarization_rowsKept
    (h : enqueueNotarization traceId operationId now db = .ok (r, db')) : RowsKept db db' := by
  rcases enqueueNotarization_ok h with rfl | ⟨o, -, hm, -⟩ | ⟨_, _, hi, -, -, -, -, -, -,
    -, -, hat, -⟩
  · exact .refl _
  · exact hm.rowsKept (fun _ => ⟨rfl, rfl⟩) same_from_before
  constructor
  · intro ho a ha
    rw [hat] at ha
    obtain ⟨p, hp, hid⟩ := ho a ha
    exact ⟨p, (mem_of_insert hi).mpr (.inl hp), hid⟩
  · intro _ hp _ hp' hid
    rcases (mem_of_insert hi).mp hp' with hme | rfl
    · rw [eq_of_key hme hp hid]
    · exact absurd hid.symm (fresh_of_insert hi hp)

theorem deleteTrace_rowsKept (h : deleteTrace traceId db = .ok (r, db')) : RowsKept db db' := by
  rcases deleteTrace_ok h with rfl | ⟨_, -, -, -, hat, hop, -, -⟩
  · exact .refl _
  refine .of_from (fun hon a ha => ?_) (fun o ho => ?_)
  · rw [hat, mem_delete] at ha
    obtain ⟨o, ho, hi⟩ := hon a ha.1
    refine ⟨o, ?_, hi⟩
    rw [hop, mem_delete]
    refine ⟨ho, decide_eq_false fun ht => ?_⟩
    -- An operation of the deleted trace has lost its attempts.
    have hown := operationOf_some.mpr ⟨ho, ht⟩
    have hk := ha.2
    rw [hown] at hk
    simp [hi] at hk
  · rw [hop, mem_delete] at ho
    exact ⟨o, ho.1, rfl, rfl⟩

/-- A call keeps the rows and moves each trace along its life. -/
structure Kept (db db' : Database) : Prop where
  evolves : Evolves db db'
  rows : RowsKept db db'

theorem Kept.of_sameTables (h : SameTables db db') : Kept db db' :=
  ⟨(Moves.of_view h.view).evolves, h.rowsKept⟩

theorem Request.run_kept (r : Request) (ho : AttemptsOwned db) : Kept db (r.run db) := by
  have hr : Kept db db := .of_sameTables (.refl db)
  cases r with
  | beginCapture =>
    refine exec_inv hr fun _ _ h => ⟨(beginCapture_moves h).evolves, ?_⟩
    obtain ⟨_, _, -, rfl, -⟩ := beginCapture_ok h
    exact .of_same rfl rfl
  | markCaptureFailed =>
    refine exec_inv hr fun _ _ h => ⟨(markCaptureFailed_moves h).evolves, ?_⟩
    rcases markCaptureFailed_ok h with rfl | ⟨_, _, -, -, -, rfl⟩ <;> exact .of_same rfl rfl
  | prepareCaptureCompletion =>
    refine exec_inv hr fun _ _ h => ⟨(prepareCaptureCompletion_moves h).evolves, ?_⟩
    rcases prepareCaptureCompletion_ok h with ⟨rfl, -⟩ | ⟨_, _, -, -, -, -, rfl⟩ <;>
      exact .of_same rfl rfl
  | completeCaptureRecord =>
    refine exec_inv hr fun _ _ h => ⟨(completeCaptureRecord_moves h).evolves, ?_⟩
    rcases completeCaptureRecord_ok h with rfl | ⟨_, _, _, _, -, -, -, -, -, -, -, -, -, rfl, hs⟩
    · exact .refl _
    · exact .of_same hs.operations hs.operationAttempts
  | enqueueNotarization =>
    exact exec_inv hr fun _ _ h =>
      ⟨(enqueueNotarization_moves ho h).evolves, enqueueNotarization_rowsKept h⟩
  | claimNextNotarization =>
    refine exec_inv hr fun _ _ h => ⟨(claimNextNotarization_moves h).evolves, ?_⟩
    rcases claimNextNotarization_ok h with rfl | ⟨_, _, _, -, hid, -, -, hi, hm, -⟩
    · exact .refl _
    · refine hm.rowsKept (fun _ => ⟨rfl, rfl⟩) fun b hb => ?_
      rcases (mem_of_insert hi).mp hb with hb | rfl
      · exact .inr ⟨b, hb, rfl⟩
      · exact .inl hid
  | completeNotarization =>
    refine exec_inv hr fun _ _ h => ⟨(completeNotarization_moves h).evolves, ?_⟩
    rcases completeNotarization_ok h with rfl | ⟨_, _, -, -, hc, hm, -⟩
    · exact .refl _
    · exact hm.rowsKept (fun _ => ⟨rfl, rfl⟩) hc.from_before
  | failOperation =>
    refine exec_inv hr fun _ _ h => ⟨(failOperation_moves h).evolves, ?_⟩
    rcases failOperation_ok h with rfl | ⟨_, _, hc, hm, -⟩
    · exact .refl _
    · exact hm.rowsKept (fun _ => ⟨rfl, rfl⟩) hc.from_before
  | recoverOperations =>
    exact exec_inv hr fun _ _ h =>
      ⟨(recoverOperations_moves h).evolves, recoverOperations_rowsKept h⟩
  | retryOperation =>
    refine exec_inv hr fun _ _ h => ⟨(retryOperation_moves h).evolves, ?_⟩
    rcases retryOperation_ok h with rfl | ⟨_, _, -, hm, -⟩
    · exact .refl _
    · exact hm.rowsKept (fun _ => ⟨rfl, rfl⟩) same_from_before
  | updateOperationProgress =>
    refine exec_inv hr fun _ _ h => ⟨(updateOperationProgress_moves h).evolves, ?_⟩
    obtain ⟨_, _, hop, -, -, hat⟩ := updateOperationProgress_ok h
    refine .of_from (fun ho a ha => ?_) (operationsFrom_of_update hop fun _ => ⟨rfl, rfl⟩)
    rw [hat] at ha
    exact owned_of_update hop (fun _ => ⟨rfl, rfl⟩) (ho a ha)
  | putTraceShare => exact exec_inv hr fun _ _ h => .of_sameTables (putTraceShare_ok h)
  | deleteTraceShare =>
    exact exec_inv hr fun _ _ h => .of_sameTables (deleteTraceShare_ok h)
  | deleteTrace =>
    exact exec_inv hr fun _ _ h => ⟨deleteTrace_evolves h, deleteTrace_rowsKept h⟩

def runAll (calls : List Request) (db : Database) : Database :=
  calls.foldl (fun db r => r.run db) db

/-- Every trace is at some point of its life. -/
structure Lived (db : Database) : Prop where
  owned : AttemptsOwned db
  life : ∀ id, ∃ life : Life, db.view id = life.view

theorem lived_empty (fullTextSearch : Bool) : Lived { fullTextSearch } where
  owned := by
    intro _ ha
    cases ha
  life id := ⟨.absent, rfl⟩

theorem Lived.run (h : Lived db) (r : Request) : Lived (r.run db) := by
  have hk := r.run_kept h.owned
  refine ⟨hk.rows.owned h.owned, fun id => ?_⟩
  obtain ⟨life, hl⟩ := h.life id
  obtain ⟨life', -, hl'⟩ := hk.evolves id life hl
  exact ⟨life', hl'⟩

theorem Lived.runAll (h : Lived db) (calls : List Request) : Lived (runAll calls db) :=
  List.foldlRecOn calls _ h fun _ h r _ => h.run r

def AttemptState.Stopped (s : AttemptState) : Prop := s = .failed ∨ s = .interrupted

/-- The agreement of the tables about every trace. -/
structure Consistent (db : Database) : Prop where
  one_operation : ∀ o ∈ db.operations, ∀ p ∈ db.operations, o.traceId = p.traceId → o = p
  not_requested : ∀ t ∈ db.traces, t.notarizationStatus = .notRequested ↔
    ∀ o ∈ db.operations, o.traceId ≠ t.traceId
  status : ∀ t ∈ db.traces, ∀ o ∈ db.operations, o.traceId = t.traceId →
    t.notarizationStatus = o.state.status
  notarizable : ∀ o ∈ db.operations, ∃ t ∈ db.traces, t.traceId = o.traceId ∧ t.Notarizable
  numbered : ∀ o ∈ db.operations,
    (db.attemptsOf o.operationId).map (·.attempt) = List.range' 1 o.attempt
  queued : ∀ o ∈ db.operations, o.state = .queued →
    ∀ a ∈ db.attemptsOf o.operationId, a.state.Stopped
  current : ∀ o ∈ db.operations, o.state ≠ .queued → ∃ earlier last,
    db.attemptsOf o.operationId = earlier ++ [last] ∧ last.state.operationState = o.state ∧
      ∀ a ∈ earlier, a.state.Stopped
  succeeded : ∀ o ∈ db.operations, o.state = .succeeded ↔
    ∃ a ∈ db.artifacts, a.traceId = o.traceId ∧ a.kind = .tracePackage
  packaged : ∀ a ∈ db.artifacts, a.kind = .tracePackage → ∃ o ∈ db.operations, o.traceId = a.traceId
  captured : ∀ t ∈ db.traces, t.captureStatus = .captured ↔
    ∃ a ∈ db.artifacts, a.traceId = t.traceId ∧ a.kind = .captureCheckpoint
  recorded : ∀ t ∈ db.traces, ∀ a ∈ db.artifacts, a.traceId = t.traceId →
    a.kind = .captureCheckpoint →
      t.expectedArtifactSizeBytes = some a.sizeBytes ∧ t.expectedArtifactSha256 = some a.sha256

theorem Phase.of_succeeded {p : Phase} (h : p.state = .succeeded) : p = .succeeded := by
  cases p with
  | stopped ho => cases ho <;> cases h
  | _ => first | rfl | cases h

/-! From the life of a trace to its rows. -/

section Rows

variable {life : Life} {t : Trace} {o : Operation} {a : Artifact}

theorem Lived.trace (h : Lived db) (ht : t ∈ db.traces) :
    ∃ life : Life, db.view t.traceId = life.view ∧ life.view.trace = some t.view := by
  obtain ⟨life, hl⟩ := h.life t.traceId
  refine ⟨life, hl, ?_⟩
  rw [← hl]
  exact view_trace (find?_eq_some.mpr ⟨ht, rfl⟩)

theorem Lived.operation (h : Lived db) (ho : o ∈ db.operations) : ∃ c accepted n,
    db.view o.traceId = (Life.notarizing c accepted n).view ∧ n.phase.state = o.state ∧
      n.attempts.length = o.attempt ∧ db.attemptViews o.operationId = n.attempts.zipIdx 1 := by
  obtain ⟨_, hl⟩ := h.life o.traceId
  have hon : db.operationOf o.traceId = some o := operationOf_some.mpr ⟨ho, rfl⟩
  have hop : (db.view o.traceId).operation = some o.view := by simp [Database.view, hon]
  obtain ⟨c, accepted, n, rfl, hs, ha⟩ := Life.of_operation hl hop
  refine ⟨c, accepted, n, hl, hs, ha, ?_⟩
  have hv := congrArg View.attempts hl
  simpa [Database.view, hon, Life.view] using hv

theorem states_of_views (h : db.attemptViews k = l.zipIdx 1) :
    (db.attemptsOf k).map (·.state) = l := by
  have hf := congrArg (List.map Prod.fst) h
  rw [zipIdx_map_fst, Database.attemptViews, List.map_map] at hf
  exact hf

theorem numbers_of_views {l : List AttemptState} (h : db.attemptViews k = l.zipIdx 1) :
    (db.attemptsOf k).map (·.attempt) = List.range' 1 l.length := by
  have hs := congrArg (List.map Prod.snd) h
  rw [zipIdx_map_snd, Database.attemptViews, List.map_map] at hs
  exact hs

theorem Stop.stopped (ho : Stop) : ho.attemptState.Stopped := by
  cases ho
  · exact .inl rfl
  · exact .inr rfl

theorem stopped_of_states {l : List OperationAttempt} {stops : List Stop}
    (h : l.map (·.state) = stops.map Stop.attemptState) : ∀ a ∈ l, a.state.Stopped := by
  intro a ha
  have hm : a.state ∈ stops.map Stop.attemptState := h ▸ List.mem_map_of_mem ha
  obtain ⟨ho, -, he⟩ := List.mem_map.mp hm
  rw [← he]
  exact ho.stopped

theorem Lived.attempts_queued (h : Lived db) (ho : o ∈ db.operations) (hq : o.state = .queued) :
    ∀ a ∈ db.attemptsOf o.operationId, a.state.Stopped := by
  obtain ⟨_, _, ⟨_, _⟩, -, hst, -, hv⟩ := h.operation ho
  obtain rfl := Phase.of_queued (hst.trans hq)
  have hs := states_of_views hv
  simp only [Notarization.attempts, Phase.attempt, append_nil] at hs
  exact stopped_of_states hs

theorem Phase.attempt_of_not_queued {p : Phase} (h : p.state ≠ .queued) :
    ∃ s, p.attempt = [s] ∧ s.operationState = p.state := by
  cases p with
  | queued => exact absurd rfl h
  | running | stopped | succeeded => exact ⟨_, rfl, rfl⟩

theorem Lived.attempts_current (h : Lived db) (ho : o ∈ db.operations)
    (hq : o.state ≠ .queued) : ∃ earlier last,
      db.attemptsOf o.operationId = earlier ++ [last] ∧ last.state.operationState = o.state ∧
        ∀ a ∈ earlier, a.state.Stopped := by
  obtain ⟨_, _, ⟨_, phase⟩, -, hsta, -, hv⟩ := h.operation ho
  obtain ⟨_, hs, hsa⟩ := Phase.attempt_of_not_queued (p := phase) (hsta ▸ hq)
  have hst := states_of_views hv
  simp only [Notarization.attempts, hs] at hst
  obtain ⟨earlier, _, hsp, he, hr⟩ := map_eq_append_iff.mp hst
  obtain ⟨last, rfl, rfl⟩ := map_eq_singleton_iff.mp hr
  exact ⟨earlier, last, hsp, hsa.trans hsta, stopped_of_states he⟩

theorem exists_artifact_iff {id : String} :
    (∃ a ∈ db.artifacts, a.traceId = id ∧ a.kind = kind) ↔
      (db.artifacts.find? (id, kind)).isSome := by
  rw [isSome_iff_exists]
  simp only [find?_eq_some]
  exact exists_congr fun a => and_congr_right fun _ => Prod.mk_inj.symm

theorem find?_artifact (ha : a ∈ db.artifacts) :
    db.artifacts.find? (a.traceId, a.kind) = some a := find?_eq_some.mpr ⟨ha, rfl⟩

theorem Trace.of_staged (h : t.stagedCompletion.map CaptureCompletion.commit = some c) :
    t.expectedArtifactSizeBytes = some c.sizeBytes ∧ t.expectedArtifactSha256 = some c.sha256 ∧
      t.httpStatus = some c.httpStatus := by
  obtain ⟨_, hc, rfl⟩ := map_eq_some_iff.mp h
  simp only [Trace.stagedCompletion, bind_eq_bind, bind_eq_some_iff,
    Option.pure_def, Option.some.injEq] at hc
  obtain ⟨_, -, _, -, _, hs, _, -, _, hsi, _, hsh, rfl⟩ := hc
  exact ⟨hsi, hsh, hs⟩

theorem Lived.notarizable (h : Lived db) (ho : o ∈ db.operations) :
    ∃ t ∈ db.traces, t.traceId = o.traceId ∧ t.Notarizable := by
  obtain ⟨_, accepted, _, hl, -, -, -⟩ := h.operation ho
  obtain ⟨t, ht, hv⟩ := map_eq_some_iff.mp (congrArg View.trace hl)
  obtain ⟨hm, hi⟩ := find?_eq_some.mp ht
  refine ⟨t, hm, hi, congrArg TraceView.captureStatus hv, ?_⟩
  rw [(Trace.of_staged (congrArg TraceView.staged hv)).2.2]
  exact decide_eq_true accepted

theorem Lived.status (h : Lived db) (ht : t ∈ db.traces) (ho : o ∈ db.operations)
    (hi : o.traceId = t.traceId) : t.notarizationStatus = o.state.status := by
  obtain ⟨_, _, _, hl, hs, -, -⟩ := h.operation ho
  have hr : db.traces.find? o.traceId = some t := find?_eq_some.mpr ⟨ht, hi.symm⟩
  have hv := (view_trace hr).symm.trans (congrArg View.trace hl)
  rw [← hs]
  exact congrArg TraceView.notarizationStatus (Option.some.inj hv)

theorem OperationState.status_requested (s : OperationState) : s.status ≠ .notRequested := by
  cases s <;> exact nofun

theorem Lived.not_requested (h : Lived db) (ht : t ∈ db.traces) :
    t.notarizationStatus = .notRequested ↔ ∀ o ∈ db.operations, o.traceId ≠ t.traceId := by
  constructor
  · intro hn o ho hi
    exact o.state.status_requested ((h.status ht ho hi).symm.trans hn)
  · intro hn
    obtain ⟨life, hl, htr⟩ := h.trace ht
    have hop : (db.view t.traceId).operation = none := by
      simp [Database.view, operationOf_none.mpr hn]
    rw [hl] at hop
    cases life with
    | absent => cases htr
    | notarizing => cases hop
    | _ => exact (congrArg TraceView.notarizationStatus (Option.some.inj htr)).symm

theorem Lived.succeeded (h : Lived db) (ho : o ∈ db.operations) : o.state = .succeeded ↔
    ∃ a ∈ db.artifacts, a.traceId = o.traceId ∧ a.kind = .tracePackage := by
  obtain ⟨_, _, ⟨_, phase⟩, hl, hs, -, -⟩ := h.operation ho
  have hp : (db.artifacts.find? (o.traceId, .tracePackage)).isSome =
      decide (phase = .succeeded) := congrArg View.package hl
  rw [exists_artifact_iff, hp, decide_eq_true_eq, ← hs]
  cases phase with
  | stopped how => cases how <;> simp [Phase.state, Stop.attemptState, AttemptState.operationState]
  | _ => simp [Phase.state]

theorem Lived.packaged (h : Lived db) (ha : a ∈ db.artifacts) (hk : a.kind = .tracePackage) :
    ∃ o ∈ db.operations, o.traceId = a.traceId := by
  obtain ⟨life, hl⟩ := h.life a.traceId
  have hp : (db.view a.traceId).package = true := by
    have hr := find?_artifact ha
    rw [hk] at hr
    simp [Database.view, hr]
  rw [hl] at hp
  cases life with
  | notarizing =>
    obtain ⟨o, ho, -⟩ := map_eq_some_iff.mp (congrArg View.operation hl)
    exact ⟨o, operationOf_some.mp ho⟩
  | _ => cases hp

theorem Lived.captured (h : Lived db) (ht : t ∈ db.traces) : t.captureStatus = .captured ↔
    ∃ a ∈ db.artifacts, a.traceId = t.traceId ∧ a.kind = .captureCheckpoint := by
  obtain ⟨life, hl, htr⟩ := h.trace ht
  have hc : (db.artifacts.find? (t.traceId, .captureCheckpoint)).isSome =
      life.view.checkpoint.isSome := by
    rw [← hl]
    simp [Database.view]
  rw [exists_artifact_iff, hc]
  have hs : some t.captureStatus = life.view.trace.map TraceView.captureStatus := by
    rw [htr]
    rfl
  clear htr hl hc
  cases life <;> simp_all [Life.view]

theorem Lived.recorded (h : Lived db) (ht : t ∈ db.traces) (ha : a ∈ db.artifacts)
    (hi : a.traceId = t.traceId) (hk : a.kind = .captureCheckpoint) :
    t.expectedArtifactSizeBytes = some a.sizeBytes ∧ t.expectedArtifactSha256 = some a.sha256 := by
  obtain ⟨life, hl, htr⟩ := h.trace ht
  have hc : life.view.checkpoint = some (a.sizeBytes, a.sha256) := by
    have hr := find?_artifact ha
    rw [hi, hk] at hr
    rw [← hl]
    simp [Database.view, hr]
  have hco : ∃ c : Commit, t.view.staged = some c ∧ a.sizeBytes = c.sizeBytes ∧
      a.sha256 = c.sha256 := by
    cases life with
    | captured c | notarizing c =>
      simp only [Life.view, Option.some.injEq, Prod.mk.injEq] at hc htr
      exact ⟨c, by rw [← htr], hc.1.symm, hc.2.symm⟩
    | _ => cases hc
  obtain ⟨_, hs, hsi, hsh⟩ := hco
  obtain ⟨hs', hsh', -⟩ := Trace.of_staged hs
  rw [hsi, hsh]
  exact ⟨hs', hsh'⟩

theorem Lived.consistent (h : Lived db) : Consistent db where
  one_operation _ ho _ hp htr := eq_of_clash ho hp htr
  not_requested _ ht := h.not_requested ht
  status _ ht _ ho hi := h.status ht ho hi
  notarizable _ ho := h.notarizable ho
  numbered o ho := by
    obtain ⟨_, _, _, -, -, hat, hv⟩ := h.operation ho
    rw [numbers_of_views hv, hat]
  queued _ ho hq := h.attempts_queued ho hq
  current _ ho hq := h.attempts_current ho hq
  succeeded _ ho := h.succeeded ho
  packaged _ ha hk := h.packaged ha hk
  captured _ ht := h.captured ht
  recorded _ ht _ ha hi hk := h.recorded ht ha hi hk

end Rows

/-! What no call changes. -/

namespace Life

def commit : Life → Option Commit
  | absent => none
  | capturing staged | failed staged => staged
  | captured c | notarizing c _ _ => some c

variable {life life' : Life}

theorem view_commit (h : life.view.trace = some v) :
    v.staged = life.commit ∧ v.prepared = life.commit.isSome := by
  cases life with
  | absent => cases h
  | _ =>
    cases h
    exact ⟨rfl, rfl⟩

theorem Steps.invariant {P : Life → Prop} (h : life.Steps life')
    (hst : ∀ a b, P a → a.Step b → P b) (hp : P life) : P life' := by
  induction h with
  | refl => exact hp
  | tail _ hs ih => exact hst _ _ ih hs

theorem Steps.commit_eq (h : life.Steps life') (hc : life.commit = some c) :
    life'.commit = some c := by
  refine h.invariant (P := fun l => l.commit = some c) (fun a b ha hs => ?_) hc
  cases hs with
  | begin | stage => cases ha
  | complete _ _ hd => exact congrArg some (hd c ha).symm
  | _ => exact ha

def HasStatus (life : Life) (s : CaptureStatus) : Prop :=
  life.view.trace.map TraceView.captureStatus = some s

theorem Steps.final (h : life.Steps life') {s : CaptureStatus} (hs : s ≠ .capturing)
    (hst : life.HasStatus s) : life'.HasStatus s := by
  refine h.invariant (P := fun l => l.HasStatus s) (fun a b ha hab => ?_) hst
  cases hab with
  | begin => cases ha
  | stage c | complete staged c hc | fail staged => exact absurd (Option.some.inj ha).symm hs
  | _ => exact ha

theorem Steps.succeeded (h : life.Steps life')
    (hl : life = .notarizing c accepted ⟨earlier, .succeeded⟩) : life' = life := by
  refine h.invariant (P := fun l => l = life) (fun a b ha hs => ?_) rfl
  subst ha hl
  cases hs

end Life

/-- What stays as it is as long as its row is there. -/
structure Final (db db' : Database) : Prop where
  status : ∀ t ∈ db.traces, ∀ t' ∈ db'.traces, t'.traceId = t.traceId →
    t.captureStatus ≠ .capturing → t'.captureStatus = t.captureStatus
  staged : ∀ t ∈ db.traces, ∀ t' ∈ db'.traces, t'.traceId = t.traceId →
    t.completedAtUnixMs.isSome → t'.expectedArtifactSizeBytes = t.expectedArtifactSizeBytes ∧
      t'.expectedArtifactSha256 = t.expectedArtifactSha256
  succeeded : ∀ o ∈ db.operations, ∀ o' ∈ db'.operations, o'.operationId = o.operationId →
    o.state = .succeeded → o'.state = .succeeded

section Final

variable {t t' : Trace} {o o' : Operation}

/-- The life of a trace whose row is there before and after a call. -/
theorem Evolves.steps (h : Evolves db db') {life : Life} (hl : db.view t'.traceId = life.view)
    (ht' : t' ∈ db'.traces) : ∃ life' : Life, life.Steps life' ∧ db'.view t'.traceId = life'.view ∧
      life'.view.trace = some t'.view := by
  obtain ⟨life', hs, hl'⟩ := h _ _ hl
  have ht : life'.view.trace = some t'.view := by
    rw [← hl']
    exact view_trace (find?_eq_some.mpr ⟨ht', rfl⟩)
  rcases hs with hs | ⟨-, rfl⟩
  · exact ⟨life', hs, hl', ht⟩
  · cases ht

theorem Lived.final (h : Lived db) (hk : Kept db db') : Final db db' where
  status := by
    intro t ht _ ht' hi hse
    obtain ⟨life, hl, htr⟩ := h.trace ht
    rw [← hi] at hl
    obtain ⟨_, hs, -, htr'⟩ := hk.evolves.steps hl ht'
    have hsta : life.HasStatus t.captureStatus := by
      rw [Life.HasStatus, htr]
      rfl
    have hst' := hs.final hse hsta
    rw [Life.HasStatus, htr'] at hst'
    exact Option.some.inj hst'
  staged := by
    intro _ ht _ ht' hi hp
    obtain ⟨_, hl, htr⟩ := h.trace ht
    rw [← hi] at hl
    obtain ⟨_, hs, -, htr'⟩ := hk.evolves.steps hl ht'
    obtain ⟨hst, hso⟩ := Life.view_commit htr
    obtain ⟨_, hc⟩ := isSome_iff_exists.mp (hso.symm.trans hp)
    have hs' := (Life.view_commit htr').1
    rw [hs.commit_eq hc] at hs'
    obtain ⟨hsi, hsh, -⟩ := Trace.of_staged (hst.trans hc)
    obtain ⟨hsi', hsh', -⟩ := Trace.of_staged hs'
    rw [hsi, hsh]
    exact ⟨hsi', hsh'⟩
  succeeded := by
    intro o ho o' ho' hi hsu
    have htr := hk.rows.identity o ho o' ho' hi
    obtain ⟨_, _, ⟨_, _⟩, hl, hstt, -, -⟩ := h.operation ho
    obtain rfl := Phase.of_succeeded (hstt.trans hsu)
    obtain ⟨life', hs, hl'⟩ := hk.evolves _ _ hl
    have hop : life'.view.operation = some o'.view := by
      have hon := operationOf_some.mpr ⟨ho', htr⟩
      rw [← hl']
      simp [Database.view, hon]
    rcases hs with hs | ⟨-, rfl⟩
    · rw [hs.succeeded rfl] at hop
      exact (congrArg Prod.fst (Option.some.inj hop)).symm
    · cases hop

end Final

/-- A successful call that stages a completion records its size and digest on the trace. -/
def StagesCommit (db : Database) : Prop :=
  ∀ completion db', prepareCaptureCompletion completion db = .ok ((), db') →
    ∀ t ∈ db'.traces, t.traceId = completion.traceId →
      t.expectedArtifactSizeBytes = some completion.expectedArtifactSizeBytes ∧
        t.expectedArtifactSha256 = some completion.expectedArtifactSha256

theorem stagesCommit (db : Database) : StagesCommit db := by
  intro _ _ h _ ht hi
  rcases prepareCaptureCompletion_ok h with ⟨rfl, current, hc, hm⟩ |
    ⟨current, table, hc, ha, hn, hu, rfl⟩
  · obtain ⟨hme, hk⟩ := find?_eq_some.mp hc
    obtain rfl := eq_of_key ht hme (hi.trans hk.symm)
    obtain ⟨-, -, -, -, -, -, -, hsi, hsh⟩ := hm
    exact ⟨hsi, hsh⟩
  · obtain ⟨hme, hk⟩ := find?_eq_some.mp hc
    have hs := mem_update_of hu hme (by simp [ha, hn]; exact hk)
    obtain rfl := eq_of_key ht hs (hi.trans hk.symm)
    exact ⟨rfl, rfl⟩

/-- After every sequence of calls the tables agree about every trace, and the next call leaves
what is final as it is. -/
theorem trace_lifecycle (fullTextSearch : Bool) (calls : List Request) :
    Consistent (runAll calls { fullTextSearch }) ∧
      StagesCommit (runAll calls { fullTextSearch }) ∧
      ∀ next : Request, Final (runAll calls { fullTextSearch })
        (next.run (runAll calls { fullTextSearch })) := by
  have hlived := (lived_empty fullTextSearch).runAll calls
  exact ⟨hlived.consistent, stagesCommit _, fun next => hlived.final (next.run_kept hlived.owned)⟩

def sampleCapture : NewTrace where
  traceId := "trc-1"
  createdAtUnixMs := 1000
  provider := "openai"
  operation := "chat"
  requestedModel := none
  streaming := false
  requestBytes := 10
  promptPreview := ""
  promptPreviewTruncated := false
  configFingerprint := ""

def sampleDigest : String := "9f86d081884c7d659a2feaa0c55ad015a3bf4f1b2b0b822cd15d6c15b0f00a08"

def sampleCompletion : CaptureCompletion where
  traceId := "trc-1"
  completedAtUnixMs := 2000
  durationMs := 1000
  httpStatus := 200
  responseBytes := 20
  responseModel := none
  outputPreview := ""
  outputPreviewTruncated := false
  expectedArtifactSizeBytes := 3
  expectedArtifactSha256 := sampleDigest

def sampleArtifact : ArtifactRecord :=
  ⟨"trc-1", .captureCheckpoint, "checkpoint", 3, sampleDigest⟩

/-- A capture that is completed without being prepared. -/
def unpreparedCalls : List Request :=
  [.beginCapture sampleCapture, .completeCaptureRecord sampleCompletion sampleArtifact]

/-- The checkpoint row of a captured trace need not have been staged: no call prepared it. -/
theorem checkpoint_without_prepare :
    (∃ t ∈ (runAll unpreparedCalls {}).traces.rows, t.captureStatus = .captured ∧
      ∃ a ∈ (runAll unpreparedCalls {}).artifacts.rows, a.traceId = t.traceId ∧
        a.kind = .captureCheckpoint) ∧
      ∀ completion, Request.prepareCaptureCompletion completion ∉ unpreparedCalls := by
  refine ⟨by decide, ?_⟩
  simp [unpreparedCalls]

end Notary.Daemon
