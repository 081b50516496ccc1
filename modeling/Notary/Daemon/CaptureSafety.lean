import Notary.Core.ArchiveRoundTrip
import Notary.Daemon.CaptureProtocol

/-! What every step of the capture protocol does to a trace. -/

namespace Notary.Daemon
open Option Function
open Notary.Core (Crates sha256Hex maxArchiveWireBytes)
open Utf8 (Bytes)
open Relational Tx

variable {db db' : Database} {completion : CaptureCompletion}

def Staged (db : Database) (traceId : String) (completion : CaptureCompletion) : Prop :=
  ∃ t, db.traces.find? traceId = some t ∧ t.stagedCompletion = some completion

/-- What a call did to the row under one key: nothing, or it gave an active row this status and
kept the completion that was staged. -/
inductive RowMove (status : CaptureStatus) (before after : Option Trace) : Prop
  | same (h : after = before)
  | moved (u : Trace) (hafter : after = some u) (hstatus : u.captureStatus = status)
      (hkept : ∀ completion, before.bind Trace.stagedCompletion = some completion →
        u.stagedCompletion = some completion)

/-- The call moves at most the row of one trace. -/
def MovesOnly (traceId : String) (status : CaptureStatus) (db db' : Database) : Prop :=
  ∀ k, (k = traceId → RowMove status (db.traces.find? k) (db'.traces.find? k)) ∧
    (k ≠ traceId → db'.traces.find? k = db.traces.find? k)

namespace MovesOnly

variable {traceId k : String} {status s : CaptureStatus}

theorem refl (traceId : String) (status : CaptureStatus) (db : Database) :
    MovesOnly traceId status db db :=
  fun _ => ⟨fun _ => .same rfl, fun _ => rfl⟩

theorem of_find? (hf : ∀ k, db'.traces.find? k =
      if k = traceId then some u else db.traces.find? k) (hs : u.captureStatus = status)
    (hke : ∀ completion, (db.traces.find? traceId).bind Trace.stagedCompletion =
      some completion → u.stagedCompletion = some completion) :
    MovesOnly traceId status db db' := by
  intro k
  refine ⟨?_, fun hk => (hf k).trans (if_neg hk)⟩
  rintro rfl
  exact .moved u ((hf k).trans (if_pos rfl)) hs hke

theorem row (h : MovesOnly traceId status db db') (k : String) :
    RowMove status (db.traces.find? k) (db'.traces.find? k) := by
  by_cases hk : k = traceId
  · exact (h k).1 hk
  · exact .same ((h k).2 hk)

theorem staged (h : MovesOnly traceId status db db') (hs : Staged db k completion) :
    Staged db' k completion := by
  obtain ⟨t, ht, hc⟩ := hs
  cases h.row k with
  | same hsa => exact ⟨t, hsa.trans ht, hc⟩
  | moved u ha _ hk => exact ⟨u, ha, hk completion (by rw [ht]; exact hc)⟩

/-- A status that is new is the one the call gives, and the trace is the one it moves. -/
theorem of_new (h : MovesOnly traceId status db db') (hb : ¬HasStatus db k s)
    (ha : HasStatus db' k s) : k = traceId ∧ s = status := by
  obtain ⟨t, ht, rfl⟩ := ha
  have hm : db'.traces.find? k ≠ db.traces.find? k := fun hs => hb ⟨t, hs.symm.trans ht, rfl⟩
  refine ⟨by_contra fun hk => hm ((h k).2 hk), ?_⟩
  cases h.row k with
  | same hs => exact absurd hs hm
  | moved _ hu hst => rw [← hst, Option.some.inj (ht.symm.trans hu)]

end MovesOnly

/-! What the calls of the protocol do to the rows. -/

variable {t : Trace} {u : Unit} {artifact : ArtifactRecord} {i : IncompleteCapture} {data : Bytes}
  {startup : Bool} {act : RecoveryAct} {k : String}

theorem stagedCompletion_none (h : t.completedAtUnixMs = none) : t.stagedCompletion = none := by
  simp [Trace.stagedCompletion, h]

theorem stagedCompletion_stage (completion : CaptureCompletion)
    (hi : t.traceId = completion.traceId) :
    (completion.stage t).stagedCompletion = some completion := by
  simp [Trace.stagedCompletion, CaptureCompletion.stage, hi]

theorem exec_beginCapture (capture : NewTrace) (db : Database) :
    MovesOnly capture.traceId .capturing db ((beginCapture capture).exec db) := by
  refine exec_inv (.refl _ _ db) fun _ db' h => ?_
  obtain ⟨row, _, hi, rfl, hid, hs, -, -, -⟩ := beginCapture_ok h
  have hn : db.traces.find? capture.traceId = none := by
    rw [Table.find?_eq_none]
    intro _ hr hk
    exact Table.fresh_of_insert hi hr (hk.trans hid.symm)
  refine .of_find? (u := row) (fun k => ?_) hs (by simp [hn])
  rw [← hid]
  exact (Table.find?_of_insert hi k).trans (if_congr eq_comm rfl rfl)

theorem validateTraceId_ok (h : validateTraceId traceId db = .ok (u, db')) :
    db' = db :=
  (readOnly_ensure _ _ h).symm

theorem validateCompletion_ok (h : validateCompletion completion db = .ok (u, db')) : db' = db := by
  simp only [validateCompletion, validateTraceId, bind_ok, ensure_ok] at h
  obtain ⟨_, _, ⟨_, rfl⟩, _, _, ⟨_, rfl⟩, _, _, ⟨_, rfl⟩, _, _, ⟨_, rfl⟩, _, _,
    ⟨_, rfl⟩, _, _, rfl⟩ := h
  rfl

theorem validateArtifactSize_ok (h : validateArtifactSize artifact db = .ok (u, db')) :
    db' = db := by
  simp only [validateArtifactSize, bind_ok, ensure_ok] at h
  obtain ⟨_, _, ⟨_, rfl⟩, _, _, rfl⟩ := h
  rfl

theorem CaptureCompletion.Matches.stagedCompletion (h : completion.Matches t)
    (hi : t.traceId = completion.traceId) : t.stagedCompletion = some completion := by
  obtain ⟨h₁, h₂, h₃, h₄, h₅, h₆, h₇, h₈, h₉⟩ := h
  simp [Trace.stagedCompletion, h₁, h₂, h₃, h₄, h₅, h₆, h₇, h₈, h₉, hi]

theorem prepareCapture_ok (h : prepareCapture completion db = .ok (u, db')) :
    MovesOnly completion.traceId .capturing db db' ∧ Staged db' completion.traceId completion := by
  obtain ⟨_, _, hv, hp⟩ := bind_ok.mp h
  obtain rfl := validateCompletion_ok hv
  rcases prepareCaptureCompletion_ok hp with ⟨rfl, current, hc, hm⟩ |
    ⟨current, table, hc, ha, hn, hu, rfl⟩
  · exact ⟨.refl _ _ _, current, hc, hm.stagedCompletion (Table.find?_eq_some.mp hc).2⟩
  · have hi : current.traceId = completion.traceId := (Table.find?_eq_some.mp hc).2
    simp only [Bool.and_assoc] at hu
    have hf := find?_trace_update hu (fun _ => rfl) hc (by simp [ha, hn])
    have hs := stagedCompletion_stage completion hi
    refine ⟨.of_find? hf ha fun other ho => ?_, _, (hf _).trans (if_pos rfl), hs⟩
    rw [hc, bind_some, stagedCompletion_none hn] at ho
    cases ho

theorem exec_failCapture (traceId code : String) (db : Database) :
    MovesOnly traceId .failed db ((failCapture traceId code).exec db) := by
  refine exec_inv (.refl _ _ db) fun _ db' h => ?_
  obtain ⟨_, _, hv, hm⟩ := bind_ok.mp h
  obtain rfl := validateTraceId_ok hv
  rcases markCaptureFailed_ok hm with rfl | ⟨_, _, hc, ha, hu, rfl⟩
  · exact .refl _ _ _
  · have hf := find?_trace_update hu (fun _ => rfl) hc (decide_eq_true ha)
    refine .of_find? hf rfl fun other ho => ?_
    rw [hc] at ho
    exact ho

theorem exec_completeCapture (completion : CaptureCompletion) (artifact : ArtifactRecord)
    (db : Database) :
    MovesOnly completion.traceId .captured db ((completeCapture completion artifact).exec db) := by
  refine exec_inv (.refl _ _ db) fun _ db' h => ?_
  obtain ⟨_, _, hco, hre⟩ := bind_ok.mp h
  obtain rfl := validateCompletion_ok hco
  obtain ⟨_, _, ha, hr⟩ := bind_ok.mp hre
  obtain rfl := validateArtifactSize_ok ha
  rcases completeCaptureRecord_ok hr with rfl | ⟨current, _, _, _, hc, hac,
    hm, -, -, -, -, hu, -, rfl, hs⟩
  · exact .refl _ _ _
  · have hi : current.traceId = completion.traceId := (Table.find?_eq_some.mp hc).2
    have hf := find?_trace_update hu (fun _ => rfl) hc (decide_eq_true hac)
    refine .of_find? (fun k => by rw [hs.traces]; exact hf k) rfl fun other ho => ?_
    rw [hc, bind_some] at ho
    have hp : current.completedAtUnixMs.isSome := by
      obtain ⟨⟨hcl, -⟩, -⟩ := Trace.matches_staged ho
      rw [hcl]
      rfl
    rw [(hm hp).stagedCompletion hi] at ho
    rw [← ho]
    exact stagedCompletion_stage completion hi

namespace Service

variable {c : Crates} {s t : Service} {a : Act} {traceId : String} {n : ℕ}

/-! The parts of the state that a step sets. -/

theorem begin_db (capture : NewTrace) :
    (s.begin capture).db = (beginCapture capture).exec s.db := by
  unfold begin exec
  split
  · rename_i h
    rw [h]
    rfl
  · rename_i h
    rw [h]

theorem stage_db (data : Bytes) :
    (s.stage completion data).db = (prepareCapture completion).exec s.db := by
  unfold stage exec
  split
  · rename_i h
    rw [h]
    rfl
  · rename_i h
    rw [h]
    rfl

theorem perform_db (pass : Pass) (act : RecoveryAct) :
    (s.perform n pass act).db = act.perform.exec s.db := by
  unfold perform exec
  split
  · rename_i h
    rw [h]
    rfl
  · rename_i h
    rw [h]
    rfl

def Ready (c : Crates) (s : Service) (completion : CaptureCompletion) : Prop :=
  Staged s.db completion.traceId completion ∧
    ∃ data, s.store.slot completion.traceId = .stored data ∧ completion.Stores c data

/-- What is staged and what is stored stay so. -/
structure Grows (s t : Service) : Prop where
  staged : ∀ k completion, Staged s.db k completion → Staged t.db k completion
  stored : ∀ k data, s.store.slot k = .stored data → t.store.slot k = .stored data

theorem Grows.of_same (hd : t.db = s.db) (hs : t.store = s.store) : Grows s t :=
  ⟨fun _ _ h => by rwa [hd], fun _ _ h => by rwa [hs]⟩

theorem Ready.grows (h : Ready c s completion) (hg : Grows s t) : Ready c t completion := by
  obtain ⟨hs, data, hd, hst⟩ := h
  exact ⟨hg.staged _ _ hs, data, hg.stored _ _ hd, hst⟩

/-- The task acts on what it has staged and stored. -/
def LiveOk (c : Crates) (s : Service) (traceId : String) : LivePhase → Prop
  | .begun => True
  | .staged completion data => completion.traceId = traceId ∧
      Staged s.db traceId completion ∧ Expects c completion data
  | .stored completion _ => completion.traceId = traceId ∧ Ready c s completion
  | .failing _ => True

/-- A listed completion is staged. -/
def Listed (db : Database) (i : IncompleteCapture) : Prop :=
  ∀ completion ∈ i.completion, completion.traceId = i.traceId ∧ Staged db i.traceId completion

/-- A pass completes what is ready, and only a startup pass interrupts, and only what it listed
without a completion. -/
def ActOk (c : Crates) (s : Service) (startup : Bool) (i : IncompleteCapture) :
    RecoveryAct → Prop
  | .complete completion _ => i.completion = some completion ∧ Ready c s completion
  | .interrupt traceId => traceId = i.traceId ∧ i.completion = none ∧ startup = true
  | .wait => True
  | .leave => True

structure PassOk (c : Crates) (s : Service) (pass : Pass) : Prop where
  remaining : ∀ i ∈ pass.remaining, Listed s.db i
  current : ∀ i act, pass.current = some (i, act) → ActOk c s pass.startup i act

structure Inv (c : Crates) (s : Service) : Prop where
  live : ∀ k phase, s.live k = some phase → LiveOk c s k phase
  passes : ∀ n pass, s.passes n = some pass → PassOk c s pass

theorem LiveOk.grows (h : LiveOk c s traceId phase) (hg : Grows s t) :
    LiveOk c t traceId phase := by
  cases phase with
  | begun | failing => trivial
  | staged => exact ⟨h.1, hg.staged _ _ h.2.1, h.2.2⟩
  | stored => exact ⟨h.1, h.2.grows hg⟩

theorem Listed.grows (h : Listed s.db i) (hg : Grows s t) : Listed t.db i :=
  fun completion hi => ⟨(h completion hi).1, hg.staged _ _ (h completion hi).2⟩

theorem PassOk.grows {pass : Pass} (h : PassOk c s pass) (hg : Grows s t) : PassOk c t pass where
  remaining i hi := (h.remaining i hi).grows hg
  current i act ha := by
    have ho := h.current i act ha
    cases act with
    | complete => exact ⟨ho.1, ho.2.grows hg⟩
    | interrupt => exact ho
    | wait | leave => trivial

theorem Inv.setLive {phase : Option LivePhase} (h : Inv c s) (hg : Grows s t)
    (hpa : t.passes = s.passes) (hl : t.live = Function.update s.live traceId phase)
    (hph : ∀ p ∈ phase, LiveOk c t traceId p) : Inv c t where
  live k p hp := by
    rw [hl] at hp
    by_cases hk : k = traceId
    · subst hk
      rw [update_self] at hp
      exact hph p hp
    · rw [update_of_ne hk] at hp
      exact (h.live k p hp).grows hg
  passes m pass hps := by
    rw [hpa] at hps
    exact (h.passes m pass hps).grows hg

theorem Inv.setPass {pass : Option Pass} (h : Inv c s) (hg : Grows s t)
    (hl : t.live = s.live) (hpa : t.passes = Function.update s.passes n pass)
    (hps : ∀ p ∈ pass, PassOk c t p) : Inv c t where
  live k p hp := by
    rw [hl] at hp
    exact (h.live k p hp).grows hg
  passes m p hp := by
    rw [hpa] at hp
    by_cases hm : m = n
    · subst hm
      rw [update_self] at hp
      exact hps p hp
    · rw [update_of_ne hm] at hp
      exact (h.passes m p hp).grows hg

theorem Inv.kept (h : Inv c s) (hg : Grows s t) (hl : t.live = s.live)
    (hpa : t.passes = s.passes) : Inv c t where
  live k p hp := (h.live k p (hl ▸ hp)).grows hg
  passes m p hp := (h.passes m p (hpa ▸ hp)).grows hg

/-- At most one row moves, it becomes captured only when its bytes are ready, and stored bytes
stay. -/
structure Effect (c : Crates) (s t : Service) : Prop where
  rows : ∃ k status, MovesOnly k status s.db t.db ∧
    (status = .captured → ∃ completion, completion.traceId = k ∧ Ready c s completion)
  stored : ∀ k data, s.store.slot k = .stored data → t.store.slot k = .stored data

theorem Effect.grows (h : Effect c s t) : Grows s t where
  staged k completion hs := by
    obtain ⟨_, _, hm, -⟩ := h.rows
    exact hm.staged hs
  stored := h.stored

theorem Effect.quiet (hd : t.db = s.db)
    (hs : ∀ k data, s.store.slot k = .stored data → t.store.slot k = .stored data) : Effect c s t :=
  ⟨⟨"", .capturing, hd ▸ .refl _ _ _, fun h => (nomatch h)⟩, hs⟩

theorem Effect.call (hm : MovesOnly traceId status s.db t.db) (hs : status ≠ .captured)
    (hst : t.store = s.store) : Effect c s t :=
  ⟨⟨traceId, status, hm, fun h => absurd h hs⟩, fun _ _ h => hst ▸ h⟩

theorem Effect.complete (hr : Ready c s completion)
    (hm : MovesOnly completion.traceId .captured s.db t.db) (hs : t.store = s.store) :
    Effect c s t :=
  ⟨⟨_, _, hm, fun _ => ⟨completion, rfl, hr⟩⟩, fun _ _ h => hs ▸ h⟩

theorem begin_inv (h : Inv c s) (capture : NewTrace) :
    Effect c s (s.begin capture) ∧ Inv c (s.begin capture) := by
  have hs : (s.begin capture).store = s.store := by
    unfold begin
    split <;> rfl
  have he : Effect c s (s.begin capture) :=
    .call (begin_db (s := s) capture ▸ exec_beginCapture capture s.db) (by decide) hs
  refine ⟨he, ?_⟩
  have hg := he.grows
  unfold begin at hg ⊢
  split at hg
  · exact h.setLive hg rfl rfl fun p hp => by cases hp; trivial
  · exact h.kept hg rfl rfl

theorem stage_inv (h : Inv c s) (hex : Expects c completion data) :
    Effect c s (s.stage completion data) ∧ Inv c (s.stage completion data) := by
  have hs : (s.stage completion data).store = s.store := by
    unfold stage
    split <;> rfl
  have hm : MovesOnly completion.traceId .capturing s.db (s.stage completion data).db := by
    rw [stage_db]
    exact exec_inv (.refl _ _ s.db) fun _ _ ho => (prepareCapture_ok ho).1
  have he : Effect c s (s.stage completion data) := .call hm (by decide) hs
  refine ⟨he, ?_⟩
  have hg := he.grows
  cases hc : prepareCapture completion s.db with
  | ok =>
    rw [stage, attempt_of_ok hc] at hg ⊢
    refine h.setLive hg rfl rfl fun p hp => ?_
    cases hp
    exact ⟨rfl, (prepareCapture_ok hc).2, hex⟩
  | error =>
    rw [stage, attempt_of_error hc] at hg ⊢
    exact h.setLive hg rfl rfl fun p hp => by cases hp; trivial

theorem put_ok {store store' : ArtifactStore} {maxBytes : ℕ}
    (h : store.put c traceId data maxBytes = .ok (artifact, store')) :
    data.length ≤ maxBytes ∧ store'.slot traceId = .stored data ∧
      ∀ k d, store.slot k = .stored d → store'.slot k = .stored d := by
  unfold ArtifactStore.put at h
  split_ifs at h with hsi
  refine ⟨not_lt.mp hsi, ?_⟩
  cases hs : store.slot traceId with
  | missing =>
    simp only [hs, Except.ok.injEq, Prod.mk.injEq] at h
    obtain ⟨-, rfl⟩ := h
    refine ⟨update_self .., fun k d hk => ?_⟩
    have hn : k ≠ traceId := by
      rintro rfl
      rw [hs] at hk
      cases hk
    exact (update_of_ne hn ..).trans hk
  | stored =>
    simp only [hs] at h
    split_ifs at h with hsa
    cases h
    exact ⟨hsa ▸ hs, fun _ _ hk => hk⟩
  | unreadable error =>
    cases error <;>
      · simp only [hs] at h
        cases h

/-- The bytes that the store accepts are the staged ones. -/
theorem Expects.stores (h : Expects c completion data) (hs : data.length ≤ maxArchiveWireBytes) :
    completion.Stores c data := by
  have hl := maxArchiveWireBytes_lt
  have hw : UInt64.size = 2 ^ 64 := rfl
  refine ⟨?_, h.2.symm⟩
  rw [h.1, UInt64.toNat_ofNat_of_lt' (by omega)]

theorem afterPutError_ok (error : ArtifactStoreError) :
    ∀ p ∈ afterPutError error, LiveOk c t traceId p := by
  intro _ hp
  unfold afterPutError at hp
  split_ifs at hp
  · cases hp
  · cases hp
    trivial

theorem put_inv (h : Inv c s) (hl : s.live traceId = some (.staged completion data)) :
    Effect c s (s.put c completion data) ∧ Inv c (s.put c completion data) := by
  obtain ⟨rfl, hs, hex⟩ := h.live _ _ hl
  cases hpu : s.store.put c completion.traceId data maxArchiveWireBytes with
  | ok r =>
    obtain ⟨hsi, hsl, hst⟩ := put_ok hpu
    simp only [put, hpu]
    have he : Effect c s ({ s with store := r.2 }.setLive completion.traceId
        (some (.stored completion r.1))) := .quiet rfl hst
    refine ⟨he, h.setLive he.grows rfl rfl fun p hp => ?_⟩
    cases hp
    exact ⟨rfl, hs, data, hsl, hex.stores hsi⟩
  | error error =>
    simp only [put, hpu]
    have he : Effect c s (s.setLive completion.traceId (afterPutError error)) :=
      .quiet rfl fun _ _ hk => hk
    exact ⟨he, h.setLive he.grows rfl rfl (afterPutError_ok error)⟩

theorem putFails_inv (h : Inv c s) (data : Bytes) (error : ArtifactStoreError) :
    Effect c s (s.putFails traceId data error) ∧ Inv c (s.putFails traceId data error) := by
  have he : Effect c s (s.putFails traceId data error) := .quiet rfl fun _ _ hk => hk
  exact ⟨he, h.setLive he.grows rfl rfl (afterPutError_ok error)⟩

theorem complete_inv (h : Inv c s) (hl : s.live traceId = some (.stored completion artifact)) :
    Effect c s (s.complete completion artifact) ∧ Inv c (s.complete completion artifact) := by
  obtain ⟨-, hr⟩ := h.live _ _ hl
  have he : Effect c s (s.complete completion artifact) :=
    .complete hr (exec_completeCapture completion artifact s.db) rfl
  exact ⟨he, h.setLive he.grows rfl rfl fun p hp => by cases hp⟩

theorem fail_inv (h : Inv c s) (code : String) :
    Effect c s (s.fail traceId code) ∧ Inv c (s.fail traceId code) := by
  have he : Effect c s (s.fail traceId code) :=
    .call (exec_failCapture traceId code s.db) (by decide) rfl
  exact ⟨he, h.setLive he.grows rfl rfl fun p hp => by cases hp⟩

theorem appear_inv (h : Inv c s) (hm : s.store.slot traceId = .missing) (data : Bytes) :
    Effect c s (s.appear traceId data) ∧ Inv c (s.appear traceId data) := by
  have he : Effect c s (s.appear traceId data) := by
    refine .quiet rfl fun k d hk => ?_
    have hn : k ≠ traceId := by
      rintro rfl
      rw [hm] at hk
      cases hk
    exact (update_of_ne hn ..).trans hk
  exact ⟨he, h.kept he.grows rfl rfl⟩

theorem listed_of_incomplete (hi : i ∈ incompleteCaptures db) : Listed db i := by
  simp only [incompleteCaptures, List.mem_map, List.mem_filter] at hi
  obtain ⟨t, ⟨ht, -⟩, rfl⟩ := hi
  intro _ hc
  exact ⟨(Trace.matches_staged hc).2, t, Table.find?_eq_some.mpr ⟨ht, rfl⟩, hc⟩

theorem startPass_inv {listing : List IncompleteCapture} (h : Inv c s)
    (hl : listing.Perm (incompleteCaptures s.db)) :
    Effect c s (s.setPass n (some { startup, remaining := listing })) ∧
      Inv c (s.setPass n (some { startup, remaining := listing })) := by
  have he : Effect c s (s.setPass n (some { startup, remaining := listing })) :=
    .quiet rfl fun _ _ hk => hk
  refine ⟨he, h.setPass he.grows rfl rfl fun p hp => ?_⟩
  cases hp
  exact ⟨fun i hi => listed_of_incomplete (hl.mem_iff.mp hi), fun _ _ ha => (nomatch ha)⟩

/-- What the pass decides rests on what is stored at that moment. -/
theorem actOk_of_examine (hl : Listed s.db i)
    (h : examineCapture c s.store startup i = .ok act) : ActOk c s startup i act := by
  unfold examineCapture at h
  split at h
  · rename_i completion hc
    obtain ⟨ht, hsg⟩ := hl completion hc
    split_ifs at h
    cases hs : s.store.slot i.traceId with
    | missing =>
      rw [find_missing hs] at h
      cases h
      trivial
    | unreadable =>
      rw [find_unreadable hs] at h
      split_ifs at h <;> cases h
      trivial
    | stored data =>
      rw [find_stored hs] at h
      split_ifs at h with hsi
      · cases h
      · rw [attachFound, if_congr (record_matches_iff i.traceId (not_lt.mp hsi)) rfl rfl] at h
        split_ifs at h with hsr
        cases h
        exact ⟨hc, ht ▸ hsg, data, ht ▸ hs, hsr⟩
  · rename_i hn
    cases h
    split_ifs with hst
    · exact ⟨rfl, hn, hst⟩
    · trivial

theorem examine_inv {rest : List IncompleteCapture} (h : Inv c s)
    (hpa : s.passes n = some ⟨startup, i :: rest, none⟩) :
    Effect c s (s.examine c n ⟨startup, i :: rest, none⟩ i rest) ∧
      Inv c (s.examine c n ⟨startup, i :: rest, none⟩ i rest) := by
  have hr := (h.passes _ _ hpa).remaining
  cases hex : examineCapture c s.store startup i with
  | ok act =>
    simp only [examine, hex]
    have he : Effect c s (s.setPass n (some ⟨startup, rest, some (i, act)⟩)) :=
      .quiet rfl fun _ _ hk => hk
    refine ⟨he, h.setPass he.grows rfl rfl fun p hp => ?_⟩
    cases hp
    refine ⟨fun j hj => hr j (List.mem_cons_of_mem i hj), fun j act' ha => ?_⟩
    cases ha
    exact actOk_of_examine (hr i List.mem_cons_self) hex
  | error =>
    simp only [examine, hex]
    have he : Effect c s (s.setPass n none) := .quiet rfl fun _ _ hk => hk
    exact ⟨he, h.setPass he.grows rfl rfl fun p hp => by cases hp⟩

/-- The row that a pass moves, and where it moves it. -/
theorem perform_effect (ho : ActOk c s startup i act) (pass : Pass) :
    Effect c s (s.perform n pass act) := by
  have hs : (s.perform n pass act).store = s.store := by
    unfold perform
    split <;> rfl
  have hd := perform_db (s := s) (n := n) pass act
  cases act with
  | complete completion artifact =>
    have hm := exec_completeCapture completion artifact s.db
    rw [← show _ = exec (completeCapture completion artifact) s.db from hd] at hm
    exact .complete ho.2 hm hs
  | interrupt traceId =>
    have hm := exec_failCapture traceId "interrupted" s.db
    rw [← show _ = exec (failCapture traceId "interrupted") s.db from hd] at hm
    exact .call hm (by decide) hs
  | wait | leave => exact .quiet hd fun _ _ hk => hs ▸ hk

theorem perform_inv {remaining : List IncompleteCapture} (h : Inv c s)
    (hpa : s.passes n = some ⟨startup, remaining, some (i, act)⟩) :
    Effect c s (s.perform n ⟨startup, remaining, some (i, act)⟩ act) ∧
      Inv c (s.perform n ⟨startup, remaining, some (i, act)⟩ act) := by
  have ho := h.passes _ _ hpa
  have he : Effect c s (s.perform n ⟨startup, remaining, some (i, act)⟩ act) :=
    perform_effect (ho.current i act rfl) _
  refine ⟨he, ?_⟩
  have hg := he.grows
  cases hc : act.perform s.db with
  | ok =>
    rw [perform, attempt_of_ok hc] at hg ⊢
    refine h.setPass hg rfl rfl fun p hp => ?_
    cases hp
    exact ⟨fun j hj => (ho.remaining j hj).grows hg, fun _ _ ha => (nomatch ha)⟩
  | error =>
    rw [perform, attempt_of_error hc] at hg ⊢
    exact h.setPass hg rfl rfl fun p hp => by cases hp

theorem step_inv (h : Inv c s) (hs : step c s a = some t) : Effect c s t ∧ Inv c t := by
  cases a with
  | begin capture =>
    cases hs
    exact begin_inv h capture
  | stage =>
    obtain ⟨⟨-, he⟩, heq⟩ := ite_none_right_eq_some.mp hs
    cases heq
    exact stage_inv h he
  | put =>
    simp only [step] at hs
    split at hs
    · rename_i hli
      cases hs
      exact put_inv h hli
    · cases hs
  | putFails _ error =>
    simp only [step] at hs
    split at hs
    · cases hs
      exact putFails_inv h _ error
    · cases hs
  | complete =>
    simp only [step] at hs
    split at hs
    · rename_i hli
      cases hs
      exact complete_inv h hli
    · cases hs
  | fail _ code =>
    obtain ⟨-, heq⟩ := ite_none_right_eq_some.mp hs
    cases heq
    exact fail_inv h code
  | abandon =>
    cases hs
    exact ⟨.quiet rfl fun _ _ hk => hk,
      h.setLive (.of_same rfl rfl) rfl rfl fun p hp => by cases hp⟩
  | appear _ data =>
    obtain ⟨⟨-, hm⟩, heq⟩ := ite_none_right_eq_some.mp hs
    cases heq
    exact appear_inv h hm data
  | startPass =>
    obtain ⟨⟨-, hl⟩, heq⟩ := ite_none_right_eq_some.mp hs
    cases heq
    exact startPass_inv h hl
  | examine =>
    simp only [step] at hs
    split at hs
    · rename_i hpa
      cases hs
      exact examine_inv h hpa
    · cases hs
  | perform =>
    simp only [step] at hs
    split at hs
    · rename_i hpa
      cases hs
      exact perform_inv h hpa
    · cases hs
  | dropPass =>
    cases hs
    exact ⟨.quiet rfl fun _ _ hk => hk,
      h.setPass (.of_same rfl rfl) rfl rfl fun p hp => by cases hp⟩
  | crash =>
    cases hs
    exact ⟨.quiet rfl fun _ _ hk => hk, fun _ _ hp => (nomatch hp), fun _ _ hp => (nomatch hp)⟩

theorem inv_of_reachable (h : (protocol c).Reachable s) : Inv c s := by
  refine h.invariant ?_ ?_
  · rintro _ ⟨-, -, -, hl, hpa⟩
    refine ⟨fun k phase hp => ?_, fun n pass hps => ?_⟩
    · rw [hl] at hp
      cases hp
    · rw [hpa] at hps
      cases hps
  · rintro _ _ hi ⟨_, hs⟩
    exact (step_inv hi hs).2

/-- What one step may do to the traces. -/
structure Safe (c : Crates) (s : Service) (a : Act) (t : Service) : Prop where
  /-- A trace becomes captured only with a staged completion whose bytes are stored. -/
  captured : ∀ k, ¬HasStatus s.db k .captured → HasStatus t.db k .captured →
    ∃ completion data, Staged s.db k completion ∧ Staged t.db k completion ∧
      t.store.slot k = .stored data ∧ completion.Stores c data
  /-- A pass fails only the capture that it listed without a completion, at startup. -/
  interrupted : ∀ n, a.pass? = some n → ∀ k, ¬HasStatus s.db k .failed →
    HasStatus t.db k .failed → ∃ pass i act, s.passes n = some pass ∧
      pass.current = some (i, act) ∧ i.traceId = k ∧ i.completion = none ∧ pass.startup = true
  /-- A periodic pass leaves a capture without a staged completion as it is. -/
  periodic : ∀ n, a.pass? = some n → (∀ pass ∈ s.passes n, pass.startup = false) →
    ∀ k row, s.db.traces.find? k = some row → row.stagedCompletion = none →
      t.db.traces.find? k = some row

theorem captured_of_effect (h : Effect c s t) (hb : ¬HasStatus s.db k .captured)
    (ha : HasStatus t.db k .captured) :
    ∃ completion data, Staged s.db k completion ∧ Staged t.db k completion ∧
      t.store.slot k = .stored data ∧ completion.Stores c data := by
  obtain ⟨_, _, hm, hr⟩ := h.rows
  obtain ⟨rfl, hst⟩ := hm.of_new hb ha
  obtain ⟨completion, rfl, hs, data, hd, hsr⟩ := hr hst.symm
  exact ⟨completion, data, hs, hm.staged hs, h.stored _ _ hd, hsr⟩

theorem db_of_pass (hs : step c s a = some t) (hp : a.pass? = some n) :
    t.db = s.db ∨ ∃ startup remaining i act,
      s.passes n = some ⟨startup, remaining, some (i, act)⟩ ∧ t.db = act.perform.exec s.db := by
  cases a with
  | startPass =>
    obtain ⟨-, he⟩ := ite_none_right_eq_some.mp hs
    cases he
    exact .inl rfl
  | examine =>
    simp only [step] at hs
    split at hs
    · cases hs
      unfold examine
      split <;> exact .inl rfl
    · cases hs
  | perform =>
    cases hp
    simp only [step] at hs
    split at hs
    · rename_i startup remaining i act hc
      cases hs
      exact .inr ⟨startup, remaining, i, act, hc, perform_db _ act⟩
    · cases hs
  | dropPass =>
    cases hs
    exact .inl rfl
  | _ => cases hp

theorem interrupted_of_step (hin : Inv c s) (hsp : step c s a = some t)
    (hp : a.pass? = some n) (hb : ¬HasStatus s.db k .failed)
    (ha : HasStatus t.db k .failed) : ∃ pass i act, s.passes n = some pass ∧
      pass.current = some (i, act) ∧ i.traceId = k ∧ i.completion = none ∧ pass.startup = true := by
  rcases db_of_pass hsp hp with hd | ⟨_, _, i, act, hc, hd⟩
  · exact absurd (hd ▸ ha) hb
  · have ho := (hin.passes _ _ hc).current i act rfl
    rw [hd] at ha
    cases act with
    | complete completion artifact =>
      obtain ⟨-, hst⟩ := (exec_completeCapture completion artifact s.db).of_new hb ha
      cases hst
    | interrupt traceId =>
      obtain ⟨hi, hn, hs⟩ := ho
      obtain ⟨rfl, -⟩ := (exec_failCapture traceId "interrupted" s.db).of_new hb ha
      exact ⟨_, i, _, hc, rfl, hi.symm, hn, hs⟩
    | wait | leave => exact absurd ha hb

theorem periodic_of_step (hi : Inv c s) (hst : step c s a = some t) (hpa : a.pass? = some n)
    (hp : ∀ pass ∈ s.passes n, pass.startup = false) (hr : s.db.traces.find? k = some row)
    (hu : row.stagedCompletion = none) :
    t.db.traces.find? k = some row := by
  rcases db_of_pass hst hpa with hd | ⟨_, _, i, act, hcu, hd⟩
  · rw [hd, hr]
  · have ho := (hi.passes _ _ hcu).current i act rfl
    rw [hd]
    cases act with
    | complete completion artifact =>
      obtain ⟨-, ⟨_, hs, hc⟩, -⟩ := ho
      have hn : k ≠ completion.traceId := by
        rintro rfl
        rw [Option.some.inj (hr.symm.trans hs), hc] at hu
        cases hu
      exact ((exec_completeCapture completion artifact s.db k).2 hn).trans hr
    | interrupt => exact absurd (ho.2.2.symm.trans (hp _ hcu)) (by decide)
    | wait | leave => exact hr

/-- Every step of every run of the protocol is safe, whatever crashes, late writes and recovery
passes surround it. -/
theorem capture_commit_safe (c : Crates) (s t : Service) (a : Act)
    (hreachable : (protocol c).Reachable s) (hstep : step c s a = some t) : Safe c s a t := by
  have hinv := inv_of_reachable hreachable
  exact ⟨fun _ => captured_of_effect (step_inv hinv hstep).1,
    fun _ hpass _ => interrupted_of_step hinv hstep hpass,
    fun _ hpass hperiodic _ _ => periodic_of_step hinv hstep hpass hperiodic⟩

/-! Two runs. -/

def rowIs (s : Service) (traceId : String) (p : Trace → Bool) : Bool :=
  (s.db.traces.find? traceId).any p

theorem exists_row (h : s.rowIs traceId p = true) :
    ∃ t, s.db.traces.find? traceId = some t ∧ p t = true := any_eq_true _ _ |>.mp h

def after (acts : List Act) : Option Service :=
  Transition.System.runActs (step Core.sampleCrates) (fun _ _ => True)
    ⟨{}, ⟨unreadableStore.locator, fun _ => .missing⟩, [], fun _ => none, fun _ => none⟩ acts

theorem reachable_after (h : after acts = some s) :
    (protocol Core.sampleCrates).Reachable s :=
  Transition.System.Reachable.runActs
    (.init ⟨⟨true, rfl⟩, fun _ => rfl, rfl, fun _ => rfl, fun _ => rfl⟩)
    (fun _ a _ _ ha => ⟨a, ha⟩) h

def sampleData : Bytes := [1, 2, 3]

def sampleCommit : CaptureCompletion :=
  { sampleCompletion with expectedArtifactSha256 := sha256Hex Core.sampleCrates sampleData }

/-- A write whose outcome was unknown has appeared, and a periodic pass has found it. -/
def lateWrite : List Act :=
  [.begin sampleCapture, .stage sampleCommit sampleData, .putFails "trc-1" .backend,
    .appear "trc-1" sampleData, .startPass 0 false [⟨"trc-1", some sampleCommit⟩], .examine 0]

theorem lateWrite_run : ((after lateWrite).any fun s =>
    (step Core.sampleCrates s (.perform 0)).any fun t =>
      t.rowIs "trc-1" fun r => r.captureStatus = .captured) = true := by
  decide

theorem capture_commit_safe_late_write : ∃ s t, after lateWrite = some s ∧
    step Core.sampleCrates s (.perform 0) = some t ∧ HasStatus t.db "trc-1" .captured ∧
      Safe Core.sampleCrates s (.perform 0) t := by
  obtain ⟨s, hs, hrun⟩ := any_eq_true _ _ |>.mp lateWrite_run
  obtain ⟨t, ht, hrow⟩ := any_eq_true _ _ |>.mp hrun
  obtain ⟨r, hr, hstatus⟩ := exists_row hrow
  exact ⟨s, t, hs, ht, ⟨r, hr, of_decide_eq_true hstatus⟩,
    capture_commit_safe _ s t _ (reachable_after hs) ht⟩

/-- A capture is staged after a startup pass has listed it without a completion. -/
def stagedBehindPass : List Act :=
  [.begin sampleCapture, .startPass 0 true [⟨"trc-1", none⟩], .examine 0,
    .stage sampleCommit sampleData]

theorem stagedBehindPass_run : ((after stagedBehindPass).any fun s =>
    (s.rowIs "trc-1" fun r => r.stagedCompletion = some sampleCommit) &&
      (step Core.sampleCrates s (.perform 0)).any fun t =>
        t.rowIs "trc-1" fun r => r.captureStatus = .failed) = true := by
  decide

/-- The pass then fails the staged capture. -/
theorem startup_pass_fails_staged_capture : ∃ s t,
    (protocol Core.sampleCrates).Reachable s ∧ step Core.sampleCrates s (.perform 0) = some t ∧
      Staged s.db "trc-1" sampleCommit ∧ HasStatus t.db "trc-1" .failed := by
  obtain ⟨s, hs, hrun⟩ := any_eq_true _ _ |>.mp stagedBehindPass_run
  obtain ⟨hstaged, hstep⟩ := Bool.and_eq_true_iff.mp hrun
  obtain ⟨t, ht, hrow⟩ := any_eq_true _ _ |>.mp hstep
  obtain ⟨u, hu, hcompletion⟩ := exists_row hstaged
  obtain ⟨r, hr, hstatus⟩ := exists_row hrow
  exact ⟨s, t, reachable_after hs, ht, ⟨u, hu, of_decide_eq_true hcompletion⟩,
    ⟨r, hr, of_decide_eq_true hstatus⟩⟩

end Service

end Notary.Daemon
