import Notary.Traces.PublishedBytes

/-! The package of a queued trace: which completions, upload checks and new attempts keep it under
its committed key until its verification is over. -/

namespace Notary.Traces
open Relational Option List Function Table HostedTrace
open Utf8 (Bytes)

/-- The upload attempt of the row is over. -/
def TraceStatus.atRest : TraceStatus → Bool
  | shared | stopped | rejected | failed => true
  | uploading | queued | verifying => false

/-- One step of a row: a new attempt has a new generation, and an attempt that is over or past its
upload stays so. -/
structure HostedTrace.Advances (claims : List String) (r r' : HostedTrace) : Prop where
  account : r'.accountId = r.accountId
  generation : r.uploadGeneration ≤ r'.uploadGeneration
  same : r'.uploadGeneration = r.uploadGeneration → r'.uploadExpiresAt = r.uploadExpiresAt ∧
    (r.status.atRest = true → r'.status.atRest = true) ∧
    (r.status ≠ .uploading → r'.status ≠ .uploading)
  held : ∀ claim ∈ claims, r'.holds claim = true →
    r.holds claim = true ∧ r'.uploadGeneration = r.uploadGeneration

theorem HostedTrace.Advances.refl (claims : List String) (r : HostedTrace) : r.Advances claims r :=
  ⟨rfl, le_rfl, fun _ => ⟨rfl, id, id⟩, fun _ _ h => ⟨h, rfl⟩⟩

variable {r job : HostedTrace} {id traceId claim : String} {p : HostedTrace → Bool}
  {f : HostedTrace → HostedTrace} {traces : Table HostedTrace} {n : ℕ} {stage : WorkerStage}
  {archive content : Bytes}

/-- A row that stays in its attempt and leaves its verification, if it was in one. -/
theorem HostedTrace.Advances.leaves (ha : r'.accountId = r.accountId)
    (hg : r'.uploadGeneration = r.uploadGeneration) (he : r'.uploadExpiresAt = r.uploadExpiresAt)
    (hr : r.status.atRest = true → r'.status.atRest = true) (hs : r'.status ≠ .uploading)
    (hv : r'.status ≠ .verifying) : r.Advances claims r' :=
  ⟨ha, hg.ge, fun _ => ⟨he, hr, fun _ => hs⟩,
    fun claim _ hh => absurd hh (by simp [HostedTrace.holds, hv])⟩

namespace World

/-- The attempt of that generation is over. -/
def Over (w : World) (id : String) (generation : ℕ) : Prop :=
  id ∈ w.traceIds ∧ ∀ r, w.trace id = some r → generation ≤ r.uploadGeneration ∧
    (r.uploadGeneration = generation → r.status.atRest = true)

/-- What a row read some time ago says of the row now. -/
def Snapshot (w : World) (job : HostedTrace) : Prop :=
  job.traceId ∈ w.traceIds ∧ job.keyGeneration = job.uploadGeneration ∧
    ∀ r, w.trace job.traceId = some r → r.accountId = job.accountId ∧
      job.uploadGeneration ≤ r.uploadGeneration ∧
      (r.uploadGeneration = job.uploadGeneration → r.uploadExpiresAt = job.uploadExpiresAt)

/-- A row whose package is there as long as it is needed. -/
def RowFine (w : World) (r : HostedTrace) : Prop :=
  r.keyGeneration = r.uploadGeneration ∧
    (r.status = .queued ∨ r.status = .verifying → w.objects r.committedStagingObjectKey ≠ none) ∧
    r.failureCode ≠ some "object_missing" ∧
    ∀ key, r.references key = true → key.scope.isSome = true

/-- What a completion has done: the copy is there unless the attempt is over, a completion that
lost is not the one to queue the trace, and what is left over is of an attempt that is over. -/
def CompletionFine (w : World) (completion : Completion) : Prop :=
  w.Snapshot completion.job ∧
    match completion.stage with
    | .loaded => True
    | .promoted | .checked => w.objects completion.job.committedStagingObjectKey ≠ none ∨
      w.Over completion.job.traceId completion.job.uploadGeneration
    | .lost => ∀ r, w.trace completion.job.traceId = some r →
      r.uploadGeneration = completion.job.uploadGeneration → r.status ≠ .uploading
    | .superseded | .mismatched =>
      w.Over completion.job.traceId completion.job.uploadGeneration

def WorkerFine (w : World) (worker : Worker) : Prop :=
  w.Snapshot worker.job ∧ worker.claim ∈ w.claims ∧
    (∀ r, w.trace worker.job.traceId = some r → r.holds worker.claim = true →
      r.uploadGeneration = worker.job.uploadGeneration ∧
        worker.stage ≠ .rejecting "object_missing") ∧
    (worker.stage = .purging → w.Over worker.job.traceId worker.job.uploadGeneration)

/-- No copy goes while its attempt may still need it. -/
structure Uploads (w : World) : Prop where
  rows : ∀ id r, w.trace id = some r → id ∈ w.traceIds ∧ w.RowFine r
  completions : ∀ n completion, w.completions n = some completion → w.CompletionFine completion
  workers : ∀ n worker, w.workers n = some worker → w.WorkerFine worker
  purges : ∀ n job, w.purges n = some job →
    w.Snapshot job ∧ w.Over job.traceId job.uploadGeneration
  queue : ∀ accountId id generation traceId,
    w.queue (.committedStaging accountId id generation) = some traceId → w.Over id generation
  cleaners : ∀ n removed accountId id generation,
    w.cleaners n = some ⟨.committedStaging accountId id generation, removed⟩ → w.Over id generation
  intents : ∀ n deletion accountId id generation traceId, w.deletions n = some deletion →
    deletion.intent (.committedStaging accountId id generation) = some traceId →
    id ∈ w.traceIds ∧ ∀ r, w.trace id = some r → r.accountId = deletion.accountId

/-- The kinds of steps that lose no package: a completion that lost does not find its own attempt
in verification, a copy that is not as declared is of an attempt that is over, and a new attempt
follows the one that its request has read. -/
def Punctual (w : World) : Act → Prop
  | .reload n => ∀ job current, w.completions n = some ⟨job, .lost⟩ →
    w.trace job.traceId = some current →
    ¬(current.status = .verifying ∧ current.uploadGeneration = job.uploadGeneration)
  | .headPromoted n asDeclared => asDeclared = false → ∀ job current,
    w.completions n = some ⟨job, .promoted⟩ → w.trace job.traceId = some current →
    current.uploadGeneration = job.uploadGeneration → current.status.atRest = true
  | .commitUpload n => ∀ request job now generation,
    w.calls n = some ⟨request, .reopen job, now, .checked (some generation)⟩ →
    generation = job.uploadGeneration
  | _ => True

/-- Rows advance, and identifiers stay in use. -/
structure Evolves (w w' : World) : Prop where
  traceIds : ∀ id ∈ w.traceIds, id ∈ w'.traceIds
  claims : ∀ claim ∈ w.claims, claim ∈ w'.claims
  rows : ∀ id r', id ∈ w.traceIds → w'.trace id = some r' →
    ∃ r, w.trace id = some r ∧ r.Advances w.claims r'

variable {svc : Service} {w w' : World}

theorem Evolves.of_traces (ht : w'.traces = w.traces) (hi : w'.traceIds = w.traceIds)
    (hc : w'.claims = w.claims) : w.Evolves w' := by
  refine ⟨fun id => by rw [hi]; exact fun h => h, fun claim => by rw [hc]; exact fun h => h,
    fun id r' _ hr' => ⟨r', ?_, .refl _ r'⟩⟩
  rwa [trace, ht] at hr'

theorem Over.evolves (h : w.Over id generation) (hev : w.Evolves w') :
    w'.Over id generation := by
  refine ⟨hev.traceIds id h.1, fun r' hr' => ?_⟩
  obtain ⟨r, hr, ha⟩ := hev.rows id r' h.1 hr'
  obtain ⟨hl, hre⟩ := h.2 r hr
  refine ⟨hl.trans ha.generation, fun he => ?_⟩
  have hs : r.uploadGeneration = generation := le_antisymm (he ▸ ha.generation) hl
  exact (ha.same (he.trans hs.symm)).2.1 (hre hs)

theorem Snapshot.evolves (h : w.Snapshot job) (hev : w.Evolves w') : w'.Snapshot job := by
  obtain ⟨hi, hk, hro⟩ := h
  refine ⟨hev.traceIds _ hi, hk, fun r' hr' => ?_⟩
  obtain ⟨r, hr, had⟩ := hev.rows _ r' hi hr'
  obtain ⟨ha, hl, he⟩ := hro r hr
  refine ⟨had.account.trans ha, hl.trans had.generation, fun heq => ?_⟩
  have hs : r.uploadGeneration = job.uploadGeneration := le_antisymm (heq ▸ had.generation) hl
  exact (had.same (heq.trans hs.symm)).1.trans (he hs)

theorem CompletionFine.evolves (h : w.CompletionFine completion) (he : w.Evolves w')
    (ho : ∀ accountId id generation,
      w.objects (.committedStaging accountId id generation) ≠ none →
        w'.objects (.committedStaging accountId id generation) ≠ none) :
    w'.CompletionFine completion := by
  obtain ⟨job, stage⟩ := completion
  obtain ⟨hsn, hs⟩ := h
  refine ⟨hsn.evolves he, ?_⟩
  cases stage with
  | loaded => trivial
  | promoted | checked => exact hs.imp (ho _ _ _) (·.evolves he)
  | lost =>
    intro r' hr' heq
    obtain ⟨r, hr, ha⟩ := he.rows _ r' hsn.1 hr'
    have hsa : r.uploadGeneration = job.uploadGeneration :=
      le_antisymm (heq ▸ ha.generation) (hsn.2.2 r hr).2.1
    exact (ha.same (heq.trans hsa.symm)).2.2 (hs r hr hsa)
  | superseded | mismatched => exact hs.evolves he

theorem WorkerFine.evolves (h : w.WorkerFine worker) (he : w.Evolves w') :
    w'.WorkerFine worker := by
  obtain ⟨hsn, hi, hhe, hp⟩ := h
  refine ⟨hsn.evolves he, he.claims _ hi, fun r' hr' hh => ?_, fun hs => (hp hs).evolves he⟩
  obtain ⟨r, hr, ha⟩ := he.rows _ r' hsn.1 hr'
  obtain ⟨hb, hg⟩ := ha.held _ hi hh
  obtain ⟨hsa, hs⟩ := hhe r hr hb
  exact ⟨hg.trans hsa, hs⟩

namespace Uploads

section

variable (h : w.Uploads)
include h

/-- Rows advance with their packages, copies stay, and only keys of attempts that are over come into
the queue; the rest is as it was. -/
theorem evolves (he : w.Evolves w')
    (hro : ∀ id r, w'.trace id = some r → id ∈ w'.traceIds ∧ w'.RowFine r)
    (ho : ∀ accountId id generation, w.objects (.committedStaging accountId id generation) ≠ none →
        w'.objects (.committedStaging accountId id generation) ≠ none)
    (hq : ∀ accountId id generation traceId,
      w'.queue (.committedStaging accountId id generation) = some traceId → w'.Over id generation)
    (hco : w'.completions = w.completions) (hw : w'.workers = w.workers)
    (hp : w'.purges = w.purges) (hcl : w'.cleaners = w.cleaners)
    (hde : w'.deletions = w.deletions) : w'.Uploads := by
  refine ⟨hro, fun n c hc => ?_, fun n worker hwo => ?_, fun n job hj => ?_, hq,
    fun n removed a id g hc => ?_, fun n d a id g t hd hi => ?_⟩
  · exact (h.completions n c (hco ▸ hc)).evolves he ho
  · exact (h.workers n worker (hw ▸ hwo)).evolves he
  · obtain ⟨hs, hov⟩ := h.purges n job (hp ▸ hj)
    exact ⟨hs.evolves he, hov.evolves he⟩
  · exact (h.cleaners n removed a id g (hcl ▸ hc)).evolves he
  · obtain ⟨hid, ha⟩ := h.intents n d a id g t (hde ▸ hd) hi
    refine ⟨he.traceIds id hid, fun r' hr' => ?_⟩
    obtain ⟨r, hr, had⟩ := he.rows id r' hid hr'
    exact had.account.trans (ha r hr)

theorem frame (ht : w'.traces = w.traces := by rfl)
    (hi : w'.traceIds = w.traceIds := by rfl) (hcm : w'.claims = w.claims := by rfl)
    (ho : w'.objects = w.objects := by rfl) (hqu : w'.queue = w.queue := by rfl)
    (hc : w'.completions = w.completions := by rfl)
    (hw : w'.workers = w.workers := by rfl) (hp : w'.purges = w.purges := by rfl)
    (hcl : w'.cleaners = w.cleaners := by rfl)
    (hd : w'.deletions = w.deletions := by rfl) : w'.Uploads := by
  have he : w.Evolves w' := .of_traces ht hi hcm
  refine h.evolves he (fun id r hr => ?_) (fun _ _ _ => by rw [ho]; exact fun h => h)
    (fun a id g t hq => (h.queue a id g t (hqu ▸ hq)).evolves he) hc hw hp
    hcl hd
  rw [trace, ht] at hr
  obtain ⟨hid, _⟩ := h.rows id r hr
  rw [hi]
  exact ⟨hid, by rwa [RowFine, ho]⟩

theorem updates (hu : w.Updates id p f traces)
    (hf : ∀ r, w.trace id = some r → p r = true → w.RowFine r →
      r.Advances w.claims (f r) ∧ w.RowFine (f r))
    (hi : ∀ r : HostedTrace, (f r).traceId = r.traceId := by intro; rfl) :
    { w with traces }.Uploads := by
  have he : w.Evolves { w with traces } := by
    refine ⟨fun _ h => h, fun _ h => h, fun k r' _ hr' => ?_⟩
    obtain ⟨r, hr, rfl | ⟨rfl, hp, rfl⟩⟩ := hu.trace hr' hi
    · exact ⟨r', hr, .refl _ r'⟩
    · exact ⟨r, hr, (hf r hr hp (h.rows k r hr).2).1⟩
  refine h.evolves he (fun k r' hr' => ?_) (fun _ _ _ h => h)
    (fun a k g t hq => (h.queue a k g t hq).evolves he) rfl rfl rfl rfl rfl
  obtain ⟨r, hr, rfl | ⟨rfl, hp, rfl⟩⟩ := hu.trace hr' hi
  · exact h.rows k r' hr
  · exact ⟨(h.rows k r hr).1, (hf r hr hp (h.rows k r hr).2).2⟩

theorem enqueue (ho : ∀ accountId id generation, key = .committedStaging accountId id generation →
      w.Over id generation) : (w.enqueue key traceId).Uploads := by
  refine { h with queue := fun a id g t hq => ?_ }
  by_cases he : .committedStaging a id g = key
  · exact ho a id g he.symm
  · exact h.queue a id g t (by simpa [World.enqueue, update_of_ne he] using hq)

theorem dequeue (key : ObjectKey) : (w.dequeue key).Uploads := by
  refine { h with queue := fun a id g t hq => ?_ }
  by_cases he : .committedStaging a id g = key
  · simp [World.dequeue, he] at hq
  · exact h.queue a id g t (by simpa [World.dequeue, update_of_ne he] using hq)

theorem enqueuePair (hsn : w.Snapshot job)
    (ho : w.Over job.traceId job.uploadGeneration) : (w.enqueuePrivateCleanupPair job).Uploads := by
  have hs : (w.enqueue job.stagingObjectKey job.traceId).Uploads := h.enqueue nofun
  refine hs.enqueue fun a id g he => ?_
  cases he
  rw [hsn.2.1]
  exact ho

theorem setCompletion (hn : ∀ completion, new = some completion → w.CompletionFine completion) :
    (w.setCompletion n new).Uploads := by
  refine { h with completions := fun m c hm => ?_ }
  obtain ⟨-, he⟩ | ⟨-, ho⟩ := slot_of_update hm
  · exact hn c he
  · exact h.completions m c ho

theorem endCompletion : (w.setCompletion n none).Uploads :=
  h.setCompletion fun _ he => by cases he

theorem setWorker (hn : ∀ worker, new = some worker → w.WorkerFine worker) :
    (w.setWorker n new).Uploads := by
  refine { h with workers := fun m worker hm => ?_ }
  obtain ⟨-, he⟩ | ⟨-, ho⟩ := slot_of_update hm
  · exact hn worker he
  · exact h.workers m worker ho

theorem endWorker : (w.setWorker n none).Uploads :=
  h.setWorker fun _ he => by cases he

theorem setPurge
    (hn : ∀ job, new = some job → w.Snapshot job ∧ w.Over job.traceId job.uploadGeneration) :
    (w.setPurge n new).Uploads := by
  refine { h with purges := fun m job hm => ?_ }
  obtain ⟨-, he⟩ | ⟨-, ho⟩ := slot_of_update hm
  · exact hn job he
  · exact h.purges m job ho

theorem setCleaner (hn : ∀ removed accountId id generation,
      new = some ⟨.committedStaging accountId id generation, removed⟩ → w.Over id generation) :
    (w.setCleaner n new).Uploads := by
  refine { h with cleaners := fun m removed a id g hm => ?_ }
  obtain ⟨-, he⟩ | ⟨-, ho⟩ := slot_of_update hm
  · exact hn removed a id g he
  · exact h.cleaners m removed a id g ho

theorem setDeletion (hn : ∀ deletion accountId id generation traceId, new = some deletion →
      deletion.intent (.committedStaging accountId id generation) = some traceId →
      id ∈ w.traceIds ∧ ∀ r, w.trace id = some r → r.accountId = deletion.accountId) :
    (w.setDeletion n new).Uploads := by
  refine { h with intents := fun m d a id g t hm hi => ?_ }
  obtain ⟨-, he⟩ | ⟨-, ho⟩ := slot_of_update hm
  · exact hn d a id g t he hi
  · exact h.intents m d a id g t ho hi

theorem setObjects {objects : ObjectKey → Option Bytes}
    (ho : ∀ accountId id generation, w.objects (.committedStaging accountId id generation) ≠ none →
      objects (.committedStaging accountId id generation) ≠ none ∨ w.Over id generation) :
    { w with objects }.Uploads := by
  refine { h with rows := fun id r hr => ?_, completions := fun n c hc => ?_ }
  · obtain ⟨hi, hke, ht, hco, hp⟩ := h.rows id r hr
    refine ⟨hi, hke, fun hsta => ?_, hco, hp⟩
    obtain hk | hov := ho _ _ _ (ht hsta)
    · exact hk
    · obtain rfl := traceId_of_trace hr
      have hre := (hov.2 r hr).2 hke.symm
      obtain hs | hs := hsta <;> simp [hs, TraceStatus.atRest] at hre
  · obtain ⟨job, stage⟩ := c
    obtain ⟨hsn, hst⟩ := h.completions n _ hc
    refine ⟨hsn, ?_⟩
    have ht : w.objects job.committedStagingObjectKey ≠ none ∨
        w.Over job.traceId job.uploadGeneration → objects job.committedStagingObjectKey ≠ none ∨
        w.Over job.traceId job.uploadGeneration := by
      rintro (hob | hov)
      · exact (ho _ _ _ hob).imp_right fun hov => hsn.2.1 ▸ hov
      · exact .inr hov
    cases stage with
    | loaded => trivial
    | promoted | checked => exact ht hst
    | lost | superseded | mismatched => exact hst

theorem putObject (key : ObjectKey) (bytes : Bytes) : (w.putObject key bytes).Uploads := by
  refine h.setObjects fun a id g ht => .inl ?_
  have hk : (w.putObject key bytes).objects (.committedStaging a id g) ≠ none := put_there ht
  exact hk

theorem snapshot (hr : w.trace id = some r) : w.Snapshot r := by
  obtain ⟨hi, hk, -⟩ := h.rows id r hr
  obtain rfl := traceId_of_trace hr
  refine ⟨hi, hk, fun s hs => ?_⟩
  cases hr.symm.trans hs
  exact ⟨rfl, le_rfl, fun _ => rfl⟩

end

end Uploads

/-- The attempt of a snapshot is over if it is so unless a newer one has begun. -/
theorem Snapshot.over (h : w.Snapshot job)
    (hre : ∀ r, w.trace job.traceId = some r → r.uploadGeneration = job.uploadGeneration →
      r.status.atRest = true) : w.Over job.traceId job.uploadGeneration :=
  ⟨h.1, fun r hr => ⟨(h.2.2 r hr).2.1, hre r hr⟩⟩

/-- A worker ends a verification, and the attempt with it. -/
theorem Snapshot.finished (hs : w.Snapshot job) (hu : w.Updates job.traceId p f traces)
    (ha : w.affects job.traceId p = true)
    (hi : ∀ r : HostedTrace, (f r).traceId = r.traceId := by intro; rfl)
    (hg : ∀ r : HostedTrace, (f r).uploadGeneration = r.uploadGeneration := by intro; rfl)
    (hre : ∀ r : HostedTrace, (f r).status.atRest = true := by intro; rfl) :
    ({ w with traces } : World).Over job.traceId job.uploadGeneration := by
  refine ⟨hs.1, fun r' hr' => ?_⟩
  obtain ⟨r, hr, -, rfl⟩ := hu.trace_affected ha hr' hi
  rw [hg r]
  exact ⟨(hs.2.2 r hr).2.1, fun _ => hre r⟩

theorem sameAttempt_iff : job.sameAttempt r = true ↔
    r.status = .uploading ∧ r.accountId = job.accountId ∧
      r.uploadGeneration = job.uploadGeneration ∧ r.stagingObjectKey = job.stagingObjectKey ∧
      r.committedStagingObjectKey = job.committedStagingObjectKey ∧
      r.uploadExpiresAt = job.uploadExpiresAt := by
  simp [HostedTrace.sameAttempt, and_assoc]

theorem Snapshot.key_eq (h : w.Snapshot job) (hr : w.trace job.traceId = some r)
    (hf : w.RowFine r) (hg : r.uploadGeneration = job.uploadGeneration) :
    r.stagingObjectKey = job.stagingObjectKey ∧
      r.committedStagingObjectKey = job.committedStagingObjectKey := by
  have hk : r.keyGeneration = job.keyGeneration := hf.1.trans (hg.trans h.2.1.symm)
  have ha := (h.2.2 r hr).1
  have hi := traceId_of_trace hr
  simp [HostedTrace.stagingObjectKey, HostedTrace.committedStagingObjectKey, hk, ha, hi]

namespace Uploads

section

variable (h : w.Uploads)
include h

theorem past_upload (hsn : w.Snapshot job)
    (hc : w.affects job.traceId job.sameAttempt = false) (hr : w.trace job.traceId = some r)
    (hg : r.uploadGeneration = job.uploadGeneration) : r.status ≠ .uploading := by
  intro hu
  obtain ⟨ha, -, he⟩ := hsn.2.2 r hr
  obtain ⟨hs, hco⟩ := hsn.key_eq hr (h.rows _ r hr).2 hg
  have hsa : job.sameAttempt r = true := sameAttempt_iff.mpr ⟨hu, ha, hg, hs, hco, he hg⟩
  rw [affects, hr, any_some, hsa] at hc
  cases hc

theorem queued (hc : w.completions n = some ⟨job, .checked⟩)
    (hup : w.Updates job.traceId job.sameAttempt ({ · with status := .queued }) traces) :
    { w with traces }.Uploads := by
  refine h.updates hup fun r hr hp hf => ?_
  obtain ⟨hu, -, hg, -, hco, -⟩ := sameAttempt_iff.mp hp
  refine ⟨.leaves rfl rfl rfl (fun hre => ?_) nofun nofun, hf.1, fun _ => ?_, hf.2.2.1, hf.2.2.2⟩
  · simp [hu, TraceStatus.atRest] at hre
  · obtain ht | ho := (h.completions n _ hc).2
    · exact hco ▸ ht
    · have hre := (ho.2 r hr).2 hg
      simp [hu, TraceStatus.atRest] at hre

theorem ended (hu : w.Updates id p f traces)
    (hc : ∀ r, w.trace id = some r → p r = true → w.RowFine r →
      (f r).failureCode ≠ some "object_missing")
    (hpu : ∀ r, w.RowFine r → ∀ key, (f r).references key = true → key.scope.isSome = true)
    (hi : ∀ r : HostedTrace, (f r).traceId = r.traceId := by intro; rfl)
    (hac : ∀ r : HostedTrace, (f r).accountId = r.accountId := by intro; rfl)
    (hg : ∀ r : HostedTrace, (f r).uploadGeneration = r.uploadGeneration := by intro; rfl)
    (hk : ∀ r : HostedTrace, (f r).keyGeneration = r.keyGeneration := by intro; rfl)
    (he : ∀ r : HostedTrace, (f r).uploadExpiresAt = r.uploadExpiresAt := by intro; rfl)
    (hre : ∀ r : HostedTrace, (f r).status.atRest = true := by intro; rfl) :
    { w with traces }.Uploads := by
  refine h.updates hu (fun r hr hp hf => ?_) hi
  have hn : ∀ {status : TraceStatus}, status.atRest = false → (f r).status ≠ status := by
    rintro _ ha rfl
    rw [hre r] at ha
    cases ha
  refine ⟨.leaves (hac r) (hg r) (he r) (fun _ => hre r) (hn rfl) (hn rfl),
    (hk r).trans (hf.1.trans (hg r).symm), ?_, hc r hr hp hf,
    hpu r hf⟩
  rintro (hs | hs)
  · exact absurd hs (hn rfl)
  · exact absurd hs (hn rfl)

theorem requeued (hu : w.Updates id p (·.requeued) traces)
    (hp : ∀ r, p r = true → r.status = .verifying) : { w with traces }.Uploads := by
  refine h.updates hu fun r hr hpr ⟨hk, ht, hc, hpu⟩ => ?_
  refine ⟨.leaves rfl rfl rfl (fun hre => ?_) nofun nofun, hk,
    fun _ => ht (.inr (hp r hpr)), hc, hpu⟩
  simp [hp r hpr, TraceStatus.atRest] at hre

theorem claimed (hf : claim ∉ w.claims)
    (hu : w.Updates id (·.status = .queued) (·.claimed claim now) traces) :
    { w with traces, claims := claim :: w.claims }.Uploads := by
  have hro : { w with traces }.Uploads := by
    refine h.updates hu fun r hr hp ⟨hk, ht, _, hpu⟩ => ?_
    have hqu : r.status = .queued := of_decide_eq_true hp
    refine ⟨⟨rfl, le_rfl, fun _ => ⟨rfl, fun hre => ?_, fun _ => nofun⟩, fun c hc hh => ?_⟩,
      hk, fun _ => ht (.inl hqu), nofun, hpu⟩
    · simp [hqu, TraceStatus.atRest] at hre
    · have heq : claim = c := by simpa [HostedTrace.holds, HostedTrace.claimed] using hh
      exact absurd (heq ▸ hc) hf
  have he : Evolves { w with traces := traces }
      { w with traces := traces, claims := claim :: w.claims } :=
    ⟨fun _ hi => hi, fun _ hc => mem_cons_of_mem _ hc, fun _ r' _ hr' => ⟨r', hr', .refl _ r'⟩⟩
  exact hro.evolves he hro.rows (fun _ _ _ ht => ht)
    (fun a k g t hq => (hro.queue a k g t hq).evolves he) rfl rfl rfl rfl rfl

/-- The row of a new trace, or of a new attempt that follows the one its request has read. -/
theorem written {traceIds : List String}
    (hw : w.Written svc request now target generation traces traceIds)
    (hpu : ∀ job g, target = .reopen job → generation = some g → g = job.uploadGeneration) :
    { w with traces, traceIds }.Uploads := by
  cases hw with
  | kept => exact h
  | @inserted jobId _ _ _ _ hfr hi =>
    have hf := find?_of_insert hi
    have hev : w.Evolves { w with traces := traces, traceIds := jobId :: w.traceIds } := by
      refine ⟨fun _ hid => mem_cons_of_mem _ hid, fun _ hc => hc, fun k r' hk hr' => ?_⟩
      have hr := (hf k).symm.trans hr'
      split at hr
      · rename_i he
        have hj : jobId = k := he
        exact absurd (hj ▸ hk) hfr
      · exact ⟨r', hr, .refl _ r'⟩
    refine h.evolves hev (fun k r' hr' => ?_) (fun _ _ _ ht => ht)
      (fun a k g t hq => (h.queue a k g t hq).evolves hev) rfl rfl rfl rfl rfl
    have hr := (hf k).symm.trans hr'
    split at hr
    · rename_i he
      have hj : jobId = k := he
      cases hr
      refine ⟨hj ▸ mem_cons_self, rfl, fun hs => ?_, (fun hs => by cases hs), fun key hre => ?_⟩
      · obtain hs | hs := hs <;> cases hs
      · simp [HostedTrace.references, HostedTrace.create] at hre
    · obtain ⟨hid, hfi⟩ := h.rows k r' hr
      exact ⟨mem_cons_of_mem _ hid, hfi⟩
  | @reopened g job _ hu =>
    refine h.updates hu fun r hr hp hfi => ?_
    obtain ⟨-, -, -, hpb⟩ := hfi
    have hg : r.uploadGeneration = job.uploadGeneration := by
      simp only [Bool.and_eq_true, decide_eq_true_eq] at hp
      exact hp.2.trans (hpu job g rfl rfl)
    have hn : r.uploadGeneration + 1 ≠ r.uploadGeneration := Nat.succ_ne_self _
    refine ⟨⟨rfl, Nat.le_succ _, fun he => absurd he hn, fun claim _ hh => ?_⟩,
      congrArg (· + 1) hg.symm, fun hs => ?_, (fun hs => by cases hs), hpb⟩
    · simp [HostedTrace.holds, HostedTrace.reopened] at hh
    · obtain hs | hs := hs <;> cases hs

/-- The copies that an account deletion leaves to the cleanup are of the account's own traces. -/
theorem intentOwned {accountId account : String}
    (hi : (⟨accountId, w.leftKeys accountId⟩ : Deletion).intent
      (.committedStaging account id generation) = some traceId) :
    id ∈ w.traceIds ∧ ∀ r, w.trace id = some r → r.accountId = accountId := by
  obtain ⟨r, hr, ha, hk | hk | hre⟩ := trace_of_intent hi
  · cases hk
  · cases hk
    obtain rfl := traceId_of_trace hr
    refine ⟨(h.rows _ r hr).1, fun s hs => ?_⟩
    cases hr.symm.trans hs
    exact ha
  · -- The copy is not one of the public artifacts of the row.
    cases (h.rows _ r hr).2.2.2.2 _ hre

theorem deleted (hd : w.deletions n = some deletion) :
    (w.deleteAccount deletion).Uploads := by
  have he : w.Evolves (w.deleteAccount deletion) :=
    ⟨fun _ hid => hid, fun _ hc => hc, fun _ r' _ hr' => ⟨r', trace_of_delete hr', .refl _ r'⟩⟩
  refine h.evolves he (fun k r hr => h.rows k r (trace_of_delete hr)) (fun _ _ _ ht => ht)
    (fun a k g t hq => ?_) rfl rfl rfl rfl rfl
  obtain ho | ⟨-, hi⟩ := or_eq_some_iff.mp hq
  · exact (h.queue a k g t ho).evolves he
  · obtain ⟨hid, ha⟩ := h.intents n deletion a k g t hd hi
    refine ⟨hid, fun r hr => ?_⟩
    have hk := (mem_delete.mp (find?_eq_some.mp hr).1).2
    simp [ha r (trace_of_delete hr)] at hk

theorem setStage (hw : w.workers n = some ⟨job, claim, old⟩)
    (hm : stage ≠ .rejecting "object_missing" ∨
      ∀ r, w.trace job.traceId = some r → r.holds claim = false)
    (hp : stage = .purging → w.Over job.traceId job.uploadGeneration) :
    (w.setWorker n (some ⟨job, claim, stage⟩)).Uploads := by
  refine h.setWorker fun worker he => ?_
  cases he
  obtain ⟨hs, hi, hhe, -⟩ := h.workers n _ hw
  refine ⟨hs, hi, fun r hr hh => ⟨(hhe r hr hh).1, ?_⟩, hp⟩
  obtain hn | hl := hm
  · exact hn
  · rw [hl r hr] at hh
    cases hh

/-- A worker that finds no package has lost its claim. -/
theorem lost_of_absent (hw : w.workers n = some ⟨job, claim, stage⟩)
    (hm : w.objects job.committedStagingObjectKey = none) (hr : w.trace job.traceId = some r) :
    r.holds claim = false := by
  by_contra hn
  have hh : r.holds claim = true := by simpa using hn
  obtain ⟨hs, -, hhe, -⟩ := h.workers n _ hw
  obtain ⟨-, hf⟩ := h.rows _ r hr
  have hk := (hs.key_eq hr hf (hhe r hr hh).1).2
  exact hf.2.1 (.inr (holds_iff.mp hh).1) (hk ▸ hm)

end

end Uploads

theorem examine_stage (hc : ∀ archive allow,
      svc.verifyForAdmission archive allow ≠ .error "object_missing")
    (job : HostedTrace) (archive : Bytes) :
    svc.examine job archive ≠ .rejecting "object_missing" ∧ svc.examine job archive ≠ .purging := by
  obtain ⟨_, hr, hf⟩ | ⟨_, hs, -⟩ := svc.examine_cases job archive
  · rw [hr]
    refine ⟨fun he => ?_, nofun⟩
    cases he
    obtain hm | hv := hf
    · simp at hm
    · exact hc _ _ hv
  · rw [hs]
    exact ⟨nofun, nofun⟩

theorem storeStep_stage {stored : StoredPublicArtifacts} {next : StoreStep}
    (h : w.storeStep stored traceId archive content next = some (w', stage)) :
    stage ≠ .rejecting "object_missing" ∧ stage ≠ .purging := by
  cases next with
  | contentIntent | packageIntent | writeContent | writePackage =>
    cases h
    exact ⟨(by simp), (by simp)⟩
  | checkPackage =>
    simp only [storeStep] at h
    split at h <;> cases h <;> exact ⟨(by simp), (by simp)⟩
  | admission => cases h

namespace Uploads

theorem storeStep (h : w.Uploads) {next : StoreStep}
    (hwo : w.workers n = some ⟨job, claim, .storing archive content next⟩)
    (hw : w.storeStep (svc.storedArtifacts job.traceId claim archive content) job.traceId
      archive content next = some (w', stage)) :
    (w'.setWorker n (some ⟨job, claim, stage⟩)).Uploads := by
  obtain ⟨hm, hp⟩ := storeStep_stage hw
  have hg : ∀ {u : World}, u.Uploads → u.workers = w.workers →
      (u.setWorker n (some ⟨job, claim, stage⟩)).Uploads := fun hu hs =>
    hu.setStage (hs ▸ hwo) (.inl hm) fun he => absurd he hp
  cases next with
  | contentIntent | packageIntent =>
    cases hw
    exact hg (h.enqueue nofun) rfl
  | writeContent | writePackage =>
    cases hw
    exact hg (h.putObject _ _) rfl
  | checkPackage =>
    simp only [World.storeStep] at hw
    split at hw <;> cases hw <;> exact hg h rfl
  | admission => cases hw

theorem admitted (h : w.Uploads) (hu : w.Updates id (admissible claim)
      (·.admitted (svc.storedArtifacts traceId claim archive content)) traces) :
    { w with traces }.Uploads := by
  refine h.ended hu (fun r hr hp hf => hf.2.2.1) fun r hf key hre => ?_
  obtain ⟨_, ⟨⟩, rfl | rfl⟩ := references_iff.mp hre <;> rfl

theorem expired (h : w.Uploads) (hj : w.trace id = some job)
    (hu : job.status = .uploading) (hup : w.Updates id job.sameAttempt
      ({ · with status := .failed, failureCode := some "upload_expired" }) traces) :
    (({ w with traces }.enqueue job.stagingObjectKey id).enqueue job.committedStagingObjectKey
      id).Uploads := by
  obtain rfl := traceId_of_trace hj
  have hro : { w with traces }.Uploads := by
    refine h.ended hup (fun _ _ _ _ => ?_) fun r hf => hf.2.2.2
    simp
  have ha : w.affects job.traceId job.sameAttempt = true := by
    rw [affects, hj, any_some]
    exact sameAttempt_iff.mpr ⟨hu, rfl, rfl, rfl, rfl, rfl⟩
  have ho : ({ w with traces } : World).Over job.traceId job.uploadGeneration := by
    refine ⟨(h.rows _ job hj).1, fun r' hr' => ?_⟩
    obtain ⟨_, hr, -, rfl⟩ := hup.trace_affected ha hr'
    cases hj.symm.trans hr
    exact ⟨le_rfl, fun _ => rfl⟩
  have hs : ({ w with traces }.enqueue job.stagingObjectKey job.traceId).Uploads :=
    hro.enqueue fun _ _ _ he => by cases he
  refine hs.enqueue fun a id g he => ?_
  cases he
  rw [(h.snapshot hj).2.1]
  exact ho

/-- A cleanup takes a copy only of an attempt that is over. -/
theorem removeObject (h : w.Uploads) (hc : w.cleaners n = some ⟨key, removed⟩) :
    (w.removeObject key).Uploads := by
  refine h.setObjects fun a id g ht => ?_
  by_cases he : .committedStaging a id g = key
  · subst he
    exact .inr (h.cleaners n removed a id g hc)
  · exact .inl (by rwa [update_of_ne he])

theorem step (h : w.Uploads) (hco : ∀ archive allow,
      svc.verifyForAdmission archive allow ≠ .error "object_missing") {act : Act}
    (hal : w.Punctual act) (hef : Effect svc w act w') : w'.Uploads := by
  cases hef with
  | @committed _ _ _ _ _ traces traceIds hca hwr =>
    have hro : { w with traces, traceIds }.Uploads := h.written hwr fun job g ht hg => by
      subst ht hg
      exact hal _ _ _ _ hca
    exact hro.frame
  | reactivated hu | stopped hu => exact h.ended hu (fun _ _ _ hf => hf.2.2.1) fun _ hf => hf.2.2.2
  | accessUpdated hu =>
    exact h.updates hu fun r _ _ hf =>
      ⟨⟨rfl, le_rfl, fun _ => ⟨rfl, id, id⟩, fun _ _ hh => ⟨hh, rfl⟩⟩, hf⟩
  | uploaded => exact h.putObject _ _
  | expired hj hup hu => exact h.expired hj hup hu
  | startCompletion hj =>
    refine h.setCompletion fun completion he => ?_
    cases he
    exact ⟨h.snapshot hj, trivial⟩
  | @promoted n job bytes hc =>
    have hpt := h.putObject job.committedStagingObjectKey bytes
    refine hpt.setCompletion fun completion he => ?_
    cases he
    exact ⟨(hpt.completions n _ hc).1, .inl (by simp [World.putObject])⟩
  | missing | settled => exact h.endCompletion
  | @headed n job asDeclared hc hth =>
    have hs := (h.completions n _ hc).1
    refine h.setCompletion fun completion he => ?_
    cases he
    cases asDeclared with
    | true => exact ⟨hs, .inl hth⟩
    | false => exact ⟨hs, hs.over fun r hr => hal rfl job r hc hr⟩
  | @queued _ job traces hc hu =>
    have hsg : ({ w with traces }.enqueue job.stagingObjectKey job.traceId).Uploads :=
      (h.queued hc hu).enqueue fun _ _ _ he => by cases he
    exact hsg.endCompletion
  | lost hc hch =>
    have hs := (h.completions _ _ hc).1
    refine h.setCompletion fun completion he => ?_
    cases he
    exact ⟨hs, fun r hr => h.past_upload hs hch hr⟩
  | @superseded n job current hc hcu =>
    obtain ⟨hs, hpa⟩ := h.completions n _ hc
    refine h.setCompletion fun completion he => ?_
    cases he
    refine ⟨hs, hs.over fun r hr hge => ?_⟩
    cases hcu.symm.trans hr
    have hv := hal job current hc hcu
    have hup := hpa current hcu hge
    cases hstt : current.status <;> simp_all [TraceStatus.atRest]
  | leftPair hc =>
    obtain ⟨hs, ho⟩ := h.completions _ _ hc
    exact (h.enqueuePair hs ho).endCompletion
  | @leftCopy n job hc =>
    obtain ⟨hs, ho⟩ := h.completions n _ hc
    have hq : (w.enqueue job.committedStagingObjectKey job.traceId).Uploads := by
      refine h.enqueue fun a id g he => ?_
      cases he
      rw [hs.2.1]
      exact ho
    exact hq.endCompletion
  | @claimed _ job claim _ now traces hj hfr _ hq hu =>
    obtain rfl := traceId_of_trace hj
    have ha : w.affects job.traceId (·.status = .queued) = true := by simp [affects, hj, hq]
    have hrw : ∀ r', ({ w with traces } : World).trace job.traceId = some r' →
        r' = job.claimed claim now := by
      intro _ hr'
      obtain ⟨_, hr, -, rfl⟩ := hu.trace_affected ha hr'
      cases hj.symm.trans hr
      rfl
    obtain ⟨hid, hk, -⟩ := h.rows _ job hj
    refine (h.claimed hfr hu).setWorker fun worker he => ?_
    cases he
    refine ⟨⟨hid, hk, fun r' hr' => ?_⟩, mem_cons_self, fun r' hr' _ => ?_, (by simp)⟩
    · cases hrw r' hr'
      exact ⟨rfl, le_rfl, fun _ => rfl⟩
    · cases hrw r' hr'
      exact ⟨rfl, (by simp)⟩
  | unfetched hw | dropped hw => exact h.setStage hw (.inl (by simp)) (by simp)
  | absent hw hm => exact h.setStage hw (.inr fun r hr => h.lost_of_absent hw hm hr) (by simp)
  | fetched hw =>
    obtain ⟨hm, hpr⟩ := examine_stage hco _ _
    exact h.setStage hw (.inl hm) fun he => absurd he hpr
  | stored hw hwr => exact h.storeStep hw hwr
  | admitted hw hu hst =>
    have hs := (h.workers _ _ hw).1
    refine (h.admitted hu).setStage hw ?_ ?_
    · obtain rfl | ⟨rfl, -⟩ := hst <;> exact .inl (by simp)
    · rintro rfl
      obtain hst | ⟨-, ha⟩ := hst
      · cases hst
      · exact hs.finished hu ha
  | @postponed n job claim archive content hw =>
    have hre : (w.setWorker n (some ⟨job, claim, .reconciling archive content⟩)).Uploads :=
      h.setStage hw (.inl (by simp)) (by simp)
    exact hre.frame
  | admittedLate _ hu => exact (h.admitted hu).frame
  | @reconciled n _ _ _ _ _ _ _ hw hst =>
    have hs := (h.workers n _ hw).1
    refine h.setStage hw ?_ ?_
    · obtain rfl | rfl | ⟨rfl, -⟩ := hst <;> exact .inl (by simp)
    · rintro rfl
      obtain hst | hst | ⟨-, hpu⟩ := hst
      · cases hst
      · cases hst
      · refine hs.over fun r hr _ => ?_
        rw [hr, bind_some, HostedTrace.publicArtifacts] at hpu
        split at hpu
        · rename_i hsh
          simp only [Bool.and_eq_true, decide_eq_true_eq] at hsh
          rw [hsh.1]
          rfl
        · cases hpu
  | @contentQueued _ job claim archive content hw =>
    have hq : (w.enqueue (svc.storedArtifacts job.traceId claim archive
        content).contentObjectKey job.traceId).Uploads := h.enqueue fun _ _ _ he => by cases he
    exact hq.setStage hw (.inl (by simp)) (by simp)
  | @packageQueued _ job claim archive content hw =>
    have hq : (w.enqueue (svc.storedArtifacts job.traceId claim archive
        content).packageObjectKey job.traceId).Uploads := h.enqueue fun _ _ _ he => by cases he
    exact hq.setStage hw (.inl (by simp)) (by simp)
  | failed hw =>
    obtain ⟨hs, hi, hhe, -⟩ := h.workers _ _ hw
    refine h.setWorker fun worker he => ?_
    obtain ⟨next, hn, rfl⟩ := map_eq_some_iff.mp he
    have hst : next ≠ .rejecting "object_missing" ∧ next ≠ .purging := by
      unfold WorkerStage.failed at hn
      split at hn <;> cases hn <;> exact ⟨(by simp), (by simp)⟩
    exact ⟨hs, hi, fun r hr hh => ⟨(hhe r hr hh).1, hst.1⟩, fun he => absurd he hst.2⟩
  | @rejected n _ _ _ traces _ hw hu hn =>
    obtain ⟨hs, _, hhe, -⟩ := h.workers n _ hw
    have hro : { w with traces }.Uploads := by
      refine h.ended hu (fun r hr hh _ he => ?_) fun _ hf => hf.2.2.2
      cases he
      exact (hhe r hr hh).2 rfl
    obtain rfl | ⟨rfl, ha⟩ := hn
    · exact hro.endWorker
    · exact hro.setStage hw (.inl (by simp)) fun _ =>
        hs.finished hu ha
  | retried _ hu =>
    have hro := h.requeued hu fun r hp => (holds_iff.mp hp).1
    exact hro.endWorker
  | recovered hu =>
    refine h.requeued hu fun r hp => ?_
    simp only [Bool.and_eq_true, decide_eq_true_eq] at hp
    exact hp.1.1
  | purgedClaimed hw =>
    obtain ⟨hs, -, -, ho⟩ := h.workers _ _ hw
    exact (h.enqueuePair hs (ho rfl)).endWorker
  | @startPurge _ _ _ hj hd =>
    refine h.setPurge fun s he => ?_
    cases he
    have hs := h.snapshot hj
    refine ⟨hs, hs.over fun r hr _ => ?_⟩
    obtain rfl := traceId_of_trace hj
    cases hj.symm.trans hr
    obtain hd | hd := hd <;> rw [hd] <;> rfl
  | purgedVerified hpg =>
    obtain ⟨hs, ho⟩ := h.purges _ _ hpg
    exact (h.enqueuePair hs ho).setPurge fun _ he => by cases he
  | unqueued => exact h.dequeue _
  | decided hqu =>
    refine h.setCleaner fun removed a id g he => ?_
    cases he
    exact h.queue a id g _ hqu
  | removed hcl =>
    refine (h.removeObject hcl).setCleaner fun removed a id g he => ?_
    cases he
    exact h.cleaners _ _ a id g hcl
  | forgotten => exact (h.dequeue _).setCleaner fun _ _ _ _ he => by cases he
  | startDeletion =>
    refine h.setDeletion fun deletion a id g t he hin => ?_
    cases he
    exact h.intentOwned hin
  | deleted hde => exact (h.deleted hde).setDeletion fun _ _ _ _ _ he => by cases he
  | @died process =>
    cases process with
    | completion => exact h.endCompletion
    | worker => exact h.endWorker
    | purge => exact h.setPurge fun _ he => by cases he
    | cleaner => exact h.setCleaner fun _ _ _ _ he => by cases he
    | deletion => exact h.setDeletion fun _ _ _ _ _ he => by cases he
    | call => exact h.frame
  | _ => exact h.frame

theorem empty (h : w.Empty) : w.Uploads := by
  obtain ⟨accounts, rfl⟩ := h
  have hro : ∀ id r, ({ accounts } : World).trace id ≠ some r := fun _ _ => nofun
  exact ⟨fun id r hr => absurd hr (hro id r), fun _ _ hc => absurd hc nofun,
    fun _ _ hw => absurd hw nofun, fun _ _ hp => absurd hp nofun, fun _ _ _ _ hq => absurd hq nofun,
    fun _ _ _ _ _ hc => absurd hc nofun, fun _ _ _ _ _ _ hd => absurd hd nofun⟩

end Uploads

end World

/-- In runs with no other kinds of steps, the package of a queued trace or of one in verification is
under its committed key, and no trace is rejected for a missing package. The codes of the verifier
itself are other ones. -/
theorem queued_package_kept (svc : Service)
    (hcode : ∀ archive allow, svc.verifyForAdmission archive allow ≠ .error "object_missing")
    (w : World) (h : (hosting svc World.Empty World.Punctual).Reachable w) :
    (∀ id r, w.trace id = some r → r.status = .queued ∨ r.status = .verifying →
      w.objects r.committedStagingObjectKey ≠ none) ∧
    ∀ id r, w.trace id = some r → r.failureCode ≠ some "object_missing" := by
  have hinv : w.Uploads := by
    refine h.invariant (I := World.Uploads) (fun _ => .empty) ?_
    rintro _ _ hw ⟨_, hallowed, hstep⟩
    exact hw.step hcode hallowed (World.step_effect hstep)
  exact ⟨fun id r hr => (hinv.rows id r hr).2.2.1, fun id r hr => (hinv.rows id r hr).2.2.2.1⟩

/-- The condition for runs that open nothing again, with every copy as declared. -/
def Act.timely (w : World) : Act → Bool
  | reload _ => false
  | headPromoted _ asDeclared => asDeclared
  | commitUpload n => (w.calls n).all fun call => match call.target with
    | .insert _ => true
    | .reopen _ => false
  | _ => true

theorem Act.timely_punctual {act : Act} (h : act.timely w = true) : w.Punctual act := by
  cases act with
  | reload => cases h
  | commitUpload =>
    intro _ _ _ _ hc
    simp [timely, hc] at h
  | headPromoted =>
    intro hn
    cases h.symm.trans hn
  | _ => trivial

/-- Two completions of one upload: when the second comes to its update, the first has queued the
trace and a worker has claimed it. -/
def completeTwice : List Act :=
  createTrace ++ [.upload "acc-1" "trc-1" 0 [1, 2, 3], .startCompletion 0 "trc-1" 1,
    .startCompletion 1 "trc-1" 1, .promote 0, .promote 1, .headPromoted 0 true,
    .headPromoted 1 true, .queueCompleted 0, .claimNextJob 0 "trc-1" "claim-1" 2,
    .queueCompleted 1]

theorem queued_package_kept_sample :
    ∃ w r, World.trace w "trc-1" = some r ∧ r.status = .verifying ∧
      w.objects r.committedStagingObjectKey ≠ none := by
  have hrun : ((Transition.System.runActs (World.step sampleService) (fun w act => act.timely w)
      .sample completeTwice).bind (·.trace "trc-1")).map (·.status) = some .verifying := by
    decide
  obtain ⟨r, hr, hstatus⟩ := map_eq_some_iff.mp hrun
  obtain ⟨w, hw, hr⟩ := bind_eq_some_iff.mp hr
  have hreach : (hosting sampleService World.Empty World.Punctual).Reachable w :=
    (Transition.System.Reachable.init World.empty_sample).runActs
      (fun s act t hallowed hstep => ⟨act, Act.timely_punctual hallowed, hstep⟩) hw
  exact ⟨w, r, hr, hstatus,
    (queued_package_kept sampleService nofun w hreach).1 "trc-1" r hr (.inr hstatus)⟩

/-- The completion that loses finds its own attempt in verification and queues the copy for the
cleanup; the store is unavailable to the worker, which puts the trace back, and the cleanup takes
the copy. -/
def cleanedWhileQueued : List Act :=
  completeTwice ++ [.reload 1, .enqueueLeftovers 1, .fetch 0 true, .retryClaim 0,
    .decideCleanup 0 (.committedStaging "acc-1" "trc-1" 0), .deleteObject 0]

/-- The trace is queued without its package, and the next worker rejects it. -/
theorem losing_completion_drops_package :
    (∃ w r, runAll cleanedWhileQueued = some w ∧ w.trace "trc-1" = some r ∧ r.status = .queued ∧
      w.objects r.committedStagingObjectKey = none) ∧
    ∃ w r, runAll (cleanedWhileQueued ++ [.claimNextJob 1 "trc-1" "claim-2" 3, .fetch 1 false,
        .rejectClaim 1]) = some w ∧ w.trace "trc-1" = some r ∧ r.status = .rejected ∧
      r.failureCode = some "object_missing" :=
  ⟨⟨_, _, rfl, rfl, rfl, rfl⟩, _, _, rfl, rfl, rfl, rfl⟩

end Notary.Traces
