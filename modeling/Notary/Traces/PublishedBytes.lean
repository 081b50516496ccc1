import Notary.Traces.Effects

/-! Published traces keep their verified bytes: what the claims of workers, the cleanup queue and
the cleanups under way say about each other. -/

namespace Notary.Traces
open Relational Function List Bool Option HostedTrace Table
open Utf8 (Bytes)

/-- The trace and the claim that a public object belongs to. -/
def ObjectKey.scope : ObjectKey → Option (String × String)
  | content traceId claim _ | package traceId claim _ => some (traceId, claim)
  | staging _ _ _ | committedStaging _ _ _ => none

/-- The digest in the key of a public object. -/
def ObjectKey.digest : ObjectKey → Option String
  | content _ _ sha256 | package _ _ sha256 => some sha256
  | staging _ _ _ | committedStaging _ _ _ => none

/-- The hosted verifier took the package as one with the row's declared size, declared hash and
source trace, and gave the content. -/
def Service.Accepts (svc : Service) (r : HostedTrace) (archive content : Bytes) : Prop :=
  (archive.length : ℤ) = r.declaredPackageSizeBytes ∧
    svc.sha256Hex archive = r.declaredPackageSha256 ∧
    svc.verifyForAdmission archive r.allowHighEntropy = .ok ⟨r.sourceTraceId, content⟩

/-- A package is rejected, with a code of the worker or of the verifier, or stored. -/
theorem Service.examine_cases (svc : Service) (job : HostedTrace) (archive : Bytes) :
    (∃ code, svc.examine job archive = .rejecting code ∧
      (code ∈ ["object_size_mismatch", "object_sha256_mismatch", "source_trace_id_mismatch"] ∨
        svc.verifyForAdmission archive job.allowHighEntropy = .error code)) ∨
      ∃ content, svc.examine job archive = .storing archive content .contentIntent ∧
        svc.Accepts job archive content := by
  unfold Service.examine
  split
  · exact .inl ⟨_, rfl, .inl (by simp)⟩
  · rename_i hsi
    split
    · exact .inl ⟨_, rfl, .inl (by simp)⟩
    · rename_i hsh
      split
      · rename_i code hc
        exact .inl ⟨code, rfl, .inr hc⟩
      · rename_i verified hv
        obtain ⟨source, trace⟩ := verified
        split
        · exact .inl ⟨_, rfl, .inl (by simp)⟩
        · rename_i hs
          obtain rfl : source = job.sourceTraceId := by simpa using hs
          exact .inr ⟨trace, rfl, by simpa using hsi, by simpa using hsh, hv⟩

/-- What a verification reads of a row. -/
structure HostedTrace.SameJob (r r' : HostedTrace) : Prop where
  size : r'.declaredPackageSizeBytes = r.declaredPackageSizeBytes
  sha256 : r'.declaredPackageSha256 = r.declaredPackageSha256
  source : r'.sourceTraceId = r.sourceTraceId
  allowHighEntropy : r'.allowHighEntropy = r.allowHighEntropy

variable {r r' job : HostedTrace} {archive content bytes : Bytes} {id claim traceId : String}
  {key : ObjectKey} {n : ℕ} {stage : WorkerStage} {p : HostedTrace → Bool}
  {traces : Table HostedTrace}

theorem Service.Accepts.sameJob {svc : Service} (h : svc.Accepts r archive content)
    (hs : r.SameJob r') : svc.Accepts r' archive content := by
  obtain ⟨hsi, hsh, hv⟩ := h
  refine ⟨hsi.trans hs.size.symm, hsh.trans hs.sha256.symm, ?_⟩
  rw [hs.allowHighEntropy, hs.source]
  exact hv

def HostedTrace.published (r : HostedTrace) : Prop := r.status = .shared ∨ r.status = .stopped

namespace World

/-- A claim that was given out and no longer holds its trace. As claims are never given out again,
it never will. -/
def Spent (w : World) (id claim : String) : Prop :=
  claim ∈ w.claims ∧ ∀ r, w.trace id = some r → r.holds claim = false

/-- What a claim wrote is there as long as the claim can still be admitted. -/
def Kept (w : World) (id claim : String) (key : ObjectKey) (bytes : Bytes) : Prop :=
  w.objects key = some bytes ∨ w.Spent id claim

def Unreferenced (w : World) (id : String) (key : ObjectKey) : Prop :=
  ∀ r, w.trace id = some r → r.references key = false

/-- The artifacts of a row. -/
def RowSound (w : World) (svc : Service) (id : String) (r : HostedTrace)
    (stored : StoredPublicArtifacts) : Prop :=
  r.published ∧ ∃ claim archive content, claim ∈ w.claims ∧
    stored = svc.storedArtifacts id claim archive content ∧ svc.Accepts r archive content ∧
    w.objects stored.contentObjectKey = some content ∧
    w.objects stored.packageObjectKey = some archive

/-- An admission that may still be executed. -/
def AdmissionSound (w : World) (svc : Service) (a : Admission) : Prop :=
  a.claim ∈ w.claims ∧
    (∀ r, w.trace a.traceId = some r → r.holds a.claim = true →
      svc.Accepts r a.archive a.content) ∧
    w.Kept a.traceId a.claim (a.stored svc).contentObjectKey a.content ∧
    w.Kept a.traceId a.claim (a.stored svc).packageObjectKey a.archive

end World

def StoreStep.contentWritten : StoreStep → Bool
  | writePackage | checkPackage | admission => true
  | contentIntent | packageIntent | writeContent => false

def StoreStep.packageWritten : StoreStep → Bool
  | checkPackage | admission => true
  | contentIntent | packageIntent | writeContent | writePackage => false

namespace World

/-- What a worker that stores artifacts has verified and written. -/
def StageSound (w : World) (svc : Service) (job : HostedTrace) (claim : String) :
    WorkerStage → Prop
  | .storing archive content next =>
    let stored := svc.storedArtifacts job.traceId claim archive content
    svc.Accepts job archive content ∧
      (next.contentWritten = true → w.Kept job.traceId claim stored.contentObjectKey content) ∧
      (next.packageWritten = true → w.Kept job.traceId claim stored.packageObjectKey archive)
  | _ => True

def WorkerSound (w : World) (svc : Service) (worker : Worker) : Prop :=
  worker.claim ∈ w.claims ∧
    (∀ r, w.trace worker.job.traceId = some r → r.holds worker.claim = true →
      worker.job.SameJob r) ∧
    w.StageSound svc worker.job worker.claim worker.stage

/-- An entry of the queue for a public object names its trace, and its claim was given out. -/
def EntrySound (w : World) (key : ObjectKey) (traceId : String) : Prop :=
  ∀ id claim, key.scope = some (id, claim) → traceId = id ∧ claim ∈ w.claims

structure Sound (w : World) (svc : Service) : Prop where
  rows : ∀ id r stored, w.trace id = some r → r.artifacts = some stored →
    w.RowSound svc id r stored
  workers : ∀ n worker, w.workers n = some worker → w.WorkerSound svc worker
  outstanding : ∀ a ∈ w.outstanding, w.AdmissionSound svc a
  queue : ∀ key traceId, w.queue key = some traceId → w.EntrySound key traceId
  intents : ∀ n deletion key traceId, w.deletions n = some deletion →
    deletion.intent key = some traceId → w.EntrySound key traceId
  cleaners : ∀ n cleaner id claim, w.cleaners n = some cleaner →
    cleaner.objectKey.scope = some (id, claim) →
    w.Spent id claim ∧ w.Unreferenced id cleaner.objectKey

end World

/-- A change of a row that touches no artifacts, gives nobody a claim and keeps what a claim has
read. -/
def Tame (o o' : Option HostedTrace) : Prop :=
  ∀ r', o' = some r' → (r'.artifacts = none ∧ r'.status ≠ .verifying) ∨
    ∃ r, o = some r ∧ r'.artifacts = r.artifacts ∧ r.SameJob r' ∧
      (r.published → r'.published) ∧ ∀ claim, r'.holds claim = true → r.holds claim = true

theorem Tame.refl (o : Option HostedTrace) : Tame o o :=
  fun r' h => .inr ⟨r', h, rfl, ⟨rfl, rfl, rfl, rfl⟩, id, fun _ => id⟩

theorem Tame.of_none (hn : r'.artifacts = none) (hst : r'.status ≠ .verifying) :
    Tame (some r) (some r') := by
  intro _ hs
  cases hs
  exact .inl ⟨hn, hst⟩

theorem Tame.of_same (ha : r'.artifacts = r.artifacts) (hj : r.SameJob r')
    (hp : r.published → r'.published)
    (hh : ∀ claim, r'.holds claim = true → r.holds claim = true) : Tame (some r) (some r') := by
  intro _ hs
  cases hs
  exact .inr ⟨r, rfl, ha, hj, hp, hh⟩

namespace World

variable {svc : Service} {w w' : World}

theorem holds_false_of_status (h : r.status ≠ .verifying) (claim : String) :
    r.holds claim = false := by
  simp [HostedTrace.holds, h]

/-- Claims given out before hold no row that they did not hold, and what they wrote stays as long
as they can be admitted. -/
structure Carries (svc : Service) (w w' : World) : Prop where
  claims : ∀ claim ∈ w.claims, claim ∈ w'.claims
  held : ∀ id r', ∀ claim ∈ w.claims, w'.trace id = some r' → r'.holds claim = true →
    ∃ r, w.trace id = some r ∧ r.holds claim = true ∧ r.SameJob r'
  objects : ∀ id claim key bytes, key.scope = some (id, claim) →
    key.digest = some (svc.sha256Hex bytes) → w.objects key = some bytes →
      w'.Kept id claim key bytes

namespace Carries

section

variable (hc : Carries svc w w')
include hc

theorem spent (h : w.Spent id claim) : w'.Spent id claim := by
  refine ⟨hc.claims claim h.1, fun r' hr' => ?_⟩
  by_contra hn
  obtain ⟨r, hr, hh, -⟩ := hc.held id r' claim h.1 hr' (by simpa using hn)
  rw [h.2 r hr] at hh
  cases hh

theorem kept (hs : key.scope = some (id, claim))
    (hd : key.digest = some (svc.sha256Hex bytes)) (h : w.Kept id claim key bytes) :
    w'.Kept id claim key bytes := by
  rcases h with ht | hsp
  · exact hc.objects id claim key bytes hs hd ht
  · exact .inr (hc.spent hsp)

theorem worker {worker : Worker} (h : w.WorkerSound svc worker) : w'.WorkerSound svc worker := by
  obtain ⟨_, claim, stage⟩ := worker
  obtain ⟨hi, hj, hst⟩ := h
  refine ⟨hc.claims claim hi, fun r' hr' hh => ?_, ?_⟩
  · obtain ⟨r, hr, ho, hs⟩ := hc.held _ r' claim hi hr' hh
    have := hj r hr ho
    exact ⟨hs.size.trans this.size, hs.sha256.trans this.sha256,
      hs.source.trans this.source, hs.allowHighEntropy.trans this.allowHighEntropy⟩
  · cases stage with
    | storing =>
      obtain ⟨ha, hco, hp⟩ := hst
      exact ⟨ha, fun hw => hc.kept rfl rfl (hco hw), fun hw => hc.kept rfl rfl (hp hw)⟩
    | _ => exact trivial

theorem admission {a : Admission} (h : w.AdmissionSound svc a) : w'.AdmissionSound svc a := by
  obtain ⟨hi, ha, hco, hp⟩ := h
  refine ⟨hc.claims _ hi, fun r' hr' hh => ?_, hc.kept rfl rfl hco, hc.kept rfl rfl hp⟩
  obtain ⟨r, hr, ho, hs⟩ := hc.held _ r' a.claim hi hr' hh
  exact (ha r hr ho).sameJob hs

theorem entry (h : w.EntrySound key traceId) : w'.EntrySound key traceId :=
  fun id claim hs => (h id claim hs).imp_right (hc.claims claim)

end

end Carries

theorem references_of_artifacts (h : r'.artifacts = r.artifacts) (key : ObjectKey) :
    r'.references key = r.references key := by
  simp [HostedTrace.references, h]

theorem Unreferenced.tame (h : w.Unreferenced id key) (hro : Tame (w.trace id) (w'.trace id)) :
    w'.Unreferenced id key := by
  intro r' hr'
  obtain ⟨hn, -⟩ | ⟨r, hr, hs, -⟩ := hro r' hr'
  · simp [HostedTrace.references, hn]
  · exact (references_of_artifacts hs key).trans (h r hr)

/-- Rows change tamely, and the rest that the artifacts depend on stays. -/
theorem Sound.tame (h : w.Sound svc) (hro : ∀ id, Tame (w.trace id) (w'.trace id))
    (ho : ∀ key, key.scope.isSome = true → w'.objects key = w.objects key := by intros; rfl)
    (hq : w'.queue = w.queue := by rfl) (hw : w'.workers = w.workers := by rfl)
    (hou : w'.outstanding = w.outstanding := by rfl) (hd : w'.deletions = w.deletions := by rfl)
    (hcl : w'.cleaners = w.cleaners := by rfl) (hcm : w'.claims = w.claims := by rfl) :
    w'.Sound svc := by
  have hc : Carries svc w w' := by
    refine ⟨fun claim hm => hcm ▸ hm, fun id r' claim _ hr' hh => ?_,
      fun id claim key bytes hsc _ ht => .inl ?_⟩
    · obtain ⟨-, hsta⟩ | ⟨r, hr, -, hj, -, hb⟩ := hro id r' hr'
      · rw [holds_false_of_status hsta claim] at hh
        cases hh
      · exact ⟨r, hr, hb claim hh, hj⟩
    · exact (ho key (by rw [hsc]; rfl)).trans ht
  refine ⟨fun id r' stored hr' hst => ?_,
    fun n worker hwo => hc.worker (h.workers n worker (hw ▸ hwo)),
    fun a ha => hc.admission (h.outstanding a (hou ▸ ha)),
    fun key traceId hk => hc.entry (h.queue key traceId (hq ▸ hk)),
    fun n d key traceId hde hi => hc.entry (h.intents n d key traceId (hd ▸ hde) hi),
    fun n cleaner id claim hcn hsc => ?_⟩
  · obtain ⟨hn, -⟩ | ⟨r, hr, har, hj, hpu, -⟩ := hro id r' hr'
    · rw [hn] at hst
      cases hst
    · obtain ⟨hp, claim, archive, content, hiss, he, hac, hco, hpa⟩ :=
        h.rows id r stored hr (har ▸ hst)
      refine ⟨hpu hp, claim, archive, content, hcm ▸ hiss, he, hac.sameJob hj, ?_, ?_⟩
      · rw [ho _ (by rw [he]; rfl)]
        exact hco
      · rw [ho _ (by rw [he]; rfl)]
        exact hpa
  · obtain ⟨hsp, hu⟩ := h.cleaners n cleaner id claim (hcl ▸ hcn) hsc
    exact ⟨hc.spent hsp, hu.tame (hro id)⟩

namespace Sound

section

variable (h : w.Sound svc)
include h

theorem frame (ht : w'.traces = w.traces := by rfl)
    (hob : w'.objects = w.objects := by rfl) (hq : w'.queue = w.queue := by rfl)
    (hw : w'.workers = w.workers := by rfl) (ho : w'.outstanding = w.outstanding := by rfl)
    (hd : w'.deletions = w.deletions := by rfl) (hc : w'.cleaners = w.cleaners := by rfl)
    (hcl : w'.claims = w.claims := by rfl) : w'.Sound svc := by
  refine h.tame (fun id => ?_) (fun _ _ => by rw [hob]) hq hw ho hd hc hcl
  rw [trace, trace, ht]
  exact Tame.refl _

theorem setWorker (hn : ∀ worker, new = some worker → w.WorkerSound svc worker) :
    (w.setWorker n new).Sound svc := by
  refine { h with workers := fun m worker hm => ?_ }
  obtain ⟨-, he⟩ | ⟨-, ho⟩ := slot_of_update hm
  · exact hn worker he
  · exact h.workers m worker ho

theorem setStage (hw : w.workers n = some ⟨job, claim, old⟩)
    (hs : w.StageSound svc job claim stage) :
    (w.setWorker n (some ⟨job, claim, stage⟩)).Sound svc := by
  refine h.setWorker fun worker he => ?_
  cases he
  obtain ⟨hi, hj, -⟩ := h.workers n _ hw
  exact ⟨hi, hj, hs⟩

theorem enqueue (he : w.EntrySound key traceId) : (w.enqueue key traceId).Sound svc := by
  refine { h with queue := fun k t hk => ?_ }
  by_cases heq : k = key
  · subst heq
    simp only [World.enqueue, update_self, Option.some.injEq] at hk
    cases hq : w.queue k with
    | none =>
      rw [hq] at hk
      exact hk ▸ he
    | some old =>
      rw [hq] at hk
      exact hk ▸ h.queue k old hq
  · exact h.queue k t (by simpa [World.enqueue, update_of_ne heq] using hk)

theorem entrySound (hw : w.workers n = some ⟨job, claim, stage⟩)
    (hk : key.scope = some (job.traceId, claim)) : w.EntrySound key job.traceId := by
  intro _ _ hs
  obtain ⟨rfl, rfl⟩ := Prod.mk.inj (Option.some.inj (hk.symm.trans hs))
  exact ⟨rfl, (h.workers n _ hw).1⟩

theorem enqueuePrivate (hk : key.scope = none) : (w.enqueue key traceId).Sound svc :=
  h.enqueue fun _ _ hs => absurd (hk.symm.trans hs) nofun

theorem dequeue (key : ObjectKey) : (w.dequeue key).Sound svc := by
  refine { h with queue := fun k t hk => ?_ }
  by_cases he : k = key
  · subst he
    simp [World.dequeue] at hk
  · exact h.queue k t (by simpa [World.dequeue, update_of_ne he] using hk)

theorem setCleaner
    (hn : ∀ cleaner id claim, new = some cleaner → cleaner.objectKey.scope = some (id, claim) →
      w.Spent id claim ∧ w.Unreferenced id cleaner.objectKey) : (w.setCleaner n new).Sound svc := by
  refine { h with cleaners := fun m cleaner id claim hm hs => ?_ }
  obtain ⟨-, he⟩ | ⟨-, ho⟩ := slot_of_update hm
  · exact hn cleaner id claim he hs
  · exact h.cleaners m cleaner id claim ho hs

theorem setDeletion
    (hn : ∀ deletion key traceId, new = some deletion → deletion.intent key = some traceId →
      w.EntrySound key traceId) : (w.setDeletion n new).Sound svc := by
  refine { h with intents := fun m deletion key t hm hi => ?_ }
  obtain ⟨-, he⟩ | ⟨-, ho⟩ := slot_of_update hm
  · exact hn deletion key t he hi
  · exact h.intents m deletion key t ho hi

end

end Sound

/-- A public object written under a key that has its digest leaves every other such object as it
is, even one of the same key. -/
theorem put_kept (hs : Function.Injective svc.sha256Hex)
    (hd : key.digest = some (svc.sha256Hex bytes)) (hd' : key'.digest = some (svc.sha256Hex bytes'))
    (h : w.objects key' = some bytes') :
    (w.putObject key bytes).objects key' = some bytes' := by
  by_cases he : key' = key
  · subst he
    have hb := hs (Option.some.inj (hd'.symm.trans hd))
    simp [putObject, hb]
  · simpa [putObject, update_of_ne he] using h

namespace Sound

section

variable (h : w.Sound svc)
include h

theorem putObject (hsh : Function.Injective svc.sha256Hex)
    (hd : key.digest = some (svc.sha256Hex bytes)) : (w.putObject key bytes).Sound svc := by
  have hc : Carries svc w (w.putObject key bytes) :=
    ⟨fun _ => id, fun _ r' _ _ hr' hh => ⟨r', hr', hh, ⟨rfl, rfl, rfl, rfl⟩⟩,
      fun _ _ _ _ _ hd' ht => .inl (put_kept hsh hd hd' ht)⟩
  refine { h with
    rows := fun id r stored hr hs => ?_
    workers := fun n worker hw => hc.worker (h.workers n worker hw)
    outstanding := fun a ha => hc.admission (h.outstanding a ha) }
  obtain ⟨hp, claim, archive, content, hi, rfl, hac, hco, hpa⟩ := h.rows id r stored hr hs
  exact ⟨hp, claim, archive, content, hi, rfl, hac,
    put_kept hsh hd rfl hco, put_kept hsh hd rfl hpa⟩

/-- A public object may go once its claim is spent and no row references it. -/
theorem removeObject (hfr : ∀ id claim, key.scope = some (id, claim) →
      w.Spent id claim ∧ w.Unreferenced id key) : (w.removeObject key).Sound svc := by
  have ho : ∀ {key' bytes}, key' ≠ key → w.objects key' = some bytes →
      (w.removeObject key).objects key' = some bytes := fun hn ht => by
    simpa only [World.removeObject, update_of_ne hn] using ht
  have hc : Carries svc w (w.removeObject key) := by
    refine ⟨fun _ => id, fun _ r' _ _ hr' hh => ⟨r', hr', hh, ⟨rfl, rfl, rfl, rfl⟩⟩,
      fun id claim key' bytes hsc _ ht => ?_⟩
    by_cases he : key' = key
    · exact .inr (hfr id claim (he ▸ hsc)).1
    · exact .inl (ho he ht)
  refine { h with
    rows := fun id r stored hr hs => ?_
    workers := fun n worker hw => hc.worker (h.workers n worker hw)
    outstanding := fun a ha => hc.admission (h.outstanding a ha) }
  obtain ⟨hp, claim, archive, content, hi, rfl, hac, hco, hpa⟩ := h.rows id r stored hr hs
  -- The row references its own artifacts, so neither is the object that goes.
  have hn : ∀ key', key'.scope = some (id, claim) → r.references key' = true → key' ≠ key := by
    rintro _ hsc hre rfl
    have hf := (hfr id claim hsc).2 r hr
    rw [hre] at hf
    cases hf
  exact ⟨hp, claim, archive, content, hi, rfl, hac,
    ho (hn _ rfl (by simp [HostedTrace.references, hs])) hco,
    ho (hn _ rfl (by simp [HostedTrace.references, hs])) hpa⟩

theorem artifacts_eq_none (hr : w.trace id = some r) (hs : ¬r.published) : r.artifacts = none := by
  cases ha : r.artifacts with
  | none => rfl
  | some stored => exact absurd (h.rows id r stored hr ha).1 hs

theorem updates (hu : w.Updates id p f traces)
    (hf : ∀ r, w.trace id = some r → p r = true → Tame (some r) (some (f r)))
    (hi : ∀ r : HostedTrace, (f r).traceId = r.traceId := by intro; rfl) :
    { w with traces }.Sound svc := by
  refine h.tame fun k r' hr' => ?_
  obtain ⟨r, hr, rfl | ⟨rfl, hp, rfl⟩⟩ := hu.trace hr' hi
  · exact Tame.refl _ r' hr
  · rw [hr]
    exact hf r hr hp _ rfl

/-- An update that no row comes out of verifying, of rows that are not published. -/
theorem updatesPrivate (hu : w.Updates id p f traces)
    (hp : ∀ r : HostedTrace, p r = true → ¬r.published)
    (hi : ∀ r : HostedTrace, (f r).traceId = r.traceId := by intro; rfl)
    (ha : ∀ r : HostedTrace, (f r).artifacts = r.artifacts := by intro; rfl)
    (hs : ∀ r : HostedTrace, (f r).status ≠ .verifying := by intro _ hv; cases hv) :
    { w with traces }.Sound svc :=
  h.updates hu (fun r hr hpr =>
    .of_none ((ha r).trans (h.artifacts_eq_none hr (hp r hpr))) (hs r)) hi

/-- A claim that was never given out before takes a row without artifacts. -/
theorem claimed (hf : claim ∉ w.claims)
    (hu : w.Updates id (·.status = .queued) (·.claimed claim now) traces) :
    { w with traces, claims := claim :: w.claims }.Sound svc := by
  -- Claims given out before see the same row, or one that they do not hold.
  have hc : Carries svc w { w with traces, claims := claim :: w.claims } := by
    refine ⟨fun _ => mem_cons_of_mem _, fun k r' c hi hr' hh => ?_, fun _ _ _ _ _ _ => .inl⟩
    obtain ⟨_, hr, rfl | ⟨-, -, rfl⟩⟩ := hu.trace hr'
    · exact ⟨r', hr, hh, ⟨rfl, rfl, rfl, rfl⟩⟩
    · have he : claim = c := by simpa [HostedTrace.holds, HostedTrace.claimed] using hh
      exact absurd (he ▸ hi) hf
  -- The row that is claimed had no artifacts, and gets none.
  have har : ∀ {k r'}, ({ w with traces } : World).trace k = some r' →
      r'.artifacts ≠ none → w.trace k = some r' := by
    intro _ _ hr' hso
    obtain ⟨r, hr, rfl | ⟨rfl, hp, rfl⟩⟩ := hu.trace hr'
    · exact hr
    · have hq : r.status = .queued := of_decide_eq_true hp
      have hn := h.artifacts_eq_none hr (by simp [HostedTrace.published, hq])
      exact absurd hn hso
  refine ⟨fun k r' stored hr' hs => ?_, fun n worker hw => hc.worker (h.workers n worker hw),
    fun a ha => hc.admission (h.outstanding a ha), fun key t hqu => hc.entry (h.queue key t hqu),
    fun n d key t hd hin => hc.entry (h.intents n d key t hd hin),
    fun n cleaner k c hcl hsc => ?_⟩
  · obtain ⟨hp, c, archive, content, hi, hre⟩ := h.rows k r' stored (har hr' (by simp [hs])) hs
    exact ⟨hp, c, archive, content, mem_cons_of_mem _ hi, hre⟩
  · obtain ⟨hsp, hun⟩ := h.cleaners n cleaner k c hcl hsc
    refine ⟨hc.spent hsp, fun r' hr' => ?_⟩
    by_contra hne
    have hso : r'.artifacts ≠ none := by
      intro hn
      simp [HostedTrace.references, hn] at hne
    exact hne (hun r' (har hr' hso))

/-- A worker that has stored both artifacts may send its admission. -/
theorem admissionSound (hw : w.workers n = some ⟨job, claim, .storing archive content .admission⟩) :
    w.AdmissionSound svc ⟨job.traceId, claim, archive, content⟩ := by
  obtain ⟨hi, hj, ha, hc, hp⟩ := h.workers n _ hw
  exact ⟨hi, fun r hr hh => ha.sameJob (hj r hr hh), hc rfl, hp rfl⟩

theorem postponed (ha : w.AdmissionSound svc a) :
    { w with outstanding := w.outstanding ++ [a] }.Sound svc := by
  refine { h with outstanding := fun b hb => ?_ }
  obtain hb | hb := mem_append.mp hb
  · exact h.outstanding b hb
  · cases mem_singleton.mp hb
    exact ha

/-- An admission is executed: its claim holds the row, so what it wrote is there. -/
theorem admitted (ha : w.AdmissionSound svc a)
    (hu : w.Updates a.traceId (admissible a.claim) (·.admitted (a.stored svc)) traces) :
    { w with traces }.Sound svc := by
  have hho : ∀ {r}, admissible a.claim r = true → r.holds a.claim = true :=
    fun hp => (admissible_iff.mp hp).1
  -- A row that some claim holds afterwards was not the one admitted.
  have hc : Carries svc w { w with traces } := by
    refine ⟨fun _ => id, fun k r' c _ hr' hc => ?_, fun _ _ _ _ _ _ => .inl⟩
    obtain ⟨_, hr, rfl | ⟨-, -, rfl⟩⟩ := hu.trace hr'
    · exact ⟨r', hr, hc, ⟨rfl, rfl, rfl, rfl⟩⟩
    · simp [HostedTrace.holds, HostedTrace.admitted] at hc
  have ht : ∀ {r key bytes}, w.trace a.traceId = some r → r.holds a.claim = true →
      w.Kept a.traceId a.claim key bytes → w.objects key = some bytes := by
    rintro r _ _ hr hc (ho | hsp)
    · exact ho
    · have hf := hsp.2 r hr
      rw [hc] at hf
      cases hf
  obtain ⟨hi, hac, hco, hpa⟩ := ha
  refine { h with
    rows := fun k r' stored hr' hst => ?_
    workers := fun n worker hw => hc.worker (h.workers n worker hw)
    outstanding := fun b hb => hc.admission (h.outstanding b hb)
    cleaners := fun n cleaner k c hcl hs => ?_ }
  · obtain ⟨r, hr, rfl | ⟨rfl, hp, rfl⟩⟩ := hu.trace hr'
    · exact h.rows k r' stored hr hst
    · obtain rfl : a.stored svc = stored := Option.some.inj hst
      have hh := hho hp
      exact ⟨.inl rfl, a.claim, a.archive, a.content, hi, rfl, hac r hr hh,
        ht hr hh hco, ht hr hh hpa⟩
  · obtain ⟨hsp, hun⟩ := h.cleaners n cleaner k c hcl hs
    refine ⟨hc.spent hsp, fun r' hr' => ?_⟩
    obtain ⟨r, hr, rfl | ⟨rfl, hp, rfl⟩⟩ := hu.trace hr'
    · exact hun r' hr
    · -- The cleaner's claim is spent, and the keys of the admission are those of its own claim.
      have hn : c ≠ a.claim := by
        rintro rfl
        have hf := hsp.2 r hr
        rw [hho hp] at hf
        cases hf
      by_contra hre
      obtain ⟨_, ⟨⟩, hk⟩ := references_iff.mp (not_eq_false _ ▸ hre)
      obtain hk | hk := hk
      · rw [← hk] at hs
        exact hn (Prod.mk.inj (Option.some.inj hs)).2.symm
      · rw [← hk] at hs
        exact hn (Prod.mk.inj (Option.some.inj hs)).2.symm

theorem intentSound {accountId : String}
    (hin : (⟨accountId, w.leftKeys accountId⟩ : Deletion).intent key = some traceId) :
    w.EntrySound key traceId := by
  intro _ _ hs
  obtain ⟨r, hr, -, rfl | rfl | hre⟩ := trace_of_intent hin
  · cases hs
  · cases hs
  · obtain ⟨stored, ha, hk⟩ := references_iff.mp hre
    obtain ⟨-, _, _, _, hi, rfl, -⟩ := h.rows _ r stored hr ha
    obtain rfl | rfl := hk
    · obtain ⟨rfl, rfl⟩ := Prod.mk.inj (Option.some.inj hs)
      exact ⟨rfl, hi⟩
    · obtain ⟨rfl, rfl⟩ := Prod.mk.inj (Option.some.inj hs)
      exact ⟨rfl, hi⟩

end

end Sound

theorem trace_of_delete (h : ({ w with traces := w.traces.delete p } : World).trace id = some r) :
    w.trace id = some r := by
  obtain ⟨hm, hi⟩ := find?_eq_some.mp h
  exact find?_eq_some.mpr ⟨(mem_delete.mp hm).1, hi⟩

theorem stageSound_examine (job : HostedTrace) (claim : String) (archive : Bytes) :
    w.StageSound svc job claim (svc.examine job archive) := by
  obtain ⟨_, he, -⟩ | ⟨_, he, ha⟩ := svc.examine_cases job archive
  · rw [he]
    exact trivial
  · rw [he]
    exact ⟨ha, nofun, nofun⟩

theorem stageSound_failed {next : WorkerStage} (h : stage.failed = some next) :
    w.StageSound svc job claim next := by
  unfold WorkerStage.failed at h
  split at h <;> cases h <;> exact trivial

namespace Sound

theorem written (h : w.Sound svc) {traceIds : List String}
    (hw : w.Written svc request now target generation traces traceIds) :
    { w with traces }.Sound svc := by
  cases hw with
  | kept => exact h
  | inserted _ _ _ hi =>
    refine h.tame fun k r' hr' => ?_
    have hfi := find?_of_insert hi k
    rw [World.trace, hfi] at hr'
    split at hr'
    · cases hr'
      exact .inl ⟨rfl, fun hp => by cases hp⟩
    · exact Tame.refl _ r' hr'
  | reopened hu =>
    refine h.updatesPrivate hu fun r hp hpu => ?_
    simp only [HostedTrace.retryable, and_eq_true, or_eq_true, decide_eq_true_eq] at hp
    obtain hf | hr := hp.1.2
    · simp [HostedTrace.published, hf.1] at hpu
    · simp [HostedTrace.published, hr.1.1.1] at hpu

theorem deleted (h : w.Sound svc) (hd : w.deletions n = some deletion) :
    (w.deleteAccount deletion).Sound svc := by
  have hr : { w with traces := w.traces.delete (·.accountId = deletion.accountId) }.Sound
      svc := by
    refine h.tame fun k r' hr' => ?_
    exact Tame.refl _ r' (trace_of_delete hr')
  refine { hr with queue := fun key t hq => ?_ }
  obtain ho | ⟨-, hi⟩ := or_eq_some_iff.mp hq
  · exact h.queue key t ho
  · exact h.intents n deletion key t hd hi

/-- One statement of storing the artifacts, and the stage it leaves. -/
theorem storeStep (h : w.Sound svc) (hs : Function.Injective svc.sha256Hex) {next : StoreStep}
    (hwo : w.workers n = some ⟨job, claim, .storing archive content next⟩)
    (hw : w.storeStep (svc.storedArtifacts job.traceId claim archive content) job.traceId
      archive content next = some (w', stage)) :
    (w'.setWorker n (some ⟨job, claim, stage⟩)).Sound svc := by
  obtain ⟨_, _, ha, hc, hp⟩ := h.workers n _ hwo
  cases next with
  | contentIntent | packageIntent =>
    cases hw
    exact (h.enqueue (h.entrySound hwo rfl)).setStage hwo ⟨ha, nofun, nofun⟩
  | writeContent =>
    cases hw
    refine (h.putObject hs rfl).setStage hwo ⟨ha, fun _ => .inl ?_, nofun⟩
    exact update_self _ _ _
  | writePackage =>
    cases hw
    have hpu : (w.putObject (svc.storedArtifacts job.traceId claim archive
        content).packageObjectKey archive).Sound svc := h.putObject hs rfl
    obtain ⟨-, -, -, hk, -⟩ := hpu.workers n _ hwo
    refine hpu.setStage hwo ⟨ha, fun _ => hk rfl, fun _ => .inl ?_⟩
    exact update_self _ _ _
  | checkPackage =>
    simp only [World.storeStep] at hw
    split at hw
    · cases hw
      exact h.setStage hwo ⟨ha, fun _ => hc rfl, fun _ => hp rfl⟩
    · cases hw
      exact h.setStage hwo trivial
  | admission => cases hw

theorem step (h : w.Sound svc) (hsh : Function.Injective svc.sha256Hex) {act : Act}
    (hef : Effect svc w act w') : w'.Sound svc := by
  cases hef with
  | committed _ hwr => exact (h.written hwr).frame
  | reactivated hu =>
    exact h.updates hu fun r hr hp =>
      .of_same rfl ⟨rfl, rfl, rfl, rfl⟩ (fun _ => .inl rfl) fun claim hh => by
        simp [HostedTrace.holds, HostedTrace.reactivated] at hh
  | accessUpdated hu =>
    exact h.updates hu fun r hr hp =>
      .of_same rfl ⟨rfl, rfl, rfl, rfl⟩ id fun _ => id
  | stopped hu =>
    exact h.updates hu fun r hr hp =>
      .of_same rfl ⟨rfl, rfl, rfl, rfl⟩ (fun _ => .inr rfl) fun claim hh => by
        simp [HostedTrace.holds] at hh
  | uploaded | promoted =>
    refine h.tame (fun k => Tame.refl _) fun key hk => ?_
    exact update_of_ne (by rintro rfl; cases hk) _ _
  | expired _ _ hu =>
    have hro := h.updatesPrivate hu fun r hp => by
      simp [HostedTrace.published, sameAttempt_status hp]
    exact (hro.enqueuePrivate rfl).enqueuePrivate rfl
  | @queued _ job traces _ hu =>
    have hro := h.updatesPrivate hu fun r hp => by
      simp [HostedTrace.published, sameAttempt_status hp]
    have hq : ({ w with traces }.enqueue job.stagingObjectKey job.traceId).Sound svc :=
      hro.enqueuePrivate rfl
    exact hq.frame
  | @leftPair _ job | @purgedVerified _ job =>
    have hq : (w.enqueuePrivateCleanupPair job).Sound svc :=
      (h.enqueuePrivate rfl).enqueuePrivate rfl
    exact hq.frame
  | @leftCopy _ job =>
    have hq : (w.enqueue job.committedStagingObjectKey job.traceId).Sound svc :=
      h.enqueuePrivate rfl
    exact hq.frame
  | claimed hj hfr _ hq hu =>
    refine (h.claimed hfr hu).setWorker fun worker he => ?_
    cases he
    refine ⟨mem_cons_self, fun r' hr' hh => ?_, trivial⟩
    obtain rfl := traceId_of_trace hj
    obtain ⟨_, hr, rfl | ⟨-, -, rfl⟩⟩ := hu.trace hr'
    · cases hj.symm.trans hr
      simp [HostedTrace.holds, hq] at hh
    · cases hj.symm.trans hr
      exact ⟨rfl, rfl, rfl, rfl⟩
  | unfetched hw | absent hw | dropped hw => exact h.setStage hw trivial
  | fetched hw => exact h.setStage hw (stageSound_examine _ _ _)
  | stored hw hwr => exact h.storeStep hsh hw hwr
  | admitted hw hu hst =>
    refine (h.admitted (h.admissionSound hw) hu).setStage hw ?_
    obtain rfl | ⟨rfl, -⟩ := hst <;> exact trivial
  | postponed hw => exact (h.postponed (h.admissionSound hw)).setStage hw trivial
  | admittedLate hl hu =>
    have had := h.admitted (h.outstanding _ (mem_of_getElem? hl)) hu
    exact { had with outstanding := fun a ha => had.outstanding a (mem_of_mem_eraseIdx ha) }
  | reconciled hw hst =>
    refine h.setStage hw ?_
    obtain rfl | rfl | ⟨rfl, -⟩ := hst <;> exact trivial
  | contentQueued hw | packageQueued hw =>
    exact (h.enqueue (h.entrySound hw rfl)).setStage hw trivial
  | failed hw =>
    obtain ⟨hi, hj, -⟩ := h.workers _ _ hw
    refine h.setWorker fun worker he => ?_
    obtain ⟨_, hn, rfl⟩ := map_eq_some_iff.mp he
    exact ⟨hi, hj, stageSound_failed hn⟩
  | rejected hw hu hn =>
    have hro := h.updatesPrivate hu fun r hp => by simp [HostedTrace.published, (holds_iff.mp hp).1]
    obtain ⟨hi, hj, -⟩ := hro.workers _ _ hw
    refine hro.setWorker fun worker he => ?_
    obtain rfl | ⟨rfl, -⟩ := hn
    · cases he
    · cases he
      exact ⟨hi, hj, trivial⟩
  | retried _ hu =>
    have hro := h.updatesPrivate hu fun r hp => by simp [HostedTrace.published, (holds_iff.mp hp).1]
    exact hro.setWorker fun _ he => by cases he
  | recovered hu =>
    refine h.updatesPrivate hu fun r hp => ?_
    simp only [and_eq_true, decide_eq_true_eq] at hp
    simp [HostedTrace.published, hp.1.1]
  | @purgedClaimed _ job =>
    have hq : (w.enqueuePrivateCleanupPair job).Sound svc :=
      (h.enqueuePrivate rfl).enqueuePrivate rfl
    exact hq.setWorker fun _ he => by cases he
  | unqueued => exact h.dequeue _
  | @decided key traceId _ hqu hun hse =>
    refine h.setCleaner fun cleaner id claim he hs => ?_
    cases he
    obtain ⟨rfl, hi⟩ := h.queue key traceId hqu id claim hs
    refine ⟨⟨hi, fun r hr => ?_⟩, fun r hr => ?_⟩
    · rw [hr] at hse
      exact holds_false_of_status (by simpa using hse) claim
    · rw [hr] at hun
      simpa using hun
  | removed hcl =>
    have hf := fun id claim hs => h.cleaners _ _ id claim hcl hs
    refine (h.removeObject hf).setCleaner fun cleaner id claim he hs => ?_
    cases he
    exact hf id claim hs
  | forgotten => exact (h.dequeue _).setCleaner fun _ _ _ he => by cases he
  | startDeletion =>
    refine h.setDeletion fun deletion key t he hin => ?_
    cases he
    exact h.intentSound hin
  | deleted hd => exact (h.deleted hd).setDeletion fun _ _ _ he => by cases he
  | @died process =>
    cases process with
    | worker => exact h.setWorker fun _ he => by cases he
    | cleaner => exact h.setCleaner fun _ _ _ he => by cases he
    | deletion => exact h.setDeletion fun _ _ _ he => by cases he
    | _ => exact h.frame
  | _ => exact h.frame

theorem empty (h : w.Empty) : w.Sound svc := by
  obtain ⟨accounts, rfl⟩ := h
  have hro : ∀ id r, ({ accounts } : World).trace id ≠ some r := fun _ _ => nofun
  exact ⟨fun id r _ hr => absurd hr (hro id r), fun _ _ hw => absurd hw nofun, nofun,
    fun _ _ hq => absurd hq nofun, fun _ _ _ _ hd => absurd hd nofun,
    fun _ _ _ _ hc => absurd hc nofun⟩

theorem scope_of_references (h : w.Sound svc) (hr : w.trace id = some r)
    (hre : r.references key = true) : ∃ claim, key.scope = some (id, claim) := by
  obtain ⟨stored, ha, hk⟩ := references_iff.mp hre
  obtain ⟨-, claim, _, _, -, rfl, -⟩ := h.rows id r stored hr ha
  obtain rfl | rfl := hk <;> exact ⟨claim, rfl⟩

end Sound

theorem put_there (h : w.objects key' ≠ none) :
    (w.putObject key bytes).objects key' ≠ none := by
  by_cases he : key' = key
  · simp [putObject, he]
  · simpa [putObject, update_of_ne he] using h

/-- Only a cleanup that has decided so removes an object. -/
theorem cleaner_of_removed {act : Act} (he : Effect svc w act w')
    (ht : w.objects key ≠ none) (hg : w'.objects key = none) :
    ∃ n, w.cleaners n = some ⟨key, false⟩ := by
  cases he with
  | uploaded | promoted => exact absurd hg (put_there ht)
  | stored _ hw =>
    refine absurd hg ?_
    unfold storeStep at hw
    split at hw
    · cases hw
      exact ht
    · cases hw
      exact ht
    · cases hw
      exact put_there ht
    · cases hw
      exact put_there ht
    · split at hw <;> cases hw <;> exact ht
    · cases hw
  | @removed n key' hc =>
    by_cases heq : key = key'
    · exact ⟨n, heq ▸ hc⟩
    · refine absurd ?_ ht
      have hs : ((w.removeObject key').setCleaner n (some ⟨key', true⟩)).objects key =
          w.objects key := update_of_ne heq _ _
      exact hs.symm.trans hg
  | @died process => cases process <;> exact absurd hg ht
  | _ => exact absurd hg ht

end World

/-- Whatever workers, stale or not, cleanups, uploads and account deletions do and wherever they
stop: the content and the package that a row references are there, with the bytes that the hosted
verifier took for the row's declared package, and no step removes them. -/
theorem published_bytes_kept (svc : Service) (hsha : Function.Injective svc.sha256Hex) (w : World)
    (h : (hosting svc World.Empty fun _ _ => True).Reachable w) :
    (∀ id r stored, w.trace id = some r → r.artifacts = some stored →
      ∃ archive content, w.objects stored.contentObjectKey = some content ∧
        w.objects stored.packageObjectKey = some archive ∧ svc.Accepts r archive content) ∧
    ∀ act w' id r key, w.step svc act = some w' → w.trace id = some r →
      r.references key = true → w.objects key ≠ none → w'.objects key ≠ none := by
  have hsound : w.Sound svc := by
    refine h.invariant (I := fun w => w.Sound svc) ?_ ?_
    · exact fun _ hempty => .empty hempty
    · rintro _ _ hw ⟨_, -, hstep⟩
      exact hw.step hsha (World.step_effect hstep)
  refine ⟨fun id r stored hr hstored => ?_,
    fun act w' id r key hstep hr hreferences hthere hgone => ?_⟩
  · obtain ⟨-, _, archive, content, -, -, haccepts, hcontent, hpackage⟩ :=
      hsound.rows id r stored hr hstored
    exact ⟨archive, content, hcontent, hpackage, haccepts⟩
  · obtain ⟨n, hcleaner⟩ := World.cleaner_of_removed (World.step_effect hstep) hthere hgone
    obtain ⟨claim, hscope⟩ := hsound.scope_of_references hr hreferences
    have hunreferenced := (hsound.cleaners n _ id claim hcleaner hscope).2 r hr
    rw [hreferences] at hunreferenced
    cases hunreferenced

/-- A worker takes a queued trace and publishes it. -/
def publish : List Act :=
  [.claimNextJob 0 "trc-1" "claim-1" 2, .fetch 0 false, .store 0, .store 0, .store 0, .store 0,
    .store 0, .admitStored 0 .reported]

/-- A trace is created, uploaded, verified and published. -/
theorem published_bytes_kept_sample :
    ∃ w r stored archive content, World.trace w "trc-1" = some r ∧ r.artifacts = some stored ∧
      w.objects stored.contentObjectKey = some content ∧
      w.objects stored.packageObjectKey = some archive ∧
      sampleService.Accepts r archive content := by
  have hrun : ((runAll (createTrace ++ completeUpload 0 ++ publish)).bind
      (·.trace "trc-1")).bind (·.artifacts) =
        some (sampleService.storedArtifacts "trc-1" "claim-1" [1, 2, 3] [1, 2, 3]) := by
    decide
  obtain ⟨r, hr, hstored⟩ := bind_eq_some_iff.mp hrun
  obtain ⟨w, hw, hr⟩ := bind_eq_some_iff.mp hr
  have hreach : (hosting sampleService World.Empty fun _ _ => True).Reachable w :=
    (Transition.System.Reachable.init World.empty_sample).runActs
      (fun s act t hallowed hstep => ⟨act, hallowed, hstep⟩) hw
  obtain ⟨archive, content, hrest⟩ :=
    (published_bytes_kept sampleService sampleService_sha256Hex_injective w hreach).1 "trc-1" r _ hr hstored
  exact ⟨w, r, _, archive, content, hr, hstored, hrest⟩

end Notary.Traces
