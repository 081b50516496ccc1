import Notary.Traces.PublishedBytes

/-! Public objects that nothing leads to any more: which cleanup decisions and account deletions
leave none behind. -/

namespace Notary.Traces
open Relational Function Option List Table
open Utf8 (Bytes)

/-- The public objects that a worker may still write. -/
def Worker.MayWrite (svc : Service) (worker : Worker) (key : ObjectKey) : Prop :=
  match worker.stage with
  | .claimed => key.scope = some (worker.job.traceId, worker.claim)
  | .storing archive content next =>
    let stored := svc.storedArtifacts worker.job.traceId worker.claim archive content
    (next.contentWritten = false ∧ key = stored.contentObjectKey) ∨
      (next.packageWritten = false ∧ key = stored.packageObjectKey)
  | _ => False

/-- The public objects that a worker has queued before it writes them. -/
def Worker.Announced (svc : Service) (worker : Worker) (key : ObjectKey) : Prop :=
  match worker.stage with
  | .storing archive content next =>
    let stored := svc.storedArtifacts worker.job.traceId worker.claim archive content
    (next ≠ .contentIntent ∧ key = stored.contentObjectKey) ∨
      (next ≠ .contentIntent ∧ next ≠ .packageIntent ∧ key = stored.packageObjectKey)
  | _ => False

variable {key : ObjectKey} {id claim : String} {traces : Table HostedTrace} {n : ℕ}
  {job : HostedTrace} {stage : WorkerStage}

namespace World

def References (w : World) (accountId : String) (key : ObjectKey) : Prop :=
  ∃ id r, w.trace id = some r ∧ r.accountId = accountId ∧ r.references key = true

/-- Something leads to the object: a row or the cleanup queue. -/
def Owned (w : World) (key : ObjectKey) : Prop :=
  (∃ accountId, w.References accountId key) ∨ (w.queue key).isSome = true

/-- The deletion of the account has run its first statement and not its second. -/
def Deleting (w : World) (accountId : String) : Prop :=
  ∃ n deletion, w.deletions n = some deletion ∧ deletion.accountId = accountId

/-- No cleanup takes an object that a worker has still to write, and while an account is being
deleted none of its traces is admitted and no entry of an object that it references is dropped. -/
def Undisturbed (svc : Service) (w : World) : Act → Prop
  | .decideCleanup _ key =>
    (∀ n worker, w.workers n = some worker → ¬worker.MayWrite svc key) ∧
      ∀ accountId, w.References accountId key → ¬w.Deleting accountId
  | .admitStored n _ => ∀ worker r, w.workers n = some worker →
    w.trace worker.job.traceId = some r → admissible worker.claim r = true → ¬w.Deleting r.accountId
  | .admitLate index => ∀ a r, w.outstanding[index]? = some a →
    w.trace a.traceId = some r → admissible a.claim r = true → ¬w.Deleting r.accountId
  | _ => True

structure Covered (w : World) (svc : Service) : Prop where
  objects : ∀ key, key.scope.isSome = true → w.objects key ≠ none → w.Owned key
  writers : ∀ n worker key, w.workers n = some worker → worker.MayWrite svc key →
    worker.Announced svc key → w.Owned key
  /-- Nobody writes what a cleanup has decided to take. -/
  cleaners : ∀ n cleaner m worker, w.cleaners n = some cleaner → w.workers m = some worker →
    ¬worker.MayWrite svc cleaner.objectKey
  removed : ∀ n key, w.cleaners n = some ⟨key, true⟩ → key.scope.isSome = true →
    w.objects key = none
  deletions : ∀ n deletion key, w.deletions n = some deletion →
    w.References deletion.accountId key →
    (w.queue key).isSome = true ∨ (deletion.intent key).isSome = true

variable {svc : Service} {w w' : World}

theorem Owned.mono (h : w.Owned key)
    (hr : ∀ accountId, w.References accountId key → w'.References accountId key)
    (hq : (w.queue key).isSome = true → (w'.queue key).isSome = true) : w'.Owned key := by
  obtain ⟨accountId, hre⟩ | he := h
  · exact .inl ⟨accountId, hr accountId hre⟩
  · exact .inr (hq he)

theorem Updates.references (h : w.Updates id p f traces) (accountId : String) (key : ObjectKey)
    (hi : ∀ r : HostedTrace, (f r).traceId = r.traceId := by intro; rfl)
    (hac : ∀ r : HostedTrace, (f r).accountId = r.accountId := by intro; rfl)
    (ha : ∀ r : HostedTrace, (f r).artifacts = r.artifacts := by intro; rfl) :
    ({ w with traces } : World).References accountId key ↔ w.References accountId key := by
  constructor
  · rintro ⟨k, r', hr', rfl, hre⟩
    obtain ⟨r, hr, rfl | ⟨-, -, rfl⟩⟩ := h.trace hr' hi
    · exact ⟨k, r', hr, rfl, hre⟩
    · exact ⟨k, r, hr, (hac r).symm, by rwa [references_of_artifacts (ha r)] at hre⟩
  · rintro ⟨k, r, hr, rfl, hre⟩
    obtain ⟨r', hr', rfl | ⟨-, rfl⟩⟩ := h.trace_of hr hi
    · exact ⟨k, r', hr', rfl, hre⟩
    · exact ⟨k, f r, hr', hac r, by rwa [references_of_artifacts (ha r)]⟩

theorem Updates.references_admitted
    (h : w.Updates id (admissible claim) (·.admitted stored) traces) :
    (w.References accountId key → ({ w with traces } : World).References accountId key) ∧
      (({ w with traces } : World).References accountId key → w.References accountId key ∨
        ∃ r, w.trace id = some r ∧ admissible claim r = true ∧ r.accountId = accountId) := by
  constructor
  · rintro ⟨k, _, hr, rfl, hre⟩
    obtain ⟨r', hr', rfl | ⟨hp, -⟩⟩ := h.trace_of hr
    · exact ⟨k, r', hr', rfl, hre⟩
    · simp [HostedTrace.references, (admissible_iff.mp hp).2] at hre
  · rintro ⟨k, r', hr', rfl, hre⟩
    obtain ⟨r, hr, rfl | ⟨rfl, hp, rfl⟩⟩ := h.trace hr'
    · exact .inl ⟨k, r', hr, rfl, hre⟩
    · exact .inr ⟨r, hr, hp, rfl⟩

theorem Written.references {traceIds : List String}
    (h : w.Written svc request now target generation traces traceIds) (accountId : String)
    (key : ObjectKey) :
    ({ w with traces } : World).References accountId key ↔ w.References accountId key := by
  cases h with
  | kept => exact Iff.rfl
  | inserted _ _ _ hi =>
    have hf := find?_of_insert hi
    constructor
    · rintro ⟨k, r, hr, ha, hre⟩
      rw [World.trace, hf k] at hr
      split at hr
      · cases hr
        simp [HostedTrace.references, HostedTrace.create] at hre
      · exact ⟨k, r, hr, ha, hre⟩
    · rintro ⟨k, r, hr, ha, hre⟩
      refine ⟨k, r, ?_, ha, hre⟩
      rw [World.trace, hf k]
      obtain ⟨hm, hk⟩ := find?_eq_some.mp hr
      rw [if_neg (fun he => fresh_of_insert hi hm (hk.trans he.symm)), ← hr]
      rfl
  | reopened hu => exact hu.references accountId key

theorem isSome_enqueue (h : (w.queue key').isSome = true) :
    ((w.enqueue key traceId).queue key').isSome = true := by
  by_cases he : key' = key
  · simp [enqueue, he]
  · simpa [enqueue, update_of_ne he] using h

namespace Covered

section

variable (h : w.Covered svc)
include h

/-- Steps that keep every reference, every entry and every object, and all that is under way. -/
theorem calm (hr : ∀ accountId key, w'.References accountId key ↔ w.References accountId key)
    (hq : ∀ key, (w.queue key).isSome = true → (w'.queue key).isSome = true)
    (ho : ∀ key, key.scope.isSome = true → w'.objects key = w.objects key := by intros; rfl)
    (hwo : w'.workers = w.workers := by rfl) (hcl : w'.cleaners = w.cleaners := by rfl)
    (hd : w'.deletions = w.deletions := by rfl) : w'.Covered svc := by
  have hon : ∀ {key}, w.Owned key → w'.Owned key := fun hk => hk.mono (fun a => (hr a _).mpr) (hq _)
  refine ⟨fun key hp ht => ?_, fun n worker key hw hwr ha => ?_,
    fun n cleaner m worker hc hw => ?_, fun n key hc hp => ?_,
    fun n deletion key hde hre => ?_⟩
  · rw [ho key hp] at ht
    exact hon (h.objects key hp ht)
  · exact hon (h.writers n worker key (hwo ▸ hw) hwr ha)
  · exact h.cleaners n cleaner m worker (hcl ▸ hc) (hwo ▸ hw)
  · rw [ho key hp]
    exact h.removed n key (hcl ▸ hc) hp
  · exact (h.deletions n deletion key (hd ▸ hde) ((hr _ key).mp hre)).imp_left (hq key)

theorem frame (ht : w'.traces = w.traces := by rfl)
    (hq : w'.queue = w.queue := by rfl) (ho : w'.objects = w.objects := by rfl)
    (hw : w'.workers = w.workers := by rfl) (hc : w'.cleaners = w.cleaners := by rfl)
    (hd : w'.deletions = w.deletions := by rfl) : w'.Covered svc := by
  refine h.calm (fun accountId key => ?_) (fun _ => by rw [hq]; exact id)
    (fun _ _ => by rw [ho]) hw hc hd
  simp only [References, trace, ht]

theorem enqueue (key : ObjectKey) (traceId : String) : (w.enqueue key traceId).Covered svc :=
  h.calm (fun _ _ => Iff.rfl) fun _ => isSome_enqueue

theorem updates (hu : w.Updates id p f traces)
    (hi : ∀ r : HostedTrace, (f r).traceId = r.traceId := by intro; rfl)
    (hac : ∀ r : HostedTrace, (f r).accountId = r.accountId := by intro; rfl)
    (ha : ∀ r : HostedTrace, (f r).artifacts = r.artifacts := by intro; rfl) :
    { w with traces }.Covered svc :=
  h.calm (fun a k => hu.references a k hi hac ha) fun _ he => he

theorem setWorker (hn : ∀ worker key, new = some worker → worker.MayWrite svc key →
      (∀ m cleaner, w.cleaners m = some cleaner → cleaner.objectKey ≠ key) ∧
        (worker.Announced svc key → w.Owned key)) : (w.setWorker n new).Covered svc := by
  refine { h with
    writers := fun m worker key hm hw ha => ?_
    cleaners := fun m cleaner k worker hc hk hw => ?_ }
  · obtain ⟨-, he⟩ | ⟨-, ho⟩ := slot_of_update hm
    · exact (hn worker key he hw).2 ha
    · exact h.writers m worker key ho hw ha
  · obtain ⟨-, he⟩ | ⟨-, ho⟩ := slot_of_update hk
    · exact (hn worker _ he hw).1 m cleaner hc rfl
    · exact h.cleaners m cleaner k worker hc ho hw

theorem setStage (hw : w.workers n = some ⟨job, claim, old⟩)
    (hs : ∀ key, (⟨job, claim, stage⟩ : Worker).MayWrite svc key →
      (⟨job, claim, old⟩ : Worker).MayWrite svc key ∧
        ((⟨job, claim, stage⟩ : Worker).Announced svc key → w.Owned key)) :
    (w.setWorker n (some ⟨job, claim, stage⟩)).Covered svc := by
  refine h.setWorker fun worker key he hwr => ?_
  cases he
  obtain ⟨ho, ha⟩ := hs key hwr
  refine ⟨fun m cleaner hc he => ?_, ha⟩
  exact h.cleaners m cleaner n _ hc hw (he ▸ ho)

theorem endWrites (hn : ∀ worker key, new = some worker → ¬worker.MayWrite svc key) :
    (w.setWorker n new).Covered svc :=
  h.setWorker fun worker key he hw => absurd hw (hn worker key he)

theorem putObject (hw : w.workers n = some worker) (hwr : worker.MayWrite svc key)
    (ha : worker.Announced svc key) : (w.putObject key bytes).Covered svc := by
  have ho : ∀ {key'}, key' ≠ key → (w.putObject key bytes).objects key' = w.objects key' :=
    fun hn => update_of_ne hn _ _
  refine { h with objects := fun key' hp ht => ?_, removed := fun m key' hc hp => ?_ }
  · by_cases he : key' = key
    · subst he
      exact h.writers n worker key' hw hwr ha
    · exact h.objects key' hp (ho he ▸ ht)
  · have hn : key' ≠ key := by
      rintro rfl
      exact h.cleaners m _ n worker hc hw hwr
    exact (ho hn).trans (h.removed m key' hc hp)

/-- The entry of an object that a row references may go, unless its account is being deleted. -/
theorem dequeueReferenced (hre : ∃ accountId, w.References accountId key)
    (hde : ∀ accountId, w.References accountId key → ¬w.Deleting accountId) :
    (w.dequeue key).Covered svc := by
  have ho : ∀ {key'}, key' ≠ key → (w.dequeue key).queue key' = w.queue key' :=
    fun hn => update_of_ne hn _ _
  have hon : ∀ {key'}, w.Owned key' → (w.dequeue key).Owned key' := by
    intro key' hk'
    by_cases heq : key' = key
    · subst heq
      exact .inl hre
    · exact hk'.imp_right fun he => by rwa [ho heq]
  refine { h with
    objects := fun key' hp ht => hon (h.objects key' hp ht)
    writers := fun n worker key' hw hwr ha => hon (h.writers n worker key' hw hwr ha)
    deletions := fun n deletion key' hd hr => ?_ }
  have hn : key' ≠ key := by
    rintro rfl
    exact hde _ hr ⟨n, deletion, hd, rfl⟩
  rw [ho hn]
  exact h.deletions n deletion key' hd hr

/-- An admission of a trace whose account is not being deleted. -/
theorem admitted (hu : w.Updates id (admissible claim) (·.admitted stored) traces)
    (hde : ∀ r, w.trace id = some r → admissible claim r = true →
      ¬w.Deleting r.accountId) : { w with traces }.Covered svc := by
  have ho : ∀ {key}, w.Owned key → ({ w with traces } : World).Owned key :=
    fun hk => hk.mono (fun _ => hu.references_admitted.1) fun he => he
  refine { h with
    objects := fun key hpu ht => ho (h.objects key hpu ht)
    writers := fun n worker key hw hwr han => ho (h.writers n worker key hw hwr han)
    deletions := fun n deletion key hd hre => ?_ }
  obtain hol | ⟨r, hr, hp, ha⟩ := hu.references_admitted.2 hre
  · exact h.deletions n deletion key hd hol
  · exact absurd ⟨n, deletion, hd, ha.symm⟩ (hde r hr hp)

theorem setCleaner (hn : ∀ cleaner, new = some cleaner →
      (∀ m worker, w.workers m = some worker → ¬worker.MayWrite svc cleaner.objectKey) ∧
        (cleaner.removed = true → w.objects cleaner.objectKey = none)) :
    (w.setCleaner n new).Covered svc := by
  refine { h with cleaners := fun m cleaner k worker hm hw => ?_, removed := fun m key hm hp => ?_ }
  · obtain ⟨-, he⟩ | ⟨-, ho⟩ := slot_of_update hm
    · exact (hn cleaner he).1 k worker hw
    · exact h.cleaners m cleaner k worker ho hw
  · obtain ⟨-, he⟩ | ⟨-, ho⟩ := slot_of_update hm
    · exact (hn _ he).2 rfl
    · exact h.removed m key ho hp

theorem removeObject (key : ObjectKey) : (w.removeObject key).Covered svc := by
  have hg : ∀ {key'}, w.objects key' = none → (w.removeObject key).objects key' = none := by
    intro key' hn
    by_cases he : key' = key
    · simp [World.removeObject, he]
    · simpa [World.removeObject, update_of_ne he] using hn
  exact { h with
    objects := fun key' hp ht => h.objects key' hp fun hn => ht (hg hn)
    removed := fun n key' hc hp => hg (h.removed n key' hc hp) }

/-- The end of a cleanup: its object is gone, nobody writes it, and no row references it. -/
theorem forgotten (hs : w.Sound svc)
    (hc : w.cleaners n = some ⟨key, true⟩) : (w.dequeue key).Covered svc := by
  have ho : ∀ {key'}, key' ≠ key → (w.dequeue key).queue key' = w.queue key' :=
    fun hn => update_of_ne hn _ _
  have hon : ∀ {key'}, key' ≠ key → w.Owned key' → (w.dequeue key).Owned key' :=
    fun hn hk' => hk'.imp_right fun he => by rwa [ho hn]
  refine { h with
    objects := fun key' hp ht => ?_
    writers := fun m worker key' hw hwr ha => ?_
    deletions := fun m deletion key' hd hrf => ?_ }
  · have hn : key' ≠ key := by
      rintro rfl
      exact ht (h.removed n key' hc hp)
    exact hon hn (h.objects key' hp ht)
  · have hn : key' ≠ key := by
      rintro rfl
      exact h.cleaners n _ m worker hc hw hwr
    exact hon hn (h.writers m worker key' hw hwr ha)
  · have hn : key' ≠ key := by
      rintro rfl
      obtain ⟨id, r, hr, -, hre⟩ := hrf
      obtain ⟨claim, hsc⟩ := hs.scope_of_references hr hre
      have hf := (hs.cleaners n _ id claim hc hsc).2 r hr
      rw [hre] at hf
      cases hf
    rw [ho hn]
    exact h.deletions m deletion key' hd hrf

theorem setDeletion
    (hn : ∀ deletion key, new = some deletion → w.References deletion.accountId key →
      (w.queue key).isSome = true ∨ (deletion.intent key).isSome = true) :
    (w.setDeletion n new).Covered svc := by
  refine { h with deletions := fun m deletion key hm hr => ?_ }
  obtain ⟨-, he⟩ | ⟨-, ho⟩ := slot_of_update hm
  · exact hn deletion key he hr
  · exact h.deletions m deletion key ho hr

end

end Covered

/-- The first statement of a deletion adds what a trace of the account references and the queue
does not have. -/
theorem intent_of_references (hrf : w.References accountId key) (hq : w.queue key = none) :
    ((⟨accountId, w.leftKeys accountId⟩ : Deletion).intent key).isSome = true := by
  obtain ⟨_, r, hr, hac, hre⟩ := hrf
  have hm : r ∈ w.traces.rows := (find?_eq_some.mp hr).1
  have hk : key ∈ r.objectKeys := by
    obtain ⟨_, ha, rfl | rfl⟩ := HostedTrace.references_iff.mp hre <;>
      simp [HostedTrace.objectKeys, ha]
  rw [Deletion.intent, isSome_map, find?_isSome]
  refine ⟨(key, r.traceId), ?_, by simp⟩
  simp only [leftKeys, mem_filter, mem_flatMap, List.mem_map, Prod.mk.injEq]
  exact ⟨⟨r, ⟨hm, by simpa using hac⟩, key, hk, rfl, rfl⟩, by simp [hq]⟩

/-- The rows of a deleted account go, and what they referenced is in the queue. -/
theorem Covered.deleted (h : w.Covered svc) (hde : w.deletions n = some deletion) :
    (w.deleteAccount deletion).Covered svc := by
  have ho : ∀ {key}, w.Owned key → (w.deleteAccount deletion).Owned key := by
    intro key hke
    obtain ⟨accountId, hrf⟩ | he := hke
    · by_cases heq : accountId = deletion.accountId
      · have hl := h.deletions n deletion key hde (heq ▸ hrf)
        exact .inr (by simpa [deleteAccount] using hl)
      · obtain ⟨id, r, hr, ha, hre⟩ := hrf
        refine .inl ⟨accountId, id, r, ?_, ha, hre⟩
        have hk : (decide (r.accountId = deletion.accountId)) = false := by simpa [ha] using heq
        obtain ⟨hm, hi⟩ := find?_eq_some.mp hr
        exact find?_eq_some.mpr ⟨mem_delete.mpr ⟨hm, hk⟩, hi⟩
    · exact .inr (by simp [deleteAccount, he])
  refine { h with
    objects := fun key hp ht => ho (h.objects key hp ht)
    writers := fun m worker key hw hwr han => ho (h.writers m worker key hw hwr han)
    deletions := fun m d key hd hrf => ?_ }
  obtain ⟨id, r, hr, ha, hre⟩ := hrf
  have hol := h.deletions m d key hd ⟨id, r, trace_of_delete hr, ha, hre⟩
  exact hol.imp_left fun he => by simp [deleteAccount, he]

theorem mayWrite_examine (h : (⟨job, claim, svc.examine job archive⟩ : Worker).MayWrite svc key) :
    key.scope = some (job.traceId, claim) ∧
      ¬(⟨job, claim, svc.examine job archive⟩ : Worker).Announced svc key := by
  obtain ⟨_, he, -⟩ | ⟨_, he, -⟩ := svc.examine_cases job archive
  · rw [he] at h
    cases h
  · rw [he] at h ⊢
    refine ⟨?_, by simp [Worker.Announced]⟩
    obtain ⟨-, rfl⟩ | ⟨-, rfl⟩ := h <;> rfl

theorem mayWrite_failed
    (h : stage.failed.map (⟨job, claim, ·⟩ : WorkerStage → Worker) = some worker) :
    ¬worker.MayWrite svc key := by
  obtain ⟨_, hn, rfl⟩ := map_eq_some_iff.mp h
  unfold WorkerStage.failed at hn
  split at hn <;> cases hn <;> exact not_false

namespace Covered

theorem storeStep (h : w.Covered svc) {archive content : Bytes} {next : StoreStep}
    (hwo : w.workers n = some ⟨job, claim, .storing archive content next⟩)
    (hw : w.storeStep (svc.storedArtifacts job.traceId claim archive content) job.traceId
      archive content next = some (w', stage)) :
    (w'.setWorker n (some ⟨job, claim, stage⟩)).Covered svc := by
  cases next with
  | contentIntent =>
    cases hw
    refine (h.enqueue _ _).setStage hwo fun key hwr => ⟨hwr, fun ha => ?_⟩
    obtain ⟨-, rfl⟩ | ⟨-, hn, -⟩ := ha
    · exact .inr (by simp [World.enqueue])
    · exact absurd rfl hn
  | packageIntent =>
    cases hw
    refine (h.enqueue _ _).setStage hwo fun key hwr => ⟨hwr, fun ha => ?_⟩
    obtain ⟨-, hk⟩ | ⟨-, -, rfl⟩ := ha
    · have ho := h.writers n _ key hwo hwr (.inl ⟨(by simp), hk⟩)
      exact ho.mono (fun _ hr => hr) isSome_enqueue
    · exact .inr (by simp [World.enqueue])
  | writeContent =>
    cases hw
    have hp : (w.putObject (svc.storedArtifacts job.traceId claim archive
        content).contentObjectKey content).Covered svc :=
      h.putObject hwo (.inl ⟨rfl, rfl⟩) (.inl ⟨(by simp), rfl⟩)
    refine hp.setStage hwo fun key hwr => ?_
    obtain ⟨hf, -⟩ | ⟨-, rfl⟩ := hwr
    · cases hf
    · exact ⟨.inr ⟨rfl, rfl⟩, fun _ =>
        h.writers n _ _ hwo (.inr ⟨rfl, rfl⟩) (.inr ⟨(by simp), (by simp), rfl⟩)⟩
  | writePackage =>
    cases hw
    have hp : (w.putObject (svc.storedArtifacts job.traceId claim archive
        content).packageObjectKey archive).Covered svc :=
      h.putObject hwo (.inr ⟨rfl, rfl⟩) (.inr ⟨(by simp), (by simp), rfl⟩)
    refine hp.endWrites fun worker key he hwr => ?_
    cases he
    obtain ⟨hf, -⟩ | ⟨hf, -⟩ := hwr <;> cases hf
  | checkPackage =>
    simp only [World.storeStep] at hw
    split at hw
    · cases hw
      refine h.endWrites fun worker key he hwr => ?_
      cases he
      obtain ⟨hf, -⟩ | ⟨hf, -⟩ := hwr <;> cases hf
    · cases hw
      refine h.endWrites fun worker key he hwr => ?_
      cases he
      exact hwr
  | admission => cases hw

theorem endStage (h : w.Covered svc)
    (hs : ∀ key, ¬(⟨job, claim, stage⟩ : Worker).MayWrite svc key) :
    (w.setWorker n (some ⟨job, claim, stage⟩)).Covered svc := by
  refine h.endWrites fun worker key he => ?_
  cases he
  exact hs key

theorem step (h : w.Covered svc) (hso : w.Sound svc) {act : Act}
    (ha : w.Undisturbed svc act) (hef : Effect svc w act w') : w'.Covered svc := by
  cases hef with
  | committed _ hwr => exact h.calm hwr.references fun _ hen => hen
  | reactivated hu | accessUpdated hu | stopped hu | recovered hu => exact h.updates hu
  | uploaded | promoted =>
    refine h.calm (fun _ _ => Iff.rfl) (fun _ hen => hen) fun key hk => ?_
    exact update_of_ne (by rintro rfl; cases hk) _ _
  | expired _ _ hu =>
    have hro := h.updates hu
    exact (hro.enqueue _ _).enqueue _ _
  | @queued _ job _ _ hu =>
    have hro := h.updates hu
    exact (hro.enqueue job.stagingObjectKey job.traceId).frame
  | @leftPair _ job | @purgedVerified _ job =>
    have hq : (w.enqueuePrivateCleanupPair job).Covered svc := (h.enqueue _ _).enqueue _ _
    exact hq.frame
  | @leftCopy _ job => exact (h.enqueue job.committedStagingObjectKey job.traceId).frame
  | @claimed _ _ claim _ _ traces _ hf _ _ hu =>
    have hro : { w with traces, claims := claim :: w.claims }.Covered svc := (h.updates hu).frame
    refine hro.setWorker fun worker key he hwt => ?_
    cases he
    refine ⟨fun m cleaner hc he => ?_, False.elim⟩
    -- A cleanup takes objects of claims that were given out before.
    exact hf (hso.cleaners m cleaner _ _ hc (he ▸ hwt)).1.1
  | unfetched | absent | dropped => exact h.endStage fun _ => not_false
  | fetched hw =>
    refine h.setStage hw fun key hwt => ?_
    obtain ⟨hsc, hno⟩ := mayWrite_examine hwt
    exact ⟨hsc, fun han => absurd han hno⟩
  | stored hw hwr => exact h.storeStep hw hwr
  | admitted hw hu hs =>
    refine (h.admitted hu fun r => ha _ r hw).endStage fun key => ?_
    obtain rfl | ⟨rfl, -⟩ := hs <;> exact not_false
  | @postponed n job claim archive content =>
    have hrc : (w.setWorker n (some ⟨job, claim, .reconciling archive content⟩)).Covered svc :=
      h.endStage fun _ => not_false
    exact hrc.frame
  | admittedLate hl hu => exact (h.admitted hu fun r => ha _ r hl).frame
  | reconciled _ hs =>
    refine h.endStage fun key => ?_
    obtain rfl | rfl | ⟨rfl, -⟩ := hs <;> exact not_false
  | contentQueued | packageQueued => exact (h.enqueue _ _).endStage fun _ => not_false
  | failed => exact h.endWrites fun worker key he => mayWrite_failed he
  | rejected _ hu hne =>
    have hro := h.updates hu
    refine hro.endWrites fun worker key he => ?_
    obtain rfl | ⟨rfl, -⟩ := hne
    · cases he
    · cases he
      exact not_false
  | retried _ hu =>
    have hro := h.updates hu
    exact hro.endWrites fun _ _ he => by cases he
  | @purgedClaimed _ job =>
    have hq : (w.enqueuePrivateCleanupPair job).Covered svc := (h.enqueue _ _).enqueue _ _
    exact hq.endWrites fun _ _ he => by cases he
  | unqueued _ hre =>
    refine h.dequeueReferenced ?_ ha.2
    obtain ⟨r, hr⟩ := isSome_iff_exists.mp (isSome_of_any hre)
    rw [hr] at hre
    exact ⟨_, _, r, hr, rfl, hre⟩
  | decided =>
    refine h.setCleaner fun cleaner he => ?_
    cases he
    exact ⟨ha.1, nofun⟩
  | removed hc =>
    refine (h.removeObject _).setCleaner fun cleaner he => ?_
    have hn := fun m worker => h.cleaners _ _ m worker hc
    cases he
    exact ⟨hn, fun _ => update_self _ _ _⟩
  | forgotten hc => exact (h.forgotten hso hc).setCleaner fun _ he => by cases he
  | startDeletion =>
    refine h.setDeletion fun deletion key he hrf => ?_
    cases he
    cases hqu : w.queue key with
    | none => exact .inr (intent_of_references hrf hqu)
    | some => exact .inl rfl
  | deleted hd => exact (h.deleted hd).setDeletion fun _ _ he => by cases he
  | @died process =>
    cases process with
    | worker => exact h.endWrites fun _ _ he => by cases he
    | cleaner => exact h.setCleaner fun _ he => by cases he
    | deletion => exact h.setDeletion fun _ _ he => by cases he
    | _ => exact h.frame
  | _ => exact h.frame

theorem empty (h : w.Empty) : w.Covered svc := by
  obtain ⟨accounts, rfl⟩ := h
  have hro : ∀ accountId key, ¬({ accounts } : World).References accountId key := by
    rintro _ _ ⟨_, _, hr, -⟩
    cases hr
  exact ⟨fun _ _ ht => absurd rfl ht, fun _ _ _ hw => absurd hw nofun,
    fun _ _ _ _ hc => absurd hc nofun, fun _ _ hc => absurd hc nofun,
    fun _ _ key _ hre => absurd hre (hro _ key)⟩

end Covered

end World

/-- Where no cleanup takes an object that a worker has still to write, and nothing comes between
the two statements of an account deletion, every content or package object in the store is
referenced by a row or is in the cleanup queue, whatever stops and wherever. -/
theorem no_orphaned_artifact (svc : Service) (hsha : Function.Injective svc.sha256Hex) (w : World)
    (h : (hosting svc World.Empty (World.Undisturbed svc)).Reachable w) (key : ObjectKey)
    (hkey : key.scope.isSome = true) (hthere : w.objects key ≠ none) :
    (∃ id r, w.trace id = some r ∧ r.references key = true) ∨ w.queue key ≠ none := by
  have hinv : w.Sound svc ∧ w.Covered svc := by
    refine h.invariant (I := fun w => w.Sound svc ∧ w.Covered svc) ?_ ?_
    · exact fun _ hempty => ⟨.empty hempty, .empty hempty⟩
    · rintro _ _ ⟨hsound, hcovered⟩ ⟨_, hallowed, hstep⟩
      have heffect := World.step_effect hstep
      exact ⟨hsound.step hsha heffect, hcovered.step hsound hallowed heffect⟩
  obtain ⟨_, id, r, hr, -, hreferences⟩ | hentry := hinv.2.objects key hkey hthere
  · exact .inl ⟨id, r, hr, hreferences⟩
  · exact .inr (isSome_iff_ne_none.mp hentry)

def Act.harmless : Act → Bool
  | decideCleanup _ _ | admitStored _ _ | admitLate _ => false
  | _ => true

theorem Act.harmless_undisturbed {w : World} (h : act.harmless = true) : w.Undisturbed svc act := by
  cases act with
  | decideCleanup | admitStored | admitLate => cases h
  | _ => trivial

/-- A worker publishes a trace, and a cleanup drops the entry of its content. -/
theorem no_orphaned_artifact_sample :
    ∃ w, World.objects w (.content "trc-1" "claim-1" sampleDigest) = some [1, 2, 3] ∧
      w.queue (.content "trc-1" "claim-1" sampleDigest) = none ∧
      ((∃ id r, w.trace id = some r ∧
          r.references (.content "trc-1" "claim-1" sampleDigest) = true) ∨
        w.queue (.content "trc-1" "claim-1" sampleDigest) ≠ none) := by
  have hstored :
      (hosting sampleService World.Empty (World.Undisturbed sampleService)).Reachable _ :=
    (Transition.System.Reachable.init World.empty_sample).runActs
      (fun s act t hallowed hstep => ⟨act, act.harmless_undisturbed hallowed, hstep⟩)
      (show Transition.System.runActs (World.step sampleService) (fun _ act => act.harmless) .sample
        (createTrace ++ completeUpload 0 ++ publish.dropLast) = some _ from rfl)
  have hadmitted := hstored.step ⟨.admitStored 0 .reported, fun _ _ _ _ _ => nofun, rfl⟩
  have hcleaned := hadmitted.step
    ⟨.decideCleanup 0 (.content "trc-1" "claim-1" sampleDigest),
      ⟨fun n worker hw => ?_, fun _ _ => nofun⟩, rfl⟩
  · exact ⟨_, rfl, rfl, no_orphaned_artifact sampleService sampleService_sha256Hex_injective _
      hcleaned _ rfl nofun⟩
  · cases n with
    | zero =>
      cases hw
      exact id
    | succ => cases hw

/-- A worker queues its intents and stalls; its claim goes stale, and a cleanup takes the entry of
the content before the worker writes it. Then the worker dies. -/
def cleanedTooEarly : List Act :=
  createTrace ++ completeUpload 0 ++
    [.claimNextJob 0 "trc-1" "claim-1" 2, .fetch 0 false, .store 0, .store 0,
      .recoverStaleClaim "trc-1" 1000,
      .decideCleanup 0 (.content "trc-1" "claim-1" sampleDigest), .deleteObject 0, .forgetObject 0,
      .store 0, .die (.worker 0)]

theorem cleanup_orphans_artifact :
    ∃ w, runAll cleanedTooEarly = some w ∧
      (∀ n, w.workers n = none) ∧ (∀ n, w.deletions n = none) ∧
      w.objects (.content "trc-1" "claim-1" sampleDigest) = some [1, 2, 3] ∧
      w.queue (.content "trc-1" "claim-1" sampleDigest) = none ∧
      ∀ id r, w.trace id = some r →
        r.references (.content "trc-1" "claim-1" sampleDigest) = false := by
  refine ⟨_, rfl, fun n => ?_, fun n => rfl, rfl, rfl, fun id r hr => ?_⟩
  · cases n with
    | zero | succ => rfl
  · obtain ⟨hmem, -⟩ := find?_eq_some.mp hr
    cases mem_singleton.mp hmem
    rfl

end Notary.Traces
