import Notary.Lib.TableTotal
import Notary.Traces.Effects

/-! The storage allowance: no interleaving of requests and workers takes an account's stored
traces over the limit of its plan. -/

namespace Notary.Traces
open Relational Bool Function Table HostedTrace

/-- What a row adds to the stored bytes of an account. -/
def HostedTrace.weight (accountId : String) (r : HostedTrace) : ℤ :=
  if r.accountId = accountId && r.status.stored then r.declaredPackageSizeBytes else 0

/-- Nothing changes the columns that a trace is declared with. -/
structure HostedTrace.SameTrace (r r' : HostedTrace) : Prop where
  traceId : r'.traceId = r.traceId
  accountId : r'.accountId = r.accountId
  sourceTraceId : r'.sourceTraceId = r.sourceTraceId
  size : r'.declaredPackageSizeBytes = r.declaredPackageSizeBytes

variable {w : World} {accountId : String} {r : HostedTrace} {limit now : ℤ} {call : UploadCall}
  {traces : Table HostedTrace} {n : ℕ} {request : CreateHostedTraceRequest} {svc : Service}

namespace World

theorem storedBytes_eq (w : World) (accountId : String) :
    w.storedBytes accountId = w.traces.total (HostedTrace.weight accountId) := by
  unfold storedBytes Table.total
  induction w.traces.rows with
  | nil => rfl
  | cons r _ ih =>
    by_cases hr : (r.accountId = accountId && r.status.stored) = true
    · simp [hr, HostedTrace.weight, ih]
    · simp [hr, HostedTrace.weight, ih]

theorem bySource_eq_some {sourceTraceId : String}
    (h : w.bySource accountId sourceTraceId = some r) :
    r ∈ w.traces ∧ r.accountId = accountId ∧ r.sourceTraceId = sourceTraceId := by
  have hc := List.find?_some h
  simp only [and_eq_true, decide_eq_true_eq] at hc
  exact ⟨List.mem_of_find?_eq_some h, hc⟩

theorem bySource_isSome {sourceTraceId : String} :
    (w.bySource accountId sourceTraceId).isSome = true ↔
      ∃ r ∈ w.traces, r.accountId = accountId ∧ r.sourceTraceId = sourceTraceId := by
  simp [bySource, List.find?_isSome, mem_def]

end World

theorem HostedTrace.weight_nonneg (hr : r ∈ w.traces) : 0 ≤ r.weight accountId := by
  unfold weight
  split
  · exact (Table.check hr).1.le
  · exact le_rfl

/-- The size that the transaction of a call is about to store. -/
def UploadCall.size (call : UploadCall) : ℤ :=
  match call.target with
  | .insert _ => call.request.packageSizeBytes
  | .reopen job => job.declaredPackageSizeBytes

/-- What a call under way may rely on. A call that has checked the allowance finds room for its
size, one that leaves its source alone finds it stored, and one that opens a row again finds the
row it read, unless the account is gone. -/
structure World.Fits (w : World) (accountId : String) (limit : ℤ) (call : UploadCall) : Prop where
  room : ∀ generation, call.stage = .checked (some generation) →
    w.storedBytes accountId + call.size ≤ limit
  stored : ∀ jobId, call.target = .insert jobId → call.stage = .checked none →
    w.accounts accountId = false ∨
      (w.bySource call.request.accountId call.request.sourceTraceId).isSome = true
  read : ∀ job, call.target = .reopen job → w.accounts accountId = false ∨
    ∃ r ∈ w.traces, r.traceId = job.traceId ∧ r.accountId = accountId ∧
      r.declaredPackageSizeBytes = job.declaredPackageSizeBytes

structure World.Within (w : World) (accountId : String) (limit : ℤ) : Prop where
  sum : w.storedBytes accountId ≤ limit
  owned : ∀ r ∈ w.traces, w.accounts r.accountId = true
  locked : ∀ n call, w.calls n = some call → call.stage ≠ .waiting →
    w.locks call.request.accountId = some n
  fits : ∀ n call, w.calls n = some call → call.request.accountId = accountId →
    w.Fits accountId limit call

/-- What a call relies on survives writes that keep every trace and take no room. -/
theorem World.Fits.mono {w' : World} (h : w.Fits accountId limit call)
    (hsu : w'.storedBytes accountId ≤ w.storedBytes accountId) (hac : w'.accounts = w.accounts)
    (hk : ∀ r ∈ w.traces, ∃ r' ∈ w'.traces, r.SameTrace r') : w'.Fits accountId limit call := by
  refine ⟨fun g hg => ?_, fun jobId ht hs => ?_, fun job ht => ?_⟩
  · exact (Int.add_le_add_right hsu _).trans (h.room g hg)
  · rw [hac]
    refine (h.stored jobId ht hs).imp_right fun hsm => ?_
    obtain ⟨r, hr, ha, hso⟩ := bySource_isSome.mp hsm
    obtain ⟨r', hr', hsa⟩ := hk r hr
    exact bySource_isSome.mpr ⟨r', hr', hsa.accountId.trans ha, hsa.sourceTraceId.trans hso⟩
  · rw [hac]
    refine (h.read job ht).imp_right fun ⟨r, hr, hi, ha, hsi⟩ => ?_
    obtain ⟨r', hr', hsa⟩ := hk r hr
    exact ⟨r', hr', hsa.traceId.trans hi, hsa.accountId.trans ha, hsa.size.trans hsi⟩

theorem World.Fits.frame {w' : World} (h : w.Fits accountId limit call)
    (ht : w'.traces = w.traces) (ha : w'.accounts = w.accounts) : w'.Fits accountId limit call := by
  have hs : w'.storedBytes accountId = w.storedBytes accountId := by simp only [storedBytes, ht]
  exact h.mono hs.le ha fun r hr => ⟨r, ht ▸ hr, rfl, rfl, rfl, rfl⟩

namespace World.Within

variable {w w' : World} {accountId : String} {limit : ℤ}

section

variable (h : w.Within accountId limit)
include h

/-- Steps that leave the rows, the accounts and the calls alone. -/
theorem frame (ht : w'.traces = w.traces := by rfl)
    (ha : w'.accounts = w.accounts := by rfl) (hl : w'.locks = w.locks := by rfl)
    (hc : w'.calls = w.calls := by rfl) : w'.Within accountId limit := by
  have hs : w'.storedBytes accountId = w.storedBytes accountId := by simp only [storedBytes, ht]
  refine ⟨hs ▸ h.sum, ?_, ?_, ?_⟩
  · rw [ht, ha]
    exact h.owned
  · rw [hc, hl]
    exact h.locked
  · rw [hc]
    intro n call hca ho
    exact (h.fits n call hca ho).frame ht ha

/-- A row that stays the same trace and weighs no more. -/
theorem updates {id : String} (hu : w.Updates id p f traces)
    (hl : ∀ r : HostedTrace, p r = true → r.status.stored = false → (f r).status.stored = false)
    (hsa : ∀ r : HostedTrace, r.SameTrace (f r) := by intro; exact ⟨rfl, rfl, rfl, rfl⟩) :
    { w with traces }.Within accountId limit := by
  have hw : ∀ r ∈ w.traces, (decide (r.traceId = id) && p r) = true →
      (f r).weight accountId ≤ r.weight accountId := by
    intro r hr hp
    obtain ⟨-, ha, -, hsi⟩ := hsa r
    have hn : 0 ≤ r.weight accountId := weight_nonneg hr
    simp only [and_eq_true] at hp
    unfold HostedTrace.weight at hn ⊢
    rw [ha, hsi]
    by_cases hst : r.status.stored = true
    · simp only [hst, Bool.and_true] at hn ⊢
      by_cases ho : r.accountId = accountId
      · by_cases haf : (f r).status.stored = true
        · simp [ho, haf]
        · simpa [ho, haf] using hn
      · simp [ho]
    · simp [hl r hp.2 (by simpa using hst)]
      simp [hst]
  have hsu : ({ w with traces } : World).storedBytes accountId ≤ w.storedBytes accountId := by
    rw [storedBytes_eq, storedBytes_eq]
    exact total_of_update_le hu hw
  -- Every row is still there as the same trace.
  have hk : ∀ r ∈ w.traces, ∃ r' ∈ traces, r.SameTrace r' := by
    intro r hr
    refine ⟨_, (mem_of_update hu).mpr ⟨r, hr, rfl⟩, ?_⟩
    split
    · exact hsa r
    · exact ⟨rfl, rfl, rfl, rfl⟩
  refine ⟨hsu.trans h.sum, ?_, h.locked, ?_⟩
  · intro s hs
    obtain ⟨r, hr, rfl⟩ := (mem_of_update hu).mp hs
    split
    · exact (hsa r).accountId ▸ h.owned r hr
    · exact h.owned r hr
  · intro n call hc ho
    exact (h.fits n call hc ho).mono hsu rfl hk

theorem setCall (hl : call.stage ≠ .waiting → w.locks call.request.accountId = some n)
    (hf : call.request.accountId = accountId → w.Fits accountId limit call) :
    (w.setCall n (some call)).Within accountId limit := by
  refine ⟨h.sum, h.owned, fun m c hc hs => ?_, fun m c hc hon => ?_⟩
  · obtain ⟨rfl, he⟩ | ⟨-, ho⟩ := slot_of_update hc
    · cases he
      exact hl hs
    · exact h.locked m c ho hs
  · obtain ⟨rfl, he⟩ | ⟨-, ho⟩ := slot_of_update hc
    · cases he
      exact (hf hon).frame rfl rfl
    · exact (h.fits m c ho hon).frame rfl rfl

/-- A call that begins has a row to open again, if it has a row at all. -/
theorem waiting
    (hr : ∀ job, target = .reopen job → job ∈ w.traces ∧ job.accountId = request.accountId) :
    (w.setCall n (some ⟨request, target, now, .waiting⟩)).Within accountId limit := by
  refine h.setCall (fun hn => absurd rfl hn) fun ho => ⟨nofun, nofun, fun job ht => ?_⟩
  obtain ⟨hm, ha⟩ := hr job ht
  exact .inr ⟨job, hm, rfl, ha.trans ho, rfl⟩

/-- A call gets a lock that nobody holds. -/
theorem lock (hf : w.locks account = none) :
    { w with locks := Function.update w.locks account (some n) }.Within accountId limit := by
  refine ⟨h.sum, h.owned, fun m c hc hs => ?_, fun m c hc ho => (h.fits m c hc ho).frame rfl rfl⟩
  have hh := h.locked m c hc hs
  have hn : c.request.accountId ≠ account := by
    rintro rfl
    exact absurd (hf.symm.trans hh) nofun
  simpa [update_of_ne hn] using hh

/-- The transaction of a call ends with its writes. While the call held the lock of its account,
no other call had checked the allowance of that account. -/
theorem endCall (hca : w.calls n = some call)
    (hst : call.stage ≠ .waiting) (hsu : ({ w with traces } : World).storedBytes accountId ≤ limit)
    (hot : call.request.accountId ≠ accountId →
      ({ w with traces } : World).storedBytes accountId ≤ w.storedBytes accountId)
    (hon : ∀ r ∈ traces, w.accounts r.accountId = true)
    (hk : ∀ r ∈ w.traces, ∃ r' ∈ traces, r.SameTrace r') :
    ({ w with traces }.endCall n).Within accountId limit := by
  have hlo := h.locked n call hca hst
  refine ⟨hsu, hon, fun m c hc hs => ?_, fun m c hc hown => ?_⟩
  · obtain ⟨-, he⟩ | ⟨hn, ho⟩ := slot_of_update hc
    · cases he
    · have hh := h.locked m c ho hs
      simp only [World.endCall, release, World.setCall, hh, Option.some.injEq]
      exact if_neg hn
  · obtain ⟨-, he⟩ | ⟨hn, ho⟩ := slot_of_update hc
    · cases he
    · have hf := h.fits m c ho hown
      by_cases ha : call.request.accountId = accountId
      · have hw : c.stage = .waiting ∨ c.stage ≠ .waiting := em _
        obtain hw | hh := hw
        · refine ⟨fun g hg => ?_, fun jobId _ hs => ?_, fun job ht => ?_⟩
          · exact absurd (hw.symm.trans hg) nofun
          · exact absurd (hw.symm.trans hs) nofun
          · refine (hf.read job ht).imp_right fun ⟨r, hr, hi, hac, hsi⟩ => ?_
            obtain ⟨r', hr', hsa⟩ := hk r hr
            exact ⟨r', hr', hsa.traceId.trans hi, hsa.accountId.trans hac, hsa.size.trans hsi⟩
        · have hl := h.locked m c ho hh
          rw [hown, ← ha, hlo] at hl
          exact absurd (Option.some.inj hl).symm hn
      · exact hf.mono (hot ha) rfl hk

/-- A call that ends without a write. -/
theorem dropCall (n : ℕ) : (w.endCall n).Within accountId limit := by
  refine ⟨h.sum, h.owned, fun m c hc hs => ?_, fun m c hc hon => ?_⟩
  · obtain ⟨-, he⟩ | ⟨hn, ho⟩ := slot_of_update hc
    · cases he
    · have hh := h.locked m c ho hs
      simp only [World.endCall, release, World.setCall, hh, Option.some.injEq]
      exact if_neg hn
  · obtain ⟨-, he⟩ | ⟨-, ho⟩ := slot_of_update hc
    · cases he
    · exact (h.fits m c ho hon).frame rfl rfl

end

end World.Within

/-- The limits are far from where the sum saturates. -/
theorem le_of_traceStorageAllows (hl : traceStorageBytes (svc.plan accountId) = some limit)
    (h : traceStorageAllows (traceStorageBytes (svc.plan accountId)) stored size = true) :
    stored + size ≤ limit := by
  have hm : limit < maxI64 := by
    unfold traceStorageBytes at hl
    split at hl
    · cases hl
      decide
    · cases hl
      decide
    · cases hl
  rw [hl] at h
  simp only [traceStorageAllows, Option.all_some, decide_eq_true_eq] at h
  omega

/-- Under the lock, the check finds what the write relies on. -/
theorem World.Fits.checked (h : w.Fits request.accountId limit ⟨request, target, now, stage⟩)
    (hl : traceStorageBytes (svc.plan request.accountId) = some limit)
    (hc : w.checkedGeneration svc request target = some generation) :
    w.Fits request.accountId limit ⟨request, target, now, .checked generation⟩ := by
  refine ⟨fun g hg => ?_, fun jobId ht hs => ?_, fun job ht => h.read job ht⟩
  · cases hg
    cases target with
    | insert =>
      simp only [checkedGeneration] at hc
      split_ifs at hc with _ _ ha
      · cases hc
      · exact le_of_traceStorageAllows hl ha
    | reopen =>
      simp only [checkedGeneration] at hc
      split at hc
      · cases hc
      · split_ifs at hc with _ ha
        · exact le_of_traceStorageAllows hl ha
        · cases hc
  · cases hs
    obtain rfl : target = .insert jobId := ht
    simp only [checkedGeneration] at hc
    split_ifs at hc with _ hso
    · exact .inr hso
    · cases hc

namespace World.Within

variable {w w' : World} {accountId : String} {limit : ℤ}

/-- The insertion takes the room that the call has checked. -/
theorem insert (h : w.Within accountId limit) {uploadExpiresAt : ℤ}
    (hc : w.calls n = some ⟨request, .insert jobId, now, .checked generation⟩)
    (hnw : ¬(w.bySource request.accountId request.sourceTraceId).isSome = true)
    (ha : w.accounts request.accountId = true)
    (hi : w.traces.insert (.create request jobId uploadExpiresAt) = some traces) :
    ({ w with traces }.endCall n).Within accountId limit := by
  have ht : ({ w with traces } : World).storedBytes accountId = w.storedBytes accountId +
        (HostedTrace.create request jobId uploadExpiresAt).weight accountId := by
    rw [storedBytes_eq, storedBytes_eq]
    exact total_of_insert hi
  have hw : (HostedTrace.create request jobId uploadExpiresAt).weight accountId =
      if request.accountId = accountId then request.packageSizeBytes else 0 := by
    by_cases ho : request.accountId = accountId <;>
      simp [HostedTrace.weight, HostedTrace.create, TraceStatus.stored, ho]
  rw [hw] at ht
  have hot : request.accountId ≠ accountId →
      ({ w with traces } : World).storedBytes accountId = w.storedBytes accountId := by
    intro hn
    rw [ht, if_neg hn, add_zero]
  refine h.endCall hc nofun ?_ (fun hn => (hot hn).le) ?_ ?_
  · by_cases ho : request.accountId = accountId
    · have hf := h.fits n _ hc ho
      cases generation with
      | some g =>
        rw [ht, if_pos ho]
        exact hf.room g rfl
      | none =>
        obtain hg | hs := hf.stored jobId rfl rfl
        · rw [← ho, ha] at hg
          cases hg
        · exact absurd hs hnw
    · exact (hot ho).trans_le h.sum
  · intro r hr
    obtain hr | rfl := (mem_of_insert hi).mp hr
    · exact h.owned r hr
    · exact ha
  · intro r hr
    exact ⟨r, (mem_of_insert hi).mpr (.inl hr), rfl, rfl, rfl, rfl⟩

theorem stored_of_retryable {allowHighEntropy : Bool} (h : r.retryable allowHighEntropy = true) :
    r.status.stored = false := by
  simp only [HostedTrace.retryable, or_eq_true, and_eq_true, decide_eq_true_eq] at h
  obtain ⟨hf, -⟩ | ⟨⟨⟨hr, -⟩, -⟩, -⟩ := h
  · rw [hf]
    rfl
  · rw [hr]
    rfl

/-- So does a row that is opened again; it weighed nothing before. -/
theorem reopen (h : w.Within accountId limit) {uploadExpiresAt : ℤ}
    (hc : w.calls n = some ⟨request, .reopen job, now, .checked (some generation)⟩)
    (hu : w.Updates job.traceId (fun r => r.accountId = request.accountId &&
        r.retryable request.allowHighEntropy && r.uploadGeneration = generation)
      (·.reopened request job.uploadGeneration uploadExpiresAt) traces) :
    ({ w with traces }.endCall n).Within accountId limit := by
  have hk : ∀ r ∈ w.traces, ∃ r' ∈ traces, r.SameTrace r' := by
    intro r hr
    refine ⟨_, (mem_of_update hu).mpr ⟨r, hr, rfl⟩, ?_⟩
    split <;> exact ⟨rfl, rfl, rfl, rfl⟩
  have ho : ∀ r ∈ traces, w.accounts r.accountId = true := by
    intro s hs
    obtain ⟨r, hr, rfl⟩ := (mem_of_update hu).mp hs
    split <;> exact h.owned r hr
  by_cases hon : request.accountId = accountId
  · subst hon
    have hf := h.fits n _ hc rfl
    have hro := hf.room generation rfl
    obtain hg | ⟨r, hr, hi, ha, hsi⟩ := hf.read job rfl
    · -- The account is gone, and its rows with it.
      have hsu : ({ w with traces } : World).storedBytes request.accountId ≤
          w.storedBytes request.accountId := by
        rw [storedBytes_eq, storedBytes_eq]
        refine total_of_update_le hu fun r hr hp => ?_
        simp only [and_eq_true, decide_eq_true_eq] at hp
        have ht := h.owned r hr
        rw [hp.2.1.1, hg] at ht
        cases ht
      exact h.endCall hc nofun (hsu.trans h.sum) (fun _ => hsu) ho hk
    · have hpo : 0 < r.declaredPackageSizeBytes := (Table.check hr).1
      have hsu : ({ w with traces } : World).storedBytes request.accountId ≤
          w.storedBytes request.accountId + job.declaredPackageSizeBytes := by
        rw [storedBytes_eq, storedBytes_eq]
        refine total_of_update_one_le (k := job.traceId) (by omega) hu
          (fun s hp => ?_) fun s hs hp => ?_
        · simp only [and_eq_true, decide_eq_true_eq] at hp
          exact hp.1
        · simp only [and_eq_true, decide_eq_true_eq] at hp
          obtain ⟨hsd, ⟨_, hre⟩, -⟩ := hp
          obtain rfl : s = r := w.traces.eq_of_key hs hr (hsd.trans hi.symm)
          have hop : TraceStatus.uploading.stored = true := rfl
          simp [HostedTrace.weight, HostedTrace.reopened, HostedTrace.withAccess, ha,
            stored_of_retryable hre, hop, hsi]
      exact h.endCall hc nofun (hsu.trans hro) (fun hn => absurd rfl hn) ho hk
  · have hsu : ({ w with traces } : World).storedBytes accountId ≤ w.storedBytes accountId := by
      rw [storedBytes_eq, storedBytes_eq]
      refine total_of_update_le hu fun r hr hp => ?_
      simp only [and_eq_true, decide_eq_true_eq] at hp
      have hn : r.accountId ≠ accountId := by
        rw [hp.2.1.1]
        exact hon
      simp [HostedTrace.weight, HostedTrace.reopened, HostedTrace.withAccess, hn]
    exact h.endCall hc nofun (hsu.trans h.sum) (fun _ => hsu) ho hk

/-- The traces of a deleted account go with it. -/
theorem delete (h : w.Within accountId limit) (gone : String) :
    { w with
      traces := w.traces.delete (·.accountId = gone)
      accounts := Function.update w.accounts gone false }.Within accountId limit := by
  have hsu : ({ w with traces := w.traces.delete (·.accountId = gone) } : World).storedBytes
      accountId ≤ w.storedBytes accountId := by
    rw [storedBytes_eq, storedBytes_eq]
    exact total_delete_le fun r hr => r.weight_nonneg hr
  refine ⟨hsu.trans h.sum, fun r hr => ?_, h.locked, fun m call hc ho => ?_⟩
  · obtain ⟨hr, hn⟩ := mem_delete.mp hr
    have hn : r.accountId ≠ gone := by simpa using hn
    exact (update_of_ne hn _ _).trans (h.owned r hr)
  · have hf := h.fits m call hc ho
    by_cases hgo : accountId = gone
    · have hfa : Function.update w.accounts gone false accountId = false := by simp [hgo]
      exact ⟨fun g hg => (Int.add_le_add_right hsu _).trans (hf.room g hg),
        fun _ _ _ => .inl hfa, fun _ _ => .inl hfa⟩
    · have hsa : Function.update w.accounts gone false accountId = w.accounts accountId :=
        update_of_ne hgo _ _
      have hk : ∀ r ∈ w.traces, r.accountId = accountId →
          r ∈ w.traces.delete (·.accountId = gone) := by
        intro r hr ha
        exact mem_delete.mpr ⟨hr, by simpa [ha] using hgo⟩
      refine ⟨fun g hg => (Int.add_le_add_right hsu _).trans (hf.room g hg),
        fun jobId ht hs => ?_, fun job ht => ?_⟩
      · refine (hf.stored jobId ht hs).imp hsa.trans fun hsm => ?_
        obtain ⟨r, hr, ha, hso⟩ := bySource_isSome.mp hsm
        exact bySource_isSome.mpr ⟨r, hk r hr (ha.trans ho), ha, hso⟩
      · refine (hf.read job ht).imp hsa.trans fun ⟨r, hr, hi, ha, hsi⟩ => ?_
        exact ⟨r, hk r hr ha, hi, ha, hsi⟩

theorem step (h : w.Within accountId limit)
    (hli : traceStorageBytes (svc.plan accountId) = some limit) {act : Act}
    (he : Effect svc w act w') : w'.Within accountId limit := by
  cases he with
  | startCreate => exact h.waiting fun _ ht => by cases ht
  | startReopen hj =>
    obtain ⟨hm, ha, -⟩ := bySource_eq_some hj
    refine h.waiting fun _ ht => ?_
    cases ht
    exact ⟨hm, ha⟩
  | lock hc hfr =>
    refine (h.lock hfr).setCall (fun _ => update_self _ _ _) fun ho => ?_
    have hfi := h.fits _ _ hc ho
    exact ⟨nofun, nofun, hfi.read⟩
  | @checked _ request _ _ _ hc hch =>
    have hl := h.locked _ _ hc nofun
    refine h.setCall (fun _ => hl) fun ho => ?_
    obtain rfl : request.accountId = accountId := ho
    exact (h.fits _ _ hc rfl).checked hli hch
  | refused => exact h.dropCall _
  | committed hc hw =>
    cases hw with
    | kept => exact h.dropCall _
    | inserted hn ha _ hi => exact (h.insert hc hn ha hi).frame
    | reopened hu => exact h.reopen hc hu
  | reactivated hu =>
    refine h.updates hu fun r hp hs => ?_
    simp only [and_eq_true, decide_eq_true_eq] at hp
    rw [hp.1] at hs
    cases hs
  | accessUpdated hu => exact h.updates hu fun _ _ hs => hs
  | stopped hu =>
    refine h.updates hu fun r hp hs => ?_
    rw [of_decide_eq_true hp] at hs
    cases hs
  | expired _ _ hu | rejected _ hu =>
    have hr := h.updates hu fun _ _ _ => rfl
    exact hr.frame
  | queued _ hu =>
    have hr := h.updates hu fun r hp hs => by
      simp only [HostedTrace.sameAttempt, and_eq_true, decide_eq_true_eq] at hp
      rw [hp.1.1.1.1.1] at hs
      cases hs
    exact hr.frame
  | claimed _ _ _ _ hu =>
    have hr := h.updates hu fun r hp hs => by
      rw [of_decide_eq_true hp] at hs
      cases hs
    exact hr.frame
  | admitted _ hu | admittedLate _ hu =>
    have hr := h.updates hu fun r hp hs => by
      rw [(holds_iff.mp (admissible_iff.mp hp).1).1] at hs
      cases hs
    exact hr.frame
  | retried _ hu =>
    have hr := h.updates hu fun r hp hs => by
      rw [(holds_iff.mp hp).1] at hs
      cases hs
    exact hr.frame
  | recovered hu =>
    refine h.updates hu fun r hp hs => ?_
    simp only [and_eq_true, decide_eq_true_eq] at hp
    rw [hp.1.1] at hs
    cases hs
  | deleted => exact (h.delete _).frame
  | stored _ hw =>
    rw [storeStep_frame hw]
    exact h.frame
  | @died process =>
    cases process with
    | call n => exact h.dropCall n
    | _ => exact h.frame
  | _ => exact h.frame

end World.Within

/-- A database with no upload request under way, whose traces belong to accounts that exist, and
whose stored traces of one account are within a limit. -/
def World.StartsWithin (w : World) (accountId : String) (limit : ℤ) : Prop :=
  (∀ n, w.calls n = none) ∧ (∀ r ∈ w.traces, w.accounts r.accountId = true) ∧
    w.storedBytes accountId ≤ limit

/-- However requests, workers, expiries and cleanups interleave, the traces of an account that are
uploading, queued, verifying, shared or stopped never take more than its plan allows. -/
theorem stored_bytes_within_plan (svc : Service) (accountId : String) (limit : ℤ)
    (hlimit : traceStorageBytes (svc.plan accountId) = some limit) (w : World)
    (h : (hosting svc (·.StartsWithin accountId limit) fun _ _ => True).Reachable w) :
    w.storedBytes accountId ≤ limit := by
  have hwithin : w.Within accountId limit := by
    refine h.invariant (I := fun w => w.Within accountId limit) ?_ ?_
    · rintro _ ⟨hidle, howned, hsum⟩
      refine ⟨hsum, howned, fun n call hcall => ?_, fun n call hcall => ?_⟩
      all_goals exact absurd ((hidle n).symm.trans hcall) nofun
    · rintro _ _ hw ⟨_, -, hstep⟩
      exact hw.step hlimit (World.step_effect hstep)
  exact hwithin.sum

/-- Two requests start before the first has its row; together they would exceed the plan, and a
third fills it to the last byte. -/
def concurrentCreates : List Act :=
  let large (size : ℤ) : CreateHostedTraceRequest :=
    { sampleRequest with
      sourceTraceId := "trc-large"
      idempotencyKey := "hosted-trace:trc-large"
      packageSizeBytes := size }
  .startCreate 1 (large 999999998) "trc-2" 0 :: createTrace ++ [.lock 1, .checkQuota 1,
    .startCreate 2 (large 999999997) "trc-3" 0, .lock 2, .checkQuota 2, .commitUpload 2]

theorem stored_bytes_within_plan_sample :
    ∃ w : World, w.traceIds = ["trc-3", "trc-1"] ∧ w.storedBytes "acc-1" = 1000000000 ∧
      w.storedBytes "acc-1" ≤ 1000000000 := by
  have hrun : (runAll concurrentCreates).map (fun w => (w.traceIds, w.storedBytes "acc-1")) =
      some (["trc-3", "trc-1"], 1000000000) := by decide
  obtain ⟨w, hw, hview⟩ := Option.map_eq_some_iff.mp hrun
  obtain ⟨hids, hbytes⟩ := Prod.mk.inj hview
  refine ⟨w, hids, hbytes, stored_bytes_within_plan sampleService "acc-1" 1000000000 rfl w ?_⟩
  have hstart : World.sample.StartsWithin "acc-1" 1000000000 := by
    refine ⟨fun _ => rfl, fun r hr => absurd hr (not_mem_empty r), ?_⟩
    simp [World.storedBytes, World.sample]
  exact (Transition.System.Reachable.init hstart).runActs
    (fun s act t hallowed hstep => ⟨act, hallowed, hstep⟩) hw

end Notary.Traces
