import Notary.Daemon.Recovery

/-! Which captures one startup pass settles, for every state of the artifact store. -/

namespace Notary.Daemon
open List
open Notary.Core (Crates sha256Hex maxArchiveWireBytes)
open Utf8 (Bytes)
open Relational Tx

/-- Bytes with exactly the staged size and digest. -/
def CaptureCompletion.Stores (c : Crates) (completion : CaptureCompletion) (data : Bytes) : Prop :=
  data.length = completion.expectedArtifactSizeBytes.toNat ∧
    sha256Hex c data = completion.expectedArtifactSha256
  deriving Decidable

section

variable (c : Crates) (store : ArtifactStore)

/-- The pass owes the capture a result: it was never staged, or the staged bytes are stored. -/
def Owed (i : IncompleteCapture) : Prop :=
  ∀ completion ∈ i.completion, ∃ data, store.slot i.traceId = .stored data ∧
    completion.Stores c data

def IncompleteCapture.outcome (i : IncompleteCapture) : CaptureStatus :=
  if i.completion.isSome then .captured else .failed

/-- The capture is staged, and its artifact is unreadable, too large, or not the staged one. -/
def Obstructs (i : IncompleteCapture) : Prop :=
  ∃ completion ∈ i.completion,
    (∃ error, store.slot i.traceId = .unreadable error ∧ error ≠ .notFound) ∨
    ∃ data, store.slot i.traceId = .stored data ∧
      (maxArchiveWireBytes < data.length ∨ ¬completion.Stores c data)

/-- No capture that is owed a result is listed at or after one that obstructs. -/
def Unobstructed (listing : List IncompleteCapture) : Prop :=
  ∀ i rest, i :: rest <:+ listing → Obstructs c store i → ∀ j ∈ i :: rest, ¬Owed c store j

/-- Every capture that is owed a result has it. -/
def Settles (listing : List IncompleteCapture) (db : Database) : Prop :=
  ∀ i ∈ listing, Owed c store i → HasStatus db i.traceId i.outcome

end

variable {c : Crates} {store : ArtifactStore} {db db' : Database} {i : IncompleteCapture}
  {listing rest : List IncompleteCapture}

theorem unobstructed_cons : Unobstructed c store (i :: rest) ↔
    (Obstructs c store i → ∀ j ∈ i :: rest, ¬Owed c store j) ∧ Unobstructed c store rest := by
  constructor
  · intro h
    exact ⟨h i rest suffix_rfl, fun j tail hj => h j tail (hj.trans (suffix_cons i rest))⟩
  · rintro ⟨hh, hr⟩ j tail hj
    rcases suffix_cons_iff.mp hj with he | hj
    · cases he
      exact hh
    · exact hr j tail hj

theorem maxArchiveWireBytes_lt : maxArchiveWireBytes < 2 ^ 63 := by decide

theorem record_matches_iff {completion : CaptureCompletion} {data : Bytes} (traceId : String)
    (hs : data.length ≤ maxArchiveWireBytes) :
    ((store.record c traceId data).sizeBytes = completion.expectedArtifactSizeBytes ∧
      (store.record c traceId data).sha256 = completion.expectedArtifactSha256) ↔
      completion.Stores c data := by
  have hl := maxArchiveWireBytes_lt
  have hw : UInt64.size = 2 ^ 64 := rfl
  refine and_congr ?_ Iff.rfl
  rw [← UInt64.toNat_inj]
  change (UInt64.ofNat data.length).toNat = _ ↔ _
  rw [UInt64.toNat_ofNat_of_lt' (by omega)]

variable {traceId : String}

theorem find_stored (h : store.slot traceId = .stored data) :
    store.find c traceId maxArchiveWireBytes = if maxArchiveWireBytes < data.length then
        .error (.tooLarge maxArchiveWireBytes (some data.length))
      else .ok (some (store.record c traceId data)) := by
  simp only [ArtifactStore.find, ArtifactStore.inspectArtifact, h]
  split_ifs <;> rfl

theorem find_missing (h : store.slot traceId = .missing) (maxBytes : ℕ) :
    store.find c traceId maxBytes = .ok none := by
  simp [ArtifactStore.find, ArtifactStore.inspectArtifact, h]

theorem find_unreadable (h : store.slot traceId = .unreadable error) (maxBytes : ℕ) :
    store.find c traceId maxBytes = if error = .notFound then .ok none else .error error := by
  simp only [ArtifactStore.find, ArtifactStore.inspectArtifact, h]
  cases error <;> rfl

/-- What the pass decides about one capture. -/
theorem examineCapture_cases (hv : isValidTraceId i.traceId) :
    (Obstructs c store i ∧ ∃ error, examineCapture c store true i = .error error) ∨
    ¬Obstructs c store i ∧
      ((i.completion = none ∧ examineCapture c store true i = .ok (.interrupt i.traceId)) ∨
      (∃ completion data, i.completion = some completion ∧ completion.Stores c data ∧
        data.length ≤ maxArchiveWireBytes ∧ examineCapture c store true i =
          .ok (.complete completion (store.record c i.traceId data))) ∨
      ¬Owed c store i ∧ examineCapture c store true i = .ok .wait) := by
  cases hc : i.completion with
  | none =>
    refine .inr ⟨fun ⟨_, h, _⟩ => ?_, .inl ⟨rfl, ?_⟩⟩
    · rw [hc] at h
      cases h
    · simp [examineCapture, hc]
  | some completion =>
    have hex : examineCapture c store true i =
        attachFound completion (store.find c i.traceId maxArchiveWireBytes) := by
      simp [examineCapture, hc, hv]
    have ho : Obstructs c store i ↔
        (∃ error, store.slot i.traceId = .unreadable error ∧ error ≠ .notFound) ∨
        ∃ data, store.slot i.traceId = .stored data ∧
          (maxArchiveWireBytes < data.length ∨ ¬completion.Stores c data) := by
      simp [Obstructs, hc]
    have hod : Owed c store i ↔
        ∃ data, store.slot i.traceId = .stored data ∧ completion.Stores c data := by
      simp [Owed, hc]
    rw [hex, ho, hod]
    cases hsl : store.slot i.traceId with
    | missing =>
      rw [find_missing hsl]
      exact .inr ⟨by simp, .inr (.inr ⟨by simp, rfl⟩)⟩
    | unreadable error =>
      rw [find_unreadable hsl]
      split_ifs with he
      · exact .inr ⟨by simp [he], .inr (.inr ⟨by simp, rfl⟩)⟩
      · exact .inl ⟨.inl ⟨error, rfl, he⟩, _, rfl⟩
    | stored data =>
      rw [find_stored hsl]
      split_ifs with hsi
      · exact .inl ⟨.inr ⟨data, rfl, .inl hsi⟩, _, rfl⟩
      · rw [attachFound, if_congr (record_matches_iff i.traceId (not_lt.mp hsi)) rfl rfl]
        split_ifs with hs
        · exact .inr ⟨by simp [hsi, hs],
            .inr (.inl ⟨completion, data, rfl, hs, not_lt.mp hsi, rfl⟩)⟩
        · exact .inl ⟨.inr ⟨data, rfl, .inr hs⟩, _, rfl⟩

theorem validate_record (hv : isValidTraceId traceId) (data : Bytes) :
    (store.record c traceId data).validate :=
  ⟨hv, isLowercaseSha256Hex_sha256Hex c data, (store.locator traceId).nonempty,
    (store.locator traceId).noNul⟩

theorem reconcileEach_of_ok (he : examineCapture c store interruptUnprepared i = .ok act)
    (hc : act.perform db = .ok ((), db')) (summary : RecoverySummary) :
    reconcileEach c store interruptUnprepared (i :: rest) summary db =
      reconcileEach c store interruptUnprepared rest (act.count summary) db' := by
  simp only [reconcileEach, he, attempt_of_ok hc]

/-- An obstructing capture ends the pass; any other one gets what it is owed, and the pass goes
on with all other rows as they were. -/
theorem reconcileEach_cons (ha : Active db i) (summary : RecoverySummary) :
    (Obstructs c store i ∧ (reconcileEach c store true (i :: rest) summary db).2 = db) ∨
    ¬Obstructs c store i ∧ ∃ db' summary', (Owed c store i → HasStatus db' i.traceId i.outcome) ∧
      OnlyTrace db db' i.traceId ∧ reconcileEach c store true (i :: rest) summary db =
        reconcileEach c store true rest summary' db' := by
  have hv := ha.validTraceId
  rcases examineCapture_cases hv with ⟨hob, _, he⟩ | ⟨hcl, hcs⟩
  · exact .inl ⟨hob, by simp [reconcileEach, he]⟩
  · refine .inr ⟨hcl, ?_⟩
    rcases hcs with ⟨hn, he⟩ | ⟨_, data, hso, hs, hsi, he⟩ | ⟨hno, he⟩
    · obtain ⟨db', hca, hf, hon⟩ := failCapture_active ha "interrupted"
      have ho : i.outcome = .failed := by simp [IncompleteCapture.outcome, hn]
      exact ⟨db', _, fun _ => ho ▸ hf, hon, reconcileEach_of_ok he hca summary⟩
    · obtain ⟨hr, hrs⟩ := (record_matches_iff i.traceId hsi).mpr hs
      obtain ⟨db', hca, hc, hon⟩ := completeCapture_active ha hso rfl rfl
        (validate_record hv data) hr hrs
      have ho : i.outcome = .captured := by simp [IncompleteCapture.outcome, hso]
      exact ⟨db', _, fun _ => ho ▸ hc, hon, reconcileEach_of_ok he hca summary⟩
    · exact ⟨db, _, fun h => absurd h hno, .refl db _, reconcileEach_of_ok he rfl summary⟩

theorem reconcileEach_other (ha : ∀ i ∈ listing, Active db i)
    (hn : (listing.map IncompleteCapture.traceId).Nodup)
    (hk : k ∉ listing.map IncompleteCapture.traceId) (summary : RecoverySummary) :
    (reconcileEach c store true listing summary db).2.traces.find? k = db.traces.find? k := by
  induction listing generalizing db summary with
  | nil => rfl
  | cons i _ ih =>
    rw [map_cons, nodup_cons] at hn
    rw [map_cons, mem_cons, not_or] at hk
    rcases reconcileEach_cons (ha i mem_cons_self) summary with
      ⟨-, he⟩ | ⟨-, db', summary', -, ho, hr⟩
    · rw [he]
    · rw [hr, ih (fun j hj => ?_) hn.2 hk.2, ho.traces k hk.1]
      have hne : j.traceId ≠ i.traceId := fun h => hn.1 (h ▸ mem_map_of_mem hj)
      exact ho.active hne (ha j (mem_cons_of_mem i hj))

/-- A row that keeps its active status has not been given a result. -/
theorem Active.not_hasOutcome (h : Active db i) : ¬HasStatus db i.traceId i.outcome := by
  intro ho
  have he := ho.unique h.hasStatus
  unfold IncompleteCapture.outcome at he
  split_ifs at he

/-- The pass settles exactly the listings in which no obstruction stands in the way. -/
theorem settles_iff (ha : ∀ i ∈ listing, Active db i)
    (hn : (listing.map IncompleteCapture.traceId).Nodup) (summary : RecoverySummary) :
    Settles c store listing (reconcileEach c store true listing summary db).2 ↔
      Unobstructed c store listing := by
  induction listing generalizing db summary with
  | nil => simp [Settles, Unobstructed]
  | cons i rest ih =>
    rw [map_cons, nodup_cons] at hn
    rw [unobstructed_cons]
    rcases reconcileEach_cons (ha i mem_cons_self) summary with
      ⟨ho, he⟩ | ⟨hc, db', summary', hd, hon, hp⟩
    · -- the pass stops here, so every capture from here on is still active
      have hs : Settles c store (i :: rest) db ↔ ∀ j ∈ i :: rest, ¬Owed c store j :=
        forall₂_congr fun j hj =>
          ⟨fun h hod => (ha j hj).not_hasOutcome (h hod), fun h hod => absurd hod h⟩
      rw [he, hs]
      refine ⟨fun h => ⟨fun _ => h, fun j tail hj _ k hk => ?_⟩, fun h => h.1 ho⟩
      exact h k (mem_cons_of_mem i (hj.subset hk))
    · have hst (j : IncompleteCapture) (hj : j ∈ rest) : Active db' j := by
        have hne : j.traceId ≠ i.traceId := fun h => hn.1 (h ▸ mem_map_of_mem hj)
        exact hon.active hne (ha j (mem_cons_of_mem i hj))
      have hh : Owed c store i →
          HasStatus (reconcileEach c store true rest summary' db').2 i.traceId i.outcome := by
        intro hod
        obtain ⟨t, ht, hsta⟩ := hd hod
        exact ⟨t, (reconcileEach_other hst hn.2 hn.1 summary').trans ht, hsta⟩
      have hs (last : Database) (h : Owed c store i → HasStatus last i.traceId i.outcome) :
          Settles c store (i :: rest) last ↔ Settles c store rest last := by
        simp only [Settles, forall_mem_cons]
        exact and_iff_right h
      rw [hp, hs _ hh, ih hst hn.2]
      exact ⟨fun h => ⟨fun ho => absurd ho hc, h⟩, fun h => h.2⟩

theorem Lived.active (h : Lived db) (hi : i ∈ incompleteCaptures db) : Active db i := by
  simp only [incompleteCaptures, mem_map, mem_filter, decide_eq_true_eq] at hi
  obtain ⟨t, ⟨ht, hs⟩, rfl⟩ := hi
  refine ⟨⟨t, Table.find?_eq_some.mpr ⟨ht, rfl⟩, hs, rfl⟩, ?_⟩
  have hn : ¬∃ a ∈ db.artifacts, a.traceId = t.traceId ∧ a.kind = .captureCheckpoint := by
    rw [← h.captured ht, hs]
    simp
  rw [exists_artifact_iff] at hn
  exact Option.not_isSome_iff_eq_none.mp hn

theorem nodup_incompleteCaptures (db : Database) :
    ((incompleteCaptures db).map IncompleteCapture.traceId).Nodup := by
  rw [incompleteCaptures, map_map]
  exact db.traces.valid.1.sublist (filter_sublist.map Trace.traceId)

/-- Whatever calls the store has served, and in whatever order it lists the captures that are
still active, one startup pass settles them exactly if none that is owed a result is listed at
or after one that obstructs. -/
theorem startup_recovery_settles_iff (c : Crates) (store : ArtifactStore) (fullTextSearch : Bool)
    (calls : List Request) (listing : List IncompleteCapture)
    (hlisting : listing.Perm (incompleteCaptures (runAll calls { fullTextSearch }))) :
    Settles c store listing
        (reconcileEach c store true listing {} (runAll calls { fullTextSearch })).2 ↔
      Unobstructed c store listing := by
  have hlived := (lived_empty fullTextSearch).runAll calls
  refine settles_iff (fun i hi => hlived.active (hlisting.mem_iff.mp hi)) ?_ {}
  exact (hlisting.map _).nodup_iff.mpr (nodup_incompleteCaptures _)

/-- A staged capture, and one that was never staged. -/
def interruptedCalls : List Request :=
  [.beginCapture sampleCapture, .prepareCaptureCompletion sampleCompletion,
    .beginCapture { sampleCapture with traceId := "trc-2" }]

def stagedCapture : IncompleteCapture := ⟨"trc-1", some sampleCompletion⟩

def unstagedCapture : IncompleteCapture := ⟨"trc-2", none⟩

/-- The artifact of the staged capture cannot be read. -/
def unreadableStore : ArtifactStore where
  locator _ := ⟨"checkpoint", by decide, by decide, by decide⟩
  slot traceId := if traceId = "trc-1" then .unreadable .backend else .missing

theorem not_owed_staged : ¬Owed Core.sampleCrates unreadableStore stagedCapture := by
  intro h
  obtain ⟨_, hd, -⟩ := h sampleCompletion rfl
  cases hd

theorem startup_recovery_settles_sample :
    [unstagedCapture, stagedCapture].Perm (incompleteCaptures (runAll interruptedCalls {})) ∧
      Settles Core.sampleCrates unreadableStore [unstagedCapture, stagedCapture]
        (reconcileEach Core.sampleCrates unreadableStore true [unstagedCapture, stagedCapture] {}
          (runAll interruptedCalls {})).2 := by
  have hlisting : [unstagedCapture, stagedCapture].Perm
      (incompleteCaptures (runAll interruptedCalls {})) := by decide
  refine ⟨hlisting, (startup_recovery_settles_iff _ _ true _ _ hlisting).mpr ?_⟩
  rw [unobstructed_cons, unobstructed_cons]
  refine ⟨?_, ?_, ?_⟩
  · rintro ⟨_, h, _⟩
    cases h
  · rintro - _ hj
    rw [mem_singleton.mp hj]
    exact not_owed_staged
  · rintro _ _ h
    simp at h

/-- Listed the other way round, the unreadable artifact of the staged capture leaves the capture
that was never staged active. -/
theorem unreadable_artifact_ends_recovery :
    incompleteCaptures (runAll interruptedCalls {}) = [stagedCapture, unstagedCapture] ∧
      unstagedCapture.completion = none ∧
      ∃ t ∈ (reconcileIncompleteCaptures Core.sampleCrates unreadableStore
          (runAll interruptedCalls {})).2.traces.rows,
        t.traceId = unstagedCapture.traceId ∧ t.captureStatus = .capturing := by
  decide

end Notary.Daemon
