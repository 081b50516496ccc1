import Notary.Adapter.SlotInvariant

/-! Each effect of the protocol on one operation keeps the invariant of its slot, with the
same usage report or with the next one. -/

namespace Notary.Adapter
open Platform Relational Option

variable {o : AdmittedOperation} {s : Slot} {r : UsageReport}

/-- The report after an effect is the one before it or follows it by one step. -/
def Follows (r r' : UsageReport) : Prop := r' = r ∨ r.Step r'

variable {e : PendingUsageSettlement} {u : TerminalUpdate} {cfg : AdapterConfig}
  {mode : AdmissionMode}

theorem EntryOf.bytes_eq (h : EntryOf o r e) : e.authenticatedBytes = r.bytes := by
  rw [h.eq]

theorem EntryOf.change (h : EntryOf o r e) (r' : UsageReport) (hb : r'.bytes = r.bytes)
    (outcome : Option UsageSettlementOutcome) : EntryOf o r' { e with outcome := outcome } := by
  constructor
  · rw [h.eq, hb]
  · exact ⟨h.valid.operation, h.valid.notary, h.valid.bytes⟩

theorem SlotInv.advance (inv : SlotInv o s r) (hp : s.session = some p) (hp' : PhaseInv o r p')
    (ho : r.outcome = none) :
    SlotInv o { s with session := some p' } r := by
  obtain ⟨entry, control⟩ := inv
  have hr : s.retry = none := control.exclusive (by simp [hp])
  refine ⟨{ entry with }, ?_, control.retry, fun _ => hr, fun _ _ _ _ => ho⟩
  intro _ hq
  cases hq
  exact hp'

theorem updateFits_failure (ha : c ≠ .serviceFailed → o.activatedAt.isSome) (hc : c ≠ .completed)
    (ho : r.outcome = none) : UpdateFits o r ⟨c, 0⟩ :=
  ⟨.inl rfl, ha, fun h => absurd h hc, .inl ho⟩

/-- Finishing an entry leaves the report or decides its outcome. -/
theorem EntryInv.finish (inv : EntryInv o s r) (hfi : UpdateFits o r u)
    (hs : ∀ e, s.file = some e → e.outcome = none → r.outcome = none) (i : String)
    (fault : Option WriteFault) :
    ∃ r', Follows r r' ∧ EntryInv o { s with file := (finishInner i u fault s.file).2 } r' ∧
      UpdateFits o r' u ∧
      ∀ e, (finishInner i u fault s.file).2 = some e → e.outcome = none → r'.outcome = none := by
  have hsa (h : (finishInner i u fault s.file).2 = s.file) : ∃ r', Follows r r' ∧
      EntryInv o { s with file := (finishInner i u fault s.file).2 } r' ∧ UpdateFits o r' u ∧
      ∀ e, (finishInner i u fault s.file).2 = some e → e.outcome = none → r'.outcome = none := by
    rw [h]
    exact ⟨r, .inl rfl, inv, hfi, hs⟩
  rcases finishInner_cases i u fault s.file with h | ⟨e, he, -, ⟨-, h⟩ | ⟨hn, h⟩⟩
  · exact hsa h.2
  · exact hsa h
  · -- The entry becomes ready with the bytes of the report.
    have ho := hs e he hn
    obtain ⟨hen, -⟩ := inv.file e he
    have hb : (if e.authenticatedBytes = 0 then (u.fallbackBytes : ℤ)
        else e.authenticatedBytes) = e.authenticatedBytes := by
      split_ifs with hz
      · rw [hen.bytes_eq] at hz ⊢
        rcases hfi.fallback with hf | hf
        · simp [hf, hz]
        · simp [UsageReport.bytes, hf]
      · rfl
    have hre : (finishInner i u fault s.file).2 = some { e with outcome := some u.outcome } := by
      rw [h, hb]
    have hr : r = ⟨r.measured, none⟩ := by rw [← ho]
    refine ⟨⟨r.measured, some u.outcome⟩, .inr ?_, ?_, ?_, ?_⟩
    · rw [hr]
      exact .decide _ _
    · rw [hre]
      apply inv.decide ho hfi.activated hfi.completed
      intro _ he'
      cases he'
      exact ⟨hen.change ⟨r.measured, some u.outcome⟩ rfl _, .inl ⟨u.outcome, rfl, rfl⟩⟩
    · exact ⟨hfi.fallback, hfi.activated, hfi.completed, .inr rfl⟩
    · intro _ he' hn'
      rw [hre] at he'
      cases he'
      cases hn'

theorem SlotInv.finish (inv : SlotInv o s r) (hp : s.session = some (.finishing u)) (i : String)
    (fault : Option WriteFault) : let file := (finishInner i u fault s.file).2
    ∃ r', Follows r r' ∧ SlotInv o { s with file := file, retry := none, session := none } r' ∧
      SlotInv o { s with file := file, session := some (.noting u) } r' := by
  obtain ⟨hf, ho⟩ := inv.control.session _ hp
  have hr : s.retry = none := inv.control.exclusive (by simp [hp])
  obtain ⟨r', hr', entry, hf', hs⟩ := inv.entry.finish hf (fun _ _ _ => ho) i fault
  refine ⟨r', hr', ⟨?_, ?_⟩, ⟨?_, ?_⟩⟩
  · exact { entry with }
  · exact ⟨by simp, by simp, by simp, by simp⟩
  · exact { entry with }
  · refine ⟨?_, by simp [hr], fun _ => hr, fun _ => hs⟩
    intro _ hq
    cases hq
    exact hf'

theorem SlotInv.retried (inv : SlotInv o s r) (hu : s.retry = some u) (i : String)
    (fault : Option WriteFault) : let file := (finishInner i u fault s.file).2
    ∃ r', Follows r r' ∧ SlotInv o { s with file := file, retry := none } r' ∧
      SlotInv o { s with file := file } r' := by
  have hs : s.session = none := by
    by_contra hne
    have hn := inv.control.exclusive (isSome_iff_ne_none.mpr hne)
    simp [hu] at hn
  obtain ⟨r', hr', entry, hf', hst⟩ :=
    inv.entry.finish (inv.control.retry u hu) (inv.control.queued (by simp [hu])) i fault
  refine ⟨r', hr', ⟨?_, ?_⟩, ⟨entry, ?_⟩⟩
  · exact { entry with }
  · exact ⟨by simp [hs], by simp, by simp, by simp [hs]⟩
  · refine ⟨by simp [hs], ?_, by simp [hs], fun _ => hst⟩
    intro v hv
    rw [show v = u from some_inj.mp (hv.symm.trans hu)]
    exact hf'

theorem entryOf_staged (hi : o.notaryInstanceId = cfg.instanceId)
    (hv : (stagedEntry cfg o.operationId o.mode).Valid) (hb : r.bytes = 0) :
    EntryOf o r (stagedEntry cfg o.operationId o.mode) := by
  refine ⟨?_, hv⟩
  rw [hi, hb]
  rfl

section

variable (inv : SlotInv o s r)
include inv

/-- Staging: the session goes on with its entry in place, or it fails with a decision. -/
theorem SlotInv.stage (hp : s.session = some (.redeemed mode operation))
    (hi : o.notaryInstanceId = cfg.instanceId) (fault : Option WriteFault) :
    let x := Adapter.stage (stagedEntry cfg o.operationId mode) fault s.file
    (x.1 = .ok () → SlotInv o { s with file := x.2, session := some (.staged mode operation) } r) ∧
      ∃ r', Follows r r' ∧
        SlotInv o { s with file := x.2, session := some (.unstaged mode) } r' := by
  intro x
  have hph := inv.control.session _ hp
  obtain ⟨rfl, ha, hm, rfl⟩ := hph
  have hr : s.retry = none := inv.control.exclusive (by simp [hp])
  have hn : x.2 = s.file ∧ x.1 ≠ .ok () ∨ x.2 = some (stagedEntry cfg o.operationId o.mode) ∧
      (stagedEntry cfg o.operationId o.mode).Valid := by
    rcases stage_cases (stagedEntry cfg o.operationId o.mode) fault s.file with
      h | ⟨hv, -, h⟩
    · exact .inl ⟨h.2, h.1⟩
    · exact .inr ⟨h, hv⟩
  constructor
  · intro hok
    obtain ⟨-, hne⟩ | ⟨hf, hv⟩ := hn
    · exact absurd hok hne
    · have entry := inv.entry
      have hd : s.due = none := (entry.undecided rfl).1
      refine ⟨{ entry with file := ?_, due := by simp [hd] }, ?_, by simp [hr], by simp [hr],
        by simp⟩
      · intro e he
        rw [show e = stagedEntry cfg o.operationId o.mode from some_inj.mp (he.symm.trans hf)]
        exact ⟨entryOf_staged hi hv rfl, .inr ⟨rfl, .inl rfl⟩⟩
      · intro _ hq
        cases hq
        exact ⟨rfl, ha, hm, rfl⟩
  · refine ⟨⟨none, some .serviceFailed⟩, .inr (.decide none _), ?_, ?_⟩
    · have hf : FileInv o ⟨none, some .serviceFailed⟩ x.2 := by
        intro e he
        obtain ⟨ho, -⟩ | ⟨hf, hv⟩ := hn
        · obtain ⟨hen, hca⟩ := inv.entry.file e (ho ▸ he)
          refine ⟨hen.change ⟨none, some .serviceFailed⟩ rfl e.outcome, .inr ⟨?_, .inr rfl⟩⟩
          rcases hca with ⟨_, -, hc⟩ | ⟨hno, -⟩
          · cases hc
          · exact hno
        · rw [show e = stagedEntry cfg o.operationId o.mode from some_inj.mp (he.symm.trans hf)]
          exact ⟨entryOf_staged hi hv rfl, .inr ⟨rfl, .inr rfl⟩⟩
      have entry := inv.entry.decide rfl (by simp) (by simp) hf
      exact { entry with }
    · refine ⟨?_, by simp [hr], by simp [hr], by simp [hr]⟩
      intro _ hq
      cases hq
      exact ⟨rfl, rfl⟩

/-- Recording: if the file holds the bytes afterwards, the report has them for good; the
session goes on if the write succeeded and ends as a service failure otherwise. -/
theorem SlotInv.record (hp : s.session = some (.running mode limits))
    (hrc : canRecord mode limits bytes) (i : String) (fault : Option WriteFault) :
    let x := recordAuthenticatedBytes i bytes fault s.file
    ∃ r', Follows r r' ∧ (x.1 = .ok () →
        SlotInv o { s with file := x.2, session := some (.measured mode limits bytes) } r') ∧
      SlotInv o { s with file := x.2, session := some (.finishing ⟨.serviceFailed, 0⟩) } r' ∧
      ((∃ e, x.2 = some e ∧ e.authenticatedBytes = bytes) → r'.measured = some (bytes : ℤ)) := by
  intro x
  obtain ⟨rfl, hac, rfl, hl⟩ := inv.control.session _ hp
  have hre : s.retry = none := inv.control.exclusive (by simp [hp])
  have hf (r' : UsageReport) (hop : r'.outcome = none) :
      PhaseInv o r' (.finishing ⟨.serviceFailed, 0⟩) :=
    ⟨updateFits_failure (by simp) (by simp) hop, hop⟩
  by_cases hh : ∃ e, x.2 = some e ∧ e.authenticatedBytes = bytes
  · obtain ⟨e, he, hb⟩ := hh
    have hs {e' : PendingUsageSettlement} (h : s.file = some e') :
        EntryOf o {} e' ∧ e'.outcome = none := by
      obtain ⟨hen, ⟨_, -, hc⟩ | ⟨hn, -⟩⟩ := inv.entry.file e' h
      · cases hc
      · exact ⟨hen, hn⟩
    have hen : EntryOf o ⟨some (bytes : ℤ), none⟩ e ∧ e.outcome = none := by
      rcases recordAuthenticatedBytes_cases i bytes fault s.file with
        h | ⟨e₀, he0, -, ⟨hso, -, -⟩ | ⟨-, -, h⟩⟩
      · -- The refused write had nothing to change: the bytes are zero.
        obtain ⟨ho, hn⟩ := hs (h.2 ▸ he)
        have hz : (bytes : ℤ) = 0 := hb ▸ ho.bytes_eq
        exact ⟨ho.change ⟨some (bytes : ℤ), none⟩ hz e.outcome, hn⟩
      · simp [(hs he0).2] at hso
      · obtain ⟨ho, hn⟩ := hs he0
        obtain rfl : { e₀ with authenticatedBytes := (bytes : ℤ) } = e :=
          some_inj.mp (h.symm.trans he)
        refine ⟨⟨?_, ho.valid.operation, ho.valid.notary, by simp⟩, hn⟩
        rw [ho.eq]
        rfl
    have hal : o.mode = .notarization → o.notarizationAllowanceBytes = some (bytes : ℤ) := by
      intro hm
      obtain ⟨_, hex, ha⟩ := hl.notarization hm
      have heq := hrc hm
      simp only [hex, all_some, decide_eq_true_eq] at heq
      rw [ha, heq]
    have hfi : FileInv o ⟨some (bytes : ℤ), none⟩ x.2 := by
      intro e' he'
      obtain rfl : e = e' := some_inj.mp (he.symm.trans he')
      exact ⟨hen.1, .inr ⟨hen.2, .inl rfl⟩⟩
    have entry := inv.entry.measure hac (by simp) hal hfi
    have hco {p : Phase} (hph : PhaseInv o ⟨some (bytes : ℤ), none⟩ p) :
        SlotInv o { s with file := x.2, session := some p } ⟨some (bytes : ℤ), none⟩ := by
      refine ⟨{ entry with }, ?_, by simp [hre], by simp [hre],
        fun _ _ _ _ => rfl⟩
      intro _ hq
      cases hq
      exact hph
    exact ⟨_, .inr (.measure _), fun _ => hco ⟨rfl, hac, rfl, hl⟩, hco (hf _ rfl), fun _ => rfl⟩
  · -- Nothing was written: the report stays open and the session fails.
    have hr : x.1 ≠ .ok () ∧ x.2 = s.file := by
      rcases recordAuthenticatedBytes_cases i bytes fault s.file with
        h | ⟨e, he, -, ⟨-, hb, h⟩ | ⟨-, -, h⟩⟩
      · exact h
      · exact absurd ⟨e, h.trans he, hb⟩ hh
      · exact absurd ⟨_, h, rfl⟩ hh
    refine ⟨{}, .inl rfl, fun hok => absurd hok hr.1, ?_, fun h => absurd h hh⟩
    rw [hr.2]
    exact inv.advance hp (hf {} rfl) rfl

theorem SlotInv.recover (hs : s.session = none)
    (hr : s.retry = none) (hd : s.due = none) (he : s.file = some e)
    (hn : e.outcome = none) (fault : Option WriteFault) :
    ∃ r', Follows r r' ∧ SlotInv o { s with file := (recoverEntry e fault s.file).2 } r' := by
  have hco (r' : UsageReport) (file : OutboxFile) : ControlInv o { s with file := file } r' :=
    ⟨by simp [hs], by simp [hr], by simp [hs], by simp [hs, hr]⟩
  unfold recoverEntry
  rw [if_pos hn]
  rcases write_cases { e with outcome := some .serviceFailed } fault s.file with h | ⟨-, h⟩
  · rw [h.2]
    exact ⟨r, .inl rfl, inv⟩
  · rw [h]
    obtain ⟨hen, ⟨c, hc, -⟩ | ⟨-, ho⟩⟩ := inv.entry.file e he
    · simp [hn] at hc
    · rcases ho with ho | rfl
      · refine ⟨⟨r.measured, some .serviceFailed⟩, .inr ?_, ?_, hco _ _⟩
        · rw [show r = ⟨r.measured, none⟩ by rw [← ho]]
          exact .decide _ _
        · apply inv.entry.decide ho (by simp) (by simp)
          intro _ he'
          cases he'
          exact ⟨hen.change ⟨r.measured, some .serviceFailed⟩ rfl _, .inl ⟨_, rfl, rfl⟩⟩
      · have entry := inv.entry
        refine ⟨_, .inl rfl, { entry with file := ?_, due := by simp [hd] }, hco _ _⟩
        intro _ he'
        cases he'
        exact ⟨hen.change _ rfl _, .inl ⟨_, rfl, rfl⟩⟩

theorem SlotInv.settleDirectly (hp : s.session = some (.unstaged mode))
    (hi : o.notaryInstanceId = cfg.instanceId) :
    SlotInv o { s with
      settlements := ({ stagedEntry cfg o.operationId mode with
        outcome := some .serviceFailed }.request).toList ++ s.settlements
      session := none } r := by
  obtain ⟨rfl, rfl⟩ := inv.control.session _ hp
  have hr : s.retry = none := inv.control.exclusive (by simp [hp])
  have entry := inv.entry
  refine ⟨{ entry with sent := ?_ }, by simp, by simp [hr], by simp, by simp [hr]⟩
  intro m hm
  rcases List.mem_append.mp hm with hm | hm
  · simp only [PendingUsageSettlement.request, stagedEntry, map_some,
      toList_some, List.mem_singleton] at hm
    subst hm
    rw [reportRequest, hi]
    exact ⟨rfl, rfl⟩
  · exact entry.sent m hm

theorem SlotInv.collect (he : s.file = some e) (hre : e.outcome.isSome) :
    SlotInv o { s with due := some e } r := by
  have entry := inv.entry
  refine ⟨{ entry with due := ?_ }, { inv.control with }⟩
  intro e' he'
  cases he'
  obtain ⟨hen, ⟨_, hc, hr⟩ | ⟨hn, -⟩⟩ := entry.file e he
  · refine ⟨hen, by rw [hc, hr], by simp [hr], fun e' he' => ?_⟩
    exact some_inj.mp (he'.symm.trans he)
  · simp [hn] at hre

end

theorem EntryOf.request_eq (h : EntryOf o r e) (hc : e.outcome = some c) :
    e.request = some (reportRequest o r c) := by
  rw [PendingUsageSettlement.request, hc, h.eq]
  rfl

theorem SlotInv.deliver (inv : SlotInv o s r) (he : s.due = some e) :
    SlotInv o { s with settlements := e.request.toList ++ s.settlements } r := by
  have entry := inv.entry
  obtain ⟨hen, ho, hs, -⟩ := entry.due e he
  obtain ⟨c, hc⟩ := isSome_iff_exists.mp hs
  refine ⟨{ entry with sent := ?_ }, { inv.control with }⟩
  intro m hm
  rcases List.mem_append.mp hm with hm | hm
  · rw [hen.request_eq (ho.trans hc)] at hm
    obtain rfl : m = reportRequest o r c := by simpa using hm
    exact ⟨hc, rfl⟩
  · exact entry.sent m hm

theorem SlotInv.remove (inv : SlotInv o s r) :
    SlotInv o { s with file := none, due := none } r := by
  have entry := inv.entry
  refine ⟨{ entry with file := ?_, due := by simp }, { inv.control with queued := by simp }⟩
  intro _ he
  cases he

theorem SlotInv.crash (inv : SlotInv o s r) : SlotInv o s.crash r := by
  have entry := inv.entry
  exact ⟨{ entry with due := by simp [Slot.crash] }, by simp [Slot.crash], by simp [Slot.crash],
    by simp [Slot.crash], by simp [Slot.crash]⟩

end Notary.Adapter
