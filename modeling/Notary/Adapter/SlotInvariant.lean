import Notary.Adapter.Protocol
import Notary.Adapter.UsageReport
import Notary.Platform.Settlement

/-! What ties the row, the outbox file, the messages and the process state of one operation to
its usage report, and how the effects of the protocol keep it. -/

namespace Notary.Adapter
open Platform Relational

/-- The settlement request that a report with outcome `c` amounts to. -/
def reportRequest (o : AdmittedOperation) (r : UsageReport) (c : UsageSettlementOutcome) :
    UsageSettlementRequest where
  operationId := o.operationId
  notaryInstanceId := o.notaryInstanceId
  mode := o.mode
  authenticatedBytes := r.bytes
  outcome := c

/-- An entry names its operation and carries the bytes of the report. -/
structure EntryOf (o : AdmittedOperation) (r : UsageReport) (e : PendingUsageSettlement) :
    Prop where
  eq : e = ⟨o.operationId, o.notaryInstanceId, o.mode, r.bytes, e.outcome⟩
  valid : e.Valid

/-- A ready entry carries the decided outcome. A staged entry is undecided, unless its
staging was reported as failed although the file is there. -/
def FileInv (o : AdmittedOperation) (r : UsageReport) (file : OutboxFile) : Prop :=
  ∀ e, file = some e → EntryOf o r e ∧
    ((∃ c, e.outcome = some c ∧ r.outcome = some c) ∨
      e.outcome = none ∧ (r.outcome = none ∨ r = ⟨none, some .serviceFailed⟩))

/-- A report is one that the platform accepts, and a settled row agrees with it or was
settled by the expiry of its activation window. -/
structure ReportSound (o : AdmittedOperation) (r : UsageReport) : Prop where
  measured : ∀ b, r.measured = some b → o.activatedAt.isSome ∧ 0 ≤ b ∧
    (o.mode = .notarization → o.notarizationAllowanceBytes = some b)
  decided : ∀ c, r.outcome = some c → c ≠ .serviceFailed → o.activatedAt.isSome
  completed : r.outcome = some .completed → ∃ b, r.measured = some b ∧
    (o.mode = .capture → b ≤ o.maxAttestableHttpBytes)
  terminal : ∀ c, o.terminalOutcome = some c →
    (r.outcome = some c ∧ o.settledAuthenticatedBytes = some r.bytes) ∨
      (o.activatedAt = none ∧ c = .serviceFailed ∧ o.settledAuthenticatedBytes = some 0)

/-- The directory and the network. What the worker collected is what the file still holds,
if there is a file. -/
structure EntryInv (o : AdmittedOperation) (s : Slot) (r : UsageReport) : Prop where
  file : FileInv o r s.file
  due : ∀ e, s.due = some e → EntryOf o r e ∧ e.outcome = r.outcome ∧ r.outcome.isSome ∧
    ∀ e', s.file = some e' → e' = e
  sent : ∀ m ∈ s.settlements, r.outcome = some m.outcome ∧ m = reportRequest o r m.outcome
  accepted : ∀ m ∈ s.accepted, o.terminalOutcome = some m.outcome ∧
    o.settledAuthenticatedBytes = some m.authenticatedBytes
  activations : ∀ a ∈ s.activations, a.operationId = o.operationId
  activated : s.activated → o.activatedAt.isSome
  sound : ReportSound o r

/-- A terminal update that agrees with the report. -/
structure UpdateFits (o : AdmittedOperation) (r : UsageReport) (u : TerminalUpdate) : Prop where
  fallback : u.fallbackBytes = 0 ∨ r.measured = some (u.fallbackBytes : ℤ)
  activated : u.outcome ≠ .serviceFailed → o.activatedAt.isSome
  completed : u.outcome = .completed → ∃ b, r.measured = some b ∧
    (o.mode = .capture → b ≤ o.maxAttestableHttpBytes)
  agrees : r.outcome = none ∨ r.outcome = some u.outcome

/-- The limits of a session of this operation. -/
def SessionFits (o : AdmittedOperation) (mode : AdmissionMode) (expected : Option ℕ)
    (maxTotal : ℕ) : Prop :=
  mode = o.mode ∧ LimitsFit o.mode o.notarizationAllowanceBytes o.maxAttestableHttpBytes
    expected maxTotal

/-- What each phase of the session knows. -/
def PhaseInv (o : AdmittedOperation) (r : UsageReport) : Phase → Prop
  | .redeemed mode operation | .staged mode operation =>
    mode = o.mode ∧ operation.notarizationAllowanceBytes = o.notarizationAllowanceBytes ∧
      operation.maxAttestableHttpBytes = o.maxAttestableHttpBytes ∧ r = {}
  | .unstaged mode => mode = o.mode ∧ r = ⟨none, some .serviceFailed⟩
  | .activating mode c => r = {} ∧ ∃ m, c.maxTotalPrivateChunkBytes = some m ∧
      SessionFits o mode c.expectedTranscriptBytes m
  | .admitted mode c => r = {} ∧ o.activatedAt.isSome ∧
      ∃ m, c.maxTotalPrivateChunkBytes = some m ∧ SessionFits o mode c.expectedTranscriptBytes m
  | .running mode l => r = {} ∧ o.activatedAt.isSome ∧
      SessionFits o mode l.expectedTranscriptBytes l.maxTotalPrivateChunkBytes
  | .measured mode l bytes => r = ⟨some (bytes : ℤ), none⟩ ∧ o.activatedAt.isSome ∧
      SessionFits o mode l.expectedTranscriptBytes l.maxTotalPrivateChunkBytes
  | .finishing u => UpdateFits o r u ∧ r.outcome = none
  | .noting u => UpdateFits o r u

/-- The process. A queued terminal update implies that staging had succeeded, so a staged
entry is undecided. -/
structure ControlInv (o : AdmittedOperation) (s : Slot) (r : UsageReport) : Prop where
  session : ∀ p, s.session = some p → PhaseInv o r p
  retry : ∀ u, s.retry = some u → UpdateFits o r u
  exclusive : s.session.isSome → s.retry = none
  queued : (s.retry.isSome ∨ ∃ u, s.session = some (.noting u)) →
    ∀ e, s.file = some e → e.outcome = none → r.outcome = none

/-- The invariant of an operation that this adapter redeemed. -/
structure SlotInv (o : AdmittedOperation) (s : Slot) (r : UsageReport) : Prop where
  entry : EntryInv o s r
  control : ControlInv o s r

theorem slotInv_empty (h : o.terminalOutcome = none) : SlotInv o {} {} := by
  have hs : ReportSound o {} := ⟨by simp, by simp, by simp, by simp [h]⟩
  have hf : FileInv o {} none := by
    intro e he
    cases he
  exact ⟨⟨hf, by simp, by simp, by simp, by simp, by simp, hs⟩,
    ⟨by simp, by simp, by simp, by simp⟩⟩

section Entry

variable {o : AdmittedOperation} {s : Slot} {r : UsageReport}

theorem EntryInv.undecided (inv : EntryInv o s r) (h : r.outcome = none) :
    s.due = none ∧ s.settlements = [] := by
  constructor
  · by_contra hd
    obtain ⟨e, he⟩ := Option.ne_none_iff_exists'.mp hd
    have hso := (inv.due e he).2.2.1
    simp [h] at hso
  · apply List.eq_nil_iff_forall_not_mem.mpr
    intro m hm
    have hs := (inv.sent m hm).1
    simp [h] at hs

theorem ReportSound.unsettled (h : ReportSound o r) (ho : r.outcome = none)
    (ha : o.activatedAt.isSome) : o.terminalOutcome = none := by
  by_contra ht
  obtain ⟨c, hc⟩ := Option.ne_none_iff_exists'.mp ht
  rcases h.terminal c hc with ⟨hr, -⟩ | ⟨hn, -⟩
  · simp [ho] at hr
  · simp [hn] at ha

/-- Deciding an outcome, with any file that agrees with the decision. -/
theorem EntryInv.decide (inv : EntryInv o s r) (ho : r.outcome = none)
    {c : UsageSettlementOutcome} (ha : c ≠ .serviceFailed → o.activatedAt.isSome)
    (hco : c = .completed → ∃ b, r.measured = some b ∧
      (o.mode = .capture → b ≤ o.maxAttestableHttpBytes))
    {file : OutboxFile} (hf : FileInv o ⟨r.measured, some c⟩ file) :
    EntryInv o { s with file := file } ⟨r.measured, some c⟩ := by
  obtain ⟨hd, hs⟩ := inv.undecided ho
  refine ⟨hf, ?_, ?_, inv.accepted, inv.activations, inv.activated, ?_⟩
  · intro e he
    simp [hd] at he
  · intro m hm
    simp [hs] at hm
  · refine ⟨inv.sound.measured, ?_, ?_, ?_⟩
    · rintro _ hc' hn
      cases hc'
      exact ha hn
    · intro hc
      exact hco (by simpa using hc)
    · intro c' hc'
      rcases inv.sound.terminal c' hc' with ⟨hr, -⟩ | h
      · simp [ho] at hr
      · exact .inr h

/-- Measuring a running operation, with a file that holds the bytes. -/
theorem EntryInv.measure (inv : EntryInv o s {}) (hac : o.activatedAt.isSome) {b : ℤ}
    (hn : 0 ≤ b) (ha : o.mode = .notarization → o.notarizationAllowanceBytes = some b)
    {file : OutboxFile} (hf : FileInv o ⟨some b, none⟩ file) :
    EntryInv o { s with file := file } ⟨some b, none⟩ := by
  obtain ⟨hd, hs⟩ := inv.undecided rfl
  have ht := inv.sound.unsettled rfl hac
  refine ⟨hf, ?_, ?_, inv.accepted, inv.activations, inv.activated, ?_⟩
  · intro e he
    simp [hd] at he
  · intro m hm
    simp [hs] at hm
  · refine ⟨?_, by simp, by simp, by simp [ht]⟩
    rintro _ hb'
    cases hb'
    exact ⟨hac, hn, ha⟩

/-- The row with other status columns. -/
def withStatus (o : AdmittedOperation) (a : Option ℤ) (t : Option UsageSettlementOutcome)
    (b n : Option ℤ) : AdmittedOperation where
  __ := o
  activatedAt := a
  terminalOutcome := t
  settledAuthenticatedBytes := b
  settledAt := n

/-- A later version of a pending row: activated, or settled as the report says, or settled
by expiry. -/
theorem SlotInv.row (inv : SlotInv o s r) (hpe : o.terminalOutcome = none)
    (ha : o.activatedAt.isSome → a.isSome)
    (ht : ∀ c, t = some c → (r.outcome = some c ∧ b = some r.bytes) ∨
      (a = none ∧ c = .serviceFailed ∧ b = some 0)) : SlotInv (withStatus o a t b n) s r := by
  obtain ⟨entry, control⟩ := inv
  have hf {u : TerminalUpdate} (h : UpdateFits o r u) : UpdateFits (withStatus o a t b n) r u :=
    ⟨h.fallback, fun hn => ha (h.activated hn), h.completed, h.agrees⟩
  constructor
  · refine ⟨fun e he => ?_, fun e he => ?_, entry.sent, fun m hm => ?_, entry.activations,
      fun h => ha (entry.activated h), ?_⟩
    · obtain ⟨hen, hca⟩ := entry.file e he
      exact ⟨⟨hen.eq, hen.valid⟩, hca⟩
    · obtain ⟨hen, hca⟩ := entry.due e he
      exact ⟨⟨hen.eq, hen.valid⟩, hca⟩
    · have hac := (entry.accepted m hm).1
      simp [hpe] at hac
    · have hs := entry.sound
      exact ⟨fun b' hb' => ⟨ha (hs.measured b' hb').1, (hs.measured b' hb').2⟩,
        fun c hc hn => ha (hs.decided c hc hn), hs.completed, ht⟩
  · refine ⟨fun p hp => ?_, fun u hu => hf (control.retry u hu), control.exclusive, control.queued⟩
    have hph := control.session p hp
    cases p with
    | redeemed | unstaged | staged | activating => exact hph
    | admitted | running | measured => exact ⟨hph.1, ha hph.2.1, hph.2.2⟩
    | finishing => exact ⟨hf hph.1, hph.2⟩
    | noting => exact hf hph

end Entry

end Notary.Adapter
