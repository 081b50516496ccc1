import Notary.Platform.Settlement

/-! The lifecycle law of admitted operations in every reachable state of the ledger. -/

namespace Notary.Platform
open Relational

theorem settleUsage_ne_noCreditGrant (hf : ∀ o ∈ db.operations, ∃ g ∈ db.grants,
      g.funds o.creditSubject (.forMode o.mode) o.admittedAt) :
    settleUsage ids request now db ≠ .error noCreditGrant := by
  intro h
  refine settleUsage_fails (P := (· ≠ noCreditGrant)) ?_ ?_ ?_ ?_ hf _ h rfl
  · intro _
    simp [noCreditGrant, ApiError.internal, ApiError.badRequest, ApiError.coded]
  · intro _
    simp [noCreditGrant, ApiError.internal, ApiError.conflict, ApiError.coded]
  · exact fun _ => by decide
  · intro _ he
    rcases he with he | rfl
    · exact he.ne_noCreditGrant
    · decide

/-- The lifecycle and ledger laws of a database state, with what later states keep. -/
structure LifecycleLaw (cfg : PlatformConfig) (db : Database) : Prop where
  /-- A consumed ticket never changes again, so it is consumed once. -/
  ticket_final : ∀ t ∈ db.tickets, t.consumedAt.isSome →
    ∀ db', (ledger cfg).Run db db' → t ∈ db'.tickets
  /-- Every operation consumed a ticket, and no other operation shares it. -/
  ticket_once : ∀ o ∈ db.operations,
    (∃ t ∈ db.tickets, t.tokenHash = o.ticketTokenHash ∧ t.consumedAt.isSome) ∧
      ∀ o' ∈ db.operations, o'.ticketTokenHash = o.ticketTokenHash → o' = o
  /-- An operation keeps the ticket and the terms it was admitted with. -/
  admission_final : ∀ o ∈ db.operations, ∀ db', (ledger cfg).Run db db' →
    ∃ o' ∈ db'.operations, o.SameAdmission o'
  /-- A terminal operation never changes: not its outcome, bytes or activation. -/
  terminal_final : ∀ o ∈ db.operations, o.terminalOutcome.isSome →
    ∀ db', (ledger cfg).Run db db' → o ∈ db'.operations
  /-- Without an activation nothing positive is settled. -/
  unactivated_zero : ∀ o ∈ db.operations, o.activatedAt = none →
    ∀ b, o.settledAuthenticatedBytes = some b → b = 0
  /-- A notarization settles nothing or its allowance, and a completed one its allowance. -/
  notarization_bytes : ∀ o ∈ db.operations, o.mode = .notarization →
    ∀ b, o.settledAuthenticatedBytes = some b →
      (b = 0 ∨ o.notarizationAllowanceBytes = some b) ∧
      (o.terminalOutcome = some .completed → o.notarizationAllowanceBytes = some b)
  /-- There is a debit exactly for the terminal operations with positive bytes. -/
  debit_iff : ∀ o ∈ db.operations,
    (∃ d ∈ db.debits, d.operationId = some o.operationId) ↔
      o.terminalOutcome.isSome ∧ ∃ b, o.settledAuthenticatedBytes = some b ∧ 0 < b
  /-- An operation has at most one debit, and its allocations sum to the settled bytes. -/
  debit_total : ∀ o ∈ db.operations, ∀ d ∈ db.debits, d.operationId = some o.operationId →
    (∀ d' ∈ db.debits, d'.operationId = some o.operationId → d' = d) ∧
      o.settledAuthenticatedBytes =
        some ((debitAllocations db d.id).map (·.amountBytes)).sum
  /-- Settling never finds an operation without a grant. -/
  grant_found : ∀ ids request now, settleUsage ids request now db ≠ .error noCreditGrant

/-- Every reachable state of the ledger satisfies the lifecycle law. -/
theorem operation_lifecycle (cfg : PlatformConfig) {db : Database}
    (h : (ledger cfg).Reachable db) : LifecycleLaw cfg db := by
  have inv := ledgerInv_of_reachable h
  refine ⟨fun t ht hc db' hr => (persists_of_run h hr).tickets t ht hc, fun o ho => ?_,
    fun o ho db' hr => (persists_of_run h hr).operations o ho,
    fun o ho hs db' hr => (persists_of_run h hr).terminal o ho hs,
    fun o ho hn b hb => (inv.operations.sound o ho b hb).1 hn,
    fun o ho hm b hb => (inv.operations.sound o ho b hb).2 hm, fun o ho => ?_,
    fun o ho d hd hid => ?_,
    fun ids request now => settleUsage_ne_noCreditGrant inv.operations.funded⟩
  · exact ⟨inv.operations.consumed o ho, fun o' ho' he => Table.eq_of_clash ho' ho he⟩
  · constructor
    · rintro ⟨_, hd, hid⟩
      obtain ⟨hb, hpos⟩ := inv.debits.of_debit ho hd hid
      exact ⟨terminal_of_settledBytes ho hb, _, hb, hpos⟩
    · rintro ⟨-, b, hb, hpos⟩
      exact inv.debits.debited o ho b hb hpos
  · refine ⟨fun d' hd' he => Table.eq_of_clash hd' hd ⟨by simp [he], by rw [he, hid]⟩, ?_⟩
    rw [inv.debits.total d hd, (inv.debits.of_debit ho hd hid).1]

def runAll (cfg : PlatformConfig) (db : Database) (ts : List Transaction) : Database :=
  ts.foldl (fun db t => t.run cfg db) db

theorem reachable_runAll (cfg : PlatformConfig) (ts : List Transaction) :
    (ledger cfg).Reachable (runAll cfg {} ts) :=
  List.foldlRecOn ts _ (.init rfl) fun _ h t _ => h.step ⟨t, rfl⟩

/-- A calendar that knows only November 2023. -/
def november : CreditCalendar where
  monthlyCreditPeriod now :=
    if 1698796800 ≤ now ∧ now < 1701388800 then some ⟨1698796800, 1701388800⟩ else none
  start_le := by
    intro _ _ h
    split_ifs at h with hc
    cases h
    exact hc.1
  lt_stop := by
    intro _ _ h
    split_ifs at h with hc
    cases h
    exact hc.2
  same_stop := by
    intro _ _ _ _ hp hq _
    split_ifs at hp hq
    cases hp
    cases hq
    rfl

def sampleLimits : AdmissionTierLimits := ⟨1000, 4096, 5000, 5000⟩

/-- A configuration whose digest function is right on the one ticket of the sample run. -/
def sampleConfig : PlatformConfig where
  calendar := november
  sha256Hex _ := "3b2610930ad59efbab4e302db61813700598baa1692c1786359bb6b7247b4c73"
  ticketTtlSecs := 300
  registryGeneration := 7
  publicTier := sampleLimits
  free := sampleLimits
  oneGb := sampleLimits
  tenGb := sampleLimits

/-- One capture from its ticket to its settlement. -/
def sampleRun : List Transaction := [
  .issue "grant-1" "notary_admission_t" (.anonymous "public:1") ⟨.capture, none, none⟩
    1700000000,
  .redeem "grant-2" "op-1" ⟨"notary_admission_t", "notary-a", .capture, 7, true⟩ 1700000010,
  .activate ⟨"op-1", "notary-a", .capture⟩ 1700000020,
  .settle ⟨"debit-1", "overage-1"⟩ ⟨"op-1", "notary-a", .capture, 640, .completed⟩ 1700000090]

theorem operation_lifecycle_sample :
    ((runAll sampleConfig {} sampleRun).operations.rows.map
        fun o => (o.terminalOutcome, o.settledAuthenticatedBytes)) =
      [(some .completed, some 640)] ∧
    LifecycleLaw sampleConfig (runAll sampleConfig {} sampleRun) :=
  ⟨by decide, operation_lifecycle sampleConfig (reachable_runAll sampleConfig sampleRun)⟩

end Notary.Platform
