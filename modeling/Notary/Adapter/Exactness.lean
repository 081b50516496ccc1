import Notary.Adapter.Refinement
import Notary.Platform.Lifecycle

/-! Exact settlement across crashes, lost replies and repeated deliveries: ready entries are
accepted, recorded bytes are settled as recorded, and entries are removed only once the
platform has settled them. -/

namespace Notary.Adapter
open Platform Relational Transition Option

section Ledger

variable {cfg : AdapterConfig} {w w' : World}

theorem Action.next_db (a : Action) :
    (a.next cfg w).db = w.db ∨ ∃ t : Transaction, t.run cfg.platform w.db = (a.next cfg w).db := by
  cases a with
  | platform t => exact .inr ⟨t, rfl⟩
  | redeem freshGrantId freshOperationId ticket mode now =>
    refine .inr ⟨.redeem freshGrantId freshOperationId (redeemRequest cfg ticket mode) now, ?_⟩
    simp only [Action.next]
    split <;> rfl
  | activate _ request now =>
    refine .inr ⟨.activate request now, ?_⟩
    simp only [Action.next]
    split <;> rfl
  | settle _ request ids now =>
    refine .inr ⟨.settle ids request now, ?_⟩
    simp only [Action.next]
    split <;> rfl
  | stage | constrain | begin | record | finish | retry | recoverEntry =>
    left
    simp only [Action.next]
    split <;> rfl
  | _ => exact .inl rfl

theorem ledger_run (h : (adapter cfg).Run w w') : (ledger cfg.platform).Run w.db w'.db := by
  induction h with
  | refl => exact .refl
  | tail _ hs ih =>
    obtain ⟨a, -, rfl⟩ := hs
    rcases @Action.next_db cfg _ a with hd | ht
    · rw [hd]
      exact ih
    · exact ih.tail ht

theorem ledger_reachable (h : (adapter cfg).Reachable w) :
    (ledger cfg.platform).Reachable w.db := by
  obtain ⟨i, hi, hr⟩ := h
  have hin : (ledger cfg.platform).Init i.db := by rw [show i = {} from hi]; rfl
  exact ⟨i.db, hin, ledger_run hr⟩

/-- The adapter and the platform refine the usage reports. -/
theorem adapter_simulation (cfg : AdapterConfig) :
    (adapter cfg).Simulation usageReports (Refines cfg) := by
  constructor
  · rintro _ rfl
    refine ⟨fun _ => {}, rfl, fun i => ?_, fun _ i => ⟨rfl, rfl, rfl⟩⟩
    exact ⟨rfl, rfl⟩
  · rintro _ _ _ hre hr ⟨_, ha, rfl⟩
    exact hr.step (ledgerInv_of_reachable (ledger_reachable hre)) ha

end Ledger

theorem ReportSound.accepted {cfg : PlatformConfig} {db : Database} {o : AdmittedOperation}
    {r : UsageReport} {c : UsageSettlementOutcome} (hs : ReportSound o r)
    (hc : r.outcome = some c) (hl : (ledger cfg).Reachable db)
    (ho : operationAt db o.operationId = some o) (hid : SafeIdentifier o.operationId)
    (hin : SafeIdentifier o.notaryInstanceId) (ids : SettlementIds) (now : ℤ) :
    AcceptsSettlement ids (reportRequest o r c) now db := by
  have hm := (operationAt_eq_some.mp ho).1
  have hal := (allowanceInv_of_reachable hl).operations o hm
  -- Only a service failure without bytes is reported for an operation that never ran.
  have hi : o.activatedAt = none → c = .serviceFailed ∧ r.bytes = 0 := by
    intro hn
    constructor
    · by_contra hne
      simpa [hn] using hs.decided c hc hne
    · cases hm : r.measured with
      | none => simp [UsageReport.bytes, hm]
      | some b => simpa [hn] using (hs.measured b hm).1
  have hng : 0 ≤ r.bytes := by
    cases hm : r.measured with
    | none => simp [UsageReport.bytes, hm]
    | some b => simpa [UsageReport.bytes, hm] using (hs.measured b hm).2.1
  have hco (h : c = .completed) : ∃ b, r.measured = some b ∧ r.bytes = b ∧
      (o.mode = .capture → b ≤ o.maxAttestableHttpBytes) := by
    obtain ⟨b, hb, hl⟩ := hs.completed (h ▸ hc)
    exact ⟨b, hb, by simp [UsageReport.bytes, hb], hl⟩
  have hv : SettlementBytesValid o (reportRequest o r c) := by
    unfold SettlementBytesValid
    simp only [show (reportRequest o r c).mode = o.mode from rfl]
    cases hmo : o.mode with
    | capture =>
      intro h
      change r.bytes ≤ o.maxAttestableHttpBytes
      obtain ⟨_, -, hby, hl⟩ := hco h
      rw [hby]
      exact hl hmo
    | notarization =>
      obtain ⟨allowance, ha⟩ := isSome_iff_exists.mp (hal hmo)
      have hme {b : ℤ} (hb : r.measured = some b) : r.bytes = allowance := by
        have hb' := (hs.measured b hb).2.2 hmo
        rw [UsageReport.bytes, hb]
        exact some_inj.mp (hb'.symm.trans ha)
      refine ⟨allowance, ha, ?_, fun h => ?_⟩
      · change r.bytes = 0 ∨ r.bytes = allowance
        cases hm : r.measured with
        | none => simp [UsageReport.bytes, hm]
        | some => exact .inr (hme hm)
      · obtain ⟨_, hb, -⟩ := hco h
        exact hme hb
  have hte : ∀ c', o.terminalOutcome = some c' →
      c' = c ∧ o.settledAuthenticatedBytes = some r.bytes := by
    intro c' hc'
    rcases hs.terminal c' hc' with ⟨hr, hse⟩ | ⟨hn, rfl, hse⟩
    · exact ⟨some_inj.mp (hr.symm.trans hc), hse⟩
    · obtain ⟨rfl, hby⟩ := hi hn
      exact ⟨rfl, by rw [hse, ← hby]⟩
  have hse := settleUsage_cases ids (reportRequest o r c) now ho
    (fun _ => Tx.ensure_ok.mpr ⟨hid, rfl⟩)
    (fun _ => Tx.ensure_ok.mpr ⟨hin, rfl⟩) hng ⟨rfl, rfl⟩ hv hte (fun _ => hi)
  refine ⟨fun room => ?_, fun e he => ?_⟩
  · obtain hok | ⟨ht, e, -, hd⟩ := hse
    · exact hok
    · obtain ⟨_, hr⟩ := recordOperationDebit_room hl hm ht hid.2.1 hng room
      cases hr.symm.trans hd
  · obtain ⟨_, hok⟩ | ⟨-, e', he', hd⟩ := hse
    · cases hok.symm.trans he
    · cases he.symm.trans he'
      have hf := (ledgerInv_of_reachable hl).operations.funded o hm
      exact (recordOperationDebit_fails hf _ hd).status

variable {i : String}

section Removal

variable {cfg : AdapterConfig} {w : World}

theorem isSome_of_refused (hf : file.isSome) (h : Refused x file ∨ ∃ e, x.2 = some e) :
    x.2.isSome := by
  rcases h with h | ⟨_, h⟩
  · rwa [h.2]
  · simp [h]

theorem setSlot_isSome (hs : (w.slots j).file.isSome → s.file.isSome)
    (hi : (w.slots i).file.isSome) :
    ((w.setSlot j s).slots i).file.isSome := by
  by_cases hij : i = j
  · subst hij
    simpa [World.setSlot] using hs hi
  · simpa [World.setSlot, Function.update_of_ne hij] using hi

theorem finishInner_isSome (hf : file.isSome) : (finishInner i u fault file).2.isSome := by
  apply isSome_of_refused hf
  rcases finishInner_cases i u fault file with h | ⟨e, he, -, ⟨-, h⟩ | ⟨-, h⟩⟩
  · exact .inl h
  · exact .inr ⟨e, h.trans he⟩
  · exact .inr ⟨_, h⟩

/-- The only action that takes a file away is the removal after an accepted delivery. -/
theorem Action.file_isSome {a : Action} (hi : (w.slots i).file.isSome)
    (hn : ∀ entry, a ≠ .remove i entry) : ((a.next cfg w).slots i).file.isSome := by
  cases a with
  | remove j entry =>
    have hij : i ≠ j := fun h => hn entry (by rw [h])
    simpa [Action.next, World.setSlot, Function.update_of_ne hij] using hi
  | stage j mode operation fault =>
    have hs (hj : (w.slots j).file.isSome) :
        (Adapter.stage (stagedEntry cfg j mode) fault (w.slots j).file).2.isSome := by
      apply isSome_of_refused hj
      rcases stage_cases (stagedEntry cfg j mode) fault (w.slots j).file with h | ⟨-, -, h⟩
      · exact .inl h
      · exact .inr ⟨_, h⟩
    simp only [Action.next]
    split <;> exact setSlot_isSome hs hi
  | record j mode limits bytes fault =>
    have hre (hj : (w.slots j).file.isSome) :
        (recordAuthenticatedBytes j bytes fault (w.slots j).file).2.isSome := by
      apply isSome_of_refused hj
      rcases recordAuthenticatedBytes_cases j bytes fault (w.slots j).file with
        h | ⟨e, he, -, ⟨-, -, h⟩ | ⟨-, -, h⟩⟩
      · exact .inl h
      · exact .inr ⟨e, h.trans he⟩
      · exact .inr ⟨_, h⟩
    simp only [Action.next]
    split <;> exact setSlot_isSome hre hi
  | finish j update fault | retry j update fault =>
    simp only [Action.next]
    split <;> exact setSlot_isSome finishInner_isSome hi
  | recoverEntry j entry fault =>
    have hr (hj : (w.slots j).file.isSome) :
        (Adapter.recoverEntry entry fault (w.slots j).file).2.isSome := by
      unfold Adapter.recoverEntry
      split
      · apply isSome_of_refused hj
        rcases write_cases { entry with outcome := some .serviceFailed } fault (w.slots j).file with
          h | ⟨-, h⟩
        · exact .inl h
        · exact .inr ⟨_, h⟩
      · exact hj
    simp only [Action.next]
    split <;> exact setSlot_isSome hr hi
  | redeem | activate | settle =>
    simp only [Action.next]
    split
    · exact setSlot_isSome id hi
    · exact hi
  | constrain | begin =>
    simp only [Action.next]
    split <;> exact setSlot_isSome id hi
  | settleDirectly | activation | complete | fail | queue | collect | deliver =>
    exact setSlot_isSome id hi
  | platform | crash | restart | serve => exact hi

end Removal

/-- Exact settlement, from a world on. -/
structure ExactSettlement (cfg : AdapterConfig) (w : World) : Prop where
  /-- A ready entry is accepted whenever it is delivered, now or later, under new identifiers; the
  platform never answers it with a conflict or a bad request. -/
  ready_accepted : ∀ i entry, (w.slots i).file = some entry →
    ∀ request, entry.request = some request → ∀ w', (adapter cfg).Run w w' →
      ∀ ids now, AcceptsSettlement ids request now w'.db
  /-- Bytes that a session recorded and the directory holds are the only ones with which
  the operation is ever settled. -/
  recorded_final : ∀ i mode limits bytes fault,
    Action.Enabled cfg w (.record i mode limits bytes fault) →
    ∀ entry, ((Action.next cfg w (.record i mode limits bytes fault)).slots i).file = some entry →
      entry.authenticatedBytes = bytes →
      ∀ w', (adapter cfg).Run (Action.next cfg w (.record i mode limits bytes fault)) w' →
        ∀ o ∈ w'.db.operations, o.operationId = i →
          ∀ b, o.settledAuthenticatedBytes = some b → b = bytes
  /-- An entry goes only when its operation is settled with its outcome and its bytes. -/
  removed_settled : ∀ a : Action, a.Enabled cfg w → ∀ i entry, (w.slots i).file = some entry →
    ((a.next cfg w).slots i).file = none → ∃ o ∈ w.db.operations, o.operationId = i ∧
      entry.outcome.isSome ∧ o.terminalOutcome = entry.outcome ∧
      o.settledAuthenticatedBytes = some entry.authenticatedBytes

section Exact

variable {cfg : AdapterConfig} {w : World} {r : String → UsageReport}

theorem Refines.ready_accepted (hre : (adapter cfg).Reachable w) (h : Refines cfg w r)
    (hf : (w.slots i).file = some entry) (hr : entry.request = some request)
    (hru : (adapter cfg).Run w w') (ids : SettlementIds) (now : ℤ) :
    AcceptsSettlement ids request now w'.db := by
  obtain ⟨o, ho, hi, -, inv⟩ := h.owner (i := i) fun he => by simp [he] at hf
  obtain ⟨hen, ⟨c, hc, hd⟩ | ⟨hn, -⟩⟩ := inv.entry.file entry hf
  · obtain ⟨r', hru', h'⟩ := (adapter_simulation cfg).run hre h hru
    have hex := extends_of_run hru' i
    have hsl := h'.slots i
    cases ho' : ownedAt cfg.instanceId w'.db i with
    | none =>
      -- The report is decided, so the adapter redeemed the operation.
      rw [ho'] at hsl
      have hlo := hex.outcome c hd
      rw [hsl.2] at hlo
      cases hlo
    | some o' =>
      rw [ho'] at hsl
      obtain ⟨hro, -⟩ := ownedAt_eq_some.mp ho
      obtain ⟨hr', -⟩ := ownedAt_eq_some.mp ho'
      obtain ⟨hm, -⟩ := operationAt_eq_some.mp hro
      obtain ⟨hm', hi'⟩ := operationAt_eq_some.mp hr'
      have hl := (ledger_reachable hre).run (ledger_run hru)
      have hsa : o.SameAdmission o' := by
        obtain ⟨o₂, ho2, hs⟩ :=
          (persists_of_run (ledger_reachable hre) (ledger_run hru)).operations o hm
        have hk : o₂.operationId = o'.operationId := by
          rw [hs, hi']
          exact hi
        rwa [Table.eq_of_key ho2 hm' hk] at hs
      have hrp : request = reportRequest o' (r' i) c := by
        rw [hen.request_eq hc] at hr
        rw [← some_inj.mp hr, hsa, reportRequest, reportRequest, hex.bytes c hd]
      have hv := hen.valid
      rw [hen.eq] at hv
      rw [hrp]
      refine hsl.entry.sound.accepted (hex.outcome c hd) hl ?_ ?_ ?_ ids now
      · rw [hi', hr']
      · rw [hsa]
        exact hv.operation
      · rw [hsa]
        exact hv.notary
  · simp [PendingUsageSettlement.request, hn] at hr

theorem Refines.settled_measured (h : Refines cfg w r) (hm : (r i).measured = some bytes)
    (ho : o ∈ w.db.operations) (hi : o.operationId = i)
    (hb : o.settledAuthenticatedBytes = some b) :
    b = bytes := by
  have hs := h.slots i
  cases hon : ownedAt cfg.instanceId w.db i with
  | none =>
    rw [hon] at hs
    rw [hs.2] at hm
    cases hm
  | some o' =>
    rw [hon] at hs
    have hr := operationAt_eq_some.mpr ⟨ho, hi⟩
    obtain rfl : o' = o := some_inj.mp ((ownedAt_eq_some.mp hon).1.symm.trans hr)
    obtain ⟨c, hc⟩ := isSome_iff_exists.mp (terminal_of_settledBytes ho hb)
    rcases hs.entry.sound.terminal c hc with ⟨-, hse⟩ | ⟨hn, -⟩
    · rw [hb] at hse
      rw [some_inj.mp hse, UsageReport.bytes, hm]
      rfl
    · have ha := (hs.entry.sound.measured bytes hm).1
      simp [hn] at ha

theorem Refines.removed_settled (h : Refines cfg w r) (hf : (w.slots i).file = some entry)
    (ha : Action.Enabled cfg w (.remove i due)) :
    ∃ o ∈ w.db.operations, o.operationId = i ∧ entry.outcome.isSome ∧
      o.terminalOutcome = entry.outcome ∧
      o.settledAuthenticatedBytes = some entry.authenticatedBytes := by
  obtain ⟨hd, request, hac, hr⟩ := ha
  obtain ⟨o, ho, hi, -, inv⟩ := h.owner (i := i) fun he => by simp [he] at hf
  obtain ⟨hen, hou, hs, hsa⟩ := inv.entry.due due hd
  obtain rfl := hsa entry hf
  obtain ⟨_, hc⟩ := isSome_iff_exists.mp hs
  obtain ⟨ht, hse⟩ := inv.entry.accepted request hac
  rw [hen.request_eq (hou.trans hc)] at hr
  obtain rfl := some_inj.mp hr
  refine ⟨o, (operationAt_eq_some.mp (ownedAt_eq_some.mp ho).1).1, hi, ?_, ?_, ?_⟩
  · rw [hou]
    exact hs
  · rw [ht, hou, hc]
    rfl
  · rw [hse, hen.bytes_eq]
    rfl

end Exact

/-- Every reachable world of the adapter and the platform settles exactly. -/
theorem exact_settlement (cfg : AdapterConfig) {w : World} (h : (adapter cfg).Reachable w) :
    ExactSettlement cfg w := by
  obtain ⟨_, -, hr⟩ := (adapter_simulation cfg).reachable h
  refine ⟨fun i entry hfile request hrequest w' hrun ids now =>
    hr.ready_accepted h hfile hrequest hrun ids now, ?_, ?_⟩
  · intro i _ _ bytes _ ha entry hfile hbytes _ hrun _ ho hid _ hb
    obtain ⟨_, -, hr₁, hmeasured⟩ := hr.record ha
    have hreach := h.step ⟨_, ha, rfl⟩
    obtain ⟨_, hrun', hr'⟩ := (adapter_simulation cfg).run hreach hr₁ hrun
    have hkept := (extends_of_run hrun' i).measured bytes (hmeasured ⟨entry, hfile, hbytes⟩)
    exact hr'.settled_measured hkept ho hid hb
  · intro a ha i _ hfile hnone
    by_cases hremove : ∃ due, a = .remove i due
    · obtain ⟨_, rfl⟩ := hremove
      exact hr.removed_settled hfile ha
    · have hsome : ((a.next cfg w).slots i).file.isSome := by
        apply Action.file_isSome
        · simp [hfile]
        · exact fun due hd => hremove ⟨due, hd⟩
      simp [hnone] at hsome

def sampleAdapter : AdapterConfig where
  platform := sampleConfig
  instanceId := "notary-a"
  registryGeneration := 7
  limits := ⟨600, 100000, 100000⟩

def sampleResponse : RedeemedOperationResponse := ⟨"op-1", 1700000070, 1000, 4096, none, none⟩

def sampleConstraints : AdmissionConstraints := ⟨none, none, none, some 1000, some 4096⟩

def sampleSession : NotarySessionLimits := ⟨none, none, 600, 1000, 4096⟩

/-- A capture that records 640 bytes and loses its process before it can finish. -/
def sampleCrash : List Action := [
  .platform (.issue "grant-1" "notary_admission_t" (.anonymous "public:1") ⟨.capture, none, none⟩
    1700000000),
  .redeem "grant-2" "op-1" "notary_admission_t" .capture 1700000010 true,
  .stage "op-1" .capture sampleResponse none,
  .constrain "op-1" .capture sampleResponse,
  .activate "op-1" ⟨"op-1", "notary-a", .capture⟩ 1700000020,
  .activation "op-1" .capture sampleConstraints true,
  .begin "op-1" .capture sampleConstraints,
  .record "op-1" .capture sampleSession 640 (some .afterRename),
  .crash,
  .restart,
  .recoverEntry "op-1" ⟨"op-1", "notary-a", .capture, 640, none⟩ none]

theorem sampleCrash_enabled :
    System.Allows (Action.next sampleAdapter) (Action.Enabled sampleAdapter) {} sampleCrash := by
  refine ⟨trivial, fun _ => rfl, ?_, ?_, ?_, ?_, ?_, ?_, trivial, rfl, ?_, trivial⟩ <;>
    unfold Action.Enabled <;> decide

/-- The recovered entry is delivered and settled with its bytes. -/
theorem exact_settlement_sampleCrash :
    ∃ w, w = sampleCrash.foldl (Action.next sampleAdapter) {} ∧ ExactSettlement sampleAdapter w ∧
      (w.slots "op-1").file = some ⟨"op-1", "notary-a", .capture, 640, some .serviceFailed⟩ ∧
      ∃ db', settleUsage ⟨"debit-1", "overage-1"⟩
          ⟨"op-1", "notary-a", .capture, 640, .serviceFailed⟩ 1700000090 w.db = .ok ((), db') ∧
        db'.debits.rows.map (·.allowanceBytes) = [640] := by
  have hexact := exact_settlement sampleAdapter
    (.foldl (.init rfl) (fun _ a ha => ⟨a, ha, rfl⟩) sampleCrash_enabled)
  have hroom : SettlementRoom ⟨"debit-1", "overage-1"⟩
      (sampleCrash.foldl (Action.next sampleAdapter) {}).db :=
    ⟨by decide, by decide, by decide, by decide⟩
  have hfile : ((sampleCrash.foldl (Action.next sampleAdapter) {}).slots "op-1").file =
      some ⟨"op-1", "notary-a", .capture, 640, some .serviceFailed⟩ := by decide
  obtain ⟨db', hok⟩ :=
    (hexact.ready_accepted "op-1" _ hfile _ rfl _ .refl _ 1700000090).settles hroom
  refine ⟨_, rfl, hexact, hfile, db', hok, ?_⟩
  have hdebits : ((settleUsage ⟨"debit-1", "overage-1"⟩
      ⟨"op-1", "notary-a", .capture, 640, .serviceFailed⟩ 1700000090
      (sampleCrash.foldl (Action.next sampleAdapter) {}).db).toOption.map
        fun r => r.2.debits.rows.map (·.allowanceBytes)) = some [640] := by decide
  have hok' : settleUsage ⟨"debit-1", "overage-1"⟩
      ⟨"op-1", "notary-a", .capture, 640, .serviceFailed⟩ 1700000090
      (sampleCrash.foldl (Action.next sampleAdapter) {}).db = .ok ((), db') := hok
  rw [hok'] at hdebits
  exact some_inj.mp hdebits

end Notary.Adapter
