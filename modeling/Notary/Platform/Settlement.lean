import Notary.Platform.OperationRow
import Notary.Platform.SettlementSplit

/-! When a settlement fails, and when it is accepted. -/

namespace Notary.Platform
open Relational Tx TableRef

theorem validateSettlementBytes_readOnly (operation : AdmittedOperation)
    (request : UsageSettlementRequest) : (validateSettlementBytes operation request).ReadOnly := by
  intro _ _ _ h
  exact (validateSettlementBytes_ok.mp h).2

def missingAllowance : ApiError :=
  .internal "notarization operation is missing its authenticated allowance"

/-- The errors of a settlement: refusals, an unknown operation, and internal errors. -/
theorem settleUsage_fails (hb : ∀ message, P (.badRequest message))
    (hc : ∀ message, P (.conflict message))
    (hgo : operationAt db request.operationId = none → P unknownOperation)
    (hi : ∀ e, AllocationFailure e ∨ e = missingAllowance → P e)
    (hf : ∀ o ∈ db.operations, ∃ g ∈ db.grants,
      g.funds o.creditSubject (.forMode o.mode) o.admittedAt) :
    (settleUsage ids request now).FailsAt db P := by
  have hv (value : String) (maximum : ℕ) (message : String) :
      (validateOpaque value maximum message).FailsOnly P :=
    failsOnly_ensure (hb message)
  have hby (operation : AdmittedOperation) :
      (validateSettlementBytes operation request).FailsOnly P := by
    unfold validateSettlementBytes
    cases request.mode with
    | capture => exact failsOnly_ensure (hb _)
    | notarization =>
      exact failsOnly_bind (failsOnly_require (hi _ (.inr rfl))) fun _ =>
        failsOnly_bind (failsOnly_ensure (hb _)) fun _ => failsOnly_ensure (hb _)
  refine failsAt_bind (validateOpaque_readOnly _ _ _) (hv _ _ _) fun _ _ => ?_
  refine failsAt_bind (validateOpaque_readOnly _ _ _) (hv _ _ _) fun _ _ => ?_
  refine failsAt_bind (readOnly_ensure _ _) (failsOnly_ensure (hb _)) fun _ _ => ?_
  refine failsAt_bind (readOnly_query _) (failsOnly_query _) fun row hr => ?_
  simp only [selectByKey_ok, and_true] at hr
  cases row with
  | none =>
    intro _ h
    rcases bind_error.mp h with h | ⟨_, _, h, -⟩
    · cases h
      exact hgo hr
    · cases h
  | some operation =>
    have hme := (Table.find?_eq_some.mp hr).1
    rw [show (Tx.require (some operation) unknownOperation : Request AdmittedOperation) =
      pure operation from rfl, pure_bind]
    refine failsAt_bind (readOnly_ensure _ _) (failsOnly_ensure (hc _)) fun _ ha => ?_
    refine failsAt_bind (validateSettlementBytes_readOnly _ _) (hby _) fun _ _ => ?_
    have hm : operation.mode = request.mode := (ensure_ok.mp ha).1.2
    cases operation.terminalOutcome with
    | some => exact failsOnly_ensure (hc _) db
    | none =>
      refine failsAt_bind (readOnly_ensure _ _) (failsOnly_ensure (hc _)) fun _ _ e h => ?_
      rcases bind_error.mp h with h | ⟨_, _, -, h⟩
      · unfold recordUsage at h
        split_ifs at h
        · have hg := hm ▸ hf operation hme
          exact hi e (.inl (recordOperationDebit_fails hg e h))
        · exact failsOnly_pure () db e h
      · refine failsOnly_bind (failsOnly_bind (failsOnly_query _) fun _ =>
          failsOnly_bind (failsOnly_write ?_) fun _ => failsOnly_pure _)
          (fun _ => failsOnly_pure _) _ e h
        exact hi _ (.inl (.inl rfl))

theorem update_settles (db : Database) (operationId : String) (outcome : UsageSettlementOutcome)
    (now : ℤ) (hn : 0 ≤ bytes) :
    ∃ t, db.operations.update (settles operationId) (·.settled outcome bytes now) = some t := by
  apply Table.update_of_check
  · exact fun _ => rfl
  · intro r s hc
    change (if _ then _ else _ : AdmittedOperation).ticketTokenHash =
      (if _ then _ else _ : AdmittedOperation).ticketTokenHash at hc
    change r.ticketTokenHash = s.ticketTokenHash
    split_ifs at hc <;> exact hc
  · intro _ ho _
    obtain ⟨h₁, h₂, h₃, -, h₅, h₆, h₇, -⟩ := Table.check ho
    exact ⟨h₁, h₂, h₃, by simp [AdmittedOperation.settled, hn], h₅, h₆, h₇,
      by simp [AdmittedOperation.settled]⟩

/-- The platform accepts a settlement that it has room for, and never refuses it: without room, its
database may fail. -/
structure AcceptsSettlement (ids : SettlementIds) (request : UsageSettlementRequest) (now : ℤ)
    (db : Database) : Prop where
  settles : SettlementRoom ids db → ∃ db', settleUsage ids request now db = .ok ((), db')
  unrefused : ∀ e, settleUsage ids request now db = .error e → e.status = 500

section

variable {db : Database} {o : AdmittedOperation}

/-- A settlement with the right data goes through if booking its debit does. -/
theorem settleUsage_cases (ids : SettlementIds) (request : UsageSettlementRequest) (now : ℤ)
    (ho : operationAt db request.operationId = some o)
    (hid : ∀ message, validateOpaque request.operationId 128 message db = .ok ((), db))
    (hi : ∀ message,
      validateOpaque request.notaryInstanceId maxInstanceIdBytes message db = .ok ((), db))
    (hn : 0 ≤ request.authenticatedBytes)
    (ha : o.notaryInstanceId = request.notaryInstanceId ∧ o.mode = request.mode)
    (hb : SettlementBytesValid o request) (hte : ∀ c, o.terminalOutcome = some c →
      c = request.outcome ∧ o.settledAuthenticatedBytes = some request.authenticatedBytes)
    (hac : o.terminalOutcome = none → o.activatedAt = none →
      request.outcome = .serviceFailed ∧ request.authenticatedBytes = 0) :
    (∃ db', settleUsage ids request now db = .ok ((), db')) ∨
      o.terminalOutcome = none ∧ ∃ e, settleUsage ids request now db = .error e ∧
        recordOperationDebit ids o.operationId o.creditSubject o.accountId request.mode
          request.authenticatedBytes o.admittedAt db = .error e := by
  have hro : TableRef.operations.selectByKey request.operationId db = .ok (some o, db) :=
    selectByKey_ok.mpr ⟨ho, rfl⟩
  have hp {c : Prop} [Decidable c] {e : ApiError} {s : Database} (hc : c) :
      (Tx.ensure c e : Request Unit) s = .ok ((), s) := ensure_ok.mpr ⟨hc, rfl⟩
  unfold settleUsage
  rw [bind_of_ok (hid _), bind_of_ok (hi _), bind_of_ok (hp (by omega)),
    bind_of_ok hro, bind_of_ok (require_ok (r := (o, db)) |>.mpr ⟨rfl, rfl⟩),
    bind_of_ok (hp ha),
    bind_of_ok (validateSettlementBytes_ok (r := ((), db)) |>.mpr ⟨hb, rfl⟩)]
  cases htr : o.terminalOutcome with
  | some previous => exact .inl ⟨db, hp (hte previous htr)⟩
  | none =>
    dsimp only
    have ha' := hac htr
    rw [bind_of_ok (hp (by tauto))]
    cases hr : recordUsage ids o request db with
    | error e =>
      refine .inr ⟨rfl, e, bind_error.mpr (.inl hr), ?_⟩
      unfold recordUsage at hr
      split_ifs at hr with hpo
      · exact hr
      · exact absurd hr (by simp [pure, StateT.pure, Except.pure])
    | ok p =>
      obtain ⟨t, ht⟩ := update_settles p.2 o.operationId request.outcome now hn
      have hu : TableRef.operations.update (settles o.operationId)
          (·.settled request.outcome request.authenticatedBytes now) p.2 =
            .ok (p.2.operations.count (settles o.operationId), { p.2 with operations := t }) :=
        update_ok.mpr ⟨rfl, t, ht, rfl⟩
      rw [bind_of_ok hr]
      exact .inl ⟨_, bind_of_ok hu⟩

/-- The ledger books the debit of an unsettled operation for which there is room. -/
theorem recordOperationDebit_room {cfg : PlatformConfig} {ids : SettlementIds} {bytes : ℤ}
    (h : (ledger cfg).Reachable db) (ho : o ∈ db.operations) (ht : o.terminalOutcome = none)
    (hid : o.operationId.utf8ByteSize ≤ 128) (hn : 0 ≤ bytes) (room : SettlementRoom ids db) :
    ∃ r, recordOperationDebit ids o.operationId o.creditSubject o.accountId o.mode bytes
      o.admittedAt db = .ok r := by
  have inv := ledgerInv_of_reachable h
  have hde : ∀ d ∈ db.debits, d.operationId ≠ some o.operationId := fun d hd hi => by
    have hb := (inv.debits.of_debit ho hd hi).1
    rw [settledBytes_of_pending ho ht] at hb
    cases hb
  refine recordOperationDebit_total room hn (Table.find?_isSome ho) hid
    (inv.operations.funded o ho) hde (fun a ha hi => ?_) fun g hg hi => ?_
  · obtain ⟨d, hd, he⟩ := inv.debits.owned a ha
    exact Table.find?_eq_none.mp room.debit d hd (he.trans hi)
  · obtain ⟨d, hd, he⟩ := overageDebited_of_reachable h g hg _ hi
    exact hde d hd he

end

end Notary.Platform
