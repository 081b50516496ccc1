import Notary.Adapter.Outbox
import Notary.Adapter.Session
import Notary.Platform.OperationRow

/-! The adapter process and its outbox directory next to the platform database. Each action
is one atomic effect: one write of the directory, one message handed to the network, one
transaction of the platform. A crash can come between any two of them. Messages stay in
flight after their delivery, so a delivery can be late, lost or repeated, and a reply can
be lost as well. -/

namespace Notary.Adapter
open Platform Relational

structure AdapterConfig where
  platform : PlatformConfig
  instanceId : String
  registryGeneration : ℕ
  limits : LocalSessionLimits

/-- How far the session of an operation has come. Only the session itself and, once its
`finish` failed, the settlement worker write the outbox entry. -/
inductive Phase
  /-- The redeem reply arrived. -/
  | redeemed (mode : AdmissionMode) (operation : RedeemedOperationResponse)
  /-- Staging failed; the operation is settled directly. -/
  | unstaged (mode : AdmissionMode)
  | staged (mode : AdmissionMode) (operation : RedeemedOperationResponse)
  /-- The activation request is out. -/
  | activating (mode : AdmissionMode) (constraints : AdmissionConstraints)
  /-- The activation succeeded and the server holds the admission grant. -/
  | admitted (mode : AdmissionMode) (constraints : AdmissionConstraints)
  | running (mode : AdmissionMode) (limits : NotarySessionLimits)
  /-- The authenticated bytes are recorded. -/
  | measured (mode : AdmissionMode) (limits : NotarySessionLimits) (bytes : ℕ)
  /-- The outcome is known and `finish` is next. -/
  | finishing (update : TerminalUpdate)
  /-- The terminal write failed and is to be queued for retry. -/
  | noting (update : TerminalUpdate)
  deriving DecidableEq

/-- A session that the server holds can fail at any moment. -/
def Phase.canFail : Phase → Bool
  | admitted .. | running .. | measured .. => true
  | _ => false

/-- All that the directory, the process and the network hold about one operation. -/
structure Slot where
  /-- The file of the operation in the outbox directory. -/
  file : OutboxFile := none
  /-- Its entry in `terminal_retries`. -/
  retry : Option TerminalUpdate := none
  session : Option Phase := none
  /-- The copy that the settlement worker read from `ready`. -/
  due : OutboxFile := none
  /-- The activation requests that were sent, and whether one was answered with 204. -/
  activations : List ActivateOperationRequest := []
  activated : Bool := false
  /-- The settlement requests that were sent, and those answered with 204 or 410. -/
  settlements : List UsageSettlementRequest := []
  accepted : List UsageSettlementRequest := []

/-- A crash loses the memory of the process and keeps the directory and the network. -/
def Slot.crash (s : Slot) : Slot := { s with retry := none, session := none, due := none }

inductive Process
  | down | recovering | serving
  deriving DecidableEq

structure World where
  db : Database := {}
  process : Process := .serving
  slots : String → Slot := fun _ => {}

def World.setSlot (w : World) (i : String) (s : Slot) : World :=
  { w with slots := Function.update w.slots i s }

def redeemRequest (cfg : AdapterConfig) (ticket : String) (mode : AdmissionMode) :
    RedeemAdmissionRequest where
  ticket := ticket
  notaryInstanceId := cfg.instanceId
  mode := mode
  registryGeneration := cfg.registryGeneration
  usageSettlement := true

def stagedEntry (cfg : AdapterConfig) (operationId : String) (mode : AdmissionMode) :
    PendingUsageSettlement where
  operationId := operationId
  notaryInstanceId := cfg.instanceId
  mode := mode
  authenticatedBytes := 0
  outcome := none

/-- The request of `settle_usage`; an entry that is not terminal has none. -/
def PendingUsageSettlement.request (pending : PendingUsageSettlement) :
    Option UsageSettlementRequest :=
  pending.outcome.map fun outcome => {
    operationId := pending.operationId
    notaryInstanceId := pending.notaryInstanceId
    mode := pending.mode
    authenticatedBytes := pending.authenticatedBytes
    outcome := outcome }

def settlementDelivered : Except ApiError Unit → Bool
  | .ok () => true
  | .error e => e.status = 410

inductive Action
  /-- A transaction that no request of this adapter causes. -/
  | platform (t : Transaction)
  /-- The platform redeems a ticket for this adapter, which may or may not see the reply. -/
  | redeem (freshGrantId freshOperationId ticket : String) (mode : AdmissionMode) (now : ℤ)
      (replied : Bool)
  | stage (i : String) (mode : AdmissionMode) (operation : RedeemedOperationResponse)
      (fault : Option WriteFault)
  | settleDirectly (i : String) (mode : AdmissionMode)
  | constrain (i : String) (mode : AdmissionMode) (operation : RedeemedOperationResponse)
  /-- The activation call returns; it fails when its reply is late or lost. -/
  | activation (i : String) (mode : AdmissionMode) (constraints : AdmissionConstraints)
      (succeeded : Bool)
  | begin (i : String) (mode : AdmissionMode) (constraints : AdmissionConstraints)
  | record (i : String) (mode : AdmissionMode) (limits : NotarySessionLimits) (bytes : ℕ)
      (fault : Option WriteFault)
  | complete (i : String) (mode : AdmissionMode) (limits : NotarySessionLimits) (bytes : ℕ)
  | fail (i : String) (phase : Phase) (outcome : UsageSettlementOutcome)
  | finish (i : String) (update : TerminalUpdate) (fault : Option WriteFault)
  | queue (i : String) (update : TerminalUpdate)
  | retry (i : String) (update : TerminalUpdate) (fault : Option WriteFault)
  /-- The worker reads a ready entry. -/
  | collect (i : String) (entry : PendingUsageSettlement)
  | deliver (i : String) (entry : PendingUsageSettlement)
  | remove (i : String) (entry : PendingUsageSettlement)
  /-- The platform receives an activation or a settlement request. -/
  | activate (i : String) (request : ActivateOperationRequest) (now : ℤ)
  | settle (i : String) (request : UsageSettlementRequest) (ids : SettlementIds) (now : ℤ)
  | crash
  | restart
  /-- Restart recovery rewrites an entry; a failure ends the process. -/
  | recoverEntry (i : String) (entry : PendingUsageSettlement) (fault : Option WriteFault)
  | serve

namespace Action

def Enabled (cfg : AdapterConfig) (w : World) : Action → Prop
  | platform t => t.Foreign cfg.instanceId
  | redeem _ _ _ _ _ replied => replied → w.process = .serving
  | stage i mode operation _ => (w.slots i).session = some (.redeemed mode operation)
  | settleDirectly i mode => (w.slots i).session = some (.unstaged mode)
  | constrain i mode operation => (w.slots i).session = some (.staged mode operation)
  | activation i mode constraints succeeded =>
    (w.slots i).session = some (.activating mode constraints) ∧
      (succeeded → (w.slots i).activated)
  | begin i mode constraints => (w.slots i).session = some (.admitted mode constraints)
  | record i mode limits bytes _ =>
    (w.slots i).session = some (.running mode limits) ∧ canRecord mode limits bytes
  | complete i mode limits bytes =>
    (w.slots i).session = some (.measured mode limits bytes) ∧ canComplete mode limits bytes
  | fail i phase outcome =>
    (w.slots i).session = some phase ∧ phase.canFail ∧ outcome ≠ .completed
  | finish i update _ => (w.slots i).session = some (.finishing update)
  | queue i update => (w.slots i).session = some (.noting update)
  | retry i update _ => (w.slots i).retry = some update
  | collect i entry =>
    w.process = .serving ∧ read i (w.slots i).file = .ok entry ∧ entry.outcome.isSome
  | deliver i entry => (w.slots i).due = some entry
  | remove i entry =>
    (w.slots i).due = some entry ∧ ∃ request ∈ (w.slots i).accepted, entry.request = some request
  | activate i request _ => request ∈ (w.slots i).activations
  | settle i request _ _ => request ∈ (w.slots i).settlements
  | crash => True
  | restart => w.process = .down
  | recoverEntry i entry _ =>
    w.process = .recovering ∧ read i (w.slots i).file = .ok entry ∧ entry.outcome = none
  | serve =>
    w.process = .recovering ∧ ∀ i entry, (w.slots i).file = some entry → entry.outcome.isSome

def next (cfg : AdapterConfig) (w : World) : Action → World
  | platform t => { w with db := t.run cfg.platform w.db }
  | redeem freshGrantId freshOperationId ticket mode now replied =>
    let r := (redeemAdmission cfg.platform freshGrantId freshOperationId
      (redeemRequest cfg ticket mode) now).attempt w.db
    match r.1, replied with
    | .ok operation, true => { w with db := r.2 }.setSlot operation.operationId
        { w.slots operation.operationId with session := some (.redeemed mode operation) }
    | _, _ => { w with db := r.2 }
  | stage i mode operation fault =>
    let s := w.slots i
    let r := Adapter.stage (stagedEntry cfg i mode) fault s.file
    match r.1 with
    | .ok () => w.setSlot i { s with file := r.2, session := some (.staged mode operation) }
    | .error _ => w.setSlot i { s with file := r.2, session := some (.unstaged mode) }
  | settleDirectly i mode =>
    let s := w.slots i
    let failed := { stagedEntry cfg i mode with outcome := some .serviceFailed }
    w.setSlot i { s with settlements := failed.request.toList ++ s.settlements, session := none }
  | constrain i mode operation =>
    let s := w.slots i
    match operationConstraints mode operation with
    | .ok constraints => w.setSlot i { s with
        activations := ⟨i, cfg.instanceId, mode⟩ :: s.activations
        session := some (.activating mode constraints) }
    | .error _ => w.setSlot i { s with session := some (.finishing ⟨.serviceFailed, 0⟩) }
  | activation i mode constraints succeeded =>
    let phase : Phase :=
      if succeeded then .admitted mode constraints else .finishing ⟨.serviceFailed, 0⟩
    w.setSlot i { w.slots i with session := some phase }
  | begin i mode constraints =>
    let s := w.slots i
    match effectiveSessionLimits cfg.limits constraints with
    | .ok limits => w.setSlot i { s with session := some (.running mode limits) }
    | .error _ => w.setSlot i { s with session := some (.finishing ⟨.serviceFailed, 0⟩) }
  | record i mode limits bytes fault =>
    let s := w.slots i
    let r := recordAuthenticatedBytes i bytes fault s.file
    match r.1 with
    | .ok () => w.setSlot i { s with file := r.2, session := some (.measured mode limits bytes) }
    | .error _ =>
      w.setSlot i { s with file := r.2, session := some (.finishing ⟨.serviceFailed, 0⟩) }
  | complete i _ _ bytes =>
    w.setSlot i { w.slots i with session := some (.finishing ⟨.completed, bytes⟩) }
  | fail i _ outcome => w.setSlot i { w.slots i with session := some (.finishing ⟨outcome, 0⟩) }
  | finish i update fault =>
    let s := w.slots i
    let r := finishInner i update fault s.file
    match r.1 with
    | .ok () => w.setSlot i { s with file := r.2, retry := none, session := none }
    | .error _ => w.setSlot i { s with file := r.2, session := some (.noting update) }
  | queue i update => w.setSlot i { w.slots i with retry := some update, session := none }
  | retry i update fault =>
    let s := w.slots i
    let r := finishInner i update fault s.file
    match r.1 with
    | .ok () => w.setSlot i { s with file := r.2, retry := none }
    | .error _ => w.setSlot i { s with file := r.2 }
  | collect i entry => w.setSlot i { w.slots i with due := some entry }
  | deliver i entry =>
    let s := w.slots i
    w.setSlot i { s with settlements := entry.request.toList ++ s.settlements }
  | remove i _ => w.setSlot i { w.slots i with file := none, due := none }
  | activate i request now =>
    let s := w.slots i
    let r := (activateOperation request now).attempt w.db
    match r.1 with
    | .ok () => { w with db := r.2 }.setSlot i { s with activated := true }
    | .error _ => { w with db := r.2 }
  | settle i request ids now =>
    let s := w.slots i
    let r := (settleUsage ids request now).attempt w.db
    if settlementDelivered r.1 then
      { w with db := r.2 }.setSlot i { s with accepted := request :: s.accepted }
    else { w with db := r.2 }
  | crash => { w with process := .down, slots := fun i => (w.slots i).crash }
  | restart => { w with process := .recovering }
  | recoverEntry i entry fault =>
    let s := w.slots i
    let r := Adapter.recoverEntry entry fault s.file
    match r.1 with
    | .ok () => w.setSlot i { s with file := r.2 }
    | .error _ => { w.setSlot i { s with file := r.2 } with process := .down }
  | serve => { w with process := .serving }

end Action

/-- The adapter starts with an empty directory against an empty ledger. -/
def adapter (cfg : AdapterConfig) : Transition.System World where
  Init w := w = {}
  Step w w' := ∃ a : Action, a.Enabled cfg w ∧ w' = a.next cfg w

end Notary.Adapter
