import Notary.Platform.Admissions

/-! The usage settlement outbox of the Notary server adapter. An operation of the outbox
works on the single file `<operation id>.json`, so it is a function of that file. A write
goes to a temporary file first and takes effect at the rename: it can fail before the
rename, which leaves the old file, or after it, which leaves the new one. -/

namespace Notary.Adapter
open Platform

/-- One outbox entry; without an outcome it is staged, with one it is ready. -/
structure PendingUsageSettlement where
  operationId : String
  notaryInstanceId : String
  mode : AdmissionMode
  authenticatedBytes : ℤ
  outcome : Option UsageSettlementOutcome
  deriving DecidableEq

structure TerminalUpdate where
  outcome : UsageSettlementOutcome
  fallbackBytes : ℕ
  deriving DecidableEq

/-- A refused operation with its message, or an error of the file system. -/
inductive OutboxError
  | invalid (message : String)
  | io
  deriving DecidableEq

/-- Where a write fails, if it fails: creating, filling or renaming the temporary file, or
syncing the directory after the rename. -/
inductive WriteFault
  | beforeRename | afterRename
  deriving DecidableEq

abbrev OutboxFile := Option PendingUsageSettlement

def SafeIdentifier (value : String) : Prop :=
  value ≠ "" ∧ value.utf8ByteSize ≤ 128 ∧
    value.toList.all fun c => c.isAlphanum || c == '-' || c == '_'
  deriving Decidable

def validateUsageIdentifier (value : String) : Except OutboxError Unit :=
  if SafeIdentifier value then .ok ()
  else .error (.invalid "usage outbox contains an invalid identifier")

def validateUsageEntry (pending : PendingUsageSettlement) : Except OutboxError Unit := do
  validateUsageIdentifier pending.operationId
  validateUsageIdentifier pending.notaryInstanceId
  if pending.authenticatedBytes < 0 then
    .error (.invalid "usage outbox contains negative authenticated bytes")
  else .ok ()

/-- The entries that pass validation. -/
structure PendingUsageSettlement.Valid (pending : PendingUsageSettlement) : Prop where
  operation : SafeIdentifier pending.operationId
  notary : SafeIdentifier pending.notaryInstanceId
  bytes : 0 ≤ pending.authenticatedBytes

def read (operationId : String) (file : OutboxFile) :
    Except OutboxError PendingUsageSettlement := do
  validateUsageIdentifier operationId
  match file with
  | none => .error .io
  | some pending =>
    validateUsageEntry pending
    if pending.operationId ≠ operationId then
      .error (.invalid "usage outbox filename does not match its operation")
    else .ok pending

def write (pending : PendingUsageSettlement) (fault : Option WriteFault) (file : OutboxFile) :
    Except OutboxError Unit × OutboxFile :=
  match validateUsageEntry pending with
  | .error e => (.error e, file)
  | .ok () =>
    match fault with
    | none => (.ok (), some pending)
    | some .beforeRename => (.error .io, file)
    | some .afterRename => (.error .io, some pending)

def stage (pending : PendingUsageSettlement) (fault : Option WriteFault) (file : OutboxFile) :
    Except OutboxError Unit × OutboxFile :=
  match validateUsageEntry pending with
  | .error e => (.error e, file)
  | .ok () =>
    if pending.authenticatedBytes ≠ 0 ∨ pending.outcome.isSome then
      (.error (.invalid "new usage outbox entry must be staged and unmeasured"), file)
    else if file.isSome then
      match read pending.operationId file with
      | .error e => (.error e, file)
      | .ok existing =>
        if existing = pending then (.ok (), file)
        else
          (.error (.invalid "usage outbox operation already exists with different data"), file)
    else write pending fault file

/-- Bytes are counted in `usize` and stored as `i64`. -/
def usageBytes (bytes : ℕ) : Except OutboxError ℤ :=
  match bigint? bytes with
  | some b => .ok b
  | none => .error (.invalid "authenticated usage does not fit in i64")

def recordAuthenticatedBytes (operationId : String) (bytes : ℕ) (fault : Option WriteFault)
    (file : OutboxFile) : Except OutboxError Unit × OutboxFile :=
  match read operationId file with
  | .error e => (.error e, file)
  | .ok pending =>
    match usageBytes bytes with
    | .error e => (.error e, file)
    | .ok bytes =>
      if pending.outcome.isSome then
        if pending.authenticatedBytes = bytes then (.ok (), file)
        else
          (.error (.invalid "terminal usage outbox entry has different measured bytes"), file)
      else if pending.authenticatedBytes ≠ 0 ∧ pending.authenticatedBytes ≠ bytes then
        (.error (.invalid "usage outbox entry has conflicting measured bytes"), file)
      else write { pending with authenticatedBytes := bytes } fault file

/-- Make an entry terminal. Bytes that were recorded win over a fallback of zero. -/
def finishInner (operationId : String) (update : TerminalUpdate) (fault : Option WriteFault)
    (file : OutboxFile) : Except OutboxError Unit × OutboxFile :=
  match read operationId file with
  | .error e => (.error e, file)
  | .ok pending =>
    match usageBytes update.fallbackBytes with
    | .error e => (.error e, file)
    | .ok fallback =>
      if pending.authenticatedBytes ≠ 0 ∧ fallback ≠ 0 ∧ pending.authenticatedBytes ≠ fallback then
        (.error (.invalid "terminal usage conflicts with its staged measurement"), file)
      else if pending.outcome.isSome then
        if pending.outcome = some update.outcome then (.ok (), file)
        else (.error (.invalid "usage outbox entry already has a different terminal outcome"), file)
      else
        let bytes := if pending.authenticatedBytes = 0 then fallback else pending.authenticatedBytes
        write { pending with authenticatedBytes := bytes, outcome := some update.outcome }
          fault file

/-- What restart recovery does to one entry it read. -/
def recoverEntry (pending : PendingUsageSettlement) (fault : Option WriteFault)
    (file : OutboxFile) : Except OutboxError Unit × OutboxFile :=
  if pending.outcome = none then
    write { pending with outcome := some .serviceFailed } fault file
  else (.ok (), file)

theorem validateUsageEntry_ok :
    validateUsageEntry pending = .ok () ↔ pending.Valid := by
  unfold validateUsageEntry validateUsageIdentifier
  constructor
  · intro h
    by_cases h₁ : SafeIdentifier pending.operationId
    · by_cases h₂ : SafeIdentifier pending.notaryInstanceId
      · simp only [h₁, h₂, if_true] at h
        change (if pending.authenticatedBytes < 0 then _ else _) = _ at h
        split_ifs at h with h₃
        exact ⟨h₁, h₂, by omega⟩
      · simp only [h₁, h₂, if_true, if_false] at h
        cases h
    · simp only [h₁, if_false] at h
      cases h
  · rintro ⟨h₁, h₂, _⟩
    have hn : ¬ pending.authenticatedBytes < 0 := by omega
    simp only [h₁, h₂, hn, if_true, if_false]
    rfl

theorem read_ok (h : read operationId file = .ok pending) :
    file = some pending ∧ pending.Valid ∧ pending.operationId = operationId := by
  unfold read validateUsageIdentifier at h
  split_ifs at h with hi
  · cases file with
    | none => cases h
    | some p =>
      change (validateUsageEntry p).bind _ = _ at h
      cases hv : validateUsageEntry p with
      | error =>
        rw [hv] at h
        cases h
      | ok =>
        rw [hv] at h
        change (if p.operationId ≠ operationId then _ else _) = _ at h
        split_ifs at h with hn
        cases h
        exact ⟨rfl, validateUsageEntry_ok.mp hv, by simpa using hn⟩
  · cases h

def Refused (r : Except OutboxError Unit × OutboxFile) (file : OutboxFile) : Prop :=
  r.1 ≠ .ok () ∧ r.2 = file

/-- A write is refused, or the entry is in place afterwards whatever the reply. -/
theorem write_cases (pending : PendingUsageSettlement) (fault : Option WriteFault)
    (file : OutboxFile) : Refused (write pending fault file) file ∨
      pending.Valid ∧ (write pending fault file).2 = some pending := by
  unfold write Refused
  cases hv : validateUsageEntry pending with
  | error => simp
  | ok =>
    have hva := validateUsageEntry_ok.mp hv
    rcases fault with _ | _ | _
    · exact .inr ⟨hva, rfl⟩
    · exact .inl ⟨by simp, rfl⟩
    · exact .inr ⟨hva, rfl⟩

/-- A stage is refused, or the new entry is in place where there was no other. -/
theorem stage_cases (pending : PendingUsageSettlement) (fault : Option WriteFault)
    (file : OutboxFile) : Refused (stage pending fault file) file ∨
      pending.Valid ∧ (file = none ∨ file = some pending) ∧
        (stage pending fault file).2 = some pending := by
  unfold stage
  cases hv : validateUsageEntry pending with
  | error => exact .inl ⟨by simp, rfl⟩
  | ok =>
    dsimp only
    split_ifs with hne hf
    · exact .inl ⟨by simp, rfl⟩
    · cases hr : read pending.operationId file with
      | error => exact .inl ⟨by simp, rfl⟩
      | ok =>
        dsimp only
        split_ifs with he
        · have hre := (read_ok hr).1
          rw [he] at hre
          exact .inr ⟨validateUsageEntry_ok.mp hv, .inr hre, hre⟩
        · exact .inl ⟨by simp, rfl⟩
    · have hn : file = none := by simpa using hf
      rcases write_cases pending fault file with h | ⟨hva, h⟩
      · exact .inl h
      · exact .inr ⟨hva, .inl hn, h⟩

theorem usageBytes_ok (h : usageBytes bytes = .ok b) : b = bytes := by
  unfold usageBytes bigint? at h
  split_ifs at h with hf
  cases h
  rfl

/-- Recording is refused, repeats a terminal entry's bytes, or sets the bytes of a staged
entry that had none or the same. -/
theorem recordAuthenticatedBytes_cases (operationId : String) (bytes : ℕ)
    (fault : Option WriteFault) (file : OutboxFile) :
    Refused (recordAuthenticatedBytes operationId bytes fault file) file ∨
      ∃ e, file = some e ∧ e.operationId = operationId ∧
        (e.outcome.isSome ∧ e.authenticatedBytes = bytes ∧
            (recordAuthenticatedBytes operationId bytes fault file).2 = file ∨
          e.outcome = none ∧ (e.authenticatedBytes = 0 ∨ e.authenticatedBytes = bytes) ∧
            (recordAuthenticatedBytes operationId bytes fault file).2 =
              some { e with authenticatedBytes := bytes }) := by
  unfold recordAuthenticatedBytes
  cases hr : read operationId file with
  | error => exact .inl ⟨by simp, rfl⟩
  | ok e =>
    obtain ⟨hf, -, hi⟩ := read_ok hr
    cases hb : usageBytes bytes with
    | error => exact .inl ⟨by simp, rfl⟩
    | ok =>
      obtain rfl := usageBytes_ok hb
      dsimp only
      split_ifs with ht hs hc
      · exact .inr ⟨e, hf, hi, .inl ⟨ht, hs, rfl⟩⟩
      · exact .inl ⟨by simp, rfl⟩
      · exact .inl ⟨by simp, rfl⟩
      · rcases write_cases { e with authenticatedBytes := (bytes : ℤ) } fault file with h | ⟨-, h⟩
        · exact .inl h
        · exact .inr ⟨e, hf, hi, .inr ⟨by simpa using ht, by tauto, h⟩⟩

/-- Finishing is refused, repeats the outcome of a terminal entry, or makes a staged entry
terminal with its recorded bytes, or the fallback if it has none. -/
theorem finishInner_cases (operationId : String) (update : TerminalUpdate)
    (fault : Option WriteFault) (file : OutboxFile) :
    Refused (finishInner operationId update fault file) file ∨
      ∃ e, file = some e ∧ e.operationId = operationId ∧
        (e.outcome = some update.outcome ∧ (finishInner operationId update fault file).2 = file ∨
          e.outcome = none ∧ (finishInner operationId update fault file).2 = some { e with
            authenticatedBytes :=
              if e.authenticatedBytes = 0 then (update.fallbackBytes : ℤ) else e.authenticatedBytes
            outcome := some update.outcome }) := by
  unfold finishInner
  cases hr : read operationId file with
  | error => exact .inl ⟨by simp, rfl⟩
  | ok e =>
    obtain ⟨hf, -, hi⟩ := read_ok hr
    cases hb : usageBytes update.fallbackBytes with
    | error => exact .inl ⟨by simp, rfl⟩
    | ok =>
      obtain rfl := usageBytes_ok hb
      dsimp only
      split_ifs with hc ht hs hz
      · exact .inl ⟨by simp, rfl⟩
      · exact .inr ⟨e, hf, hi, .inl ⟨hs, rfl⟩⟩
      · exact .inl ⟨by simp, rfl⟩
      all_goals
        have hn : e.outcome = none := by simpa using ht
        rcases write_cases _ fault file with h | ⟨-, h⟩
        · exact .inl h
        · exact .inr ⟨e, hf, hi, .inr ⟨hn, by rw [h]; simp [hz]⟩⟩

end Notary.Adapter
