import Notary.Platform.Admissions

/-! The limits of an admitted session: what the adapter makes of a redeemed operation, how
the server caps it, and which byte counts a session can record and complete with. -/

namespace Notary.Adapter
open Platform

def hexValue (c : Char) : Option UInt8 :=
  if '0' ≤ c ∧ c ≤ '9' then some (c.toNat - 48).toUInt8
  else if 'a' ≤ c ∧ c ≤ 'f' then some (c.toNat - 87).toUInt8
  else if 'A' ≤ c ∧ c ≤ 'F' then some (c.toNat - 55).toUInt8
  else none

/-- `hex::decode`: pairs of digits in either case. -/
def hexDecode : List Char → Option (List UInt8)
  | [] => some []
  | [_] => none
  | high :: low :: rest => do
    let h ← hexValue high
    let l ← hexValue low
    let bytes ← hexDecode rest
    some ((h * 16 + l) :: bytes)

structure AdmissionConstraints where
  expectedRecordDigest : Option (List UInt8)
  expectedTranscriptBytes : Option ℕ
  sessionTimeout : Option ℕ
  maxTotalPrivateChunkBytes : Option ℕ
  maxFrameBytes : Option ℕ
  deriving DecidableEq

def positive (name : String) (value : ℤ) : Except String ℕ :=
  if value ≤ 0 then .error ("platform " ++ name ++ " must be positive") else .ok value.toNat

/-- The record digest and the bytes a session may authenticate. -/
def authenticatedAllowance (mode : AdmissionMode) (operation : RedeemedOperationResponse)
    (policyAttestable : ℕ) : Except String (Option (List UInt8) × ℕ) :=
  match mode, operation.recordDigest, operation.notarizationAllowanceBytes with
  | .capture, none, none => .ok (none, policyAttestable)
  | .notarization, some digest, some allowance =>
    match hexDecode digest.toList with
    | none => .error "platform record digest is not hex"
    | some bytes =>
      match positive "notarization_allowance_bytes" allowance with
      | .error e => .error e
      | .ok allowance =>
        if bytes.length = 32 then .ok (some bytes, allowance)
        else .error "platform record digest is not 32 bytes"
  | _, _, _ => .error "platform record digest does not match the session mode"

def operationConstraints (mode : AdmissionMode) (operation : RedeemedOperationResponse) :
    Except String AdmissionConstraints :=
  if operation.activationDeadline ≤ 0 then
    .error "platform activation deadline must be positive"
  else
    match positive "max_attestable_http_bytes" operation.maxAttestableHttpBytes with
    | .error e => .error e
    | .ok policyAttestable =>
      match authenticatedAllowance mode operation policyAttestable with
      | .error e => .error e
      | .ok (expectedRecordDigest, allowance) =>
        if policyAttestable < allowance then
          .error "platform allowance exceeds its per-session ceiling"
        else
          match positive "max_frame_bytes" operation.maxFrameBytes with
          | .error e => .error e
          | .ok maxFrameBytes => .ok {
              expectedRecordDigest := expectedRecordDigest
              expectedTranscriptBytes := if mode = .notarization then some allowance else none
              sessionTimeout := none
              maxTotalPrivateChunkBytes := some allowance
              maxFrameBytes := some maxFrameBytes }

structure LocalSessionLimits where
  sessionTimeout : ℕ
  maxTotalPrivateChunkBytes : ℕ
  maxFrameBytes : ℕ
  deriving DecidableEq

structure NotarySessionLimits where
  expectedRecordDigest : Option (List UInt8)
  expectedTranscriptBytes : Option ℕ
  sessionTimeout : ℕ
  maxTotalPrivateChunkBytes : ℕ
  maxFrameBytes : ℕ
  deriving DecidableEq

/-- A policy can lower a hard limit, and a limit of zero is an error. -/
def cap (name : String) (requested : Option ℕ) (hard : ℕ) : Except String ℕ :=
  match requested with
  | some 0 => .error ("admission policy " ++ name ++ " must be positive")
  | some requested => .ok (min requested hard)
  | none => .ok hard

def effectiveSessionLimits (hard : LocalSessionLimits) (policy : AdmissionConstraints) :
    Except String NotarySessionLimits :=
  match cap "session_timeout" policy.sessionTimeout hard.sessionTimeout with
  | .error e => .error e
  | .ok sessionTimeout =>
    match cap "max_total_private_chunk_bytes" policy.maxTotalPrivateChunkBytes
        hard.maxTotalPrivateChunkBytes with
    | .error e => .error e
    | .ok maxTotal =>
      match cap "max_frame_bytes" policy.maxFrameBytes hard.maxFrameBytes with
      | .error e => .error e
      | .ok maxFrameBytes =>
        if policy.expectedTranscriptBytes.any fun expected => maxTotal < expected then
          .error "expected transcript bytes exceed the effective private-byte limit"
        else .ok {
          expectedRecordDigest := policy.expectedRecordDigest
          expectedTranscriptBytes := policy.expectedTranscriptBytes
          sessionTimeout := sessionTimeout
          maxTotalPrivateChunkBytes := maxTotal
          maxFrameBytes := maxFrameBytes }

/-- A capture records the bytes its TLS connection carried, whatever they are. A
notarization records its transcript length only after comparing it with the expected one. -/
def canRecord (mode : AdmissionMode) (limits : NotarySessionLimits) (bytes : ℕ) : Prop :=
  mode = .notarization → limits.expectedTranscriptBytes.all fun expected => expected = bytes
  deriving Decidable

/-- After recording, a capture over its limit fails; a notarization has no further check
on its bytes. -/
def canComplete (mode : AdmissionMode) (limits : NotarySessionLimits) (bytes : ℕ) : Prop :=
  mode = .capture → bytes ≤ limits.maxTotalPrivateChunkBytes
  deriving Decidable

/-- The limits that a session of an operation ran under agree with the operation: a
notarization expects exactly its allowance, and a capture stays within its ceiling. -/
structure LimitsFit (mode : AdmissionMode) (allowance : Option ℤ) (ceiling : ℤ)
    (expected : Option ℕ) (maxTotal : ℕ) : Prop where
  notarization : mode = .notarization → ∃ a : ℕ, expected = some a ∧ allowance = some (a : ℤ)
  capture : mode = .capture → (maxTotal : ℤ) ≤ ceiling

theorem positive_ok (h : positive name value = .ok n) :
    (n : ℤ) = value := by
  unfold positive at h
  split_ifs at h with hn
  cases h
  omega

theorem authenticatedAllowance_ok
    (h : authenticatedAllowance .notarization operation policyAttestable =
      .ok (digest, allowance)) :
    operation.notarizationAllowanceBytes = some (allowance : ℤ) := by
  unfold authenticatedAllowance at h
  split at h
  · contradiction
  · rename_i hv
    split at h
    · cases h
    · split at h
      · cases h
      · rename_i ha
        split at h
        · cases h
          rw [hv, positive_ok ha]
        · cases h
  · cases h

theorem operationConstraints_ok (h : operationConstraints mode operation = .ok c) :
    ∃ maxTotal, c.maxTotalPrivateChunkBytes = some maxTotal ∧
      LimitsFit mode operation.notarizationAllowanceBytes operation.maxAttestableHttpBytes
        c.expectedTranscriptBytes maxTotal := by
  unfold operationConstraints at h
  split at h
  · cases h
  · split at h
    · cases h
    · rename_i hp
      split at h
      · cases h
      · rename_i allowance ha
        split at h
        · cases h
        · split at h
          · cases h
          · cases h
            have hb := positive_ok hp
            refine ⟨allowance, rfl, ?_, ?_⟩
            · rintro rfl
              exact ⟨allowance, rfl, authenticatedAllowance_ok ha⟩
            · intro _
              omega

theorem cap_le (h : cap name (some requested) hard = .ok n) : n ≤ requested := by
  unfold cap at h
  split at h
  · cases h
  · rename_i hk
    cases h
    cases hk
    exact min_le_left _ _
  · contradiction

theorem effectiveSessionLimits_ok (h : effectiveSessionLimits hard policy = .ok limits) :
    limits.expectedTranscriptBytes = policy.expectedTranscriptBytes ∧
      ∀ m, policy.maxTotalPrivateChunkBytes = some m → limits.maxTotalPrivateChunkBytes ≤ m := by
  unfold effectiveSessionLimits at h
  split at h
  · cases h
  · split at h
    · cases h
    · rename_i hma
      split at h
      · cases h
      · split at h
        · cases h
        · cases h
          refine ⟨rfl, fun m hm => ?_⟩
          rw [hm] at hma
          exact cap_le hma

end Notary.Adapter
