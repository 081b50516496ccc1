import Notary.Core.Archive
import Notary.Daemon.Metadata

/-! The store of immutable capture artifacts. -/

namespace Notary.Daemon
open Notary.Core (Crates sha256Hex)
open Utf8 (Bytes)

/-- The stable failure classes of an artifact store. -/
inductive ArtifactStoreError
  | invalidInput (code : String)
  | notFound
  | unavailable
  | tooLarge (limit : ℕ) (actual : Option ℕ)
  | conflict
  | integrity
  | backend
  deriving DecidableEq

namespace ArtifactStoreError

def message : ArtifactStoreError → String
  | invalidInput _ => "invalid artifact input"
  | notFound => "artifact was not found"
  | unavailable => "artifact is unavailable"
  | tooLarge _ _ => "artifact exceeds the configured byte limit"
  | conflict => "artifact conflicts with immutable stored bytes"
  | integrity => "artifact integrity verification failed"
  | backend => "artifact backend operation failed"

def failureCode : ArtifactStoreError → String
  | notFound => "artifact_missing"
  | unavailable => "artifact_backend_unavailable"
  | backend => "artifact_backend_unavailable"
  | tooLarge _ _ => "artifact_too_large"
  | conflict => "artifact_collision"
  | integrity => "artifact_corrupt"
  | invalidInput code =>
    if code = "artifact_backend_unconfigured" then "artifact_backend_unconfigured"
    else "artifact_invalid"

end ArtifactStoreError

/-- A backend-owned reference to stored bytes. -/
structure ArtifactLocator where
  text : String
  nonempty : text ≠ ""
  bounded : (Utf8.bytes text).length ≤ 8 * 1024
  noNul : '\x00' ∉ Utf8.chars text

/-- What an attempt to open the file of one key meets. -/
inductive Slot
  | missing
  | unreadable (error : ArtifactStoreError)
  | stored (data : Bytes)
  deriving DecidableEq

/-- The checkpoints of an artifact store, by trace. -/
structure ArtifactStore where
  locator : String → ArtifactLocator
  slot : String → Slot

def isValidTraceId (traceId : String) : Prop := Identifier "trc-" 5 traceId
  deriving Decidable

def isLowercaseSha256Hex (value : String) : Prop :=
  (Utf8.chars value).length = 64 ∧ (Utf8.chars value).all Hex.isLowerHex = true
  deriving Decidable

theorem isLowercaseSha256Hex_sha256Hex (c : Crates) (data : Bytes) :
    isLowercaseSha256Hex (sha256Hex c data) := by
  refine ⟨?_, ?_⟩
  · rw [Utf8.chars_eq, sha256Hex, Hex.length_encode, c.sha256_length]
  · rw [Utf8.chars_eq, List.all_eq_true]
    exact Hex.encode_isLowerHex _

namespace ArtifactStore

variable (c : Crates) (store : ArtifactStore)

/-- The record of the checkpoint bytes of a trace. -/
def record (traceId : String) (data : Bytes) : ArtifactRecord where
  traceId
  kind := .captureCheckpoint
  locator := (store.locator traceId).text
  sizeBytes := UInt64.ofNat data.length
  sha256 := sha256Hex c data

def inspectArtifact (traceId : String) (maxBytes : ℕ) : Except ArtifactStoreError ArtifactRecord :=
  match store.slot traceId with
  | .missing => .error .notFound
  | .unreadable error => .error error
  | .stored data =>
    if maxBytes < data.length then .error (.tooLarge maxBytes (some data.length))
    else .ok (store.record c traceId data)

def find (traceId : String) (maxBytes : ℕ) : Except ArtifactStoreError (Option ArtifactRecord) :=
  match store.inspectArtifact c traceId maxBytes with
  | .ok record => .ok (some record)
  | .error .notFound => .ok none
  | .error error => .error error

/-- A conditional write: bytes that are already there are never replaced. -/
def put (traceId : String) (data : Bytes) (maxBytes : ℕ) :
    Except ArtifactStoreError (ArtifactRecord × ArtifactStore) :=
  if maxBytes < data.length then .error (.tooLarge maxBytes (some data.length))
  else match store.slot traceId with
    | .missing => .ok (store.record c traceId data,
        { store with slot := Function.update store.slot traceId (.stored data) })
    | .stored present =>
      if present = data then .ok (store.record c traceId data, store) else .error .conflict
    | .unreadable .integrity => .error .conflict
    | .unreadable error => .error error

end ArtifactStore

end Notary.Daemon
