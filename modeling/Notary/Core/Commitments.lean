import Notary.Lib.Packing
import Notary.Lib.RangeSet

/-! The private commitments of a notarization proof: how the client packs the ranges it
discloses, the proof request it builds from them, and the limits the notary puts on such a
request before any proof work. -/

namespace Notary.Core
open Ranges Packing

def maxPrivateChunkBytes : ℕ := 128 * 2 ^ 10

/-- The number of commitments a notary accepts for a bounded number of bytes. -/
def maxPrivateChunkCommitments (maxTotalBytes : ℕ) : ℕ :=
  divCeil maxTotalBytes maxPrivateChunkBytes + 1

/-- The values of `usize` are below this bound. -/
def usizeBound : ℕ := 2 ^ 64

/-- `usize::checked_add`. -/
def checkedAdd (a b : ℕ) : Option ℕ := if a + b < usizeBound then some (a + b) else none

inductive Direction
  | sent | received
  deriving DecidableEq

def Direction.display : Direction → String
  | sent => "sent"
  | received => "received"

/-- The plaintext of a connection. -/
structure Transcript where
  sent : List UInt8
  received : List UInt8

def Transcript.lenOfDirection (transcript : Transcript) : Direction → ℕ
  | .sent => transcript.sent.length
  | .received => transcript.received.length

structure AttestableHttpBudget where
  maximum : ℕ
  used : ℕ
  deriving DecidableEq

namespace AttestableHttpBudget

def new (maximum : ℕ) : Except String AttestableHttpBudget :=
  if maximum = 0 then .error "maximum attestable HTTP bytes must be non-zero"
  else .ok ⟨maximum, 0⟩

def reserve (budget : AttestableHttpBudget) (bytes : ℕ) (phase : String) :
    Except String AttestableHttpBudget :=
  match checkedAdd budget.used bytes with
  | none => .error "attestable HTTP byte count overflow"
  | some used =>
    if budget.maximum < used then
      .error (phase ++ " exceeds the " ++ toString budget.maximum ++
        "-byte maximum attestable HTTP budget")
    else .ok { budget with used }

end AttestableHttpBudget

/-- The byte ranges of the request and the response that a capture commits to. -/
structure DisclosedHttpRanges where
  sent : RangeSet
  received : RangeSet

namespace DisclosedHttpRanges

def ofDirection (ranges : DisclosedHttpRanges) : Direction → RangeSet
  | .sent => ranges.sent
  | .received => ranges.received

def len (ranges : DisclosedHttpRanges) : ℕ := ranges.sent.len + ranges.received.len

end DisclosedHttpRanges

def ensureAttestableRanges (ranges : DisclosedHttpRanges) (maximum : ℕ) :
    Except String Unit := do
  let budget ← AttestableHttpBudget.new maximum
  let budget ← budget.reserve ranges.sent.len "provider request"
  let _ ← budget.reserve ranges.received.len "provider response"

/-- The commitments added so far. They form a hash set, so one that is already present is
not added again; the list keeps the order of insertion. -/
structure TranscriptCommitConfigBuilder where
  transcript : Transcript
  commits : List (Direction × RangeSet)

namespace TranscriptCommitConfigBuilder

def new (transcript : Transcript) : TranscriptCommitConfigBuilder := ⟨transcript, []⟩

def commit (builder : TranscriptCommitConfigBuilder) (idx : RangeSet) (direction : Direction) :
    Except String TranscriptCommitConfigBuilder :=
  if builder.transcript.lenOfDirection direction < idx.stop then
    .error ("index error caused by: range is out of bounds of the transcript (" ++
      direction.display ++ "): " ++ toString idx.stop ++ " > " ++
      toString (builder.transcript.lenOfDirection direction))
  else if (direction, idx) ∈ builder.commits then .ok builder
  else .ok { builder with commits := builder.commits ++ [(direction, idx)] }

def commitsOf (builder : TranscriptCommitConfigBuilder) (direction : Direction) :
    List RangeSet :=
  (builder.commits.filter fun c => c.1 = direction).map Prod.snd

end TranscriptCommitConfigBuilder

/-- The local variables of `commit_bounded_ranges`. -/
structure Packer where
  builder : TranscriptCommitConfigBuilder
  pending : RangeSet
  pendingBytes : ℕ

namespace Packer

def flush (direction : Direction) (packer : Packer) : Except String Packer :=
  if packer.pendingBytes = maxPrivateChunkBytes then do
    let builder ← packer.builder.commit packer.pending direction
    .ok ⟨builder, ∅, 0⟩
  else .ok packer

/-- Where one pass of the inner loop ends: the chunk is full or the range is used up. -/
def passEnd (packer : Packer) (start stop : ℕ) : ℕ :=
  min (start + (maxPrivateChunkBytes - packer.pendingBytes)) stop

/-- The inner loop over what is left of one range. Every pass moves `start`, so as many
passes as the range has bytes are enough. -/
def packRange (direction : Direction) : ℕ → Packer → Span → Except String Packer
  | 0, packer, _ => .ok packer
  | fuel + 1, packer, range =>
    if range.start < range.stop then do
      let passed := packer.passEnd range.start range.stop
      let packer ← flush direction ⟨packer.builder,
        packer.pending.unionSpan ⟨range.start, passed⟩,
        packer.pendingBytes + (passed - range.start)⟩
      packRange direction fuel packer ⟨passed, range.stop⟩
    else .ok packer

def packRanges (direction : Direction) : List Span → Packer → Except String Packer
  | [], packer => .ok packer
  | range :: rest, packer => do
    let packer ← packRange direction range.len packer range
    packRanges direction rest packer

end Packer

def commitBoundedRanges (builder : TranscriptCommitConfigBuilder) (ranges : List Span)
    (direction : Direction) : Except String TranscriptCommitConfigBuilder := do
  let packer ← Packer.packRanges direction ranges ⟨builder, ∅, 0⟩
  if packer.pendingBytes ≠ 0 then packer.builder.commit packer.pending direction
  else .ok packer.builder

/-- `capture_transcript_commit` after the transcript has been parsed into the ranges to
disclose, up to the call of `build`. -/
def captureTranscriptCommit (transcript : Transcript) (ranges : DisclosedHttpRanges)
    (maxAttestableHttpBytes : ℕ) : Except String TranscriptCommitConfigBuilder := do
  ensureAttestableRanges ranges maxAttestableHttpBytes
  let builder ← commitBoundedRanges (.new transcript) ranges.sent.spans .sent
  commitBoundedRanges builder ranges.received.spans .received

structure TranscriptCommitConfig where
  commits : List (Direction × RangeSet)

/-- `build` lists the hash set of commitments in an order of its own. -/
def TranscriptCommitConfigBuilder.Builds (builder : TranscriptCommitConfigBuilder)
    (config : TranscriptCommitConfig) : Prop :=
  config.commits.Perm builder.commits

inductive TranscriptProofMode
  | standard
  | chunkedPrivate (maxChunkBytes : ℕ)
  deriving DecidableEq

/-- What a prover asks to prove. The builder, the configuration and the request it is sent
as hold the same data. -/
structure ProveConfig where
  serverIdentity : Bool := false
  reveal : Option (RangeSet × RangeSet) := none
  transcriptCommit : Option TranscriptCommitConfig := none
  transcriptProofMode : TranscriptProofMode := .standard

namespace ProveConfig

def chunkedPrivateCommitments (config : ProveConfig) (maxChunkBytes : ℕ) :
    Except String ProveConfig :=
  if maxChunkBytes = 0 then
    .error "chunked private commitments require a non-zero maximum chunk size"
  else .ok { config with transcriptProofMode := .chunkedPrivate maxChunkBytes }

structure Seen where
  sent : RangeSet := ∅
  received : RangeSet := ∅

def Seen.ofDirection (seen : Seen) : Direction → RangeSet
  | .sent => seen.sent
  | .received => seen.received

def Seen.add (seen : Seen) (idx : RangeSet) : Direction → Seen
  | .sent => { seen with sent := seen.sent.union idx }
  | .received => { seen with received := seen.received.union idx }

/-- The loop of `build` over the commitments of a chunked proof. -/
def checkChunks (maxChunkBytes : ℕ) : List (Direction × RangeSet) → Seen → Except String Unit
  | [], _ => .ok ()
  | (direction, idx) :: rest, seen =>
    if maxChunkBytes < idx.len then
      .error ("chunked private commitment is " ++ toString idx.len ++
        " bytes, over configured " ++ toString maxChunkBytes ++ "-byte limit")
    else if (seen.ofDirection direction).isDisjoint idx then
      checkChunks maxChunkBytes rest (seen.add idx direction)
    else .error "chunked private commitments must not overlap"

def revealsNothing (config : ProveConfig) : Bool :=
  config.reveal.all fun r => r.1.spans.isEmpty && r.2.spans.isEmpty

def build (config : ProveConfig) : Except String ProveConfig :=
  match config.transcriptProofMode with
  | .standard => .ok config
  | .chunkedPrivate maxChunkBytes =>
    if config.revealsNothing then
      match config.transcriptCommit.filter fun c => !c.commits.isEmpty with
      | none => .error "chunked private commitments require at least one hash commitment"
      | some commits => do
        checkChunks maxChunkBytes commits.commits {}
        .ok config
    else .error "chunked private commitments cannot reveal transcript bytes"

end ProveConfig

/-- The proof request the client sends for a commitment layout. -/
def clientProofRequest (commits : TranscriptCommitConfig) : Except String ProveConfig := do
  let config ← ProveConfig.chunkedPrivateCommitments { transcriptCommit := some commits }
    maxPrivateChunkBytes
  config.build

/-- The loop of `validate_notarization_request_limits`, which ends with the number of
commitments. -/
def checkCommitments (maxTotalBytes : ℕ) :
    List (Direction × RangeSet) → (count total : ℕ) → Except String ℕ
  | [], count, _ => .ok count
  | (_, range) :: rest, count, total =>
    match checkedAdd total range.len with
    | none => .error "notarization proof byte count overflow"
    | some total =>
      if maxPrivateChunkBytes < range.len ∨ maxTotalBytes < total ∨
          maxPrivateChunkCommitments maxTotalBytes < count + 1 then
        .error "notarization proof request exceeds notary resource limits"
      else checkCommitments maxTotalBytes rest (count + 1) total

def validateNotarizationRequestLimits (request : ProveConfig) (maxTotalBytes : ℕ) :
    Except String Unit :=
  match request.transcriptCommit with
  | none => .error "notarization proof requires transcript commitments"
  | some commitments => do
    let count ← checkCommitments maxTotalBytes commitments.commits 0 0
    if count = 0 then .error "notarization proof requires hash commitments" else .ok ()

end Notary.Core
