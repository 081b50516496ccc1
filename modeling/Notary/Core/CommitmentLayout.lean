import Notary.Core.Commitments
import Notary.Lib.Result

/-! The layout of the client's private commitments and its admission by the notary. While the
client packs a direction, its full chunks and its pending ranges are a greedy packing of the
positions it has passed. -/

namespace Notary.Core
open Ranges Packing Result List RangeSet

theorem maxPrivateChunkBytes_pos : 0 < maxPrivateChunkBytes := by decide

variable {blocks : List RangeSet} {x : ℕ}

namespace TranscriptCommitConfigBuilder

def extend (builder : TranscriptCommitConfigBuilder) (direction : Direction)
    (blocks : List RangeSet) : TranscriptCommitConfigBuilder where
  transcript := builder.transcript
  commits := builder.commits ++ blocks.map (direction, ·)

@[simp] theorem transcript_extend (builder : TranscriptCommitConfigBuilder)
    (direction : Direction) (blocks : List RangeSet) :
    (builder.extend direction blocks).transcript = builder.transcript := rfl

/-- A commitment inside the transcript that shares no position with those before it is added. -/
theorem commit_extend {base : TranscriptCommitConfigBuilder}
    (hba : ∀ c ∈ base.commits, c.1 ≠ direction) (hx : x ∈ idx) (hf : ∀ b ∈ blocks, x ∉ b)
    (hbo : ∀ y ∈ idx, y < base.transcript.lenOfDirection direction) :
    (base.extend direction blocks).commit idx direction =
      .ok (base.extend direction (blocks ++ [idx])) := by
  have hs : ¬ base.transcript.lenOfDirection direction < idx.stop := by
    have := stop_le hbo
    omega
  have hn : (direction, idx) ∉ (base.extend direction blocks).commits := by
    intro hm
    rcases mem_append.mp hm with hm | hm
    · exact hba _ hm rfl
    · obtain ⟨_, hb, he⟩ := mem_map.mp hm
      cases he
      exact hf idx hb hx
  unfold commit
  rw [transcript_extend, if_neg hs, if_neg hn]
  simp [extend]

end TranscriptCommitConfigBuilder

open TranscriptCommitConfigBuilder

/-- The state of a direction's packing after the positions `passed`. -/
structure Packer.Progress (base : TranscriptCommitConfigBuilder) (direction : Direction)
    (passed : List ℕ) (blocks : List RangeSet) (packer : Packer) : Prop where
  builder : packer.builder = base.extend direction blocks
  bytes : packer.pendingBytes = packer.pending.len
  filling : Filling maxPrivateChunkBytes passed (blocks.map RangeSet.positions)
    packer.pending.positions

namespace Packer.Progress

variable {base : TranscriptCommitConfigBuilder} {direction : Direction} {passed : List ℕ}
  {blocks : List RangeSet} {packer : Packer}

section

variable (h : packer.Progress base direction passed blocks)
include h

theorem mem_of_pending (hx : x ∈ packer.pending) : x ∈ passed := by
  rw [← h.filling.flatten]
  exact mem_append.mpr (.inr (mem_positions.mpr hx))

theorem mem_of_block (hb : b ∈ blocks) (hx : x ∈ b) : x ∈ passed := by
  rw [← h.filling.flatten]
  apply mem_append.mpr
  exact .inl (mem_flatten.mpr ⟨_, mem_map_of_mem hb, mem_positions.mpr hx⟩)

/-- The pending ranges list their positions in order when a range above them joins. -/
theorem positions_unionSpan {range : Span} (hb : ∀ x ∈ passed, x < range.start) :
    (packer.pending.unionSpan range).positions = packer.pending.positions ++ range.positions := by
  apply positions_eq_of_mem
  · rw [pairwise_append]
    refine ⟨positions_pairwise _, pairwise_lt_range', ?_⟩
    intro x hx y hy
    have hl := hb x (h.mem_of_pending (mem_positions.mp hx))
    have hh := (Span.mem_positions.mp hy).1
    omega
  · intro x
    simp [or_comm]

end

end Packer.Progress

namespace Packer

variable {base : TranscriptCommitConfigBuilder} {direction : Direction} {passed : List ℕ}
  {blocks : List RangeSet} {packer : Packer}

/-- One pass of the inner loop: a piece of the range joins the pending ranges, which are
committed when they fill a chunk. -/
theorem Progress.flush (h : packer.Progress base direction passed blocks)
    (hba : ∀ c ∈ base.commits, c.1 ≠ direction)
    (range : Span) (hn : range.start < range.stop) (hbe : ∀ x ∈ passed, x < range.start)
    (hl : packer.pendingBytes + range.len ≤ maxPrivateChunkBytes)
    (hbo : ∀ x ∈ passed ++ range.positions, x < base.transcript.lenOfDirection direction) :
    ∃ next blocks', Packer.flush direction ⟨packer.builder, packer.pending.unionSpan range,
      packer.pendingBytes + range.len⟩ = .ok next ∧
      next.Progress base direction (passed ++ range.positions) blocks' := by
  have hp := h.positions_unionSpan hbe
  have hby : packer.pendingBytes + range.len = (packer.pending.unionSpan range).len := by
    rw [← length_positions, hp, h.bytes]
    simp
  have hpe : packer.pending.positions.length = packer.pendingBytes := by
    rw [length_positions, h.bytes]
  by_cases hf : packer.pendingBytes + range.len = maxPrivateChunkBytes
  · have hs : range.start ∈ packer.pending.unionSpan range := mem_unionSpan.mpr (.inl ⟨le_rfl, hn⟩)
    have hfr : ∀ b ∈ blocks, range.start ∉ b := by
      intro b hb hx
      exact absurd (hbe _ (h.mem_of_block hb hx)) (lt_irrefl _)
    have hi : ∀ y ∈ packer.pending.unionSpan range,
        y < base.transcript.lenOfDirection direction := by
      intro y hy
      apply hbo
      rcases mem_unionSpan.mp hy with hy | hy
      · exact mem_append.mpr (.inr (Span.mem_positions.mpr hy))
      · exact mem_append.mpr (.inl (h.mem_of_pending hy))
    refine ⟨⟨base.extend direction (blocks ++ [packer.pending.unionSpan range]), ∅, 0⟩, _, ?_,
      rfl, rfl, ?_⟩
    · unfold Packer.flush
      rw [if_pos hf, h.builder, commit_extend hba hs hfr hi]
      rfl
    · rw [map_append, map_singleton, hp]
      exact h.filling.close (by simp only [Span.length_positions]; omega)
  · refine ⟨⟨packer.builder, packer.pending.unionSpan range, packer.pendingBytes + range.len⟩,
      blocks, ?_, h.builder, hby, ?_⟩
    · unfold Packer.flush
      rw [if_neg hf]
    · rw [hp]
      exact h.filling.extend (by simp only [Span.length_positions]; omega)

/-- The inner loop passes all of its range. -/
theorem Progress.packRange (hba : ∀ c ∈ base.commits, c.1 ≠ direction) (range : Span)
    (h : packer.Progress base direction passed blocks) (hfu : range.len ≤ fuel)
    (hb : ∀ x ∈ passed, x < range.start)
    (hbo : ∀ x ∈ passed ++ range.positions, x < base.transcript.lenOfDirection direction) :
    ∃ next blocks', packRange direction fuel packer range = .ok next ∧
      next.Progress base direction (passed ++ range.positions) blocks' := by
  induction fuel generalizing packer passed blocks range with
  | zero =>
    have hn : range.positions = [] := by
      apply eq_nil_of_length_eq_zero
      rw [Span.length_positions]
      omega
    rw [hn, append_nil]
    exact ⟨packer, blocks, rfl, h⟩
  | succ _ ih =>
    unfold Packer.packRange
    split_ifs with hne
    · -- The pending ranges have room, so the pass moves forward.
      have hro : packer.pendingBytes < maxPrivateChunkBytes := by
        have := h.filling.room
        rwa [length_positions, ← h.bytes] at this
      obtain ⟨cut, hc⟩ : ∃ cut, packer.passEnd range.start range.stop = cut := ⟨_, rfl⟩
      have hf : range.start < cut ∧ cut ≤ range.stop ∧
          packer.pendingBytes + (cut - range.start) ≤ maxPrivateChunkBytes := by
        unfold passEnd at hc
        omega
      have hs := Span.positions_split hf.1.le hf.2.1
      simp only [hc]
      have hp : ∀ x ∈ passed ++ (⟨range.start, cut⟩ : Span).positions,
          x < base.transcript.lenOfDirection direction := by
        intro x hx
        apply hbo
        rw [hs]
        rcases mem_append.mp hx with hx | hx <;> simp [hx]
      obtain ⟨_, _, hfl, hnx⟩ := h.flush hba ⟨range.start, cut⟩ hf.1 hb hf.2.2 hp
      have hr : ∀ x ∈ passed ++ (⟨range.start, cut⟩ : Span).positions, x < cut := by
        intro x hx
        rcases mem_append.mp hx with hx | hx
        · exact (hb x hx).trans hf.1
        · exact (Span.mem_positions.mp hx).2
      obtain ⟨last, blocks'', hl, hd⟩ := ih ⟨cut, range.stop⟩ hnx
        (by simp only [Span.len] at hfu ⊢; omega) hr
        (by rw [append_assoc, ← hs]; exact hbo)
      rw [append_assoc, ← hs] at hd
      simp only [Span.len] at hfl
      rw [hfl]
      exact ⟨last, blocks'', hl, hd⟩
    · have hn : range.positions = [] := by
        apply eq_nil_of_length_eq_zero
        rw [Span.length_positions, Span.len]
        omega
      rw [hn, append_nil]
      exact ⟨packer, blocks, rfl, h⟩

/-- The outer loop passes every range of a set. -/
theorem Progress.packRanges (hba : ∀ c ∈ base.commits, c.1 ≠ direction)
    {ranges : List Span} (h : packer.Progress base direction passed blocks)
    (hs : Separated ranges) (hbe : ∀ range ∈ ranges, ∀ x ∈ passed, x < range.start)
    (hb : ∀ x ∈ passed ++ ranges.flatMap Span.positions,
      x < base.transcript.lenOfDirection direction) :
    ∃ next blocks', packRanges direction ranges packer = .ok next ∧
      next.Progress base direction (passed ++ ranges.flatMap Span.positions) blocks' := by
  induction ranges generalizing packer passed blocks with
  | nil => exact ⟨packer, blocks, rfl, by simpa using h⟩
  | cons range rest ih =>
    obtain ⟨-, hg, hr⟩ := separated_cons.mp hs
    rw [flatMap_cons, ← append_assoc] at hb ⊢
    obtain ⟨_, _, hf, hn⟩ := h.packRange hba range le_rfl
      (hbe range (by simp)) fun x hx => hb x (mem_append.mpr (.inl hx))
    have ha : ∀ later ∈ rest, ∀ x ∈ passed ++ range.positions, x < later.start := by
      intro later hl x hx
      rcases mem_append.mp hx with hx | hx
      · exact hbe later (by simp [hl]) x hx
      · exact (Span.mem_positions.mp hx).2.trans (hg later hl)
    obtain ⟨last, blocks'', hla, hd⟩ := ih hn hr ha hb
    refine ⟨last, blocks'', ?_, hd⟩
    unfold Packer.packRanges
    rw [hf, ok_bind, hla]

end Packer

/-- The client packs the positions of a range set greedily, in order. -/
theorem commitBoundedRanges_packs (base : TranscriptCommitConfigBuilder) (direction : Direction)
    (ranges : RangeSet) (hba : ∀ c ∈ base.commits, c.1 ≠ direction)
    (hbo : ∀ x ∈ ranges, x < base.transcript.lenOfDirection direction) :
    ∃ blocks, commitBoundedRanges base ranges.spans direction = .ok (base.extend direction blocks) ∧
      Packs maxPrivateChunkBytes ranges.positions (blocks.map RangeSet.positions) := by
  have hs : (⟨base, ∅, 0⟩ : Packer).Progress base direction [] [] :=
    ⟨by simp [extend], rfl, Filling.nil maxPrivateChunkBytes_pos⟩
  have hi : ∀ x ∈ [] ++ ranges.spans.flatMap Span.positions,
      x < base.transcript.lenOfDirection direction := by
    intro x hx
    exact hbo x (mem_positions.mp hx)
  obtain ⟨last, blocks, hr, hl⟩ := hs.packRanges hba ranges.separated (by simp) hi
  rw [nil_append] at hl
  have hf : Filling maxPrivateChunkBytes ranges.positions _ _ := hl.filling
  unfold commitBoundedRanges
  rw [hr, ok_bind, hl.builder]
  cases hp : last.pending.positions with
  | nil =>
    have hz : last.pendingBytes = 0 := by rw [hl.bytes, ← length_positions, hp, length_nil]
    rw [if_neg (by simpa using hz)]
    rw [hp] at hf
    exact ⟨blocks, rfl, hf.packs_of_nil⟩
  | cons x rest =>
    have hne : last.pending.positions ≠ [] := by simp [hp]
    have hx : x ∈ last.pending := by
      rw [← mem_positions, hp]
      simp
    have hby : last.pendingBytes ≠ 0 := by
      rw [hl.bytes, ← length_positions, hp]
      simp
    -- No position is listed twice, so the rest shares none with a full chunk.
    have hfr : ∀ b ∈ blocks, x ∉ b := by
      intro b hb hxb
      have hn := ranges.positions_pairwise
      rw [← hf.flatten, pairwise_append] at hn
      have hm : x ∈ (blocks.map RangeSet.positions).flatten :=
        mem_flatten.mpr ⟨_, mem_map_of_mem hb, mem_positions.mpr hxb⟩
      exact absurd (hn.2.2 x hm x (mem_positions.mpr hx)) (lt_irrefl x)
    have hpb : ∀ y ∈ last.pending, y < base.transcript.lenOfDirection direction :=
      fun y hy => hbo y (mem_positions.mp (hl.mem_of_pending hy))
    rw [if_pos hby, commit_extend hba hx hfr hpb]
    refine ⟨_, rfl, ?_⟩
    rw [map_append, map_singleton]
    exact hf.packs_append hne

/-- The commitments of one direction, in the order in which they are made. -/
structure Layout (ranges : RangeSet) (blocks : List RangeSet) : Prop where
  disjoint : blocks.Pairwise fun a b => ∀ x ∈ a, x ∉ b
  covers : ∀ x, x ∈ ranges ↔ ∃ b ∈ blocks, x ∈ b
  bounded : ∀ b ∈ blocks, b.len ≤ maxPrivateChunkBytes
  full : ∀ b ∈ blocks.dropLast, b.len = maxPrivateChunkBytes

theorem Layout.of_packs {ranges : RangeSet}
    (h : Packs maxPrivateChunkBytes ranges.positions (blocks.map RangeSet.positions)) :
    Layout ranges blocks where
  disjoint := by
    have hs := ranges.positions_pairwise
    rw [← h.flatten, pairwise_flatten, pairwise_map] at hs
    apply hs.2.imp
    intro a b ha x hx hxb
    have := ha x (mem_positions.mpr hx) x (mem_positions.mpr hxb)
    omega
  covers x := by
    rw [← mem_positions, ← h.flatten]
    simp [mem_flatten]
  bounded b hb := by
    have := h.fits _ (mem_map_of_mem hb)
    rwa [length_positions] at this
  full b hb := by
    have := h.full b.positions (by rw [← map_dropLast]; exact mem_map_of_mem hb)
    rwa [length_positions] at this

namespace ProveConfig

theorem Seen.mem_add {seen : Seen} :
    x ∈ (seen.add idx d).ofDirection e ↔ x ∈ seen.ofDirection e ∨ d = e ∧ x ∈ idx := by
  cases d <;> cases e <;> simp [Seen.add, Seen.ofDirection]

/-- Bounded commitments that do not overlap within a direction pass the checks of a chunked
proof. -/
theorem checkChunks_ok {maxChunkBytes : ℕ} {commits : List (Direction × RangeSet)}
    (hl : ∀ c ∈ commits, c.2.len ≤ maxChunkBytes)
    (hd : commits.Pairwise fun c e => c.1 = e.1 → ∀ x ∈ c.2, x ∉ e.2)
    (hs : ∀ c ∈ commits, ∀ x ∈ seen.ofDirection c.1, x ∉ c.2) :
    checkChunks maxChunkBytes commits seen = .ok () := by
  induction commits generalizing seen with
  | nil => rfl
  | cons c _ ih =>
    obtain ⟨hh, ht⟩ := pairwise_cons.mp hd
    have hc : ¬ maxChunkBytes < c.2.len := not_lt.mpr (hl c (by simp))
    have hf : (seen.ofDirection c.1).isDisjoint c.2 = true := isDisjoint_of_forall (hs c (by simp))
    unfold checkChunks
    rw [if_neg hc, if_pos hf]
    apply ih (fun e he => hl e (by simp [he])) ht
    intro e he x hx
    rcases Seen.mem_add.mp hx with hx | ⟨hdi, hx⟩
    · exact hs e (by simp [he]) x hx
    · exact hh e he hdi x hx

end ProveConfig

/-- The notary counts the commitments it is sent when none of its limits is passed. -/
theorem checkCommitments_ok {maxTotalBytes count total : ℕ} {commits : List (Direction × RangeSet)}
    (hl : ∀ c ∈ commits, c.2.len ≤ maxPrivateChunkBytes)
    (hc : count + commits.length ≤ maxPrivateChunkCommitments maxTotalBytes)
    (ht : total + (commits.map fun c => c.2.len).sum ≤ maxTotalBytes)
    (hu : maxTotalBytes < usizeBound) :
    checkCommitments maxTotalBytes commits count total = .ok (count + commits.length) := by
  induction commits generalizing count total with
  | nil => rfl
  | cons c _ ih =>
    rw [map_cons, sum_cons] at ht
    rw [length_cons] at hc ⊢
    have ha : checkedAdd total c.2.len = some (total + c.2.len) := by
      unfold checkedAdd
      rw [if_pos (by omega)]
    have hw : ¬ (maxPrivateChunkBytes < c.2.len ∨ maxTotalBytes < total + c.2.len ∨
        maxPrivateChunkCommitments maxTotalBytes < count + 1) := by
      have := hl c (by simp)
      omega
    unfold checkCommitments
    simp only [ha]
    rw [if_neg hw, ih (fun e he => hl e (by simp [he])) (by omega) (by omega)]
    congr 1
    omega

/-- A nonempty list of disjoint bounded commitments within the notary's totals makes a proof
request that the notary accepts. -/
theorem clientProofRequest_admitted {commits : TranscriptCommitConfig} {maxTotalBytes : ℕ}
    (hn : commits.commits ≠ []) (hl : ∀ c ∈ commits.commits, c.2.len ≤ maxPrivateChunkBytes)
    (hd : commits.commits.Pairwise fun c e => c.1 = e.1 → ∀ x ∈ c.2, x ∉ e.2)
    (hcn : commits.commits.length ≤ maxPrivateChunkCommitments maxTotalBytes)
    (ht : (commits.commits.map fun c => c.2.len).sum ≤ maxTotalBytes)
    (hu : maxTotalBytes < usizeBound) : ∃ request, clientProofRequest commits = .ok request ∧
      request.transcriptCommit = some commits ∧
      validateNotarizationRequestLimits request maxTotalBytes = .ok () := by
  have hch : ProveConfig.checkChunks maxPrivateChunkBytes commits.commits {} = .ok () := by
    apply ProveConfig.checkChunks_ok hl hd
    intro c _ x hx
    cases hc : c.1 <;> rw [hc] at hx <;> exact absurd hx (not_mem_empty x)
  have hf : (some commits).filter (fun c => !c.commits.isEmpty) = some commits := by
    simp [Option.filter, hn]
  refine ⟨{ transcriptCommit := some commits,
            transcriptProofMode := .chunkedPrivate maxPrivateChunkBytes }, ?_, rfl, ?_⟩
  · unfold clientProofRequest ProveConfig.chunkedPrivateCommitments
    rw [if_neg maxPrivateChunkBytes_pos.ne', ok_bind]
    simp [ProveConfig.build, ProveConfig.revealsNothing, hf, hch, ok_bind]
  · have hco : checkCommitments maxTotalBytes commits.commits 0 0 = .ok commits.commits.length := by
      rw [checkCommitments_ok hl (by omega) (by omega) hu, Nat.zero_add]
    unfold validateNotarizationRequestLimits
    simp only [hco, ok_bind]
    rw [if_neg (by simpa using hn)]

theorem ensureAttestableRanges_ok {ranges : DisclosedHttpRanges} {maximum : ℕ}
    (hp : 1 ≤ ranges.len) (hm : ranges.len ≤ maximum) (hu : ranges.len < usizeBound) :
    ensureAttestableRanges ranges maximum = .ok () := by
  unfold DisclosedHttpRanges.len at *
  have hs : checkedAdd 0 ranges.sent.len = some ranges.sent.len := by
    unfold checkedAdd
    rw [Nat.zero_add, if_pos (by omega)]
  have hb : checkedAdd ranges.sent.len ranges.received.len =
      some (ranges.sent.len + ranges.received.len) := by
    unfold checkedAdd
    rw [if_pos (by omega)]
  have hn : AttestableHttpBudget.new maximum = .ok ⟨maximum, 0⟩ := by
    unfold AttestableHttpBudget.new
    rw [if_neg (by omega)]
  unfold ensureAttestableRanges
  simp only [hn, ok_bind, AttestableHttpBudget.reserve, hs]
  rw [if_neg (by omega), ok_bind]
  simp only [hb]
  rw [if_neg (by omega), ok_bind]
  rfl

theorem sum_len_of_packs {ranges : RangeSet}
    (h : Packs maxPrivateChunkBytes ranges.positions (blocks.map RangeSet.positions)) :
    (blocks.map RangeSet.len).sum = ranges.len := by
  have hl := congrArg List.length h.flatten
  simpa [length_flatten, Function.comp_def] using hl

def bothDirections (sent received : List RangeSet) : List (Direction × RangeSet) :=
  sent.map (.sent, ·) ++ received.map (.received, ·)

section bothDirections

variable {sent received : List RangeSet} {ranges : DisclosedHttpRanges}

theorem len_le_of_mem_bothDirections (hs : Layout ranges.sent sent)
    (hr : Layout ranges.received received) :
    ∀ c ∈ bothDirections sent received, c.2.len ≤ maxPrivateChunkBytes := by
  intro c hc
  rcases mem_append.mp hc with hc | hc
  · obtain ⟨b, hb, rfl⟩ := mem_map.mp hc
    exact hs.bounded b hb
  · obtain ⟨b, hb, rfl⟩ := mem_map.mp hc
    exact hr.bounded b hb

theorem bothDirections_disjoint (hs : Layout ranges.sent sent)
    (hr : Layout ranges.received received) :
    (bothDirections sent received).Pairwise fun c e => c.1 = e.1 → ∀ x ∈ c.2, x ∉ e.2 := by
  rw [bothDirections, pairwise_append]
  simp only [pairwise_map]
  refine ⟨hs.disjoint.imp fun h _ => h, hr.disjoint.imp fun h _ => h, ?_⟩
  intro c hc e he hd
  obtain ⟨_, -, rfl⟩ := mem_map.mp hc
  obtain ⟨_, -, rfl⟩ := mem_map.mp he
  cases hd

theorem sum_len_bothDirections
    (hs : Packs maxPrivateChunkBytes ranges.sent.positions (sent.map RangeSet.positions))
    (hr : Packs maxPrivateChunkBytes ranges.received.positions (received.map RangeSet.positions)) :
    ((bothDirections sent received).map fun c => c.2.len).sum = ranges.len := by
  simp [bothDirections, Function.comp_def, DisclosedHttpRanges.len, ← sum_len_of_packs hs,
    ← sum_len_of_packs hr]

end bothDirections

/-- Every pair of nonempty range sets within the client's budget and the notary's total is
packed into chunks, and the notary admits the request in whatever order it lists them. -/
theorem captureTranscriptCommit_admitted (transcript : Transcript) (ranges : DisclosedHttpRanges)
    {maximum maxTotalBytes : ℕ}
    (hinside : ∀ direction, ∀ x ∈ ranges.ofDirection direction,
      x < transcript.lenOfDirection direction)
    (hpos : 1 ≤ ranges.len) (hmaximum : ranges.len ≤ maximum)
    (htotal : ranges.len ≤ maxTotalBytes) (husize : maxTotalBytes < usizeBound) :
    ∃ builder, captureTranscriptCommit transcript ranges maximum = .ok builder ∧
      (∀ direction, Layout (ranges.ofDirection direction) (builder.commitsOf direction)) ∧
      builder.commits.length ≤ maxPrivateChunkCommitments maxTotalBytes ∧
      ∀ config, builder.Builds config →
        ∃ request, clientProofRequest config = .ok request ∧
          request.transcriptCommit = some config ∧
          validateNotarizationRequestLimits request maxTotalBytes = .ok () := by
  have hbudget := ensureAttestableRanges_ok hpos hmaximum (by omega)
  obtain ⟨sent, hsent, hpackSent⟩ := commitBoundedRanges_packs (.new transcript) .sent
    ranges.sent (by simp [TranscriptCommitConfigBuilder.new]) (hinside .sent)
  obtain ⟨received, hreceived, hpackReceived⟩ := commitBoundedRanges_packs
    ((TranscriptCommitConfigBuilder.new transcript).extend .sent sent) .received ranges.received
    (by simp [TranscriptCommitConfigBuilder.new, extend]) (hinside .received)
  have hlayoutSent := Layout.of_packs hpackSent
  have hlayoutReceived := Layout.of_packs hpackReceived
  have hcount : (bothDirections sent received).length ≤
      maxPrivateChunkCommitments maxTotalBytes := by
    have := hpackSent.length_add_le maxPrivateChunkBytes_pos hpackReceived
      (n := maxTotalBytes) (by simpa [DisclosedHttpRanges.len] using htotal) (by omega)
    simpa [bothDirections, maxPrivateChunkCommitments] using this
  refine ⟨⟨transcript, bothDirections sent received⟩, ?_, ?_, hcount, ?_⟩
  · unfold captureTranscriptCommit
    rw [hbudget, ok_bind, hsent, ok_bind, hreceived]
    simp [bothDirections, extend, TranscriptCommitConfigBuilder.new]
  · intro direction
    cases direction <;>
      simpa [commitsOf, bothDirections, filter_map, Function.comp_def]
  · intro config hperm
    have hsum : (config.commits.map fun c => c.2.len).sum = ranges.len := by
      rw [(hperm.map _).sum_nat]
      exact sum_len_bothDirections hpackSent hpackReceived
    apply clientProofRequest_admitted
    · intro hnil
      rw [hnil] at hsum
      simp only [map_nil, sum_nil] at hsum
      omega
    · exact fun c hc => len_le_of_mem_bothDirections hlayoutSent hlayoutReceived c (hperm.subset hc)
    · -- Overlap is symmetric, so the order of the commitments does not matter.
      have hsymm : ∀ {c e : Direction × RangeSet}, (c.1 = e.1 → ∀ x ∈ c.2, x ∉ e.2) →
          e.1 = c.1 → ∀ x ∈ e.2, x ∉ c.2 := by
        intro c e h hdir x hxe hxc
        exact h hdir.symm x hxc hxe
      rw [hperm.pairwise_iff hsymm]
      exact bothDirections_disjoint hlayoutSent hlayoutReceived
    · rwa [hperm.length_eq]
    · rwa [hsum]
    · exact husize

def sampleRanges : DisclosedHttpRanges where
  sent := ⟨[⟨0, 40⟩, ⟨60, 131100⟩, ⟨131200, 131300⟩], by decide⟩
  received := ⟨[⟨0, 900⟩], by decide⟩

theorem captureTranscriptCommit_admitted_sample :
    ∃ builder, captureTranscriptCommit
        ⟨List.replicate 140000 0, List.replicate 900 0⟩ sampleRanges 15728640 = .ok builder ∧
      (∀ direction, Layout (sampleRanges.ofDirection direction) (builder.commitsOf direction)) ∧
      builder.commits.length ≤ maxPrivateChunkCommitments 200000 ∧
      ∀ config, builder.Builds config →
        ∃ request, clientProofRequest config = .ok request ∧
          request.transcriptCommit = some config ∧
          validateNotarizationRequestLimits request 200000 = .ok () := by
  apply captureTranscriptCommit_admitted
  · rintro (_ | _) _ ⟨_, hrange, hx⟩
    · simp [DisclosedHttpRanges.ofDirection, sampleRanges] at hrange
      simp only [Transcript.lenOfDirection, length_replicate, Span.mem_def] at hx ⊢
      rcases hrange with rfl | rfl | rfl <;> simp at hx <;> omega
    · simp [DisclosedHttpRanges.ofDirection, sampleRanges] at hrange
      simp only [Transcript.lenOfDirection, length_replicate, Span.mem_def] at hx ⊢
      subst hrange
      exact hx.2
  all_goals decide

end Notary.Core
