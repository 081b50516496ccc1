import Notary.Lib.Sink

/-! The writer that compares an archive with the uploaded bytes while it is written. -/

namespace Notary.Core
open Sink Utf8 List Option Bool

def maxRewrittenComparisonBytes : ℕ := 16 * 1024

structure CanonicalComparisonWriter where
  expected : Bytes
  position : ℕ
  maxWritten : ℕ
  structurallyValid : Bool
  mismatches : Finset ℕ
  deriving DecidableEq

namespace CanonicalComparisonWriter

def new (expected : Bytes) : CanonicalComparisonWriter := ⟨expected, 0, 0, true, ∅⟩

def matchesExpected (w : CanonicalComparisonWriter) : Bool :=
  w.structurallyValid && w.mismatches = ∅ && w.maxWritten = w.expected.length

/-- The loop over a buffer that is not as expected. It gives up when too many bytes differ. -/
def compareBytes (mismatches : Finset ℕ) (position : ℕ) : Bytes → Bytes → Option (Finset ℕ)
  | actual :: buffer, expected :: rest =>
    if actual = expected then compareBytes (mismatches.erase position) (position + 1) buffer rest
    else if maxRewrittenComparisonBytes < (insert position mismatches).card then none
    else compareBytes (insert position mismatches) (position + 1) buffer rest
  | _, _ => some mismatches

def write (w : CanonicalComparisonWriter) (buffer : Bytes) : CanonicalComparisonWriter :=
  let stop := w.position + buffer.length
  if 2 ^ 64 ≤ stop then
    { w with
      structurallyValid := false
      position := 2 ^ 64 - 1
      maxWritten := max w.maxWritten (2 ^ 64 - 1) }
  else if w.expected.length < stop then
    { w with
      structurallyValid := false
      position := stop
      maxWritten := max w.maxWritten stop }
  else
    let expected := (w.expected.drop w.position).take buffer.length
    let compared :=
      if expected = buffer then some (w.mismatches \ Finset.Ico w.position stop)
      else compareBytes w.mismatches w.position buffer expected
    { w with
      -- A write that starts beyond what was written leaves a gap.
      structurallyValid := w.structurallyValid && w.position ≤ w.maxWritten && compared.isSome
      mismatches := compared.getD ∅
      position := stop
      maxWritten := max w.maxWritten stop }

/-- A seek from the end counts from the end of the expected bytes. -/
def seek (w : CanonicalComparisonWriter) (target : SeekFrom) : Option CanonicalComparisonWriter :=
  (target.resolve w.position w.expected.length).map fun position => { w with position }

instance : Destination CanonicalComparisonWriter := ⟨write, seek, position⟩

def apply (w : CanonicalComparisonWriter) : Op → Option CanonicalComparisonWriter
  | .write buffer => some (w.write buffer)
  | .seek target => w.seek target

/-- The operations one after the other; a seek that fails leaves the writer as it is. -/
def play (w : CanonicalComparisonWriter) (ops : List Op) : CanonicalComparisonWriter :=
  ops.foldl (fun w op => (w.apply op).getD w) w

end CanonicalComparisonWriter

def differing (data expected : Bytes) : Finset ℕ :=
  (Finset.range data.length).filter fun i => data[i]? ≠ expected[i]?

variable {data expected buffer : Bytes} {position : ℕ} {ops : List Op}

theorem mem_differing :
    i ∈ differing data expected ↔ i < data.length ∧ data[i]? ≠ expected[i]? := by
  simp [differing]

theorem differing_self (data : Bytes) : differing data data = ∅ := by
  simp [differing]

theorem mem_differing_overwrite (h : position ≤ data.length) :
    i ∈ differing (overwrite data position buffer) expected ↔
      if position ≤ i ∧ i < position + buffer.length then buffer[i - position]? ≠ expected[i]?
      else i ∈ differing data expected := by
  rw [mem_differing, length_overwrite h]
  split_ifs with hin
  · rw [getElem?_overwrite_mem h hin.1 hin.2]
    exact and_iff_right (by omega)
  · have ho : i < position ∨ position + buffer.length ≤ i := by omega
    rw [getElem?_overwrite_of_not h ho, mem_differing]
    constructor
    · rintro ⟨_, hn⟩
      refine ⟨?_, hn⟩
      rcases ho with _ | _
      · omega
      · omega
    · rintro ⟨_, hn⟩
      exact ⟨by omega, hn⟩

theorem succ_le_overwrite (h : position ≤ data.length) (a : UInt8) :
    position + 1 ≤ (overwrite data position [a]).length := by
  rw [length_overwrite h]
  exact le_max_right _ _

theorem overwrite_cons (h : position ≤ data.length) (a : UInt8) (buffer : Bytes) :
    overwrite data position (a :: buffer) =
      overwrite (overwrite data position [a]) (position + 1) buffer := by
  have ho := succ_le_overwrite h a
  refine ext_getElem? fun i => ?_
  by_cases hin : position + 1 ≤ i ∧ i < position + 1 + buffer.length
  · rw [getElem?_overwrite_mem ho hin.1 hin.2,
      getElem?_overwrite_mem h (by omega) (by rw [length_cons]; omega)]
    rw [show i - position = i - (position + 1) + 1 by omega, getElem?_cons_succ]
  · rw [getElem?_overwrite_of_not ho (by omega)]
    by_cases hi : i = position
    · subst hi
      rw [getElem?_overwrite_mem h le_rfl (by simp), getElem?_overwrite_mem h le_rfl (by simp)]
      simp
    · rw [getElem?_overwrite_of_not h (by simp only [length_cons]; omega),
        getElem?_overwrite_of_not h (by simp only [length_cons, length_nil]; omega)]

theorem differing_overwrite_one (expected : Bytes) (h : position ≤ data.length) (a : UInt8) :
    differing (overwrite data position [a]) expected =
      if expected[position]? = some a then (differing data expected).erase position
      else insert position (differing data expected) := by
  ext i
  rw [mem_differing_overwrite h]
  split_ifs with hi he he
  · obtain rfl : i = position := by simp only [length_cons, length_nil] at hi; omega
    simp [he]
  · obtain rfl : i = position := by simp only [length_cons, length_nil] at hi; omega
    simpa using fun h => he h.symm
  · have hn : i ≠ position := by simp only [length_cons, length_nil] at hi; omega
    simp [hn]
  · have hn : i ≠ position := by simp only [length_cons, length_nil] at hi; omega
    simp [hn]

theorem overwrite_nil (h : position ≤ data.length) : overwrite data position [] = data := by
  rw [overwrite_of_le h, append_nil, length_nil, Nat.add_zero, take_append_drop]

section

variable {data expected : Bytes} {position : ℕ}

section

variable (h : position ≤ data.length)
include h

/-- One byte of the loop: it gives up when a wrong byte leaves too many different. -/
theorem compareBytes_cons (hf : position + (a :: buffer).length ≤ expected.length) :
    CanonicalComparisonWriter.compareBytes (differing data expected) position (a :: buffer)
      ((expected.drop position).take (a :: buffer).length) =
      if expected[position]? ≠ some a ∧ maxRewrittenComparisonBytes <
        (differing (overwrite data position [a]) expected).card then none
      else CanonicalComparisonWriter.compareBytes (differing (overwrite data position [a]) expected)
        (position + 1) buffer ((expected.drop (position + 1)).take buffer.length) := by
  have hl : position < expected.length := by rw [length_cons] at hf; omega
  rw [drop_eq_getElem_cons hl, length_cons, take_succ_cons, differing_overwrite_one expected h a,
    getElem?_eq_getElem hl, CanonicalComparisonWriter.compareBytes]
  by_cases he : a = expected[position]
  · simp [he]
  · simp [he, Ne.symm he]

/-- The loop computes the positions that differ after the write. -/
theorem compareBytes_some (hf : position + buffer.length ≤ expected.length)
    (hc : CanonicalComparisonWriter.compareBytes (differing data expected) position buffer
      ((expected.drop position).take buffer.length) = some mismatches) :
    mismatches = differing (overwrite data position buffer) expected := by
  induction buffer generalizing data position with
  | nil =>
    rw [overwrite_nil h]
    exact (some_inj.mp hc).symm
  | cons a _ ih =>
    rw [compareBytes_cons h hf] at hc
    split_ifs at hc
    rw [length_cons] at hf
    rw [overwrite_cons h]
    exact ih (succ_le_overwrite h a) (by omega) hc

/-- The loop ends when no part of the buffer leaves too many bytes different. -/
theorem compareBytes_bounded (hf : position + buffer.length ≤ expected.length)
    (hb : ∀ done later, buffer = done ++ later →
      (differing (overwrite data position done) expected).card ≤ maxRewrittenComparisonBytes) :
    (CanonicalComparisonWriter.compareBytes (differing data expected) position buffer
      ((expected.drop position).take buffer.length)).isSome := by
  induction buffer generalizing data position with
  | nil => rfl
  | cons a buffer ih =>
    have hfe := hb [a] buffer rfl
    rw [compareBytes_cons h hf, if_neg fun hn => absurd hfe (by omega)]
    rw [length_cons] at hf
    refine ih (succ_le_overwrite h a) (by omega) fun done later hsp => ?_
    rw [← overwrite_cons h]
    exact hb (a :: done) later (by rw [hsp]; rfl)

theorem differing_overwrite_same (hs : (expected.drop position).take buffer.length = buffer) :
    differing (overwrite data position buffer) expected =
      differing data expected \ Finset.Ico position (position + buffer.length) := by
  ext i
  rw [mem_differing_overwrite h, Finset.mem_sdiff, Finset.mem_Ico]
  split_ifs with hi
  · have hb : buffer[i - position]? = expected[i]? := by
      rw [← hs, getElem?_take_of_lt (by omega), getElem?_drop]
      congr 1
      omega
    simp [hb, hi]
  · simp [hi]

end

end

namespace CanonicalComparisonWriter

/-- The writer knows of a buffer what it needs: where it stands, how long it is and where it
differs. -/
structure Follows (w : CanonicalComparisonWriter) (b : Buffer) : Prop where
  position : w.position = b.position
  maxWritten : w.maxWritten = b.data.length
  fits : b.data.length ≤ w.expected.length
  mismatches : w.mismatches = differing b.data w.expected

variable {w : CanonicalComparisonWriter} {b : Buffer}

/-- What a write does that leaves the writer valid. -/
structure Accepts (w : CanonicalComparisonWriter) (buffer : Bytes) (mismatches : Finset ℕ) :
    Prop where
  valid : w.structurallyValid = true
  gapless : w.position ≤ w.maxWritten
  fits : w.position + buffer.length ≤ w.expected.length
  short : w.position + buffer.length < 2 ^ 64
  compared : (if (w.expected.drop w.position).take buffer.length = buffer then
      some (w.mismatches \ Finset.Ico w.position (w.position + buffer.length))
    else compareBytes w.mismatches w.position buffer
      ((w.expected.drop w.position).take buffer.length)) = some mismatches
  result : w.write buffer = { w with
    structurallyValid := true
    mismatches
    position := w.position + buffer.length
    maxWritten := max w.maxWritten (w.position + buffer.length) }

theorem accepts_of_valid (h : (w.write buffer).structurallyValid = true) :
    ∃ mismatches, w.Accepts buffer mismatches := by
  unfold write at h
  dsimp only at h
  split_ifs at h with hl ho hs
  · simp only [and_eq_true, decide_eq_true_eq] at h
    obtain ⟨⟨hv, hg⟩, -⟩ := h
    refine ⟨_, hv, hg, by omega, by omega, if_pos hs, ?_⟩
    simp only [write, if_neg hl, if_neg ho, if_pos hs, hv, decide_eq_true hg,
      Bool.and_self, isSome_some, getD_some]
  · simp only [and_eq_true, decide_eq_true_eq, isSome_iff_exists] at h
    obtain ⟨⟨hv, hg⟩, mismatches, hc⟩ := h
    refine ⟨mismatches, hv, hg, by omega, by omega, by rw [if_neg hs, hc], ?_⟩
    simp only [write, if_neg hl, if_neg ho, if_neg hs, hv, decide_eq_true hg,
      hc, Bool.and_self, isSome_some, getD_some]

theorem Accepts.follows {mismatches : Finset ℕ} (ha : w.Accepts buffer mismatches)
    (h : w.Follows b) :
    (w.write buffer).Follows
      ⟨overwrite b.data b.position buffer, b.position + buffer.length⟩ := by
  have hp : b.position ≤ b.data.length := by
    have hg := ha.gapless
    rwa [h.position, h.maxWritten] at hg
  have hf : b.position + buffer.length ≤ w.expected.length := by
    have hfi := ha.fits
    rwa [h.position] at hfi
  have hc := ha.compared
  rw [h.position, h.mismatches] at hc
  rw [ha.result]
  refine ⟨?_, ?_, ?_, ?_⟩
  · rw [h.position]
  · dsimp only
    rw [length_overwrite hp, h.maxWritten, h.position]
  · dsimp only
    rw [length_overwrite hp]
    exact max_le h.fits hf
  · dsimp only
    split_ifs at hc with hs
    · rw [← some_inj.mp hc, differing_overwrite_same hp hs]
    · exact compareBytes_some hp hf hc

@[simp]
theorem write_expected (w : CanonicalComparisonWriter) (buffer : Bytes) :
    (w.write buffer).expected = w.expected := by
  unfold write
  dsimp only
  split_ifs <;> rfl

theorem write_position (w : CanonicalComparisonWriter) (buffer : Bytes) :
    (w.write buffer).position = min (w.position + buffer.length) (2 ^ 64 - 1) := by
  unfold write
  dsimp only
  split_ifs <;> dsimp only <;> omega

/-- The writer always says that it ends where the expected bytes end. -/
theorem run_eq_play (p : Program) :
    p.run w = (p.ops w.expected.length w.position).map w.play := by
  induction p generalizing w with
  | done | fail => rfl
  | write buffer _ ih =>
    rw [Program.run, Program.ops, Option.map_map]
    refine (ih (w := w.write buffer)).trans ?_
    rw [write_expected, write_position]
    rfl
  | seek target _ ih =>
    rw [Program.run, Program.ops]
    cases hr : target.resolve w.position w.expected.length with
    | none => simpa only [Destination.seek, seek, hr, map_none] using ih none
    | some next =>
      have ho : w.apply (.seek (.start next)) = some { w with position := next } := by
        simp only [apply, seek, SeekFrom.resolve_start (SeekFrom.resolve_lt hr), map_some]
      have hp : w.play ∘ (Op.seek (.start next) :: ·) = play { w with position := next } := by
        funext ops
        simp only [Function.comp, play, foldl_cons, ho, getD_some]
      simp only [Destination.seek, seek, hr, map_some, Option.map_map, hp]
      exact ih (some next) (w := { w with position := next })

theorem play_expected : (w.play ops).expected = w.expected := by
  induction ops generalizing w with
  | nil => rfl
  | cons op _ ih =>
    refine ih.trans ?_
    cases op with
    | write buffer => exact write_expected w buffer
    | seek target =>
      cases hr : target.resolve w.position w.expected.length <;> simp [apply, seek, hr]

/-- A write never makes a writer valid again. -/
theorem valid_of_play (hv : (w.play ops).structurallyValid = true) :
    w.structurallyValid = true := by
  induction ops generalizing w with
  | nil => exact hv
  | cons op _ ih =>
    have h1 : ((w.apply op).getD w).structurallyValid = true := ih hv
    cases op with
    | write =>
      obtain ⟨_, ha⟩ := accepts_of_valid h1
      exact ha.valid
    | seek target =>
      cases hr : target.resolve w.position w.expected.length <;> simpa [apply, seek, hr] using h1

/-- No operation depends on where the destination ends. -/
def Absolute (ops : List Op) : Prop := ∀ target, Op.seek target ∈ ops → target.absolute

/-- A seek does the same to the writer and the buffer. -/
theorem Follows.seek (h : w.Follows b) (ht : target.absolute) :
    w.apply (.seek target) = none ∧ b.apply (.seek target) = none ∨
      ∃ position, w.apply (.seek target) = some { w with position } ∧
        b.apply (.seek target) = some { b with position } ∧
        Follows { w with position } { b with position } := by
  have hb : b.apply (.seek target) = (target.resolve w.position w.expected.length).map
      fun position => { b with position } := by
    rw [h.position, SeekFrom.resolve_absolute ht _ _ b.data.length]
    rfl
  rw [hb, apply, CanonicalComparisonWriter.seek]
  cases target.resolve w.position w.expected.length with
  | none => exact .inl ⟨rfl, rfl⟩
  | some position => exact .inr ⟨position, rfl, rfl, rfl, h.maxWritten, h.fits, h.mismatches⟩

/-- A writer that is valid at the end has followed a buffer all the way. -/
theorem Follows.play (h : w.Follows b) (hab : Absolute ops)
    (hv : (w.play ops).structurallyValid = true) : (w.play ops).Follows (b.play ops) := by
  induction ops generalizing w b with
  | nil => exact h
  | cons op ops ih =>
    have hre : Absolute ops := fun target ht => hab target (mem_cons_of_mem op ht)
    cases op with
    | write =>
      have hw := valid_of_play
        (show (CanonicalComparisonWriter.play _ ops).structurallyValid = true from hv)
      obtain ⟨_, ha⟩ := accepts_of_valid (w := w) hw
      exact ih (ha.follows h) hre hv
    | seek target =>
      obtain ⟨hw, hb⟩ | ⟨_, hw, hb, hf⟩ := h.seek (hab target mem_cons_self)
      · simp only [CanonicalComparisonWriter.play, Buffer.play, foldl_cons, hw, hb,
          getD_none] at hv ⊢
        exact ih h hre hv
      · simp only [CanonicalComparisonWriter.play, Buffer.play, foldl_cons, hw, hb,
          getD_some] at hv ⊢
        exact ih hf hre hv

theorem new_follows (expected : Bytes) : (new expected).Follows Buffer.empty :=
  ⟨rfl, rfl, Nat.zero_le _, rfl⟩

/-- A buffer without differences that has the expected length is the expected one. -/
theorem Follows.data_eq (h : w.Follows b) (hm : w.matchesExpected = true) :
    b.data = w.expected := by
  simp only [matchesExpected, Bool.and_eq_true, decide_eq_true_eq] at hm
  have hl : b.data.length = w.expected.length := by rw [← h.maxWritten, hm.2]
  refine ext_getElem? fun i => ?_
  by_cases hi : i < b.data.length
  · by_contra hn
    have hme := mem_differing.mpr ⟨hi, hn⟩
    rw [← h.mismatches, hm.1.2] at hme
    exact absurd hme (Finset.notMem_empty i)
  · rw [getElem?_eq_none (by omega), getElem?_eq_none (by omega)]

/-- When the writer finds what it expects, a plain buffer would hold the expected bytes. -/
theorem data_of_matches (ha : Absolute ops)
    (hm : ((new expected).play ops).matchesExpected = true) :
    (Buffer.empty.play ops).data = expected := by
  have hv : ((new expected).play ops).structurallyValid = true := by
    simp only [matchesExpected, Bool.and_eq_true] at hm
    exact hm.1.1
  exact (((new_follows expected).play ha hv).data_eq hm).trans play_expected

/-- The operations never leave a gap, and what they have written at any time differs from the
expected bytes in few places. -/
structure BoundedPlay (b : Buffer) (ops : List Op) (expected : Bytes) : Prop where
  gapless : ∀ before buffer after, ops = before ++ .write buffer :: after →
    (b.play before).position ≤ (b.play before).data.length
  few : ∀ before done later after, ops = before ++ .write (done ++ later) :: after →
    (differing (b.play (before ++ [.write done])).data expected).card ≤ maxRewrittenComparisonBytes

theorem BoundedPlay.tail (h : BoundedPlay b (op :: ops) expected) :
    BoundedPlay ((b.apply op).getD b) ops expected :=
  ⟨fun before buffer after he => h.gapless (op :: before) buffer after (congrArg _ he),
    fun before done later after he => h.few (op :: before) done later after (congrArg _ he)⟩

theorem length_le_play (b : Buffer) (ops : List Op) : b.data.length ≤ (b.play ops).data.length := by
  induction ops generalizing b with
  | nil => exact le_rfl
  | cons op _ ih =>
    refine le_trans ?_ (ih _)
    cases op with
    | write buffer => exact (le_length_overwrite _ _ buffer).1
    | seek target =>
      cases hr : target.resolve b.position b.data.length <;> simp [Buffer.apply, Buffer.seek, hr]

/-- A write that fits and leaves few differences keeps the writer valid. -/
theorem write_valid (h : w.Follows b) (hv : w.structurallyValid = true)
    (hg : b.position ≤ b.data.length) (hfi : b.position + buffer.length ≤ w.expected.length)
    (hsh : w.expected.length < 2 ^ 64) (hf : ∀ done later, buffer = done ++ later →
      (differing (overwrite b.data b.position done) w.expected).card ≤
        maxRewrittenComparisonBytes) : (w.write buffer).structurallyValid = true := by
  have hl : ¬2 ^ 64 ≤ w.position + buffer.length := by rw [h.position]; omega
  have ho : ¬w.expected.length < w.position + buffer.length := by rw [h.position]; omega
  have hg' : w.position ≤ w.maxWritten := by rwa [h.position, h.maxWritten]
  have hso := compareBytes_bounded hg hfi hf
  rw [← h.mismatches, ← h.position] at hso
  by_cases hs : (w.expected.drop w.position).take buffer.length = buffer
  · simp only [write, if_neg hl, if_neg ho, if_pos hs, hv, decide_eq_true hg',
      Bool.and_self, isSome_some]
  · simp only [write, if_neg hl, if_neg ho, if_neg hs, hv, decide_eq_true hg', hso, Bool.and_self]

/-- The writer stays valid along operations that make up the expected bytes. -/
theorem Follows.valid_play (h : w.Follows b) (hab : Absolute ops)
    (hb : BoundedPlay b ops w.expected) (hs : w.expected.length < 2 ^ 64)
    (hd : (b.play ops).data.length ≤ w.expected.length) (hv : w.structurallyValid = true) :
    (w.play ops).structurallyValid = true := by
  induction ops generalizing b w with
  | nil => exact hv
  | cons op ops ih =>
    have hre : Absolute ops := fun target ht => hab target (mem_cons_of_mem op ht)
    cases op with
    | write buffer =>
      have hg := hb.gapless [] buffer ops rfl
      have hl := (length_overwrite hg buffer).ge.trans ((length_le_play _ ops).trans hd)
      have hv1 := write_valid h hv hg (le_trans (le_max_right _ _) hl) hs fun done later he =>
        hb.few [] done later ops (by rw [he]; rfl)
      obtain ⟨_, ha⟩ := accepts_of_valid hv1
      have hbt := hb.tail
      rw [← write_expected w buffer] at hbt hs hd
      exact ih (ha.follows h) hre hbt hs hd hv1
    | seek target =>
      have hbt := hb.tail
      obtain ⟨hw, hbu⟩ | ⟨_, hw, hbu, hf⟩ := h.seek (hab target mem_cons_self)
      · simp only [CanonicalComparisonWriter.play, Buffer.play, foldl_cons, hw, hbu,
          getD_none] at hd hbt ⊢
        exact ih h hre hbt hs hd hv
      · simp only [CanonicalComparisonWriter.play, Buffer.play, foldl_cons, hw, hbu,
          getD_some] at hd hbt ⊢
        exact ih hf hre hbt hs hd hv

/-- The writer recognises the bytes that a plain buffer ends with. -/
theorem matches_of_play (ha : Absolute ops) (hb : BoundedPlay Buffer.empty ops expected)
    (hs : expected.length < 2 ^ 64) (hd : (Buffer.empty.play ops).data = expected) :
    ((new expected).play ops).matchesExpected = true := by
  have hn := new_follows expected
  have hv := hn.valid_play ha hb hs (by rw [hd]; exact le_rfl) rfl
  have hf := hn.play ha hv
  have he : ((new expected).play ops).expected = expected := play_expected
  simp [matchesExpected, hv, hf.mismatches, hf.maxWritten, hd, he, differing_self]

/-- What the writer reports agrees with a plain buffer that replays the operations. A slice has
fewer than 2 ^ 64 bytes. -/
theorem matchesExpected_replays (expected : Bytes) (ops : List Op) (habsolute : Absolute ops) :
    (((new expected).play ops).matchesExpected = true →
        (Buffer.empty.play ops).data = expected) ∧
      (expected.length < 2 ^ 64 → (Buffer.empty.play ops).data = expected →
        BoundedPlay Buffer.empty ops expected →
        ((new expected).play ops).matchesExpected = true) :=
  ⟨data_of_matches habsolute,
    fun hlength hdata hbounded => matches_of_play habsolute hbounded hlength hdata⟩

/-- The first byte is wrong until it is written again. -/
theorem matchesExpected_replays_patched :
    ((new [1]).play [.write [0], .seek (.start 0), .write [1]]).matchesExpected = true := by
  refine (matchesExpected_replays [1] _ ?_).2 (by decide) rfl ⟨?_, ?_⟩
  · rintro _ (_ | ⟨_, _ | ⟨_, _ | ⟨_, h⟩⟩⟩)
    · trivial
    · cases h
  · rintro (_ | ⟨_, _ | ⟨_, _ | ⟨_, _⟩⟩⟩) _ _ h
    · decide
    · cases h
    · cases h
      decide
    · simp at h
  · rintro (_ | ⟨_, _ | ⟨_, _ | ⟨_, _⟩⟩⟩) _ _ _ h
    · obtain ⟨rfl, -⟩ | ⟨rfl, -⟩ := singleton_eq_append_iff.mp (Op.write.inj (cons.inj h).1)
      · decide
      · decide
    · cases h
    · simp only [cons_append, nil_append, cons.injEq] at h
      obtain ⟨rfl, rfl, h, -⟩ := h
      obtain ⟨rfl, -⟩ | ⟨rfl, -⟩ := singleton_eq_append_iff.mp (Op.write.inj h)
      · decide
      · decide
    · simp at h

end CanonicalComparisonWriter

end Notary.Core
