import Notary.Lib.Utf8

/-! Seekable destinations: programs of writes and seeks, and the growable buffer that they fill. -/

namespace Sink
open Utf8 List

inductive SeekFrom
  | start (position : ℕ)
  | fromEnd (offset : ℤ)
  | current (offset : ℤ)
  deriving DecidableEq

inductive Op
  | write (buffer : Bytes)
  | seek (target : SeekFrom)
  deriving DecidableEq

/-- Where a seek leads when the destination ends at `length`. Positions have 64 bits. -/
def SeekFrom.resolve (target : SeekFrom) (position length : ℕ) : Option ℕ :=
  let next : ℤ := match target with
    | .start n => n
    | .fromEnd offset => length + offset
    | .current offset => position + offset
  if 0 ≤ next ∧ next < 2 ^ 64 then some next.toNat else none

/-- Whether the target depends on where the destination ends. -/
def SeekFrom.absolute : SeekFrom → Prop
  | .fromEnd _ => False
  | _ => True

theorem SeekFrom.resolve_absolute {target : SeekFrom} (h : target.absolute)
    (position length length' : ℕ) :
    target.resolve position length = target.resolve position length' := by
  cases target with
  | start | current => rfl
  | fromEnd => exact h.elim

/-- A buffer that grows as it is written; a gap is filled with zeros. -/
structure Buffer where
  data : Bytes
  position : ℕ
  deriving DecidableEq

/-- The bytes with a part of them replaced. -/
def overwrite (data : Bytes) (position : ℕ) (buffer : Bytes) : Bytes :=
  (data ++ List.replicate (position - data.length) 0).take position ++ buffer ++
    data.drop (position + buffer.length)

/-- What can be written to: a seek leads to a position or fails. -/
class Destination (δ : Type) where
  write : δ → Bytes → δ
  seek : δ → SeekFrom → Option δ
  position : δ → ℕ

/-- A program that goes on as its seeks are answered. -/
inductive Program
  | done
  | fail
  | write (buffer : Bytes) (rest : Program)
  | seek (target : SeekFrom) (rest : Option ℕ → Program)

def Program.run {δ : Type} [Destination δ] : Program → δ → Option δ
  | done, d => some d
  | fail, _ => none
  | write buffer rest, d => rest.run (Destination.write d buffer)
  | seek target rest, d =>
    match Destination.seek d target with
    | some d => (rest (some (Destination.position d))).run d
    | none => (rest none).run d

namespace Buffer

def empty : Buffer := ⟨[], 0⟩

def write (b : Buffer) (buffer : Bytes) : Buffer :=
  ⟨overwrite b.data b.position buffer, b.position + buffer.length⟩

def seek (b : Buffer) (target : SeekFrom) : Option Buffer :=
  (target.resolve b.position b.data.length).map fun position => { b with position }

instance : Destination Buffer := ⟨write, seek, position⟩

def apply (b : Buffer) : Op → Option Buffer
  | .write buffer => some (b.write buffer)
  | .seek target => b.seek target

/-- The operations one after the other; a seek that fails leaves the buffer as it is. -/
def play (b : Buffer) (ops : List Op) : Buffer := ops.foldl (fun b op => (b.apply op).getD b) b

end Buffer

namespace Program

/-- What the program does to a destination that always says it ends at `length`. Positions have
64 bits. -/
def ops (length : ℕ) : Program → ℕ → Option (List Op)
  | done, _ => some []
  | fail, _ => none
  | write buffer rest, position =>
    (rest.ops length (min (position + buffer.length) (2 ^ 64 - 1))).map (.write buffer :: ·)
  | seek target rest, position =>
    match target.resolve position length with
    | some next => ((rest (some next)).ops length next).map (.seek (.start next) :: ·)
    | none => (rest none).ops length position

/-- Whenever the program asks a buffer for its end, the buffer has the given length. -/
def EndsAt (length : ℕ) : Program → Buffer → Prop
  | done, _ | fail, _ => True
  | write buffer rest, b => rest.EndsAt length (b.write buffer)
  | seek target rest, b =>
    (target.absolute ∨ b.data.length = length) ∧
      match b.seek target with
      | some b => (rest (some b.position)).EndsAt length b
      | none => (rest none).EndsAt length b

end Program

variable {data : Bytes} {position : ℕ}

section

variable (h : position ≤ data.length)
include h

theorem overwrite_of_le (buffer : Bytes) : overwrite data position buffer =
      data.take position ++ buffer ++ data.drop (position + buffer.length) := by
  rw [overwrite, Nat.sub_eq_zero_of_le h, replicate_zero, append_nil]

theorem length_overwrite (buffer : Bytes) :
    (overwrite data position buffer).length = max data.length (position + buffer.length) := by
  rw [overwrite_of_le h]
  simp only [length_append, length_take, length_drop]
  omega

theorem getElem?_overwrite_mem {i : ℕ} {buffer : Bytes}
    (hlo : position ≤ i) (hh : i < position + buffer.length) :
    (overwrite data position buffer)[i]? = buffer[i - position]? := by
  have hl : (data.take position).length = position := by rw [length_take]; omega
  rw [overwrite_of_le h, append_assoc, getElem?_append_right (by rw [hl]; exact hlo), hl,
    getElem?_append_left (by omega)]

theorem getElem?_overwrite_of_not {i : ℕ} {buffer : Bytes}
    (ho : i < position ∨ position + buffer.length ≤ i) :
    (overwrite data position buffer)[i]? = data[i]? := by
  have hl : (data.take position).length = position := by rw [length_take]; omega
  rw [overwrite_of_le h, append_assoc]
  rcases ho with hlo | _
  · rw [getElem?_append_left (by rw [hl]; exact hlo), getElem?_take_of_lt hlo]
  · rw [getElem?_append_right (by rw [hl]; omega), hl,
      getElem?_append_right (by omega), getElem?_drop]
    congr 1
    omega

end

theorem le_length_overwrite (data : Bytes) (position : ℕ) (buffer : Bytes) :
    data.length ≤ (overwrite data position buffer).length ∧
      position + buffer.length ≤ (overwrite data position buffer).length := by
  simp only [overwrite, length_append, length_take, length_drop, length_replicate]
  omega

theorem SeekFrom.resolve_lt {target : SeekFrom} {length next : ℕ}
    (h : target.resolve position length = some next) : next < 2 ^ 64 := by
  have hl {x : ℤ} (h : (if 0 ≤ x ∧ x < 2 ^ 64 then some x.toNat else none) = some next) :
      next < 2 ^ 64 := by
    split_ifs at h with hb
    have hn := Option.some.inj h
    omega
  exact hl h

theorem SeekFrom.resolve_start {next : ℕ} (h : next < 2 ^ 64) (position length : ℕ) :
    (SeekFrom.start next).resolve position length = some next := by
  unfold resolve
  simpa using h

namespace Program

variable {p : Program} {b b' : Buffer} {ops : List Op}

theorem length_le (h : p.run b = some b') : b.data.length ≤ b'.data.length := by
  induction p generalizing b with
  | done =>
    cases h
    exact le_rfl
  | fail => cases h
  | write buffer _ ih => exact (le_length_overwrite _ _ buffer).1.trans (ih h)
  | seek target _ ih =>
    rw [run] at h
    cases hs : target.resolve b.position b.data.length with
    | none =>
      simp only [Destination.seek, Buffer.seek, hs, Option.map_none] at h
      exact ih none h
    | some next =>
      simp only [Destination.seek, Buffer.seek, hs, Option.map_some] at h
      exact ih (some next) (b := { b with position := next }) h

/-- A program that asks for the end only of a complete buffer does what it would do had it been
told the final length all the time. -/
theorem ops_of_run (h : p.run b = some b') (he : p.EndsAt b'.data.length b)
    (hs : b'.data.length < 2 ^ 64) :
    ∃ ops, p.ops b'.data.length b.position = some ops ∧ b.play ops = b' := by
  induction p generalizing b with
  | done =>
    cases h
    exact ⟨[], rfl, rfl⟩
  | fail => cases h
  | write buffer _ ih =>
    have hl := length_le (b := b.write buffer) h
    have hw := (le_length_overwrite b.data b.position buffer).2
    obtain ⟨ops, ho, hp⟩ := ih (b := b.write buffer) h he
    have hm : min (b.position + buffer.length) (2 ^ 64 - 1) = (b.write buffer).position := by
      simp only [Buffer.write] at hl ⊢
      omega
    exact ⟨.write buffer :: ops, by rw [Program.ops, hm, ho]; rfl, hp⟩
  | seek target _ ih =>
    rw [EndsAt] at he
    obtain ⟨ht, he⟩ := he
    have hr : target.resolve b.position b.data.length =
        target.resolve b.position b'.data.length := by
      obtain ht | ht := ht
      · exact SeekFrom.resolve_absolute ht ..
      · rw [ht]
    rw [run] at h
    cases hn : target.resolve b.position b.data.length with
    | none =>
      simp only [Destination.seek, Buffer.seek, hn, Option.map_none] at h he
      obtain ⟨ops, ho, hp⟩ := ih none h he
      exact ⟨ops, by rw [Program.ops, ← hr, hn]; exact ho, hp⟩
    | some next =>
      simp only [Destination.seek, Buffer.seek, hn, Option.map_some] at h he
      obtain ⟨ops, ho, hp⟩ := ih _ h he
      refine ⟨.seek (.start next) :: ops, ?_, ?_⟩
      · rw [Program.ops, ← hr, hn]
        exact congrArg (Option.map _) ho
      · have hstart : b.apply (.seek (.start next)) = some { b with position := next } := by
          simp only [Buffer.apply, Buffer.seek, SeekFrom.resolve_start (SeekFrom.resolve_lt hn),
            Option.map_some]
        rw [Buffer.play, foldl_cons, hstart]
        exact hp

/-- The operations name every position from the start. -/
theorem absolute_ops {length position : ℕ} (h : p.ops length position = some ops) :
    ∀ target, Op.seek target ∈ ops → target.absolute := by
  induction p generalizing position ops with
  | done =>
    cases h
    exact fun _ ht => absurd ht not_mem_nil
  | fail => cases h
  | write _ _ ih =>
    obtain ⟨_, hr, rfl⟩ := Option.map_eq_some_iff.mp h
    intro target ht
    obtain ht | ht := mem_cons.mp ht
    · cases ht
    · exact ih hr target ht
  | seek target _ ih =>
    rw [Program.ops] at h
    split at h
    · obtain ⟨_, hr, rfl⟩ := Option.map_eq_some_iff.mp h
      intro _ ht
      obtain ht | ht := mem_cons.mp ht
      · cases ht
        trivial
      · exact ih _ hr _ ht
    · exact ih none h

end Program

end Sink
