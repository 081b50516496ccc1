import Notary.Core.Disclosure

/-! What the redaction check accepts: header values are hidden or may be shown, and the exchanges
that a capture discloses pass. -/

namespace Notary.Core
open Utf8 Pieces Result List Bool Search

/-! Messages as they are disclosed: some of their bytes may have been replaced by NUL. -/

/-- A header line: its name and what follows the colon. The line before it ends in CRLF, or in LF
alone. -/
structure ShownField where
  bare : Bool
  name : List Char
  value : Bytes
  nameLine : SingleLine name
  colon : ':' ∉ name
  plain : Plain value

namespace ShownField

variable (f : ShownField)

def line : Bytes := encode f.name ++ ([0x3A] ++ f.value)

def ending : Bytes := if f.bare then [0x0A] else crlf

/-- Nothing of the value can be seen, or it may be disclosed and is there as a whole. -/
def Redacted : Prop :=
  (∀ b ∈ f.value, b = 0 ∨ Ascii.isWhitespace b = true) ∨
    mayDiscloseHeaderValue (encode f.name) f.value = true ∧ 0 ∉ f.value

theorem line_plain : Plain f.line := by
  simp only [line, plain_append]
  exact ⟨⟨f.nameLine.not_cr, f.nameLine.not_lf⟩, by decide, f.plain⟩

theorem split_line : Search.splitOnce [0x3A] f.line = some (encode f.name, f.value) := by
  have hco : 0x3A ∉ encode f.name := not_mem_encode (by decide) fun c hc he => f.colon (by
      have : c = ':' := Char.ext (UInt32.toNat_inj.mp he)
      exact this ▸ hc)
  have hp := position_append hco [] f.value
  rw [append_assoc] at hp
  rw [Search.splitOnce, line, hp]
  simp

theorem validateRedactedHeader_ok {l : Bytes} {label : String}
    (h : l = f.line ∨ l = f.line ++ [0x0D]) :
    validateRedactedHeader label l = .ok () ↔ f.Redacted := by
  have hst : (Search.stripEnd [0x0D] l).getD l = f.line := by
    obtain rfl | rfl := h
    · rw [Search.stripEnd, if_neg fun hs => f.line_plain.1 (hs.subset mem_cons_self)]
      rfl
    · rw [Search.stripEnd, if_pos (suffix_append ..)]
      simp
  simp only [validateRedactedHeader, hst, split_line, decode_encode, Option.isNone_some,
    false_eq_true, if_false, guard_ok]
  rw [and_iff_left trivial, Bool.and_eq_true, not_and_or, Redacted]
  refine or_congr ?_ ?_
  · simp [or_iff_not_imp_right]
  · simp

end ShownField

/-- A message. Bytes that are all NUL may stand in front of its start line. -/
structure ShownMessage where
  start : Bytes
  fields : List ShownField
  body : Bytes
  startPlain : Plain start

def block (first : Bytes) (fields : List ShownField) : Bytes :=
  first ++ fields.flatMap fun f => f.ending ++ f.line

def ShownMessage.bytes (m : ShownMessage) : Bytes :=
  block m.start m.fields ++ headerBoundary ++ m.body

theorem block_cons (first : Bytes) (f : ShownField) (fields : List ShownField) :
    block first (f :: fields) = first ++ (f.ending ++ block f.line fields) := by
  simp [block]

section

variable {first body : Bytes} (hf : Plain first)
include hf

theorem position_line (f : ShownField) {rest : Bytes} (hr : rest.head? ≠ some 0x0D) :
    Search.position headerBoundary (first ++ (f.ending ++ rest)) =
      (Search.position headerBoundary rest).map (· + (first.length + f.ending.length)) := by
  have hs : Search.position headerBoundary (f.ending ++ rest) =
      (Search.position headerBoundary rest).map (· + f.ending.length) := by
    unfold ShownField.ending
    split
    · exact position_skip (by decide) _ rest
    · cases rest with
      | nil => rfl
      | cons b =>
        have hb : 0x0D ≠ b := fun h => hr (by rw [h]; rfl)
        simp [Search.position, headerBoundary, crlf, hb]
  rw [headerBoundary, position_skip hf.1, ← headerBoundary, hs, Option.map_map]
  congr 1
  funext n
  simp only [Function.comp_apply]
  omega

/-- The block ends at the first empty line, since no line before is empty. -/
theorem position_boundary (fields : List ShownField) :
    Search.position headerBoundary (block first fields ++ headerBoundary ++ body) =
      some (block first fields).length := by
  induction fields generalizing first with
  | nil => simpa [block, headerBoundary] using position_append hf.1 [0x0A, 0x0D, 0x0A] body
  | cons f fields ih =>
    have hh : (block f.line fields ++ headerBoundary ++ body).head? ≠ some 0x0D := by
      obtain ⟨b, l, hl⟩ := exists_cons_of_ne_nil (show f.line ≠ [] by simp [ShownField.line])
      have hn := f.line_plain.1
      rw [hl] at hn
      rw [block, hl]
      exact fun h => hn (Option.some.inj h ▸ mem_cons_self)
    have hs : block first (f :: fields) ++ headerBoundary ++ body =
        first ++ (f.ending ++ (block f.line fields ++ headerBoundary ++ body)) := by
      simp [block_cons]
    rw [hs, position_line hf f hh, ih f.line_plain, Option.map_some, block_cons, length_append,
      length_append]
    congr 1
    omega

theorem split_first : first.splitOnP (· = 0x0A) = [first] ∧ ∀ (f : ShownField) (rest : Bytes),
    ∃ line, (line = first ∨ line = first ++ [0x0D]) ∧
      (first ++ (f.ending ++ rest)).splitOnP (· = 0x0A) = line :: rest.splitOnP (· = 0x0A) := by
  have hn : ∀ b ∈ first, decide (b = 0x0A) = false :=
    fun b hb => decide_eq_false fun h => hf.2 (h ▸ hb)
  refine ⟨splitOnP_eq_singleton hn, fun f rest => ?_⟩
  unfold ShownField.ending
  split
  · exact ⟨first, .inl rfl, splitOnP_append_cons_of_forall_mem hn _ rfl _⟩
  · have hs : first ++ (crlf ++ rest) = (first ++ [0x0D]) ++ 0x0A :: rest := by simp [crlf]
    rw [hs]
    refine ⟨_, .inr rfl, splitOnP_append_cons_of_forall_mem (fun b hb => ?_) _ rfl _⟩
    obtain hb | hb := mem_append.mp hb
    · exact hn b hb
    · rw [mem_singleton.mp hb]
      rfl

/-- What holds of the lines of a block, whether or not a CR stands behind them. -/
theorem forall_lines {P : Bytes → Prop} {Q : Prop} {R : ShownField → Prop}
    (hq : ∀ line, line = first ∨ line = first ++ [0x0D] → (P line ↔ Q))
    (hr : ∀ f : ShownField, ∀ line, line = f.line ∨ line = f.line ++ [0x0D] → (P line ↔ R f))
    (fields : List ShownField) : (∀ line ∈ (block first fields).splitOnP (· = 0x0A), P line) ↔
      Q ∧ ∀ f ∈ fields, R f := by
  induction fields generalizing first Q with
  | nil =>
    rw [block, flatMap_nil, append_nil, (split_first hf).1]
    simp [hq first (.inl rfl)]
  | cons f fields ih =>
    obtain ⟨line, hl, hs⟩ := (split_first hf).2 f (block f.line fields)
    rw [block_cons, hs, forall_mem_cons, forall_mem_cons, ih f.line_plain (hr f), hq line hl]

end

variable {label : String}

/-- The check looks at every header line up to the first empty one. -/
theorem ShownMessage.validate_ok (m : ShownMessage) :
    validateRedactedHeaders m.bytes label = .ok () ↔ ∀ f ∈ m.fields, f.Redacted := by
  rw [validateRedactedHeaders, bytes, position_boundary m.startPlain]
  simp only [append_assoc, take_left]
  rw [forM_ok]
  cases m.fields with
  | nil =>
    rw [block, flatMap_nil, append_nil, (split_first m.startPlain).1]
    simp
  | cons f fields =>
    obtain ⟨_, -, hs⟩ := (split_first m.startPlain).2 f (block f.line fields)
    rw [block_cons, hs, drop_one, tail_cons, forall_mem_cons]
    exact forall_lines f.line_plain (fun _ => f.validateRedactedHeader_ok)
      (fun f _ => f.validateRedactedHeader_ok) fields

/-! The redacted fields of an exchange. -/

namespace Field

variable (f : Field)

def redactedValue : Bytes := if f.disclosed then f.value else List.replicate f.value.length 0

theorem blank_plain {l : Bytes} (hl : ∀ b ∈ l, b ∈ f.lead ++ f.trail) : Plain l := by
  constructor <;> intro h <;> exact absurd (f.blank _ (hl _ h)) (by decide)

/-- The field with its value blank, unless it is disclosed. -/
def shown : ShownField where
  bare := false
  name := f.name
  value := f.lead ++ f.redactedValue ++ f.trail
  nameLine := f.nameLine
  colon := f.colon
  plain := by
    have hv : Plain f.redactedValue := by
      unfold redactedValue
      split
      · exact f.plain.1
      · simp [Plain, mem_replicate]
    simp only [plain_append]
    exact ⟨⟨f.blank_plain fun _ => mem_append_left _, hv⟩,
      f.blank_plain fun _ => mem_append_right _⟩

end Field

end Notary.Core
