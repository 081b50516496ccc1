import Notary.Core.ArchiveRoundTrip
import Notary.Core.PublicTrace
import Notary.Lib.JsonCanonical

/-! The canonical bytes of a value whose members come in any order. -/

namespace Notary.Core
open Utf8 Json Result List

/-- Texts with commas between them. -/
def commaSeparated : List (List Char) → List Char
  | [] => []
  | t :: ts => t ++ ts.flatMap (',' :: ·)

section

variable {c : Crates}

mutual

/-- `write_canonical_json`. Sorting the written entries is writing the sorted ones. -/
def writeCanonicalJson : c.Json → List Char
  | .array vs => '[' :: commaSeparated (writeElements vs) ++ [']']
  | .object ms => '\x7b' :: commaSeparated (((writeEntries ms).insertionSort (·.1 ≤ ·.1)).map
      fun e => quote e.1 ++ ':' :: e.2) ++ ['\x7d']
  | v => v.print .compact 0

def writeElements : List c.Json → List (List Char)
  | [] => []
  | v :: vs => writeCanonicalJson v :: writeElements vs

def writeEntries : List (String × c.Json) → List (String × List Char)
  | [] => []
  | (k, v) :: ms => (k, writeCanonicalJson v) :: writeEntries ms

end

/-- `canonical_trace_bytes` of a value with its members in any order. -/
def traceBytes (value : c.Json) : Bytes := encode (writeCanonicalJson value) ++ [0x0A]

theorem print_array (level : ℕ) (vs : List c.Json) : (Value.array vs).print .compact level =
    '[' :: commaSeparated (vs.map (·.print .compact (level + 1))) ++ [']'] := by
  have hr : ∀ ws : List c.Json, Value.printRest .compact level ws =
      (ws.map (·.print .compact (level + 1))).flatMap (',' :: ·) := by
    intro ws
    induction ws with
    | nil => rfl
    | cons w ws ih =>
      rw [Value.printRest, ih]
      rfl
  cases vs with
  | nil => rfl
  | cons v vs =>
    rw [Value.print, hr, show Layout.compact.closing level = [] from rfl, append_nil]
    rfl

theorem print_object (level : ℕ) (ms : List (String × c.Json)) :
    (Value.object ms).print .compact level = '\x7b' :: commaSeparated
      (ms.map fun m => quote m.1 ++ ':' :: m.2.print .compact (level + 1)) ++ ['\x7d'] := by
  have hr : ∀ ms : List (String × c.Json), Value.printMembers .compact level ms =
      (ms.map fun m => quote m.1 ++ ':' :: m.2.print .compact (level + 1)).flatMap (',' :: ·) := by
    intro ms
    induction ms with
    | nil => rfl
    | cons m ms ih =>
      rw [Value.printMembers, ih, show Layout.compact.colon = [] from rfl, ← append_cons]
      rfl
  cases ms with
  | nil => rfl
  | cons m ms =>
    rw [Value.print, hr, show Layout.compact.closing level = [] from rfl, append_nil,
      show Layout.compact.colon = [] from rfl, ← append_cons]
    rfl

mutual

/-- The canonical text of a value is the text of its map. -/
theorem writeCanonicalJson_eq : ∀ (v : c.Json) (level : ℕ), v.Distinct →
    writeCanonicalJson v = v.normalize.print .compact level
  | .null, _, _ | .number _, _, _ | .string _, _, _ => rfl
  | .bool b, _, _ => by cases b <;> rfl
  | .array vs, level, h => by
    rw [writeCanonicalJson, writeElements_eq vs (level + 1) h, Value.normalize, print_array]
  | .object ms, level, h => by
    have hs := map_insertionSort (fun a b : String × c.Json => a.1 ≤ b.1)
      (fun a b : String × List Char => a.1 ≤ b.1) (fun m => (m.1, m.2.print .compact (level + 1)))
      (ms.map fun m => (m.1, m.2.normalize)) fun _ _ _ _ => Iff.rfl
    rw [writeCanonicalJson, writeEntries_eq ms (level + 1) h.2, Value.normalize, print_object,
      Value.normalizeMembers_eq_insertionSort h.1, ← hs, map_map]
    rfl

theorem writeElements_eq : ∀ (vs : List c.Json) (level : ℕ), Value.DistinctElements vs →
    writeElements vs = (Value.normalizeAll vs).map (·.print .compact level)
  | [], _, _ => rfl
  | v :: vs, level, h =>
    congrArg₂ _ (writeCanonicalJson_eq v level h.1) (writeElements_eq vs level h.2)

theorem writeEntries_eq : ∀ (ms : List (String × c.Json)) (level : ℕ), Value.DistinctMembers ms →
    writeEntries ms = (ms.map fun m => (m.1, m.2.normalize)).map
      fun m => (m.1, m.2.print .compact level)
  | [], _, _ => rfl
  | (k, v) :: ms, level, h =>
    congrArg₂ _ (congrArg (k, ·) (writeCanonicalJson_eq v level h.1)) (writeEntries_eq ms level h.2)

end

theorem traceBytes_eq {v : c.Json} (h : v.Distinct) :
    traceBytes v = encode (v.normalize.print .compact 0 ++ ['\n']) := by
  rw [traceBytes, writeCanonicalJson_eq v 0 h, encode, encode, flatMap_append]
  rfl

/-- The canonical bytes of a trace do not depend on the order of members and determine the value;
accepted bytes are those of the value they parse to; and a value that does not nest too deep is
what its bytes parse to. -/
theorem traceBytes_canonical (hnumbers : ∀ x : c.Float, Floats.read (Floats.write x) = some x) :
    (∀ v w : c.Json, v.Distinct → w.Distinct →
      (traceBytes v = traceBytes w ↔ v.normalize = w.normalize)) ∧
    (∀ bytes, validatePublicTraceBytes c bytes = .ok () →
      ∃ value : c.Json, fromSlice bytes = some value ∧ traceBytes value = bytes) ∧
    ∀ v : c.Json, v.Distinct → v.normalize.depth < nestingLimit →
      fromSlice (traceBytes v) = some v.normalize := by
  refine ⟨fun v w hv hw => ⟨fun h => ?_, fun h => ?_⟩, fun bytes h => ?_, fun v hv hdepth => ?_⟩
  · have htext := congrArg decode h
    rw [traceBytes_eq hv, traceBytes_eq hw, decode_encode, decode_encode, Option.some_inj] at htext
    exact Value.print_injective hnumbers .compact (append_cancel_right htext)
  · rw [traceBytes_eq hv, traceBytes_eq hw, h]
  · obtain ⟨value, hvalue, h⟩ := bind_ok.mp h
    have hread : fromSlice bytes = some value := orBail_ok.mp hvalue
    have hsame : canonicalTraceBytes value = bytes := by
      by_contra hne
      rw [if_neg hne] at h
      cases h
    obtain ⟨raw, -, rfl⟩ := Option.map_eq_some_iff.mp hread
    refine ⟨_, hread, ?_⟩
    rw [traceBytes, writeCanonicalJson_eq _ 0 raw.normalize_normalize.2, raw.normalize_normalize.1]
    exact hsame
  · rw [traceBytes_eq hv]
    have hcanonical : v.normalize.Canonical :=
      ⟨v.normalize_normalize.1, Value.reread_eq hnumbers _⟩
    refine hcanonical.fromSlice_print hdepth .compact fun ch hch => ?_
    rw [mem_singleton.mp hch]
    rfl

end

def sampleUnordered : sampleCrates.Json := .object [("b", .null), ("a", .bool true)]

theorem traceBytes_canonical_unordered :
    traceBytes sampleUnordered = traceBytes sampleUnordered.normalize ∧
      fromSlice (traceBytes sampleUnordered) = some sampleUnordered.normalize := by
  obtain ⟨hsame, -, hread⟩ := traceBytes_canonical (c := sampleCrates) fun _ => rfl
  have hdistinct : sampleUnordered.Distinct := ⟨by decide, trivial, trivial, trivial⟩
  obtain ⟨hfixed, hsorted⟩ := sampleUnordered.normalize_normalize
  exact ⟨(hsame _ _ hdistinct hsorted).mpr hfixed.symm, hread _ hdistinct (by decide)⟩

def nestedJson : ℕ → sampleCrates.Json
  | 0 => .null
  | n + 1 => .array [nestedJson n]

/-- A value can nest deeper than the parser reads. -/
theorem deep_trace_unreadable : (nestedJson nestingLimit).Distinct ∧
    (fromSlice (traceBytes (nestedJson nestingLimit)) : Option sampleCrates.Json) = none := by
  have hdistinct : ∀ n, (nestedJson n).Distinct := fun n => by
    induction n with
    | zero => trivial
    | succ n ih => exact ⟨ih, trivial⟩
  refine ⟨hdistinct _, Option.isNone_iff_eq_none.mp ?_⟩
  decide +kernel

end Notary.Core
