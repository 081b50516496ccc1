import Notary.Core.HttpBody

/-! The chunked coding of HTTP bodies, and what the decoder makes of a body that is whole, cut short
or followed by more. -/

namespace Notary.Core
open Utf8 List Option Search

def crlf : Bytes := [0x0D, 0x0A]

def SingleLine (t : List Char) : Prop := '\r' ∉ t ∧ '\n' ∉ t
  deriving Decidable

variable {t : List Char} {tail : Bytes}

theorem SingleLine.not_cr (h : SingleLine t) : 0x0D ∉ encode t :=
  not_mem_encode (by decide) fun c hc he => h.1 (by
    have : c = '\r' := Char.ext (UInt32.toNat_inj.mp he)
    exact this ▸ hc)

theorem SingleLine.not_lf (h : SingleLine t) : 0x0A ∉ encode t :=
  not_mem_encode (by decide) fun c hc he => h.2 (by
    have : c = '\n' := Char.ext (UInt32.toNat_inj.mp he)
    exact this ▸ hc)

/-- A line is found where its end is. -/
theorem lineEnd_line (h : SingleLine t) (rest : Bytes) :
    lineEnd (encode t ++ crlf ++ rest) = some ((encode t).length, 2) := by
  have hp := position_append h.not_cr [0x0A] rest
  have hr : (encode t ++ crlf ++ rest).drop (encode t).length = crlf ++ rest := by
    rw [append_assoc, drop_left]
  unfold lineEnd
  rw [show crlf = 0x0D :: [0x0A] from rfl] at hr ⊢
  rw [hp, some_or, map_some, hr]
  rfl

/-- A line that is cut before its end is not found. -/
theorem lineEnd_cut (h : SingleLine t) {r : Bytes} (hr : r <+: encode t ++ crlf)
    (hl : r.length < (encode t ++ crlf).length) : lineEnd r = none := by
  have hb : r <+: encode t ++ [0x0D] := by
    refine prefix_of_prefix_length_le hr ⟨[0x0A], by simp [crlf]⟩ ?_
    simp only [crlf, length_append, length_cons, length_nil] at hl ⊢
    omega
  have hlf : 0x0A ∉ r := by
    intro hm
    have := hb.subset hm
    simp [h.not_lf] at this
  unfold lineEnd
  rw [position_eq_none (a := 0x0A) (by simp) hlf, position_eq_none (a := 0x0A) (by simp) hlf]
  rfl

/-- The line before a chunk: its size in hexadecimal digits and the extensions. -/
structure SizeLine (n : ℕ) where
  digits : List Char
  nonempty : digits ≠ []
  size : ∃ values, digits.mapM Json.hexValue = some values ∧
    values.foldl (fun n d => 16 * n + d) 0 = n
  extension : List Char
  semicolon : extension = [] ∨ extension.head? = some ';'
  singleLine : SingleLine extension

/-- A trailer line. -/
structure Trailer where
  name : List Char
  value : List Char
  named : Text.trim name ≠ []
  colon : ':' ∉ name
  nameLine : SingleLine name
  valueLine : SingleLine value

structure Chunk where
  data : Bytes
  nonempty : data ≠ []
  line : SizeLine data.length

/-- A chunked body: its chunks, the line of the last chunk and the trailer. -/
structure ChunkedBody where
  chunks : List Chunk
  last : SizeLine 0
  trailers : List Trailer

def SizeLine.text {n : ℕ} (line : SizeLine n) : List Char := line.digits ++ line.extension

def Trailer.text (t : Trailer) : List Char := t.name ++ ':' :: t.value

def Chunk.bytes (chunk : Chunk) : Bytes := encode chunk.line.text ++ crlf ++ (chunk.data ++ crlf)

def trailerBytes (trailers : List Trailer) : Bytes :=
  trailers.flatMap (fun t => encode t.text ++ crlf) ++ crlf

namespace ChunkedBody

def ending (body : ChunkedBody) : Bytes :=
  encode body.last.text ++ crlf ++ trailerBytes body.trailers

def bytes (body : ChunkedBody) : Bytes := body.chunks.flatMap Chunk.bytes ++ body.ending

def content (body : ChunkedBody) : Bytes := body.chunks.flatMap Chunk.data

end ChunkedBody

theorem hexValue_range (h : Json.hexValue ch = some v) :
    48 ≤ ch.toNat ∧ ch.toNat ≤ 57 ∨ 97 ≤ ch.toNat ∧ ch.toNat ≤ 102 ∨
      65 ≤ ch.toNat ∧ ch.toNat ≤ 70 := by
  unfold Json.hexValue at h
  split_ifs at h with hd hl hu
  · rw [Char.isDigit_iff_toNat] at hd
    exact .inl hd
  · exact .inr (.inl hl)
  · exact .inr (.inr hu)

theorem not_mem_of_hexValues {digits : List Char} (h : digits.mapM Json.hexValue = some values)
    (hc : Json.hexValue ch = none) :
    ch ∉ digits := by
  intro hm
  induction digits generalizing values with
  | nil => cases hm
  | cons _ _ ih =>
    simp only [mapM_cons, bind_eq_bind, bind_eq_some_iff] at h
    obtain ⟨_, hv, _, hr, -⟩ := h
    obtain rfl | hm := mem_cons.mp hm
    · rw [hc] at hv
      cases hv
    · exact ih hr hm

section SizeLine

variable {n : ℕ} (line : SizeLine n)

theorem SizeLine.text_singleLine : SingleLine line.text := by
  obtain ⟨_, hv, -⟩ := line.size
  have hd (ch : Char) (hc : Json.hexValue ch = none) : ch ∉ line.digits :=
    not_mem_of_hexValues hv hc
  exact ⟨fun h => (mem_append.mp h).elim (hd _ rfl) line.singleLine.1,
    fun h => (mem_append.mp h).elim (hd _ rfl) line.singleLine.2⟩

theorem SizeLine.trim_digits : Text.trim line.digits = line.digits := by
  obtain ⟨_, hva, -⟩ := line.size
  refine trim_of_all_not fun ch hc => ?_
  have hvl : Json.hexValue ch ≠ none := fun hn => not_mem_of_hexValues hva hn hc
  obtain ⟨_, hv⟩ := ne_none_iff_exists'.mp hvl
  have hr := hexValue_range hv
  simp only [Text.isWhitespace]
  simp only [Bool.or_eq_false_iff, Bool.and_eq_false_iff, decide_eq_false_iff_not]
  omega

theorem chunkSize_text (hn : n < 2 ^ 64) : chunkSize line.text = some n := by
  obtain ⟨_, hv, hsi⟩ := line.size
  have hh : (line.text.splitOnP (· = ';')).headD [] = line.digits := by
    have hno : ∀ ch ∈ line.digits, decide (ch = ';') = false := by
      intro _ hc
      rw [decide_eq_false_iff_not]
      rintro rfl
      exact not_mem_of_hexValues hv rfl hc
    obtain hni | hs := line.semicolon
    · rw [SizeLine.text, hni, append_nil, splitOnP_eq_singleton hno]
      rfl
    · obtain ⟨rest, hr⟩ : ∃ rest, line.extension = ';' :: rest := by
        cases he : line.extension with
        | nil => simp [he] at hs
        | cons _ rest =>
          rw [he] at hs
          exact ⟨rest, by rw [some_inj.mp hs]⟩
      rw [SizeLine.text, hr, splitOnP_append_cons_of_forall_mem hno _ (by decide)]
      rfl
  have hp : (Search.stripStart ['+'] line.digits).getD line.digits = line.digits := by
    rw [Search.stripStart, if_neg]
    · rfl
    · rintro ⟨_, ht⟩
      have hm : '+' ∈ line.digits := by simp [← ht]
      exact not_mem_of_hexValues hv rfl hm
  unfold chunkSize
  rw [hh, line.trim_digits, Text.parseHex, hp, if_neg line.nonempty, hv]
  simp only [bind_eq_bind, bind_some]
  rw [hsi, if_pos hn]

end SizeLine

section Trailers

variable {name : String}

theorem Trailer.text_singleLine (t : Trailer) : SingleLine t.text := by
  refine ⟨fun h => ?_, fun h => ?_⟩
  · simp [Trailer.text, t.nameLine.1, t.valueLine.1] at h
  · simp [Trailer.text, t.nameLine.2, t.valueLine.2] at h

theorem Trailer.text_ne_nil (t : Trailer) : encode t.text ≠ [] := by
  intro h
  have hl := length_le_encode t.text
  rw [h, Trailer.text, length_append, length_cons] at hl
  simp at hl

theorem Trailer.split_text (t : Trailer) :
    Search.splitOnce [':'] t.text = some (t.name, t.value) := by
  have hp := position_append t.colon [] t.value
  rw [append_assoc, singleton_append] at hp
  rw [Search.splitOnce, Trailer.text, hp]
  simp

theorem validateChunkedTrailer_line (t : Trailer) (fuel : ℕ) (rest : Bytes) :
    validateChunkedTrailer name (fuel + 1) (encode t.text ++ crlf ++ rest) =
      validateChunkedTrailer name fuel rest := by
  have hle : (encode t.text).length ≠ 0 := fun h => t.text_ne_nil (length_eq_zero_iff.mp h)
  have ht : (encode t.text ++ crlf ++ rest).take (encode t.text).length = encode t.text := by
    rw [append_assoc, take_left]
  have hd : (encode t.text ++ crlf ++ rest).drop ((encode t.text).length + 2) = rest := by
    have hl : (encode t.text ++ crlf).length = (encode t.text).length + 2 := by simp [crlf]
    rw [← hl, drop_left]
  simp only [validateChunkedTrailer, lineEnd_line t.text_singleLine, ht, hd, decode_encode,
    t.split_text]
  rw [if_neg hle, if_neg t.named]

theorem length_le_trailerBytes (trailers : List Trailer) :
    trailers.length ≤ (trailerBytes trailers).length := by
  induction trailers with
  | nil => exact Nat.zero_le _
  | cons t trailers =>
    have hb : trailerBytes (t :: trailers) = encode t.text ++ crlf ++ trailerBytes trailers := by
      simp [trailerBytes]
    rw [hb, length_append, length_append, length_cons]
    simp only [crlf, length_cons]
    omega

theorem validateChunkedTrailer_bytes (trailers : List Trailer) (extra : Bytes)
    (hf : trailers.length < fuel) :
    validateChunkedTrailer name fuel (trailerBytes trailers ++ extra) = if extra = [] then .ok ()
      else bail ("chunked " ++ name ++ " body has bytes after its terminal chunk") := by
  induction trailers generalizing fuel with
  | nil =>
    obtain ⟨fuel, rfl⟩ : ∃ k, fuel = k + 1 := ⟨fuel - 1, by omega⟩
    have he : lineEnd (trailerBytes [] ++ extra) = some (0, 2) :=
      lineEnd_line (t := []) ⟨nofun, nofun⟩ extra
    simp only [validateChunkedTrailer, he]
    rfl
  | cons t trailers ih =>
    obtain ⟨fuel, rfl⟩ : ∃ k, fuel = k + 1 := ⟨fuel - 1, by omega⟩
    have hb : trailerBytes (t :: trailers) ++ extra =
        encode t.text ++ crlf ++ (trailerBytes trailers ++ extra) := by
      simp [trailerBytes]
    rw [hb, validateChunkedTrailer_line, ih (by simpa using hf)]

/-- A trailer that is cut short has no terminal blank line. -/
theorem validateChunkedTrailer_cut {trailers : List Trailer} {r : Bytes}
    (hr : r <+: trailerBytes trailers) (hl : r.length < (trailerBytes trailers).length)
    (fuel : ℕ) : validateChunkedTrailer name fuel r =
      bail ("chunked " ++ name ++ " body has no terminal blank line") := by
  induction trailers generalizing r fuel with
  | nil =>
    cases fuel with
    | zero => rfl
    | succ =>
      have he : lineEnd r = none := lineEnd_cut (t := []) ⟨nofun, nofun⟩ hr hl
      simp only [validateChunkedTrailer, he]
  | cons t trailers ih =>
    cases fuel with
    | zero => rfl
    | succ fuel =>
      have hb : trailerBytes (t :: trailers) = encode t.text ++ crlf ++ trailerBytes trailers := by
        simp [trailerBytes]
      rw [hb] at hr hl
      obtain ⟨hli, hsh⟩ | ⟨_, rfl, hs⟩ := prefix_append_cases hr
      · simp only [validateChunkedTrailer, lineEnd_cut t.text_singleLine hli hsh]
      · rw [validateChunkedTrailer_line]
        refine ih hs ?_ fuel
        simpa using hl

end Trailers

section Chunks

variable {name : String} {b : Bytes} {offset fuel n : ℕ}

theorem drop_of_line (h : b.drop offset = encode t ++ crlf ++ tail) :
    b.drop (offset + (encode t).length + 2) = tail := by
  have hl : (encode t ++ crlf).length = (encode t).length + 2 := by simp [crlf]
  rw [Nat.add_assoc, ← drop_drop, h, ← hl, drop_left]

theorem length_of_line (h : b.drop offset = encode t ++ crlf ++ tail) :
    b.length = offset + (encode t).length + 2 + tail.length := by
  have hl := congrArg List.length h
  simp only [length_drop, length_append, crlf, length_cons, length_nil] at hl
  omega

theorem line_of_text (line : SizeLine n)
    (h : b.drop offset = encode line.text ++ crlf ++ tail) :
    (b.drop offset).take (encode line.text).length = encode line.text ∧
      lineEnd (b.drop offset) = some ((encode line.text).length, 2) := by
  rw [h]
  exact ⟨by rw [append_assoc, take_left], lineEnd_line line.text_singleLine tail⟩

theorem decodeChunks_last (line : SizeLine 0)
    (h : b.drop offset = encode line.text ++ crlf ++ tail) :
    decodeChunks b name (fuel + 1) offset =
      (validateChunkedTrailer name (tail.length + 1) tail >>= fun _ => .ok []) := by
  have hl := length_of_line h
  obtain ⟨ht, he⟩ := line_of_text line h
  have hn : ¬(name = "response" ∧ offset = b.length) := fun hand => by omega
  simp only [decodeChunks]
  rw [if_neg hn]
  simp only [he, ht, decode_encode, chunkSize_text line (by decide), drop_of_line h]

theorem decodeChunks_line (line : SizeLine n) (hn : 0 < n) (hf : n < 2 ^ 63)
    (hl : b.length < 2 ^ 63) (h : b.drop offset = encode line.text ++ crlf ++ tail) :
    decodeChunks b name (fuel + 1) offset =
      if tail.length < n then bail ("chunked " ++ name ++ " body ends inside a chunk")
      else if (tail.drop n).take 2 = crlf then do
        .ok (tail.take n ++
          (← decodeChunks b name fuel (offset + (encode line.text).length + 2 + n + 2)))
      else if (tail.drop n).head? = some 0x0A then do
        .ok (tail.take n ++
          (← decodeChunks b name fuel (offset + (encode line.text).length + 2 + n + 1)))
      else if name = "response" ∧ tail.length = n then .ok (tail.take n)
      else bail ("chunked " ++ name ++ " body is missing a chunk terminator") := by
  have hle := length_of_line h
  obtain ⟨ht, he⟩ := line_of_text line h
  have hno : ¬(name = "response" ∧ offset = b.length) := fun hand => by omega
  have ha : checkedAdd (offset + (encode line.text).length + 2) n =
      some (offset + (encode line.text).length + 2 + n) :=
    if_pos (by unfold usizeBound; omega)
  obtain ⟨m, rfl⟩ : ∃ m, n = m + 1 := ⟨n - 1, by omega⟩
  simp only [decodeChunks]
  rw [if_neg hno]
  simp only [he, ht, decode_encode, chunkSize_text line (by omega), drop_of_line h, ha]
  have hd : b.drop (offset + (encode line.text).length + 2 + (m + 1)) = tail.drop (m + 1) := by
    rw [← drop_drop, drop_of_line h]
  have hc : b.length < offset + (encode line.text).length + 2 + (m + 1) ↔
      tail.length < m + 1 := by omega
  have hs : offset + (encode line.text).length + 2 + (m + 1) = b.length ↔
      tail.length = m + 1 := by omega
  simp only [hd, hc, hs]
  rfl

theorem decodeChunks_chunk (chunk : Chunk) (hlo : b.length < 2 ^ 63) {rest : Bytes}
    (h : b.drop offset = chunk.bytes ++ rest) :
    decodeChunks b name (fuel + 1) offset = (do
      .ok (chunk.data ++ (← decodeChunks b name fuel (offset + chunk.bytes.length)))) := by
  have hl : b.drop offset = encode chunk.line.text ++ crlf ++ (chunk.data ++ (crlf ++ rest)) := by
    rw [h, Chunk.bytes]
    simp
  have hle := length_of_line hl
  have hp := length_pos_iff.mpr chunk.nonempty
  have hb : offset + (encode chunk.line.text).length + 2 + chunk.data.length + 2 =
      offset + chunk.bytes.length := by
    simp only [Chunk.bytes, crlf, length_append, length_cons, length_nil]
    omega
  rw [length_append] at hle
  rw [decodeChunks_line chunk.line hp (by omega) hlo hl, drop_left, take_left,
    if_neg (by rw [length_append]; omega), if_pos (by simp [crlf]), hb]

/-- A chunk that is cut short is refused, or it is there to the last byte and only a response may
end with it. -/
theorem decodeChunks_cut (chunk : Chunk) (hf : chunk.data.length < 2 ^ 63)
    (hlo : b.length < 2 ^ 63) (hr : b.drop offset <+: chunk.bytes)
    (hl : (b.drop offset).length < chunk.bytes.length) :
    (∃ message, decodeChunks b name (fuel + 1) offset = bail message) ∨
      name = "response" ∧ (decodeChunks b name (fuel + 1) offset = .ok [] ∨
        decodeChunks b name (fuel + 1) offset = .ok chunk.data) := by
  obtain ⟨hli, hs⟩ | ⟨tail, hta, hp⟩ := prefix_append_cases hr
  · by_cases he : name = "response" ∧ offset = b.length
    · refine .inr ⟨he.1, .inl ?_⟩
      simp only [decodeChunks]
      rw [if_pos he]
    · refine .inl ⟨"chunked " ++ name ++ " body has no chunk length", ?_⟩
      simp only [decodeChunks]
      rw [if_neg he]
      simp only [lineEnd_cut chunk.line.text_singleLine hli hs]
  · have hpo := length_pos_iff.mpr chunk.nonempty
    rw [decodeChunks_line chunk.line hpo hf hlo hta]
    have ht : tail.length < chunk.data.length + 2 := by
      rw [hta] at hl
      simp only [Chunk.bytes, crlf, length_append, length_cons, length_nil] at hl
      omega
    obtain ⟨_, hs⟩ | ⟨rest, rfl, hre⟩ := prefix_append_cases hp
    · rw [if_pos hs]
      exact .inl ⟨_, rfl⟩
    · rw [length_append] at ht
      have hc : rest = [] ∨ rest = [0x0D] := by
        match rest, hre with
        | [], _ => exact .inl rfl
        | [x], ⟨more, hm⟩ => exact .inr (by rw [(List.cons.inj hm).1])
        | _ :: _ :: _, _ =>
          rw [length_cons, length_cons] at ht
          omega
      rw [if_neg (by rw [length_append]; omega), drop_left, take_left]
      obtain rfl | rfl := hc
      · by_cases hn : name = "response"
        · refine .inr ⟨hn, .inr ?_⟩
          simp [crlf, hn]
        · rw [if_neg (by decide), if_neg (by decide), if_neg (by simp [hn])]
          exact .inl ⟨_, rfl⟩
      · rw [if_neg (by decide), if_neg (by decide), if_neg (by simp)]
        exact .inl ⟨_, rfl⟩

theorem Chunk.length_bytes_pos (chunk : Chunk) : 0 < chunk.bytes.length := by
  simp only [Chunk.bytes, crlf, length_append, length_cons, length_nil]
  omega

theorem drop_of_chunk {chunk : Chunk} {rest : Bytes} (h : b.drop offset = chunk.bytes ++ rest) :
    b.drop (offset + chunk.bytes.length) = rest := by
  rw [← drop_drop, h, drop_left]

/-- A body that is all there is decoded to its content, and nothing may follow it. -/
theorem decodeChunks_body (body : ChunkedBody) (hlo : b.length < 2 ^ 63) {extra : Bytes}
    (h : b.drop offset = body.bytes ++ extra) (hf : (b.drop offset).length < fuel) :
    decodeChunks b name fuel offset = if extra = [] then .ok body.content
      else bail ("chunked " ++ name ++ " body has bytes after its terminal chunk") := by
  obtain ⟨chunks, last, trailers⟩ := body
  induction chunks generalizing offset fuel with
  | nil =>
    obtain ⟨fuel, rfl⟩ : ∃ k, fuel = k + 1 := ⟨fuel - 1, by omega⟩
    have hl : b.drop offset = encode last.text ++ crlf ++ (trailerBytes trailers ++ extra) := by
      simpa [ChunkedBody.bytes, ChunkedBody.ending] using h
    have hco : trailers.length < (trailerBytes trailers ++ extra).length + 1 := by
      have hli := length_le_trailerBytes trailers
      rw [length_append]
      omega
    rw [decodeChunks_last last hl, validateChunkedTrailer_bytes trailers extra hco]
    split_ifs <;> rfl
  | cons chunk chunks ih =>
    obtain ⟨fuel, rfl⟩ : ∃ k, fuel = k + 1 := ⟨fuel - 1, by omega⟩
    have hc : b.drop offset =
        chunk.bytes ++ ((⟨chunks, last, trailers⟩ : ChunkedBody).bytes ++ extra) := by
      simpa [ChunkedBody.bytes, ChunkedBody.ending] using h
    have hr := drop_of_chunk hc
    have hp := chunk.length_bytes_pos
    rw [hc, length_append, ← hr] at hf
    rw [decodeChunks_chunk chunk hlo hc, ih (by omega) hr]
    split_ifs
    · simp [ChunkedBody.content, bind, Except.bind]
    · rfl

/-- A body that is cut short is refused, or, in a response, decoded to its first chunks. -/
theorem decodeChunks_body_cut (body : ChunkedBody)
    (hf : ∀ chunk ∈ body.chunks, chunk.data.length < 2 ^ 63) (hlo : b.length < 2 ^ 63)
    (hr : b.drop offset <+: body.bytes) (hl : (b.drop offset).length < body.bytes.length)
    (hfu : (b.drop offset).length < fuel) :
    (∃ message, decodeChunks b name fuel offset = bail message) ∨ name = "response" ∧
      ∃ k, decodeChunks b name fuel offset = .ok ((body.chunks.take k).flatMap Chunk.data) := by
  obtain ⟨chunks, last, trailers⟩ := body
  induction chunks generalizing offset fuel with
  | nil =>
    obtain ⟨fuel, rfl⟩ : ∃ k, fuel = k + 1 := ⟨fuel - 1, by omega⟩
    have he : (⟨[], last, trailers⟩ : ChunkedBody).bytes =
        encode last.text ++ crlf ++ trailerBytes trailers := rfl
    rw [he] at hr hl
    obtain ⟨hli, hs⟩ | ⟨_, ht, hp⟩ := prefix_append_cases hr
    · by_cases hen : name = "response" ∧ offset = b.length
      · refine .inr ⟨hen.1, 0, ?_⟩
        simp only [decodeChunks]
        rw [if_pos hen]
        rfl
      · refine .inl ⟨"chunked " ++ name ++ " body has no chunk length", ?_⟩
        simp only [decodeChunks]
        rw [if_neg hen]
        simp only [lineEnd_cut last.text_singleLine hli hs]
    · rw [ht] at hl
      simp only [length_append] at hl
      rw [decodeChunks_last last ht, validateChunkedTrailer_cut hp (by omega)]
      exact .inl ⟨_, rfl⟩
  | cons chunk chunks ih =>
    obtain ⟨fuel, rfl⟩ : ∃ k, fuel = k + 1 := ⟨fuel - 1, by omega⟩
    rw [forall_mem_cons] at hf
    have hby : (⟨chunk :: chunks, last, trailers⟩ : ChunkedBody).bytes =
        chunk.bytes ++ (⟨chunks, last, trailers⟩ : ChunkedBody).bytes := by
      simp [ChunkedBody.bytes, ChunkedBody.ending]
    rw [hby] at hr hl
    obtain ⟨hcu, hs⟩ | ⟨_, hc, hp⟩ := prefix_append_cases hr
    · have hst : (∃ message, decodeChunks b name (fuel + 1) offset = bail message) ∨
          name = "response" ∧ (decodeChunks b name (fuel + 1) offset = .ok [] ∨
            decodeChunks b name (fuel + 1) offset = .ok chunk.data) :=
        decodeChunks_cut chunk hf.1 hlo hcu hs
      obtain hb | ⟨hn, hni | hd⟩ := hst
      · exact .inl hb
      · exact .inr ⟨hn, 0, hni⟩
      · exact .inr ⟨hn, 1, by simpa using hd⟩
    · have hre := drop_of_chunk hc
      have hpo := chunk.length_bytes_pos
      rw [hc, length_append] at hfu
      rw [hc, length_append, length_append] at hl
      rw [decodeChunks_chunk chunk hlo hc]
      have hf' : (b.drop (offset + chunk.bytes.length)).length < fuel := by
        rw [hre]
        omega
      rw [← hre] at hp hl
      obtain ⟨message, hb⟩ | ⟨hn, k, ho⟩ := ih hf' hf.2 hp (by omega)
      · rw [hb]
        exact .inl ⟨message, rfl⟩
      · rw [ho]
        exact .inr ⟨hn, k + 1, by simp [bind, Except.bind]⟩

end Chunks

/-- The data of a chunk of a text is a text: it stands between line ends. -/
theorem ChunkedBody.exists_text (body : ChunkedBody) (h : encode text = body.bytes) :
    ∃ content, encode content = body.content := by
  obtain ⟨chunks, last, trailers⟩ := body
  induction chunks generalizing text with
  | nil => exact ⟨[], rfl⟩
  | cons chunk chunks ih =>
    have hb : encode text = encode chunk.line.text ++ 0x0D :: ([] ++ 0x0A :: (chunk.data ++
        0x0D :: ([] ++ 0x0A :: (⟨chunks, last, trailers⟩ : ChunkedBody).bytes))) := by
      rw [h]
      simp [ChunkedBody.bytes, ChunkedBody.ending, Chunk.bytes, crlf]
    obtain ⟨-, _, -, h₁⟩ := exists_of_encode_eq (by decide) hb
    obtain ⟨-, _, -, h₂⟩ := exists_of_encode_eq (by decide) h₁
    obtain ⟨data, _, hd, h₃⟩ := exists_of_encode_eq (by decide) h₂
    obtain ⟨-, _, -, h₄⟩ := exists_of_encode_eq (by decide) h₃
    obtain ⟨content, hc⟩ := ih h₄
    refine ⟨data ++ content, ?_⟩
    rw [encode_append, hd, hc]
    simp [ChunkedBody.content]

theorem Chunk.length_data_le {body : ChunkedBody} (h : chunk ∈ body.chunks) :
    chunk.data.length ≤ body.bytes.length := by
  obtain ⟨_, _, hs⟩ := append_of_mem h
  rw [ChunkedBody.bytes, hs]
  simp only [flatMap_append, flatMap_cons, length_append, Chunk.bytes]
  omega

/-- Decoding undoes the chunked coding. Of a body that is cut short a response gives whole chunks
or nothing, and a request nothing; nor does a request give anything if more follows. -/
theorem chunked_body_decodes (body : ChunkedBody) (hlong : body.bytes.length < 2 ^ 63) :
    (∀ text name, encode text = body.bytes →
      ∃ content, decodeChunkedHttpBody text name = .ok content ∧ encode content = body.content) ∧
    (∀ text, encode text <+: body.bytes → encode text ≠ body.bytes →
      (∃ message, decodeChunkedHttpBody text "response" = bail message) ∨
        ∃ content k, decodeChunkedHttpBody text "response" = .ok content ∧
          encode content = (body.chunks.take k).flatMap Chunk.data) ∧
    (∀ text, encode text <+: body.bytes → encode text ≠ body.bytes →
      ∃ message, decodeChunkedHttpBody text "request" = bail message) ∧
    ∀ text extra, encode text = body.bytes ++ extra → extra ≠ [] →
      (encode text).length < 2 ^ 63 →
      ∃ message, decodeChunkedHttpBody text "request" = bail message := by
  have hcut (text : List Char) (name : String) (hpre : encode text <+: body.bytes)
      (hne : encode text ≠ body.bytes) :
      (∃ message, decodeChunks (encode text) name ((encode text).length + 1) 0 = bail message) ∨
        name = "response" ∧ ∃ k, decodeChunks (encode text) name ((encode text).length + 1) 0 =
          .ok ((body.chunks.take k).flatMap Chunk.data) := by
    have hlt : (encode text).length < body.bytes.length := by
      refine Nat.lt_of_le_of_ne hpre.length_le fun heq => hne (hpre.eq_of_length heq)
    exact decodeChunks_body_cut body
      (fun chunk hchunk => Nat.lt_of_le_of_lt (Chunk.length_data_le hchunk) hlong) (by omega)
      hpre hlt (Nat.lt_succ_self _)
  refine ⟨?_, ?_, ?_, ?_⟩
  · intro text name htext
    obtain ⟨content, hcontent⟩ := body.exists_text htext
    have hdrop : (encode text).drop 0 = body.bytes ++ [] := by simpa using htext
    have hrun : decodeChunks (encode text) name ((encode text).length + 1) 0 = .ok body.content :=
      decodeChunks_body body (htext ▸ hlong) hdrop (Nat.lt_succ_self _)
    refine ⟨content, ?_, hcontent⟩
    simp only [decodeChunkedHttpBody, hrun, ← hcontent, decode_encode, bind, Except.bind, orBail]
  · intro text hpre hne
    simp only [decodeChunkedHttpBody]
    obtain ⟨message, hbail⟩ | ⟨-, k, hok⟩ := hcut text "response" hpre hne
    · rw [hbail]
      exact .inl ⟨message, rfl⟩
    · rw [hok]
      cases hdecode : decode ((body.chunks.take k).flatMap Chunk.data) with
      | none =>
        refine .inl ⟨"chunked provider body is not UTF-8", ?_⟩
        simp only [bind, Except.bind, hdecode, orBail]
      | some content =>
        refine .inr ⟨content, k, by simp only [bind, Except.bind, hdecode, orBail], ?_⟩
        exact encode_of_decode hdecode
  · intro text hpre hne
    simp only [decodeChunkedHttpBody]
    obtain ⟨message, hbail⟩ | ⟨hname, -⟩ := hcut text "request" hpre hne
    · rw [hbail]
      exact ⟨message, rfl⟩
    · exact absurd hname (by decide)
  · intro text extra htext hextra hfits
    have hdrop : (encode text).drop 0 = body.bytes ++ extra := htext
    have hrun : decodeChunks (encode text) "request" ((encode text).length + 1) 0 =
        bail ("chunked " ++ "request" ++ " body has bytes after its terminal chunk") :=
      (decodeChunks_body body hfits hdrop (Nat.lt_succ_self _)).trans (if_neg hextra)
    refine ⟨"chunked " ++ "request" ++ " body has bytes after its terminal chunk", ?_⟩
    simp only [decodeChunkedHttpBody]
    rw [hrun]
    rfl

def sampleChunkedBody : ChunkedBody where
  chunks := [
    { data := [0x57, 0x69, 0x6B, 0x69], nonempty := nofun
      line := ⟨['4'], nofun, ⟨[4], rfl, rfl⟩, [';', 'x'], .inr rfl, by decide⟩ },
    { data := [0x70, 0x65, 0x64, 0x69, 0x61], nonempty := nofun
      line := ⟨['0', '5'], nofun, ⟨[0, 5], rfl, rfl⟩, [], .inl rfl, by decide⟩ }]
  last := ⟨['0'], nofun, ⟨[0], rfl, rfl⟩, [], .inl rfl, by decide⟩
  trailers := [⟨['A'], ['b'], by decide, by decide, by decide, by decide⟩]

theorem chunked_body_decodes_sample :
    ∃ content, decodeChunkedHttpBody (chars "4;x\r\nWiki\r\n05\r\npedia\r\n0\r\nA:b\r\n\r\n")
      "request" = .ok content ∧ encode content = sampleChunkedBody.content :=
  (chunked_body_decodes sampleChunkedBody (by decide)).1 _ "request" (by decide)

end Notary.Core
