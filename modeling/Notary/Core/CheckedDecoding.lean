import Notary.Core.Normalize

/-! The chunk decoder with every slice and sum checked: none of them panics. -/

namespace Notary.Core
open Utf8 Json List Option Result

/-- `&bytes[offset..]`, which panics behind the end. -/
def sliceFrom (b : Bytes) (offset : ℕ) : Attempt Bytes :=
  if offset ≤ b.length then .ok (b.drop offset)
  else .error (.panicked "range start index out of range")

/-- `&bytes[..n]`. -/
def sliceTo (b : Bytes) (n : ℕ) : Attempt Bytes :=
  if n ≤ b.length then .ok (b.take n) else .error (.panicked "range end index out of range")

/-- A sum of machine words, which panics on overflow. -/
def addWords (a b : ℕ) : Attempt ℕ :=
  if a + b < usizeBound then .ok (a + b) else .error (.panicked "attempt to add with overflow")

/-- `bytes.get(start..stop)`. -/
def getRange (b : Bytes) (start stop : ℕ) : Option Bytes :=
  if start ≤ stop ∧ stop ≤ b.length then some ((b.drop start).take (stop - start)) else none

/-- The end of the first line of the remainder, and the length of its end. -/
def lineEndChecked (remainder : Bytes) (missing : String) : Attempt (ℕ × ℕ) := do
  match (Search.position [0x0D, 0x0A] remainder).or (Search.position [0x0A] remainder) with
  | none => bail missing
  | some n =>
    let stop ← addWords n 2
    .ok (n, if getRange remainder n stop = some [0x0D, 0x0A] then 2 else 1)

def validateChunkedTrailerChecked (b : Bytes) (name : String) :
    (fuel : ℕ) → (offset : ℕ) → Attempt Unit
  | 0, _ => bail ("chunked " ++ name ++ " body has no terminal blank line")
  | fuel + 1, offset => do
    let remainder ← sliceFrom b offset
    let (n, endingLen) ← lineEndChecked remainder
      ("chunked " ++ name ++ " body has no terminal blank line")
    let line ← sliceTo remainder n
    let offset ← addWords offset (← addWords n endingLen)
    if line = [] then
      if offset = b.length then .ok ()
      else bail ("chunked " ++ name ++ " body has bytes after its terminal chunk")
    else
      let trailer ← orBail (decode line) "chunked trailer is not UTF-8"
      let (header, _) ← orBail (Search.splitOnce [':'] trailer)
        ("chunked " ++ name ++ " body has an invalid trailer field")
      if Text.trim header = [] then
        bail ("chunked " ++ name ++ " body has an invalid trailer field")
      else validateChunkedTrailerChecked b name fuel offset

def decodeChunksChecked (b : Bytes) (name : String) : (fuel : ℕ) → (offset : ℕ) → Attempt Bytes
  | 0, _ => bail ("chunked " ++ name ++ " body has no chunk length")
  | fuel + 1, offset => do
    let allowEof := name = "response"
    if allowEof ∧ offset = b.length then return []
    let remainder ← sliceFrom b offset
    let (n, endingLen) ← lineEndChecked remainder
      ("chunked " ++ name ++ " body has no chunk length")
    let line ← orBail (decode (← sliceTo remainder n)) "invalid utf-8 sequence"
    let size ← orBail (chunkSize line) ("chunked " ++ name ++ " body has an invalid chunk length")
    let offset ← addWords offset (← addWords n endingLen)
    if size = 0 then
      let rest ← sliceFrom b offset
      validateChunkedTrailerChecked rest name (rest.length + 1) 0
      return []
    let stop ← orBail (checkedAdd offset size) ("chunked " ++ name ++ " body length overflow")
    let chunk ← orBail (getRange b offset stop)
      ("chunked " ++ name ++ " body ends inside a chunk")
    if getRange b stop (← addWords stop 2) = some [0x0D, 0x0A] then
      return chunk ++ (← decodeChunksChecked b name fuel (← addWords stop 2))
    else if (b.drop stop).head? = some 0x0A then
      return chunk ++ (← decodeChunksChecked b name fuel (← addWords stop 1))
    else if allowEof ∧ stop = b.length then return chunk
    else bail ("chunked " ++ name ++ " body is missing a chunk terminator")

theorem addWords_ok (h : a + b < usizeBound) : addWords a b = .ok (a + b) := if_pos h

variable {b : Bytes} {offset n : ℕ}

theorem sliceFrom_ok (h : offset ≤ b.length) : sliceFrom b offset = .ok (b.drop offset) := if_pos h

theorem sliceTo_ok (h : n ≤ b.length) : sliceTo b n = .ok (b.take n) :=
  if_pos h

/-- A range of two bytes is there if it reads as a line end. -/
theorem getRange_crlf :
    getRange b n (n + 2) = some [0x0D, 0x0A] ↔ (b.drop n).take 2 = [0x0D, 0x0A] := by
  unfold getRange
  split_ifs with hi
  · rw [some_inj, Nat.add_sub_cancel_left]
  · refine ⟨nofun, fun ht => absurd ?_ hi⟩
    have hl := congrArg List.length ht
    simp only [length_take, length_drop, length_cons, length_nil] at hl
    omega

theorem lineEnd_le (h : lineEnd b = some (n, endingLen)) :
    n + endingLen ≤ b.length ∧ 0 < endingLen := by
  obtain ⟨m, hm, hpa⟩ := map_eq_some_iff.mp h
  obtain ⟨rfl, rfl⟩ := Prod.mk.inj hpa
  have hi : m + 1 ≤ b.length := by
    obtain hp | ⟨-, hp⟩ := or_eq_some_iff.mp hm
    all_goals
      have hl := congrArg List.length (Search.position_eq_some hp)
      simp only [length_append, length_take, length_drop, length_cons, length_nil] at hl
      omega
  split_ifs with ht
  · have hl := congrArg List.length ht
    simp only [length_take, length_drop, length_cons, length_nil] at hl
    omega
  · exact ⟨hi, Nat.one_pos⟩

theorem lineEndChecked_eq (hl : b.length < 2 ^ 63) (missing : String) :
    lineEndChecked b missing = orBail (lineEnd b) missing := by
  unfold lineEndChecked lineEnd
  cases hp : (Search.position [0x0D, 0x0A] b).or (Search.position [0x0A] b) with
  | none => rfl
  | some n =>
    have hle := (lineEnd_le (b := b) (by rw [lineEnd, hp]; rfl)).1
    have ha : addWords n 2 = .ok (n + 2) := addWords_ok (by unfold usizeBound; omega)
    simp only [ha, ok_bind, map_some, orBail, getRange_crlf]

theorem validateChunkedTrailerChecked_eq (hl : b.length < 2 ^ 63) (name : String) (fuel : ℕ)
    (ho : offset ≤ b.length) : validateChunkedTrailerChecked b name fuel offset =
      validateChunkedTrailer name fuel (b.drop offset) := by
  induction fuel generalizing offset with
  | zero => rfl
  | succ _ ih =>
    have hs : (b.drop offset).length < 2 ^ 63 := by
      rw [length_drop]
      omega
    simp only [validateChunkedTrailerChecked, validateChunkedTrailer, sliceFrom_ok ho,
      lineEndChecked_eq hs, ok_bind]
    cases hen : lineEnd (b.drop offset) with
    | none => rfl
    | some p =>
      obtain ⟨n, endingLen⟩ := p
      obtain ⟨hle, _⟩ := lineEnd_le hen
      rw [length_drop] at hle
      have hsl : sliceTo (b.drop offset) n = .ok ((b.drop offset).take n) :=
        sliceTo_ok (by rw [length_drop]; omega)
      have hsu : addWords n endingLen = .ok (n + endingLen) :=
        addWords_ok (by unfold usizeBound; omega)
      have hn : addWords offset (n + endingLen) = .ok (offset + (n + endingLen)) :=
        addWords_ok (by unfold usizeBound; omega)
      have he : (b.drop offset).take n = [] ↔ n = 0 := by
        rw [← length_eq_zero_iff, length_take, length_drop]
        omega
      have hd : offset + (n + endingLen) = b.length ↔
          (b.drop offset).drop (n + endingLen) = [] := by
        rw [← length_eq_zero_iff, length_drop, length_drop]
        omega
      simp only [orBail, hsl, hsu, hn, ok_bind, he, hd]
      by_cases hz : n = 0
      · rw [if_pos hz, if_pos hz]
      · rw [if_neg hz, if_neg hz]
        cases decode ((b.drop offset).take n) with
        | none => rfl
        | some trailer =>
          simp only [ok_bind]
          cases Search.splitOnce [':'] trailer with
          | none => rfl
          | some =>
            simp only [ok_bind]
            rw [ih (by omega), drop_drop]

theorem decodeChunksChecked_eq (hlo : b.length < 2 ^ 63) (name : String) (fuel : ℕ)
    (ho : offset ≤ b.length) :
    decodeChunksChecked b name fuel offset = decodeChunks b name fuel offset := by
  induction fuel generalizing offset with
  | zero => rfl
  | succ _ ih =>
    have hsh : (b.drop offset).length < 2 ^ 63 := by
      rw [length_drop]
      omega
    simp only [decodeChunksChecked, decodeChunks]
    by_cases he : name = "response" ∧ offset = b.length
    · rw [if_pos he, if_pos he]
      rfl
    rw [if_neg he, if_neg he]
    simp only [sliceFrom_ok ho, lineEndChecked_eq hsh, ok_bind]
    cases hen : lineEnd (b.drop offset) with
    | none => rfl
    | some p =>
      obtain ⟨n, endingLen⟩ := p
      obtain ⟨hle, _⟩ := lineEnd_le hen
      rw [length_drop] at hle
      have hsl : sliceTo (b.drop offset) n = .ok ((b.drop offset).take n) :=
        sliceTo_ok (by rw [length_drop]; omega)
      have hsu : addWords n endingLen = .ok (n + endingLen) :=
        addWords_ok (by unfold usizeBound; omega)
      have hn : addWords offset (n + endingLen) = .ok (offset + n + endingLen) := by
        rw [Nat.add_assoc]
        exact addWords_ok (by unfold usizeBound; omega)
      simp only [orBail, hsl, hsu, hn, ok_bind]
      cases decode ((b.drop offset).take n) with
      | none => rfl
      | some line =>
        simp only [ok_bind]
        cases chunkSize line with
        | none => rfl
        | some size =>
          simp only [ok_bind]
          cases size with
          | zero =>
            have hr : sliceFrom b (offset + n + endingLen) =
                .ok (b.drop (offset + n + endingLen)) := sliceFrom_ok (by omega)
            have hl : (b.drop (offset + n + endingLen)).length < 2 ^ 63 := by
              rw [length_drop]
              omega
            rw [if_pos rfl, hr]
            simp only [ok_bind]
            rw [validateChunkedTrailerChecked_eq hl name _ (Nat.zero_le _), drop_zero]
            rfl
          | succ size =>
            rw [if_neg (Nat.succ_ne_zero size)]
            cases hst : checkedAdd (offset + n + endingLen) (size + 1) with
            | none =>
              simp only [hst]
              rfl
            | some stop =>
              obtain ⟨-, hs⟩ := ite_none_right_eq_some.mp hst
              have hv : stop = offset + n + endingLen + (size + 1) := (some_inj.mp hs).symm
              simp only [hst, ok_bind]
              by_cases hi : b.length < stop
              · have hno : getRange b (offset + n + endingLen) stop = none := by
                  rw [getRange, if_neg (by omega)]
                rw [if_pos hi, hno]
                rfl
              · have hs : getRange b (offset + n + endingLen) stop =
                    some ((b.drop (offset + n + endingLen)).take (size + 1)) := by
                  rw [getRange, if_pos (by omega)]
                  congr 2
                  omega
                have ht : addWords stop 2 = .ok (stop + 2) :=
                  addWords_ok (by unfold usizeBound; omega)
                have hon : addWords stop 1 = .ok (stop + 1) :=
                  addWords_ok (by unfold usizeBound; omega)
                rw [if_neg hi, hs]
                simp only [ht, hon, ok_bind, getRange_crlf]
                split_ifs with hc hlf
                · have hln := congrArg List.length hc
                  simp only [length_take, length_drop, length_cons, length_nil] at hln
                  rw [ih (by omega)]
                  rfl
                · have hne : b.drop stop ≠ [] := by
                    intro hni
                    rw [hni] at hlf
                    cases hlf
                  have hln := length_pos_iff.mpr hne
                  rw [length_drop] at hln
                  rw [ih (by omega)]
                  rfl
                · rfl
                · rfl

def decodeChunkedHttpBodyChecked (body : List Char) (name : String) : Attempt (List Char) := do
  let b := encode body
  let decoded ← decodeChunksChecked b name (b.length + 1) 0
  orBail (decode decoded) "chunked provider body is not UTF-8"

def httpBodyChecked (message : List Char) (name : String) : Attempt (List Char × List Char) := do
  let (head, body) ← orBail (splitHead message) ("captured " ++ name ++ " is not an HTTP message")
  let line ← orBail (Text.lines head).head? ("captured " ++ name ++ " has no start line")
  if (Text.lines head).any isChunkedHeader then
    .ok (line, ← decodeChunkedHttpBodyChecked body name)
  else .ok (line, body)

/-- The normalizer with the slices and sums of its chunk decoder checked. -/
def verifiedInferenceChecked (c : Crates) (manifest : TraceEvidenceManifest)
    (request response : List Char) : Attempt (VerifiedInference c) := do
  let (requestLine, requestBody) ← httpBodyChecked request "request"
  let (_, responseBody) ← httpBodyChecked response "response"
  let request ← orBail (parseJson c requestBody) "parsing provider request JSON"
  if manifest.provider.name ∈ openaiCompatible then
    parseOpenaiCompatible manifest requestLine request responseBody
  else if manifest.provider.name = "anthropic" then parseAnthropic manifest request responseBody
  else bail ("unsupported captured provider " ++ manifest.provider.name)

theorem length_splitOnce_le (h : Search.splitOnce needle l = some (front, back)) :
    (encode back).length ≤ (encode l).length := by
  obtain ⟨_, hn, hp⟩ := map_eq_some_iff.mp h
  obtain ⟨-, rfl⟩ := Prod.mk.inj hp
  have hs := congrArg (fun t => (encode t).length) (Search.position_eq_some hn)
  simp only [encode_append, length_append] at hs
  omega

theorem length_splitHead_le {message head body : List Char}
    (h : splitHead message = some (head, body)) :
    (encode body).length ≤ (encode message).length := by
  obtain h | ⟨-, h⟩ := or_eq_some_iff.mp h
  · exact length_splitOnce_le h
  · exact length_splitOnce_le h

/-- No slice or sum of the decoder panics. -/
theorem httpBodyChecked_eq {message : List Char} (hl : (encode message).length < 2 ^ 63)
    (name : String) : httpBodyChecked message name = httpBody message name := by
  unfold httpBodyChecked httpBody
  cases hs : splitHead message with
  | none => rfl
  | some parts =>
    obtain ⟨_, body⟩ := parts
    have hb := length_splitHead_le hs
    have hd : decodeChunkedHttpBodyChecked body name = decodeChunkedHttpBody body name := by
      unfold decodeChunkedHttpBodyChecked decodeChunkedHttpBody
      simp only
      rw [decodeChunksChecked_eq (by omega) name _ (Nat.zero_le _)]
    simp only [orBail, ok_bind, hd]

theorem verifiedInferenceChecked_eq (c : Crates) (manifest : TraceEvidenceManifest)
    {request response : List Char} (hre : (encode request).length < 2 ^ 63)
    (hr : (encode response).length < 2 ^ 63) :
    verifiedInferenceChecked c manifest request response =
      verifiedInferenceFromCapture c manifest request response := by
  unfold verifiedInferenceChecked verifiedInferenceFromCapture
  rw [httpBodyChecked_eq hre, httpBodyChecked_eq hr]

end Notary.Core
