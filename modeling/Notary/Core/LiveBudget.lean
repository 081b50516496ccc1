import Notary.Core.Disclosure

/-! The bytes that a capture reserves while an exchange runs, against those that are counted when
it is sealed. -/

namespace Notary.Core
open Utf8 Pieces Result List

def addHeaderBytes (total bytes : ℕ) : Except String ℕ :=
  match checkedAdd total bytes with
  | none => .error "attestable HTTP header byte count overflow"
  | some total => .ok total

def addChecked (total : ℕ) (parts : List ℕ) : Except String ℕ := parts.foldlM addHeaderBytes total

def addFieldBytes (total : ℕ) (header : Bytes × Bytes) : Except String ℕ :=
  addChecked total [header.1.length, 2, header.2.length, 2]

def attestableHeaderFieldsBytes (headers : List (Bytes × Bytes)) : Except String ℕ :=
  headers.foldlM addFieldBytes 2

def attestableRequestHeaderBytes (method target : Bytes) (headers : List (Bytes × Bytes)) :
    Except String ℕ := do
  let headers ← attestableHeaderFieldsBytes headers
  addChecked method.length [1, target.length, (bytes " HTTP/1.1\r\n").length, headers]

def attestableResponseHeaderBytes (status : Bytes) (headers : List (Bytes × Bytes)) :
    Except String ℕ := do
  let headers ← attestableHeaderFieldsBytes headers
  addChecked (bytes "HTTP/1.1 ").length [status.length, (bytes "\r\n").length, headers]

/-- `HttpTranscript::parse`, which splits the two directions into messages. It also refuses
transcripts: bodies that are not framed as their header says, or JSON that is not valid. -/
abbrev HttpParser := Transcript → Except String HttpTranscript

def ensureAttestableHttpBytes (parse : HttpParser) (transcript : Transcript) (maximum : ℕ) :
    Except String Unit := do
  let http ← parse transcript
  let ranges ← disclosedHttpRanges http "in TLS transcript"
  ensureAttestableRanges ranges maximum

/-- An exchange as the capture sees it: the request goes out with one blank before each value, and
the body of the response comes in frames. -/
structure LiveExchange extends Exchange where
  frames : List Bytes
  sentFields : ∀ f ∈ request.fields, f.lead = [0x20] ∧ f.trail = []
  coded : response.body = frames.flatten ∨
    ∃ body : ChunkedBody, response.body = body.bytes ∧ frames.flatten = body.content

def headerMap (fields : List Field) : List (Bytes × Bytes) :=
  fields.map fun f => (encode f.name, f.value)

/-- The reservations of `capture_streaming_request_to_with_admission`. -/
def LiveExchange.reserve (x : LiveExchange) (maximum : ℕ) : Except String AttestableHttpBudget := do
  let budget ← AttestableHttpBudget.new maximum
  let headers ← attestableRequestHeaderBytes x.request.method x.request.target
    (headerMap x.request.fields)
  let budget ← budget.reserve headers "provider request headers"
  let budget ← budget.reserve x.request.body.length "provider request body"
  let headers ← attestableResponseHeaderBytes x.response.code (headerMap x.response.fields)
  let budget ← budget.reserve headers "provider response headers"
  x.frames.foldlM (fun budget data => budget.reserve data.length "provider response body") budget

/-! Sums with overflow checks. -/

variable {total n : ℕ}

theorem addChecked_ok (ht : total ≤ usizeBound - 1) (parts : List ℕ) :
    addChecked total parts = .ok n ↔
      total + parts.sum ≤ usizeBound - 1 ∧ total + parts.sum = n := by
  have hs : ∀ m ≤ usizeBound - 1, ∀ part r, addHeaderBytes (id m) part = .ok r ↔
      m + id part ≤ usizeBound - 1 ∧ id (m + id part) = r := by
    intro m _ part _
    have hb : m + part < usizeBound ↔ m + part ≤ usizeBound - 1 := by
      rw [usizeBound]
      omega
    simp only [addHeaderBytes, checkedAdd, ← hb, id_eq]
    by_cases h : m + part < usizeBound <;> simp [h]
  simpa [addChecked] using foldlM_counts hs ht parts

def fieldBytes (headers : List (Bytes × Bytes)) : ℕ :=
  (headers.map fun h => h.1.length + 2 + h.2.length + 2).sum

theorem attestableHeaderFieldsBytes_ok (headers : List (Bytes × Bytes)) :
    attestableHeaderFieldsBytes headers = .ok n ↔
      2 + fieldBytes headers ≤ usizeBound - 1 ∧ 2 + fieldBytes headers = n := by
  have hs : ∀ m ≤ usizeBound - 1, ∀ (h : Bytes × Bytes) r,
      addFieldBytes (id m) h = .ok r ↔ m + (h.1.length + 2 + h.2.length + 2) ≤ usizeBound - 1 ∧
        id (m + (h.1.length + 2 + h.2.length + 2)) = r := by
    intro _ hm _ _
    rw [addFieldBytes, id_eq, addChecked_ok hm]
    simp [Nat.add_assoc]
  have ht : 2 ≤ usizeBound - 1 := by decide
  exact foldlM_counts hs ht headers

variable {maximum used : ℕ} {budget : AttestableHttpBudget}

theorem reserve_ok (hm : maximum < usizeBound) :
    (⟨maximum, used⟩ : AttestableHttpBudget).reserve n phase = .ok budget ↔
      used + n ≤ maximum ∧ ⟨maximum, used + n⟩ = budget := by
  rw [AttestableHttpBudget.reserve, checkedAdd]
  by_cases h : used + n ≤ maximum
  · simp [h, Nat.lt_of_le_of_lt h hm, Nat.not_lt.mpr h]
  · refine iff_of_false ?_ fun hn => h hn.1
    split_ifs <;> simp [Nat.lt_of_not_le h]

theorem reserveFrames_ok (hm : maximum < usizeBound) (hu : used ≤ maximum) (frames : List Bytes) :
    frames.foldlM (fun (budget : AttestableHttpBudget) data => budget.reserve data.length phase)
        ⟨maximum, used⟩ = .ok budget ↔
      used + frames.flatten.length ≤ maximum ∧
        ⟨maximum, used + frames.flatten.length⟩ = budget := by
  rw [length_flatten]
  exact foldlM_counts (fun m _ data b => reserve_ok hm) hu frames

/-! The two counts. -/

namespace LiveExchange

variable (x : LiveExchange)

def requestHeaderBytes : ℕ :=
  x.request.method.length + 1 + x.request.target.length + 11 +
    (2 + fieldBytes (headerMap x.request.fields))

def responseHeaderBytes : ℕ :=
  9 + x.response.code.length + 2 + (2 + fieldBytes (headerMap x.response.fields))

def liveBytes : ℕ :=
  x.requestHeaderBytes + x.request.body.length + x.responseHeaderBytes + x.frames.flatten.length

variable {x}

theorem attestableHeaderBytes (hf : x.liveBytes < usizeBound) :
    attestableRequestHeaderBytes x.request.method x.request.target (headerMap x.request.fields) =
      .ok x.requestHeaderBytes ∧
    attestableResponseHeaderBytes x.response.code (headerMap x.response.fields) =
      .ok x.responseHeaderBytes := by
  have ht : (bytes " HTTP/1.1\r\n").length = 11 := by decide
  have hv : (bytes "HTTP/1.1 ").length = 9 ∧ (bytes "\r\n").length = 2 := by decide
  unfold liveBytes requestHeaderBytes responseHeaderBytes at hf
  constructor
  · refine bind_ok.mpr ⟨_, (attestableHeaderFieldsBytes_ok _).mpr ⟨by omega, rfl⟩, ?_⟩
    refine (addChecked_ok (by omega) _).mpr ?_
    simp only [ht, sum_cons, sum_nil, requestHeaderBytes]
    omega
  · refine bind_ok.mpr ⟨_, (attestableHeaderFieldsBytes_ok _).mpr ⟨by omega, rfl⟩, ?_⟩
    refine (addChecked_ok (by omega) _).mpr ?_
    simp only [hv, sum_cons, sum_nil, responseHeaderBytes]
    omega

theorem reserve_live (hf : x.liveBytes < usizeBound) (hm : maximum < usizeBound) :
    (∃ budget, x.reserve maximum = .ok budget) ↔ 0 < maximum ∧ x.liveBytes ≤ maximum := by
  obtain ⟨hre, hr⟩ := attestableHeaderBytes hf
  unfold reserve AttestableHttpBudget.new
  rw [hre, hr, liveBytes]
  obtain rfl | hp := Nat.eq_zero_or_pos maximum
  · exact iff_of_false nofun fun h => Nat.lt_irrefl 0 h.1
  simp only [Nat.pos_iff_ne_zero.mp hp, if_false, ok_bind, hp, true_and]
  constructor
  · rintro ⟨_, h⟩
    obtain ⟨_, h₁, h⟩ := bind_ok.mp h
    obtain ⟨-, rfl⟩ := (reserve_ok hm).mp h₁
    obtain ⟨_, h₂, h⟩ := bind_ok.mp h
    obtain ⟨-, rfl⟩ := (reserve_ok hm).mp h₂
    obtain ⟨_, h₃, h⟩ := bind_ok.mp h
    obtain ⟨hu, rfl⟩ := (reserve_ok hm).mp h₃
    have hl := ((reserveFrames_ok hm hu x.frames).mp h).1
    omega
  · intro _
    exact ⟨_, bind_ok.mpr ⟨_, (reserve_ok hm).mpr ⟨by omega, rfl⟩,
      bind_ok.mpr ⟨_, (reserve_ok hm).mpr ⟨by omega, rfl⟩,
      bind_ok.mpr ⟨_, (reserve_ok hm).mpr ⟨by omega, rfl⟩,
      (reserveFrames_ok hm (by omega) x.frames).mpr ⟨by omega, rfl⟩⟩⟩⟩⟩

end LiveExchange

def hiddenBytes (fields : List Field) : ℕ :=
  (fields.map fun f => if f.disclosed then 0 else f.value.length).sum

def blankBytes (fields : List Field) : ℕ :=
  (fields.map fun f => f.lead.length + f.trail.length).sum

/-- The live count takes one blank for each field and no value as hidden. -/
theorem shownLength_fields (fields : List Field) :
    shownLength (fields.flatMap Field.pieces) + hiddenBytes fields + fields.length =
      fieldBytes (headerMap fields) + blankBytes fields := by
  induction fields with
  | nil => rfl
  | cons f _ ih =>
    have hp : shownLength f.pieces + (if f.disclosed then 0 else f.value.length) =
        (encode f.name).length + 1 + f.lead.length + f.value.length + f.trail.length + 2 := by
      cases hd : f.disclosed <;> simp [shownLength, Field.pieces, crlf, hd] <;> omega
    simp only [hiddenBytes, fieldBytes, headerMap, blankBytes, map_map, map_cons,
      sum_cons, flatMap_cons, shownLength_append, length_cons] at ih hp ⊢
    omega

theorem Message.shownLength_pieces (m : Message) : shownLength m.pieces =
    m.start.length + 2 + (shownLength (m.fields.flatMap Field.pieces) + (2 + m.body.length)) := by
  rw [pieces, cons_append, shownLength, map_cons, sum_cons, ← shownLength, shownLength_append]
  simp [shownLength, crlf, Nat.add_comm 2]

namespace LiveExchange

variable {x : LiveExchange} {parse : HttpParser}

def sealedBytes (x : LiveExchange) : ℕ :=
  shownLength x.request.message.pieces + shownLength x.response.message.pieces

theorem ensureAttestableHttpBytes_ok (hp : parse x.transcript = .ok x.parsed)
    (hm : maximum < usizeBound) : ensureAttestableHttpBytes parse x.transcript maximum = .ok () ↔
      0 < maximum ∧ x.sealedBytes ≤ maximum := by
  obtain ⟨_, hra, hs, hr⟩ := x.disclosedHttpRanges_parsed "in TLS transcript"
  have hh : shownLength x.receivedPieces = shownLength x.response.message.pieces := by
    simp [Exchange.receivedPieces, shownLength]
  have hl := len_eq_shownLength hr
  rw [hh] at hl
  rw [ensureAttestableHttpBytes, hp, ok_bind, hra, ok_bind, ensureAttestableRanges, sealedBytes,
    len_eq_shownLength hs, hl, AttestableHttpBudget.new]
  obtain rfl | hp := Nat.eq_zero_or_pos maximum
  · exact iff_of_false (fun h => by cases h) fun h => Nat.lt_irrefl 0 h.1
  simp only [Nat.pos_iff_ne_zero.mp hp, if_false, ok_bind, hp, true_and]
  constructor
  · intro h
    obtain ⟨_, h₁, h⟩ := bind_ok.mp h
    obtain ⟨-, rfl⟩ := (reserve_ok hm).mp h₁
    obtain ⟨_, h₂, -⟩ := bind_ok.mp h
    have hle := ((reserve_ok hm).mp h₂).1
    omega
  · intro _
    exact bind_ok.mpr ⟨_, (reserve_ok hm).mpr ⟨by omega, rfl⟩,
      bind_ok.mpr ⟨_, (reserve_ok hm).mpr ⟨by omega, rfl⟩, rfl⟩⟩

theorem sealedBytes_eq (x : LiveExchange) :
    x.sealedBytes + x.response.fields.length + hiddenBytes x.request.fields +
        hiddenBytes x.response.fields + x.frames.flatten.length =
      x.liveBytes + (x.response.reason.length + 1 + blankBytes x.response.fields +
        x.response.body.length) := by
  have hb : blankBytes x.request.fields = x.request.fields.length := by
    have ho : ∀ f ∈ x.request.fields, f.lead.length + f.trail.length = 1 := fun f hf => by
      rw [(x.sentFields f hf).1, (x.sentFields f hf).2]
      rfl
    rw [blankBytes, map_congr_left ho, map_const', sum_replicate_nat, Nat.mul_one]
  have hre := shownLength_fields x.request.fields
  have hr := shownLength_fields x.response.fields
  have hv : (bytes " HTTP/1.1").length = 9 ∧ (bytes "HTTP/1.1 ").length = 9 := by decide
  simp only [sealedBytes, liveBytes, requestHeaderBytes, responseHeaderBytes,
    Message.shownLength_pieces, RequestMessage.message, ResponseMessage.message,
    length_append, length_cons, length_nil, hv]
  omega

/-- What is let through under a maximum is sealed under it exactly if the parser accepts the
transcript and the hidden header values make up for the reason phrase, the blanks in the response's
header and the coding of its body. A parser that accepts the transcript finds the exchange in it. -/
theorem live_budget_covers_iff (parse : HttpParser) (x : LiveExchange)
    (hspans : ∀ http, parse x.transcript = .ok http → http = x.parsed)
    (hfits : x.liveBytes < usizeBound) :
    (∀ maximum < usizeBound, (∃ budget, x.reserve maximum = .ok budget) →
      ensureAttestableHttpBytes parse x.transcript maximum = .ok ()) ↔
    (∃ http, parse x.transcript = .ok http) ∧
      x.response.reason.length + 1 + blankBytes x.response.fields + x.response.body.length ≤
        x.response.fields.length + hiddenBytes x.request.fields + hiddenBytes x.response.fields +
          x.frames.flatten.length := by
  have hbalance := x.sealedBytes_eq
  constructor
  · intro h
    have hpos : 0 < x.liveBytes := by
      unfold liveBytes requestHeaderBytes
      omega
    have hsealed := h x.liveBytes hfits ((reserve_live hfits hfits).mpr ⟨hpos, Nat.le_refl _⟩)
    obtain ⟨http, hparse, -⟩ := bind_ok.mp hsealed
    have hparsed := hspans http hparse ▸ hparse
    have hle := ((ensureAttestableHttpBytes_ok hparsed hfits).mp hsealed).2
    exact ⟨⟨http, hparse⟩, by omega⟩
  · rintro ⟨⟨http, hparse⟩, _⟩ _ hmaximum hlive
    obtain ⟨hpos, _⟩ := (reserve_live hfits hmaximum).mp hlive
    have hparsed := hspans http hparse ▸ hparse
    exact (ensureAttestableHttpBytes_ok hparsed hmaximum).mpr ⟨hpos, by omega⟩

set_option maxRecDepth 20000 in
/-- A request with one header, answered in two chunks. -/
def sampleLive : LiveExchange where
  request := ⟨bytes "GET", bytes "/",
    [⟨"Host".toList, [0x20], bytes "api", [], by decide, by decide, by decide, by decide,
      by decide⟩], [], by decide⟩
  interim := []
  response := ⟨bytes "200", bytes "OK", [⟨"Transfer-Encoding".toList, [0x20], bytes "chunked", [],
    by decide, by decide, by decide, by decide, by decide⟩], sampleChunkedBody.bytes, by decide,
    by decide⟩
  interimCodes := nofun
  finalCode := by decide
  frames := [sampleChunkedBody.content]
  sentFields := by decide
  coded := .inr ⟨sampleChunkedBody, rfl, by decide⟩

/-- A parser that knows the sample only. -/
def sampleParser : HttpParser := fun transcript =>
  if transcript.sent = sampleLive.transcript.sent ∧
      transcript.received = sampleLive.transcript.received then .ok sampleLive.parsed
  else .error "invalid transcript"

theorem live_budget_covers_iff_sample :
    (∀ http, sampleParser sampleLive.transcript = .ok http → http = sampleLive.parsed) ∧
    sampleLive.liveBytes < usizeBound ∧
    ¬∀ maximum < usizeBound, (∃ budget, sampleLive.reserve maximum = .ok budget) →
      ensureAttestableHttpBytes sampleParser sampleLive.transcript maximum = .ok () := by
  have hspans : ∀ http, sampleParser sampleLive.transcript = .ok http →
      http = sampleLive.parsed := by
    intro http h
    rw [sampleParser, if_pos ⟨rfl, rfl⟩] at h
    exact (Except.ok.inj h).symm
  refine ⟨hspans, by decide, fun h => ?_⟩
  exact absurd ((live_budget_covers_iff _ sampleLive hspans (by decide)).mp h).2 (by decide)

/-- While the exchange runs it takes 82 bytes, and 105 when it is sealed. -/
theorem sealing_refuses_live_exchange :
    (sampleLive.liveBytes = 82 ∧ sampleLive.sealedBytes = 105) ∧
      (∃ budget, sampleLive.reserve 104 = .ok budget) ∧
      ∃ message, ensureAttestableHttpBytes sampleParser sampleLive.transcript 104 =
        .error message := by
  refine ⟨by decide, ⟨_, rfl⟩, ?_⟩
  rw [ensureAttestableHttpBytes, sampleParser, if_pos ⟨rfl, rfl⟩]
  exact ⟨_, rfl⟩

end LiveExchange

end Notary.Core
