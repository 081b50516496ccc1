import Notary.Core.ChunkedCoding
import Notary.Core.Commitments
import Notary.Core.Http
import Notary.Lib.Pieces

/-! The ranges of an HTTP exchange that a capture discloses, in terms of the exchange's text. -/

namespace Notary.Core
open Utf8 Ranges Pieces List RangeSet

/-! What the HTTP parser makes of a transcript: the positions of its parts. -/

structure HttpHeader where
  view : Span
  name : Bytes
  value : Bytes
  valueView : Span

structure HttpRequest where
  view : Span
  target : Span
  headers : List HttpHeader
  body : Option Span

structure HttpResponse where
  view : Span
  code : Bytes
  headers : List HttpHeader
  body : Option Span

structure HttpTranscript where
  requests : List HttpRequest
  responses : List HttpResponse

def without (view : Span) (parts : List Span) : RangeSet :=
  parts.foldl RangeSet.difference ((∅ : RangeSet).unionSpan view)

def HttpHeader.withoutValue (header : HttpHeader) : RangeSet :=
  without header.view [header.valueView]

def HttpRequest.withoutData (request : HttpRequest) : RangeSet :=
  without request.view (request.target :: request.headers.map HttpHeader.view ++
    request.body.toList)

def HttpResponse.withoutData (response : HttpResponse) : RangeSet :=
  without response.view (response.headers.map HttpHeader.view ++ response.body.toList)

def isInterimHttpResponse (response : HttpResponse) : Bool := response.code.head? = some 0x31

def discloseHeader (ranges : RangeSet) (header : HttpHeader) : RangeSet :=
  if mayDiscloseHeaderValue header.name header.value then ranges.unionSpan header.view
  else ranges.union header.withoutValue

/-- What is added to the start line and the empty line of a message. -/
def discloseData (ranges : RangeSet) (headers : List HttpHeader) (body : Option Span) : RangeSet :=
  body.toList.foldl RangeSet.unionSpan (headers.foldl discloseHeader ranges)

def disclosedHttpRanges (transcript : HttpTranscript) (context : String) :
    Except String DisclosedHttpRanges :=
  match transcript.requests with
  | [request] =>
    if transcript.responses.any (·.code = bytes "101") then
      .error ("HTTP 101 Switching Protocols is not supported " ++ context)
    else
      match transcript.responses.filter fun response => !isInterimHttpResponse response with
      | [response] => .ok
        { sent := discloseData (request.withoutData.unionSpan request.target) request.headers
            request.body
          received := discloseData response.withoutData response.headers response.body }
      | _ => .error ("expected exactly one final HTTP response " ++ context)
  | _ => .error ("expected exactly one HTTP request " ++ context)

/-! Exchanges as texts. Nothing is said about which fields announce the body. -/

def Plain (b : Bytes) : Prop := 0x0D ∉ b ∧ 0x0A ∉ b
  deriving Decidable

/-- A header field with the blanks around its value. -/
structure Field where
  name : List Char
  lead : Bytes
  value : Bytes
  trail : Bytes
  nameLine : SingleLine name
  colon : ':' ∉ name
  blank : ∀ b ∈ lead ++ trail, b = 0x20 ∨ b = 0x09
  plain : Plain value ∧ 0 ∉ value
  trimmed : ∀ b ∈ value.head?.toList ++ value.getLast?.toList, b ≠ 0x20 ∧ b ≠ 0x09

namespace Field

def rest (f : Field) : Bytes := f.lead ++ f.value ++ f.trail

def bytes (f : Field) : Bytes := encode f.name ++ 0x3A :: f.rest ++ crlf

def disclosed (f : Field) : Bool := mayDiscloseHeaderValue (encode f.name) f.value

def pieces (f : Field) : List (Bytes × Bool) :=
  [(encode f.name ++ 0x3A :: f.lead, true), (f.value, f.disclosed), (f.trail ++ crlf, true)]

def header (f : Field) (offset : ℕ) : HttpHeader :=
  let start := offset + ((encode f.name).length + 1 + f.lead.length)
  ⟨⟨offset, offset + f.bytes.length⟩, encode f.name, f.value, ⟨start, start + f.value.length⟩⟩

end Field

def headersAt (offset : ℕ) : List Field → List HttpHeader
  | [] => []
  | f :: fields => f.header offset :: headersAt (offset + f.bytes.length) fields

structure Message where
  start : Bytes
  fields : List Field
  body : Bytes
  startPlain : Plain start

namespace Message

def head (m : Message) : Bytes := m.start ++ crlf ++ m.fields.flatMap Field.bytes ++ crlf

def bytes (m : Message) : Bytes := m.head ++ m.body

def pieces (m : Message) : List (Bytes × Bool) :=
  (m.start ++ crlf, true) :: m.fields.flatMap Field.pieces ++ [(crlf ++ m.body, true)]

def view (m : Message) (offset : ℕ) : Span := ⟨offset, offset + m.bytes.length⟩

def headers (m : Message) (offset : ℕ) : List HttpHeader :=
  headersAt (offset + (m.start.length + 2)) m.fields

def bodyView (m : Message) (offset : ℕ) : Option Span :=
  if m.body = [] then none else some ⟨offset + m.head.length, offset + m.bytes.length⟩

end Message

variable {m : Message} {offset y : ℕ}

theorem mem_without :
    y ∈ without view parts ↔ y ∈ view ∧ ∀ p ∈ parts, y ∉ p := by
  have hf (s : RangeSet) : y ∈ parts.foldl RangeSet.difference s ↔ y ∈ s ∧ ∀ p ∈ parts, y ∉ p := by
    induction parts generalizing s with
    | nil => simp
    | cons _ _ ih => simp [ih, and_assoc]
  simp [without, hf]

theorem Field.text_pieces (f : Field) : text f.pieces = f.bytes := by
  simp [text, pieces, bytes, rest]

theorem text_fieldPieces (fields : List Field) :
    text (fields.flatMap Field.pieces) = fields.flatMap Field.bytes := by
  rw [text, flatMap_assoc]
  exact congrArg (List.flatMap · fields) (funext Field.text_pieces)

theorem Message.text_pieces (m : Message) : text m.pieces = m.bytes := by
  have hf := text_fieldPieces m.fields
  rw [text] at hf
  simp [text, pieces, bytes, head, hf]

theorem mem_headerViews (fields : List Field) (offset : ℕ) :
    (∃ h ∈ headersAt offset fields, y ∈ h.view) ↔
      offset ≤ y ∧ y < offset + (fields.flatMap Field.bytes).length := by
  induction fields generalizing offset with
  | nil => exact iff_of_false (by simp [headersAt]) (by simp)
  | cons _ _ ih =>
    rw [headersAt, exists_mem_cons_iff, ih]
    simp only [Field.header, Span.mem_def, flatMap_cons, length_append]
    omega

theorem mem_discloseHeader (f : Field) (s : RangeSet) :
    y ∈ discloseHeader s (f.header offset) ↔ y ∈ s ∨ y ∈ shown offset f.pieces := by
  have hl : f.bytes.length = (encode f.name).length + 1 + f.lead.length + f.value.length +
      f.trail.length + 2 := by
    simp only [Field.bytes, Field.rest, crlf, length_append, length_cons, length_nil]
    omega
  have ha : mayDiscloseHeaderValue (f.header offset).name (f.header offset).value =
      f.disclosed := rfl
  rw [discloseHeader, ha, Field.pieces]
  simp only [mem_shown_cons, not_mem_shown_nil, crlf, length_append, length_cons,
    length_nil, or_false, true_and]
  cases f.disclosed with
  | true =>
    rw [if_pos rfl, mem_unionSpan, or_comm]
    refine or_congr_right ?_
    simp only [Field.header, Span.mem_def, hl, true_and]
    omega
  | false =>
    rw [if_neg Bool.false_ne_true, mem_union]
    refine or_congr_right ?_
    simp only [HttpHeader.withoutValue, mem_without, mem_singleton, forall_eq, Field.header,
      Span.mem_def, hl, Bool.false_eq_true, false_and, false_or]
    omega

theorem mem_discloseHeaders (fields : List Field) (s : RangeSet) :
    y ∈ (headersAt offset fields).foldl discloseHeader s ↔
      y ∈ s ∨ y ∈ shown offset (fields.flatMap Field.pieces) := by
  induction fields generalizing offset s with
  | nil => simp [headersAt, shown]
  | cons f _ ih =>
    rw [headersAt, foldl_cons, ih, mem_discloseHeader, flatMap_cons, mem_shown_append,
      f.text_pieces, or_assoc]

theorem mem_bodyView : (∃ p ∈ (m.bodyView offset).toList, y ∈ p) ↔
    offset + m.head.length ≤ y ∧ y < offset + m.bytes.length := by
  unfold Message.bodyView
  split_ifs with he
  · simp [Message.bytes, he]
  · simp [Span.mem_def]

theorem mem_parts : (∃ p ∈ (m.headers offset).map HttpHeader.view ++ (m.bodyView offset).toList,
      y ∈ p) ↔
    (offset + (m.start.length + 2) ≤ y ∧
      y < offset + (m.start.length + 2) + (m.fields.flatMap Field.bytes).length) ∨
    (offset + m.head.length ≤ y ∧ y < offset + m.bytes.length) := by
  simp only [mem_append, or_and_right, exists_or, mem_map, exists_exists_and_eq_and]
  exact or_congr (mem_headerViews ..) mem_bodyView

/-- The disclosed part of a message starts from what is neither a field nor in the body. -/
theorem mem_discloseData (hs : y ∈ s ↔ y ∈ m.view offset ∧
      ¬∃ p ∈ (m.headers offset).map HttpHeader.view ++ (m.bodyView offset).toList, y ∈ p) :
    y ∈ discloseData s (m.headers offset) (m.bodyView offset) ↔ y ∈ shown offset m.pieces := by
  rw [discloseData, mem_foldl_unionSpan, mem_bodyView, Message.headers, mem_discloseHeaders, hs,
    mem_parts, Message.pieces, cons_append, mem_shown_cons, mem_shown_append,
    text_fieldPieces, mem_shown_cons]
  simp only [Message.view, Span.mem_def, Message.bytes, Message.head, crlf, not_mem_shown_nil,
    length_append, length_cons, length_nil]
  by_cases hf : y ∈ shown (offset + (m.start.length + 2)) (m.fields.flatMap Field.pieces)
  · simp [hf]
  · simp only [hf, true_and, false_or, or_false]
    omega

/-! Whole exchanges. -/

theorem plain_append : Plain (a ++ b) ↔ Plain a ∧ Plain b := by
  simp only [Plain, mem_append, not_or]
  tauto

structure RequestMessage where
  method : Bytes
  target : Bytes
  fields : List Field
  body : Bytes
  linePlain : Plain method ∧ Plain target

def RequestMessage.message (r : RequestMessage) : Message where
  start := (r.method ++ [0x20]) ++ r.target ++ bytes " HTTP/1.1"
  fields := r.fields
  body := r.body
  startPlain := by
    simp only [plain_append]
    exact ⟨⟨⟨r.linePlain.1, by decide⟩, r.linePlain.2⟩, by decide⟩

def RequestMessage.parsed (r : RequestMessage) : HttpRequest where
  view := r.message.view 0
  target := ⟨r.method.length + 1, r.method.length + 1 + r.target.length⟩
  headers := r.message.headers 0
  body := r.message.bodyView 0

structure ResponseMessage where
  code : Bytes
  reason : Bytes
  fields : List Field
  body : Bytes
  codeDigits : code.length = 3 ∧ ∀ b ∈ code, Ascii.isDigit b = true
  reasonPlain : Plain reason

def ResponseMessage.message (r : ResponseMessage) : Message where
  start := bytes "HTTP/1.1 " ++ r.code ++ ([0x20] ++ r.reason)
  fields := r.fields
  body := r.body
  startPlain := by
    simp only [plain_append]
    exact ⟨⟨by decide, fun h => absurd (r.codeDigits.2 _ h) (by decide),
      fun h => absurd (r.codeDigits.2 _ h) (by decide)⟩, by decide, r.reasonPlain⟩

def ResponseMessage.parsed (r : ResponseMessage) (offset : ℕ) : HttpResponse where
  view := r.message.view offset
  code := r.code
  headers := r.message.headers offset
  body := r.message.bodyView offset

def responsesAt (offset : ℕ) : List ResponseMessage → List HttpResponse
  | [] => []
  | r :: rest => r.parsed offset :: responsesAt (offset + r.message.bytes.length) rest

/-- One request and its answer, before which there may be informational responses. -/
structure Exchange where
  request : RequestMessage
  interim : List ResponseMessage
  response : ResponseMessage
  interimCodes : ∀ r ∈ interim, r.code.head? = some 0x31 ∧ r.code ≠ bytes "101" ∧ r.body = []
  finalCode : response.code.head? ≠ some 0x31

namespace Exchange

variable (x : Exchange)

def interimBytes : Bytes := x.interim.flatMap fun r => r.message.bytes

def transcript : Transcript :=
  ⟨x.request.message.bytes, x.interimBytes ++ x.response.message.bytes⟩

/-- What the parser reports when it accepts the transcript: a header's span goes up to its CRLF, its
value is without the blanks around it, and the span of a body is all of its raw bytes. -/
def parsed : HttpTranscript := ⟨[x.request.parsed], responsesAt 0 (x.interim ++ [x.response])⟩

def receivedPieces : List (Bytes × Bool) := (x.interimBytes, false) :: x.response.message.pieces

theorem switching_absent : (responsesAt 0 (x.interim ++ [x.response])).any (·.code = bytes "101") =
    false := by
  have hc (offset : ℕ) (rs : List ResponseMessage) (h : ∀ r ∈ rs, r.code ≠ bytes "101") :
      (responsesAt offset rs).any (·.code = bytes "101") = false := by
    induction rs generalizing offset with
    | nil => rfl
    | cons _ _ ih =>
      rw [forall_mem_cons] at h
      simp [responsesAt, ResponseMessage.parsed, h.1, ih _ h.2]
  refine hc _ _ fun r hr => ?_
  obtain hr | hr := mem_append.mp hr
  · exact (x.interimCodes r hr).2.1
  · rw [mem_singleton.mp hr]
    exact fun h => x.finalCode (by rw [h]; decide)

theorem final_response : (responsesAt 0 (x.interim ++ [x.response])).filter
    (fun response => !isInterimHttpResponse response) =
      [x.response.parsed x.interimBytes.length] := by
  have hs (offset : ℕ) (rs : List ResponseMessage) (h : ∀ r ∈ rs, r.code.head? = some 0x31) :
      (responsesAt offset (rs ++ [x.response])).filter
          (fun response => !isInterimHttpResponse response) =
        [x.response.parsed (offset + (rs.flatMap fun r => r.message.bytes).length)] := by
    induction rs generalizing offset with
    | nil => simp [responsesAt, isInterimHttpResponse, ResponseMessage.parsed, x.finalCode]
    | cons r _ ih =>
      rw [forall_mem_cons] at h
      have hi : isInterimHttpResponse (r.parsed offset) = true := decide_eq_true h.1
      rw [cons_append, responsesAt, filter_cons_of_neg (by simp [hi]), ih _ h.2,
        flatMap_cons, length_append, Nat.add_assoc]
  rw [hs 0 x.interim fun r hr => (x.interimCodes r hr).1, Nat.zero_add]
  rfl

theorem mem_sentStart : y ∈ x.request.parsed.withoutData.unionSpan x.request.parsed.target ↔
    y ∈ x.request.message.view 0 ∧ ¬∃ p ∈ (x.request.message.headers 0).map HttpHeader.view ++
      (x.request.message.bodyView 0).toList, y ∈ p := by
  have hl : x.request.method.length + 1 + x.request.target.length ≤
      x.request.message.start.length := by
    simp only [RequestMessage.message, length_append, length_cons, length_nil]
    omega
  rw [mem_unionSpan, HttpRequest.withoutData, mem_without, cons_append, forall_mem_cons]
  by_cases ht : y ∈ x.request.parsed.target
  · have hlt := ht.2
    refine iff_of_true (.inl ht) ?_
    rw [mem_parts]
    simp only [RequestMessage.parsed, Message.view, Span.mem_def, Message.bytes, Message.head,
      length_append] at hlt ⊢
    omega
  · rw [or_iff_right ht]
    simp only [ht, not_false_eq_true, true_and, not_exists, not_and]
    rfl

theorem disclosedHttpRanges_parsed (context : String) : ∃ ranges,
    disclosedHttpRanges x.parsed context = .ok ranges ∧
      (∀ y, y ∈ ranges.sent ↔ y ∈ shown 0 x.request.message.pieces) ∧
      ∀ y, y ∈ ranges.received ↔ y ∈ shown 0 x.receivedPieces := by
  simp only [disclosedHttpRanges, parsed, switching_absent, final_response, Bool.false_eq_true,
    if_false]
  refine ⟨_, rfl, fun y => mem_discloseData x.mem_sentStart, fun y => ?_⟩
  rw [receivedPieces, mem_shown_cons, or_iff_right (fun h => Bool.false_ne_true h.1), Nat.zero_add]
  refine mem_discloseData ?_
  rw [HttpResponse.withoutData, mem_without]
  simp only [not_exists, not_and]
  rfl

end Exchange

end Notary.Core
