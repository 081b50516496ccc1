import Notary.Core.Normalize

/-! The public trace: its canonical bytes, the check of its shape, and how it is rendered. -/

namespace Notary.Core
open Utf8 Json

def publicTraceFormat : String := "notary/otlp-trace/v1"

def normalizerVersion : String := "notary/normalizer/v1"

def otelSemconvVersion : String := "1.37.0"

section

variable {c : Crates}

/-- A map gives its members in the order of their keys, which is the canonical order. -/
def canonicalJson (value : c.Json) : List Char := value.print .compact 0

def canonicalTraceBytes (value : c.Json) : Bytes := encode (canonicalJson value) ++ [0x0A]

def canonicalJsonString (value : c.Json) : String := String.ofList (canonicalJson value)

/-! The shape of a trace. -/

/-- The members of an object that has exactly the given fields. -/
def objectWithFields (value : c.Json) (fields : List String) (name : String) :
    Attempt (List (String × c.Json)) :=
  match value with
  | .object members =>
    if members.length = fields.length ∧ ∀ field ∈ fields, (members.lookup field).isSome then
      .ok members
    else bail (name ++ " has unsupported or missing fields")
  | _ => bail (name ++ " must be a JSON object")

def field (members : List (String × c.Json)) (key : String) : c.Json :=
  (members.lookup key).getD .null

def arrayOf (value : c.Json) (name : String) : Attempt (List c.Json) :=
  match value with
  | .array values => .ok values
  | _ => bail (name ++ " must be a JSON array")

def collectAttributes : List c.Json → List (String × c.Json) →
    Attempt (List (String × c.Json))
  | [], result => .ok result
  | entry :: entries, result => do
    let members ← objectWithFields entry ["key", "value"] "attribute"
    match (field members "key").asStr with
    | none => bail "attribute key must be a string"
    | some key =>
      if (result.lookup key).isSome then bail ("duplicate attribute " ++ key)
      else collectAttributes entries (result ++ [(key, field members "value")])

def attributes (value : c.Json) (name : String) : Attempt (List (String × c.Json)) := do
  collectAttributes (← arrayOf value name) []

def stringValue (value : c.Json) (key : String) : Attempt String := do
  let members ← objectWithFields value ["stringValue"] ("attribute " ++ key ++ " value")
  match (field members "stringValue").asStr with
  | none => bail ("attribute " ++ key ++ " must have a stringValue")
  | some value =>
    if value = "" then bail ("attribute " ++ key ++ " must not be empty") else .ok value

def requiredAttribute (attributes : List (String × c.Json)) (key : String) :
    Attempt String :=
  match attributes.lookup key with
  | none => bail ("missing required attribute " ++ key)
  | some value => stringValue value key

def integerValue (value : c.Json) (key : String) : Attempt Unit := do
  let members ← objectWithFields value ["intValue"] ("attribute " ++ key ++ " value")
  match (field members "intValue").asStr with
  | none => bail ("attribute " ++ key ++ " must have an intValue string")
  | some value =>
    if (Text.parseU64 (chars value)).isNone then
      bail ("attribute " ++ key ++ " must be a non-negative integer")
    else .ok ()

def stringArrayValue (value : c.Json) (key : String) : Attempt Unit := do
  let members ← objectWithFields value ["arrayValue"] ("attribute " ++ key ++ " value")
  match ((field members "arrayValue").get "values").bind Value.asArray with
  | none => bail ("attribute " ++ key ++ " must have an arrayValue.values array")
  | some values => values.forM fun value => do let _ ← stringValue value key

/-- The messages of an attribute are an array that is spelled in a string. -/
def messagesValue (value : c.Json) (key : String) : Attempt Unit := do
  let messages ← stringValue value key
  match parseJson c (chars messages) with
  | none => bail ("attribute " ++ key ++ " must contain JSON messages")
  | some (.array _) => .ok ()
  | some _ => bail ("attribute " ++ key ++ " must contain a JSON array")

def hexadecimalId (value : c.Json) (length : ℕ) (name : String) : Attempt String :=
  match value.asStr with
  | none => bail (name ++ " must be a string")
  | some value =>
    if (bytes value).length = length ∧
        (bytes value).all (fun b => Ascii.isHexDigit b && !Ascii.isUppercase b) then .ok value
    else bail (name ++ " must be " ++ toString length ++ " lowercase hexadecimal characters")

def unixNanos (value : c.Json) (name : String) : Attempt ℕ :=
  match value.asStr with
  | none => bail (name ++ " must be a decimal string")
  | some value =>
    match Text.parseU64 (chars value) with
    | none => bail (name ++ " must be an unsigned decimal string")
    | some 0 => bail (name ++ " must not be zero")
    | some n => .ok n

/-- A check of an attribute that need not be there. -/
def ifPresent (attributes : List (String × c.Json)) (key : String)
    (check : c.Json → String → Attempt Unit) : Attempt Unit :=
  match attributes.lookup key with
  | some value => check value key
  | none => .ok ()

def isStringValue (value : c.Json) (key : String) : Attempt Unit := do
  let _ ← stringValue value key

def supportedAttributes : List String :=
  ["gen_ai.provider.name", "gen_ai.operation.name", "gen_ai.request.model",
    "gen_ai.response.model", "gen_ai.usage.input_tokens", "gen_ai.usage.output_tokens",
    "gen_ai.input.messages", "gen_ai.output.messages", "gen_ai.response.finish_reasons",
    "gen_ai.conversation.id", "server.address"]

/-- The attributes of an inference span; the result is the provider. -/
def validateSpanAttributes (attributes : List (String × c.Json)) : Attempt String := do
  let provider ← requiredAttribute attributes "gen_ai.provider.name"
  let _ ← requiredAttribute attributes "gen_ai.operation.name"
  let _ ← requiredAttribute attributes "gen_ai.request.model"
  ifPresent attributes "gen_ai.response.model" isStringValue
  ifPresent attributes "gen_ai.usage.input_tokens" integerValue
  ifPresent attributes "gen_ai.usage.output_tokens" integerValue
  ifPresent attributes "gen_ai.input.messages" messagesValue
  ifPresent attributes "gen_ai.output.messages" messagesValue
  ifPresent attributes "gen_ai.response.finish_reasons" stringArrayValue
  ifPresent attributes "gen_ai.conversation.id" isStringValue
  ifPresent attributes "server.address" isStringValue
  if attributes.all fun entry => entry.1 ∈ supportedAttributes then .ok provider
  else bail "public trace has unsupported inference attributes"

structure SpanScan where
  traceId : Option String
  spanIds : List String
  provider : Option String
  deriving DecidableEq

def validateSpan (scan : SpanScan) (span : c.Json) : Attempt SpanScan := do
  let members ← objectWithFields span
    ["attributes", "endTimeUnixNano", "kind", "name", "spanId", "startTimeUnixNano", "traceId"]
    "inference span"
  if (field members "name").asStr ≠ some "gen_ai.inference" then
    bail "public span must be gen_ai.inference"
  else if (field members "kind").asU64 ≠ some 3 then
    bail "public span must use OpenTelemetry CLIENT kind"
  else
    let traceId ← hexadecimalId (field members "traceId") 32 "traceId"
    let spanId ← hexadecimalId (field members "spanId") 16 "spanId"
    if scan.traceId.any (· ≠ traceId) then bail "all inference spans must share a traceId"
    else if spanId ∈ scan.spanIds then bail "public trace has duplicate spanId"
    else
      let start ← unixNanos (field members "startTimeUnixNano") "startTimeUnixNano"
      let stop ← unixNanos (field members "endTimeUnixNano") "endTimeUnixNano"
      if stop < start then bail "span end time precedes start time"
      else
        let attributes ← attributes (field members "attributes") "inference span attributes"
        let provider ← validateSpanAttributes attributes
        if scan.provider.any (· ≠ provider) then
          bail "all inference spans must use the same provider"
        else .ok ⟨some traceId, spanId :: scan.spanIds, some provider⟩

def requireAttribute (attributes : List (String × c.Json)) (key expected message : String) :
    Attempt Unit := do
  if (← requiredAttribute attributes key) = expected then .ok () else bail message

def validateResource (value : c.Json) : Attempt Unit := do
  let resource ← objectWithFields value ["attributes"] "resource"
  let attributes ← attributes (field resource "attributes") "resource attributes"
  let version ← requiredAttribute attributes "notary.normalizer.version"
  let semconv ← requiredAttribute attributes "otel.semconv.version"
  requireAttribute attributes "notary.format" publicTraceFormat
    "public trace format is unsupported"
  if version ≠ normalizerVersion then bail "public trace normalizer version is unsupported"
  else if semconv ≠ otelSemconvVersion then
    bail "public trace OpenTelemetry semantic-convention version is unsupported"
  else
    requireAttribute attributes "service.name" "notary" "public trace service.name must be notary"
    if attributes.length = 4 then .ok ()
    else bail "public trace resource has unsupported attributes"

def onlyElement (value : c.Json) (name what : String) : Attempt c.Json := do
  match ← arrayOf value name with
  | [element] => .ok element
  | _ => bail ("a public trace must contain exactly one " ++ what)

def validateScope (value : c.Json) : Attempt Unit := do
  let scope ← objectWithFields value ["name", "version"] "instrumentation scope"
  if (field scope "name").asStr ≠ some "notary.normalizer" then
    bail "unexpected instrumentation scope"
  else if (field scope "version").asStr ≠ some normalizerVersion then
    bail "unexpected instrumentation scope version"
  else .ok ()

def validateTraceShape (value : c.Json) : Attempt Unit := do
  let root ← objectWithFields value ["resourceSpans"] "trace"
  let resourceSpan ← objectWithFields
    (← onlyElement (field root "resourceSpans") "trace.resourceSpans" "resource span")
    ["resource", "scopeSpans"] "resource span"
  validateResource (field resourceSpan "resource")
  let scopeSpan ← objectWithFields
    (← onlyElement (field resourceSpan "scopeSpans") "resource span scopeSpans" "scope span")
    ["scope", "spans"] "scope span"
  validateScope (field scopeSpan "scope")
  let spans ← arrayOf (field scopeSpan "spans") "scope span spans"
  if spans.isEmpty then bail "a public trace must contain an inference span"
  else do
    let _ ← spans.foldlM validateSpan ⟨none, [], none⟩

end

def validatePublicTraceBytes (c : Crates) (b : Bytes) : Attempt Unit := do
  let value ← orBail (fromSlice b : Option c.Json) "parsing public trace JSON"
  if canonicalTraceBytes value = b then validateTraceShape value
  else bail ("public trace is not canonical notary/json-lexicographic/v1; " ++
    "serialize it with the contract's deterministic JSON rule")

/-! Rendering. -/

section

variable {c : Crates}

def stringAttribute (key value : String) : c.Json :=
  .object [("key", .string key), ("value", .object [("stringValue", .string value)])]

def integerAttribute (key : String) (value : UInt64) : c.Json :=
  .object [("key", .string key),
    ("value", .object [("intValue", .string (Nat.repr value.toNat))])]

def stringArrayAttribute (key : String) (values : List String) : c.Json :=
  .object [("key", .string key), ("value", .object [("arrayValue", .object
    [("values", .array (values.map fun value => .object [("stringValue", .string value)]))])])]

/-- What the id of a trace commits to. -/
def VerifiedInference.commitment (inference : VerifiedInference c) : c.Json :=
  .object [
    ("evidence_sha256", .string inference.evidenceSha256),
    ("finish_reasons", .array (inference.finishReasons.map .string)),
    ("input", inference.inputMessages),
    ("input_tokens", optionalNumber inference.inputTokens),
    ("operation", .string inference.operation.name),
    ("output", inference.outputMessages),
    ("output_tokens", optionalNumber inference.outputTokens),
    ("provider", .string inference.provider),
    ("request_model", .string inference.requestModel),
    ("response_model", optionalJson inference.responseModel),
    ("server_address", .string inference.serverAddress),
    ("trace_id", .string inference.traceId)]

def traceIdOf (inferences : List (VerifiedInference c)) : String :=
  let text := canonicalJsonString (.array (inferences.map VerifiedInference.commitment))
  Hex.encode ((c.sha256 (bytes text)).take 16)

def spanIdOf (c : Crates) (traceId : String) (index : ℕ) : String :=
  Hex.encode ((c.sha256 (bytes (traceId ++ ":" ++ Nat.repr index))).take 8)

def spanAttributes (inference : VerifiedInference c) (conversationId : String) : List c.Json :=
  [stringAttribute "gen_ai.conversation.id" conversationId,
    stringAttribute "gen_ai.input.messages" (canonicalJsonString inference.inputMessages),
    stringAttribute "gen_ai.operation.name" inference.operation.name,
    stringAttribute "gen_ai.output.messages" (canonicalJsonString inference.outputMessages),
    stringAttribute "gen_ai.provider.name" inference.provider,
    stringAttribute "gen_ai.request.model" inference.requestModel,
    stringAttribute "server.address" inference.serverAddress] ++
  (inference.responseModel.map (stringAttribute "gen_ai.response.model")).toList ++
  (inference.inputTokens.map (integerAttribute "gen_ai.usage.input_tokens")).toList ++
  (inference.outputTokens.map (integerAttribute "gen_ai.usage.output_tokens")).toList ++
  if inference.finishReasons = [] then []
  else [stringArrayAttribute "gen_ai.response.finish_reasons" inference.finishReasons]

def inferenceSpan (inference : VerifiedInference c) (traceId conversationId : String)
    (index : ℕ) : Attempt c.Json :=
  let start := inference.capturedAtUnixMs.toNat * 1000000
  if start < 2 ^ 64 then
    .ok (.object [
      ("attributes", .array (spanAttributes inference conversationId)),
      ("endTimeUnixNano", .string (Nat.repr start)),
      ("kind", .number (.unsigned 3)),
      ("name", .string "gen_ai.inference"),
      ("spanId", .string (spanIdOf c traceId index)),
      ("startTimeUnixNano", .string (Nat.repr start)),
      ("traceId", .string traceId)])
  else bail "capture timestamp is too large"

def publicTrace (spans : List c.Json) : c.Json :=
  .object [("resourceSpans", .array [.object [
    ("resource", .object [("attributes", .array [
      stringAttribute "notary.format" publicTraceFormat,
      stringAttribute "notary.normalizer.version" normalizerVersion,
      stringAttribute "otel.semconv.version" otelSemconvVersion,
      stringAttribute "service.name" "notary"])]),
    ("scopeSpans", .array [.object [
      ("scope", .object [("name", .string "notary.normalizer"),
        ("version", .string normalizerVersion)]),
      ("spans", .array spans)]])]])]

/-- One deterministic public trace with a span for each inference. -/
def renderPublicTrace (inferences : List (VerifiedInference c)) : Attempt Bytes := do
  match inferences with
  | [] => bail "at least one verified capture is required"
  | first :: _ =>
    if inferences.all (·.provider = first.provider) then
      let traceId := traceIdOf inferences
      let spans ← inferences.zipIdx.mapM fun (inference, index) =>
        inferenceSpan inference traceId ("notary:" ++ traceId) index
      let trace := canonicalTraceBytes (publicTrace spans)
      validatePublicTraceBytes c trace
      .ok trace
    else bail "a public trace cannot mix provider adapters"

end

end Notary.Core
