import Notary.Core.HttpBody

/-! The provider adapters: from a verified exchange to one inference. -/

namespace Notary.Core
open Utf8 Json

structure TraceEvidenceProvider where
  name : String
  host : String
  deriving DecidableEq

structure TraceEvidenceNotary where
  publicKey : String
  deriving DecidableEq

structure TraceEvidenceArtifacts where
  evidenceSha256 : String
  requestDisclosedSha256 : String
  responseSha256 : String
  deriving DecidableEq

structure TraceEvidenceManifest where
  format : String
  traceId : String
  createdAtUnixMs : UInt64
  provider : TraceEvidenceProvider
  notary : TraceEvidenceNotary
  artifacts : TraceEvidenceArtifacts
  deriving DecidableEq

inductive Operation
  | chat | responses
  deriving DecidableEq

def Operation.name : Operation → String
  | .chat => "chat"
  | .responses => "responses"

structure VerifiedInference (c : Crates) where
  traceId : String
  capturedAtUnixMs : UInt64
  evidenceSha256 : String
  provider : String
  serverAddress : String
  operation : Operation
  requestModel : String
  responseModel : Option String
  inputMessages : c.Json
  outputMessages : c.Json
  inputTokens : Option UInt64
  outputTokens : Option UInt64
  finishReasons : List String

structure ProviderOutput (c : Crates) where
  messages : c.Json
  model : Option String
  inputTokens : Option UInt64
  outputTokens : Option UInt64
  finishReasons : List String

/-- A map with numbers as keys, in the order of its keys. -/
def alterEntry {α : Type} (k : ℕ) (f : Option α → α) : List (ℕ × α) → List (ℕ × α)
  | [] => [(k, f none)]
  | (k', a) :: entries =>
    if k = k' then (k, f (some a)) :: entries
    else if k < k' then (k, f none) :: (k', a) :: entries
    else (k', a) :: alterEntry k f entries

section

variable {c : Crates}

/-! Members of values. The members of an object are always given in the order of their keys. -/

/-- A string member, or none when it is missing or null. -/
def optionalString (value : c.Json) (key name : String) : Attempt (Option String) :=
  match value.get key with
  | none | some .null => .ok none
  | some (.string s) =>
    if s ≠ "" then .ok (some s)
    else bail (name ++ " field " ++ key ++ " must be a non-empty string")
  | _ => bail (name ++ " field " ++ key ++ " must be a non-empty string")

def requiredString (value : c.Json) (key name : String) : Attempt String := do
  orBail (← optionalString value key name) (name ++ " has no " ++ key)

def optionalU64 (value : c.Json) (key : String) : Attempt (Option UInt64) :=
  match value.get key with
  | none | some .null => .ok none
  | some value =>
    match value.asU64 with
    | some n => .ok (some n)
    | none => bail ("usage field " ++ key ++ " must be a non-negative integer")

def stringOr (value : c.Json) (key : String) : String :=
  ((value.get key).bind Value.asStr).getD ""

def getOrNull (value : c.Json) (key : String) : c.Json := (value.get key).getD .null

/-- The elements of an array member, if there is one. -/
def elementsOf (value : c.Json) (key : String) : List c.Json :=
  ((value.get key).bind Value.asArray).getD []

/-- The assignment `value[key] = member`, which turns null into an object and fails on any other
value. -/
def assign (value : c.Json) (key : String) (member : c.Json) : Attempt c.Json :=
  match value with
  | .object members => .ok (.object (Value.insertMember key member members))
  | .null => .ok (.object [(key, member)])
  | _ => .error (.panicked ("cannot access key " ++ key ++ " in JSON"))

def optionalJson (s : Option String) : c.Json :=
  match s with
  | some s => .string s
  | none => .null

def optionalNumber (n : Option UInt64) : c.Json :=
  match n with
  | some n => .number (.unsigned n)
  | none => .null

/-! Messages and their parts. -/

def textPart (text : String) : c.Json :=
  .object [("content", .string text), ("type", .string "text")]

def parseJsonOrString (value : c.Json) : c.Json :=
  (value.asStr.bind fun s => parseJson c (chars s)).getD value

def toolCall (id name : String) (arguments : c.Json) : c.Json :=
  .object [("arguments", arguments), ("id", .string id), ("name", .string name),
    ("type", .string "tool_call")]

def toolCallResponse (id : String) (result : c.Json) : c.Json :=
  .object [("id", .string id), ("result", result), ("type", .string "tool_call_response")]

def message (role : String) (parts : List c.Json) (finishReason : Option c.Json) : c.Json :=
  match (finishReason.bind Value.asStr).filter (· ≠ "") with
  | some reason => .object [("finish_reason", .string reason), ("parts", .array parts),
      ("role", .string role)]
  | none => .object [("parts", .array parts), ("role", .string role)]

def toolCallPart (value : c.Json) : c.Json :=
  let function := (value.get "function").getD value
  toolCall ((((value.get "call_id").or (value.get "id")).bind Value.asStr).getD "")
    (stringOr function "name")
    (parseJsonOrString (((function.get "arguments").or (value.get "arguments")).getD .null))

def toolResultPart (value : c.Json) : c.Json :=
  toolCallResponse (stringOr value "tool_call_id") (getOrNull value "content")

def anthropicPart (block : c.Json) : Option c.Json :=
  match (block.get "type").bind Value.asStr with
  | some "text" => some (textPart (stringOr block "text"))
  | some "tool_use" => some (toolCall (stringOr block "id") (stringOr block "name")
      (parseJsonOrString (getOrNull block "input")))
  | some "tool_result" =>
    some (toolCallResponse (stringOr block "tool_use_id") (getOrNull block "content"))
  | _ => none

def anthropicParts (blocks : List c.Json) : List c.Json := blocks.filterMap anthropicPart

def contentPart (value : c.Json) : Option c.Json :=
  match (value.get "type").bind Value.asStr with
  | some "text" | some "input_text" | some "output_text" =>
    some (textPart ((((value.get "text").or (value.get "content")).bind Value.asStr).getD ""))
  | some "tool_use" | some "tool_result" => anthropicPart value
  | _ => none

def contentParts (content : Option c.Json) : Attempt (List c.Json) :=
  match content with
  | none | some .null => .ok []
  | some (.string text) => .ok [textPart text]
  | some (.array values) => .ok (values.filterMap contentPart)
  | _ => bail "message content must be a string or array"

def openaiMessage (value : c.Json) : Attempt c.Json := do
  let role ← requiredString value "role" "OpenAI message"
  let parts ← contentParts (value.get "content")
  let parts := parts ++ (elementsOf value "tool_calls").map toolCallPart
  let parts := if role = "tool" then [toolResultPart value] else parts
  .ok (message role parts (value.get "finish_reason"))

def openaiMessages (messages : c.Json) : Attempt c.Json :=
  match messages with
  | .array messages => do .ok (.array (← messages.mapM openaiMessage))
  | _ => bail "chat request messages must be an array"

def responsesMessage (item : c.Json) : Attempt c.Json := do
  let role := ((item.get "role").bind Value.asStr).getD "assistant"
  .ok (message role (← contentParts (item.get "content")) (item.get "status"))

/-! Requests. -/

def responsesInputItem (item : c.Json) : Attempt (Option c.Json) := do
  match (item.get "type").bind Value.asStr with
  | some "message" => .ok (some (← responsesMessage item))
  | some "function_call_output" =>
    .ok (some (message "tool" [toolCallResponse (stringOr item "call_id") (getOrNull item "output")]
      none))
  | some "function_call" => .ok (some (message "assistant" [toolCallPart item] none))
  | some _ => .ok none
  | none =>
    if (item.get "type").isNone ∧ ((item.get "role").bind Value.asStr).isSome ∧
        (item.get "content").isSome then
      .ok (some (← responsesMessage item))
    else .ok none

def instructionMessages (request : c.Json) : List c.Json :=
  match (request.get "instructions").bind Value.asStr with
  | some instructions => [message "system" [textPart instructions] none]
  | none => []

def openaiResponsesInput (request : c.Json) : Attempt c.Json := do
  let system := instructionMessages request
  match request.get "input" with
  | none => bail "Responses request has no input"
  | some (.string text) => .ok (.array (system ++ [message "user" [textPart text] none]))
  | some (.array input) =>
    .ok (.array (system ++ (← input.mapM responsesInputItem).filterMap id))
  | some _ => bail "Responses input must be a string or array"

def anthropicMessage (item : c.Json) : Attempt c.Json := do
  let role ← requiredString item "role" "Anthropic message"
  .ok (message role (← contentParts (item.get "content")) none)

def anthropicSystem (request : c.Json) : Attempt (List c.Json) :=
  match request.get "system" with
  | some system => do .ok [message "system" (← contentParts (some system)) none]
  | none => .ok []

def anthropicInput (request : c.Json) : Attempt c.Json := do
  let system ← anthropicSystem request
  let input ← orBail ((request.get "messages").bind Value.asArray)
    "Anthropic request has no messages"
  .ok (.array (system ++ (← input.mapM anthropicMessage)))

/-! Responses. -/

def chatChoice (choice : c.Json) : Attempt (c.Json × Option String) := do
  let value ← orBail (choice.get "message") "chat choice has no message"
  let message ← openaiMessage value
  match ← optionalString choice "finish_reason" "chat choice" with
  | some reason => .ok (← assign message "finish_reason" (.string reason), some reason)
  | none => .ok (message, none)

def openaiChatOutput (response : c.Json) : Attempt (ProviderOutput c) := do
  let choices ← orBail ((response.get "choices").bind Value.asArray) "chat response has no choices"
  let choices ← choices.mapM chatChoice
  let usage := getOrNull response "usage"
  .ok {
    messages := .array (choices.map (·.1))
    model := ← optionalString response "model" "chat response"
    inputTokens := ← optionalU64 usage "prompt_tokens"
    outputTokens := ← optionalU64 usage "completion_tokens"
    finishReasons := choices.filterMap (·.2) }

def responsesOutputItem (item : c.Json) : Attempt (Option c.Json) := do
  match (item.get "type").bind Value.asStr with
  | some "message" => .ok (some (← responsesMessage item))
  | some "function_call" => .ok (some (message "assistant" [toolCallPart item] none))
  | _ => .ok none

def openaiResponsesOutput (response : c.Json) : Attempt (ProviderOutput c) := do
  let output ← orBail ((response.get "output").bind Value.asArray)
    "Responses response has no output array"
  let messages ← output.mapM responsesOutputItem
  let usage := getOrNull response "usage"
  .ok {
    messages := .array (messages.filterMap id)
    model := ← optionalString response "model" "Responses response"
    inputTokens := ← optionalU64 usage "input_tokens"
    outputTokens := ← optionalU64 usage "output_tokens"
    finishReasons := (← optionalString response "status" "Responses response").toList }

/-! Streams. -/

def hasType (event : c.Json) (name : String) : Bool :=
  (event.get "type").bind Value.asStr = some name

/-- The items of a Responses stream by their index; one without an index takes the count. -/
def completedItems : List c.Json → List (ℕ × c.Json) → List (ℕ × c.Json)
  | [], items => items
  | event :: events, items =>
    match event.get "item" with
    | none => completedItems events items
    | some item =>
      let index := ((event.get "output_index").bind Value.asU64).elim items.length UInt64.toNat
      completedItems events (alterEntry index (fun _ => item) items)

def openaiResponsesSse (events : List c.Json) : Attempt c.Json := do
  let response ← orBail
    ((events.reverse.find? (hasType · "response.completed")).bind (·.get "response"))
    "Responses SSE stream did not contain response.completed"
  if ((response.get "output").bind Value.asArray).all List.isEmpty then
    let items := completedItems (events.filter (hasType · "response.output_item.done")) []
    if items ≠ [] then assign response "output" (.array (items.map (·.2))) else .ok response
  else .ok response

/-- A number member that counts entries, with a missing one read as zero. -/
def indexOf (value : c.Json) (key : String) : ℕ :=
  ((value.get key).bind Value.asU64).elim 0 UInt64.toNat

/-- A tool call of a stream: its id, name and arguments so far. -/
structure StreamCall where
  id : String
  name : String
  arguments : String
  deriving DecidableEq

/-- A choice of a stream so far. -/
structure StreamChoice where
  text : String
  calls : List (ℕ × StreamCall)
  finish : Option String
  deriving DecidableEq

def streamCall (calls : List (ℕ × StreamCall)) (call : c.Json) : List (ℕ × StreamCall) :=
  let function := getOrNull call "function"
  alterEntry (indexOf call "index") (fun saved =>
    let saved := saved.getD ⟨"", "", ""⟩
    ⟨((call.get "id").bind Value.asStr).getD saved.id, saved.name ++ stringOr function "name",
      saved.arguments ++ stringOr function "arguments"⟩) calls

def streamChoice (choices : List (ℕ × StreamChoice)) (choice : c.Json) :
    Attempt (List (ℕ × StreamChoice)) := do
  let delta := getOrNull choice "delta"
  let reason ← optionalString choice "finish_reason" "chat SSE choice"
  .ok (alterEntry (indexOf choice "index") (fun entry =>
    let entry := entry.getD ⟨"", [], none⟩
    ⟨entry.text ++ stringOr delta "content",
      (elementsOf delta "tool_calls").foldl streamCall entry.calls,
      reason.or entry.finish⟩) choices)

structure ChatStream (c : Crates) where
  choices : List (ℕ × StreamChoice)
  model : Option String
  usage : c.Json

def chatEvent (stream : ChatStream c) (event : c.Json) : Attempt (ChatStream c) := do
  let model ← if stream.model.isNone then optionalString event "model" "chat SSE event"
    else .ok stream.model
  let choices ← (elementsOf event "choices").foldlM streamChoice stream.choices
  .ok ⟨choices, model, (event.get "usage").getD stream.usage⟩

def StreamCall.toJson (call : StreamCall) : c.Json :=
  .object [("function", .object [("arguments", .string call.arguments),
    ("name", .string call.name)]), ("id", .string call.id), ("type", .string "function")]

def StreamChoice.toJson (choice : StreamChoice) : c.Json :=
  let reason := (choice.finish.map fun reason => ("finish_reason", Value.string reason)).toList
  .object [("finish_reason", optionalJson choice.finish),
    ("message", .object (("content", .string choice.text) :: reason ++
      [("role", .string "assistant"),
        ("tool_calls", .array (choice.calls.map fun call => call.2.toJson))]))]

def openaiChatSse (events : List c.Json) : Attempt c.Json := do
  let stream ← events.foldlM chatEvent ⟨[], none, .null⟩
  .ok (.object [("choices", .array (stream.choices.map fun choice => choice.2.toJson)),
    ("model", optionalJson stream.model), ("usage", stream.usage)])

structure AnthropicStream (c : Crates) where
  model : Option String
  inputTokens : Option UInt64
  outputTokens : Option UInt64
  stopReason : Option String
  blocks : List (ℕ × c.Json)

/-- Text is appended to a string member of a block. -/
def appendMember (block : c.Json) (key : String) (text : Option String) : Attempt c.Json :=
  match text with
  | some text => assign block key (.string (stringOr block key ++ text))
  | none => .ok block

def anthropicEvent (stream : AnthropicStream c) (event : c.Json) : Attempt (AnthropicStream c) := do
  match (event.get "type").bind Value.asStr with
  | some "message_start" =>
    let message := getOrNull event "message"
    let model ← optionalString message "model" "Anthropic message_start"
    let inputTokens ← optionalU64 (getOrNull message "usage") "input_tokens"
    .ok { stream with model, inputTokens }
  | some "content_block_start" =>
    let block := getOrNull event "content_block"
    .ok { stream with blocks := alterEntry (indexOf event "index") (fun _ => block) stream.blocks }
  | some "content_block_delta" =>
    let index := indexOf event "index"
    let delta := getOrNull event "delta"
    let block := (stream.blocks.lookup index).getD
      (.object [("text", .string ""), ("type", .string "text")])
    let block ← appendMember block "text" ((delta.get "text").bind Value.asStr)
    let block ← appendMember block "input" ((delta.get "partial_json").bind Value.asStr)
    .ok { stream with blocks := alterEntry index (fun _ => block) stream.blocks }
  | some "message_delta" =>
    let stopReason ← optionalString (getOrNull event "delta") "stop_reason"
      "Anthropic message_delta"
    let outputTokens ← optionalU64 (getOrNull event "usage") "output_tokens"
    .ok { stream with stopReason, outputTokens }
  | _ => .ok stream

def anthropicSse (events : List c.Json) : Attempt c.Json := do
  let stream ← events.foldlM anthropicEvent ⟨none, none, none, none, []⟩
  .ok (.object [("content", .array (stream.blocks.map (·.2))), ("model", optionalJson stream.model),
    ("stop_reason", optionalJson stream.stopReason),
    ("usage", .object [("input_tokens", optionalNumber stream.inputTokens),
      ("output_tokens", optionalNumber stream.outputTokens)])])

/-! The adapters. -/

def openaiOperation (requestLine : List Char) (request : c.Json) : Operation :=
  if Search.occurs (chars "/responses") requestLine ∨ (request.get "input").isSome then .responses
  else .chat

/-- The inference of a manifest, with what the adapter found. -/
def inferenceOf (manifest : TraceEvidenceManifest) (operation : Operation) (model : String)
    (inputMessages : c.Json) (output : ProviderOutput c) : VerifiedInference c where
  traceId := manifest.traceId
  capturedAtUnixMs := manifest.createdAtUnixMs
  evidenceSha256 := manifest.artifacts.evidenceSha256
  provider := manifest.provider.name
  serverAddress := manifest.provider.host
  operation := operation
  requestModel := model
  responseModel := output.model
  inputMessages := inputMessages
  outputMessages := output.messages
  inputTokens := output.inputTokens
  outputTokens := output.outputTokens
  finishReasons := output.finishReasons

def parseOpenaiCompatible (manifest : TraceEvidenceManifest) (requestLine : List Char)
    (request : c.Json) (responseBody : List Char) : Attempt (VerifiedInference c) := do
  let model ← requiredString request "model" "provider request"
  match openaiOperation requestLine request with
  | .responses =>
    let inputMessages ← openaiResponsesInput request
    let response ← providerResponseJson c responseBody openaiResponsesSse
    .ok (inferenceOf manifest .responses model inputMessages (← openaiResponsesOutput response))
  | .chat =>
    let messages ← orBail (request.get "messages") "chat request has no messages"
    let inputMessages ← openaiMessages messages
    let response ← providerResponseJson c responseBody openaiChatSse
    .ok (inferenceOf manifest .chat model inputMessages (← openaiChatOutput response))

def anthropicOutput (response : c.Json) : Attempt (ProviderOutput c) := do
  let content ← orBail ((response.get "content").bind Value.asArray)
    "Anthropic response has no content array"
  let usage := getOrNull response "usage"
  .ok {
    messages := .array [message "assistant" (anthropicParts content) (response.get "stop_reason")]
    model := ← optionalString response "model" "Anthropic response"
    inputTokens := ← optionalU64 usage "input_tokens"
    outputTokens := ← optionalU64 usage "output_tokens"
    finishReasons := (← optionalString response "stop_reason" "Anthropic response").toList }

def parseAnthropic (manifest : TraceEvidenceManifest) (request : c.Json)
    (responseBody : List Char) : Attempt (VerifiedInference c) := do
  let model ← requiredString request "model" "Anthropic request"
  let inputMessages ← anthropicInput request
  let response ← providerResponseJson c responseBody anthropicSse
  .ok (inferenceOf manifest .chat model inputMessages (← anthropicOutput response))

/-- The providers whose exchanges follow the API of OpenAI. -/
def openaiCompatible : List String := ["openai", "deepseek", "openrouter"]

end

def verifiedInferenceFromCapture (c : Crates) (manifest : TraceEvidenceManifest)
    (request response : List Char) : Attempt (VerifiedInference c) := do
  let (requestLine, requestBody) ← httpBody request "request"
  let (_, responseBody) ← httpBody response "response"
  let request ← orBail (parseJson c requestBody) "parsing provider request JSON"
  if manifest.provider.name ∈ openaiCompatible then
    parseOpenaiCompatible manifest requestLine request responseBody
  else if manifest.provider.name = "anthropic" then parseAnthropic manifest request responseBody
  else bail ("unsupported captured provider " ++ manifest.provider.name)

end Notary.Core
