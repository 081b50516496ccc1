import Notary.Core.ArchiveRoundTrip
import Notary.Core.TraceRendering

/-! The values that tool calls and their results carry into a trace, and how deep they may nest. -/

namespace Notary.Core
open Utf8 Json Result List Option

section

variable {c : Crates}

/-! What an exchange gives to its tools and gets from them. -/

def callPayload (value : c.Json) : c.Json :=
  let function := (value.get "function").getD value
  parseJsonOrString (((function.get "arguments").or (value.get "arguments")).getD .null)

/-- The input of a tool, or its result, in a block of content. -/
def blockPayload (block : c.Json) : List c.Json :=
  match (block.get "type").bind Value.asStr with
  | some "tool_use" => [parseJsonOrString (getOrNull block "input")]
  | some "tool_result" => [getOrNull block "content"]
  | _ => []

def contentPayloads (content : Option c.Json) : List c.Json :=
  match content with
  | some (.array values) => values.flatMap blockPayload
  | _ => []

/-- A message from a tool has its result; any other message may have blocks and calls. -/
def messagePayloads (value : c.Json) : List c.Json :=
  if (value.get "role").bind Value.asStr = some "tool" then [getOrNull value "content"]
  else contentPayloads (value.get "content") ++ (elementsOf value "tool_calls").map callPayload

def responsesInputPayloads (item : c.Json) : List c.Json :=
  match (item.get "type").bind Value.asStr with
  | some "message" => contentPayloads (item.get "content")
  | some "function_call_output" => [getOrNull item "output"]
  | some "function_call" => [callPayload item]
  | some _ => []
  | none =>
    if (item.get "type").isNone ∧ ((item.get "role").bind Value.asStr).isSome ∧
        (item.get "content").isSome then
      contentPayloads (item.get "content")
    else []

def responsesOutputPayloads (item : c.Json) : List c.Json :=
  match (item.get "type").bind Value.asStr with
  | some "message" => contentPayloads (item.get "content")
  | some "function_call" => [callPayload item]
  | _ => []

def chatRequestPayloads (request : c.Json) : List c.Json :=
  (elementsOf request "messages").flatMap messagePayloads

def chatResponsePayloads (response : c.Json) : List c.Json :=
  (elementsOf response "choices").flatMap fun choice => messagePayloads (getOrNull choice "message")

def responsesRequestPayloads (request : c.Json) : List c.Json :=
  (elementsOf request "input").flatMap responsesInputPayloads

def responsesResponsePayloads (response : c.Json) : List c.Json :=
  (elementsOf response "output").flatMap responsesOutputPayloads

def anthropicRequestPayloads (request : c.Json) : List c.Json :=
  contentPayloads (request.get "system") ++
    (elementsOf request "messages").flatMap fun item => contentPayloads (item.get "content")

def anthropicResponsePayloads (response : c.Json) : List c.Json :=
  (elementsOf response "content").flatMap blockPayload

end

/-- The payloads of a body, read as a response or as a stream of its events. -/
def responseBodyPayloads (c : Crates) (body : List Char) (sse : List c.Json → Attempt c.Json)
    (payloads : c.Json → List c.Json) : List c.Json :=
  match providerResponseJson c body sse with
  | .ok response => payloads response
  | .error _ => []

def bodyPayloads (c : Crates) (provider : String) (requestLine : List Char) (request : c.Json)
    (body : List Char) : List c.Json :=
  if provider ∈ openaiCompatible then
    match openaiOperation requestLine request with
    | .responses => responsesRequestPayloads request ++
        responseBodyPayloads c body openaiResponsesSse responsesResponsePayloads
    | .chat => chatRequestPayloads request ++
        responseBodyPayloads c body openaiChatSse chatResponsePayloads
  else anthropicRequestPayloads request ++
    responseBodyPayloads c body anthropicSse anthropicResponsePayloads

/-- The inputs and the results of the tools in an exchange. -/
def toolPayloads (c : Crates) (provider : String) (request response : List Char) :
    List c.Json :=
  match httpBody request "request", httpBody response "response" with
  | .ok (requestLine, requestBody), .ok (_, responseBody) =>
    match parseJson c requestBody with
    | some request => bodyPayloads c provider requestLine request responseBody
    | none => []
  | _, _ => []

variable {c : Crates}

/-! How deep a value nests that has the payloads at a fixed depth. -/

/-- A depth is decided by payloads that stand at a fixed level. -/
def Carries (depth level : ℕ) (payloads : List c.Json) : Prop :=
  ∀ n, depth ≤ n + level ↔ ∀ p ∈ payloads, p.depth ≤ n

variable {level : ℕ} {α : Type} {parts payloads : List c.Json}
  {value m item request response : c.Json} {key : String} {output : ProviderOutput c}
  {manifest : TraceEvidenceManifest} {inference : VerifiedInference c}

theorem Carries.none (h : depth ≤ level) : Carries depth level ([] : List c.Json) :=
  fun n => iff_of_true (h.trans (Nat.le_add_left level n)) fun _ hp => nomatch hp

theorem Carries.one (level : ℕ) (p : c.Json) : Carries (p.depth + level) level [p] := fun n => by
  simp

theorem Carries.append {d e : ℕ} {ps qs : List c.Json} (hd : Carries d level ps)
    (he : Carries e level qs) : Carries (max d e) level (ps ++ qs) := fun n => by
  rw [max_le_iff, hd n, he n, forall_mem_append]

theorem Carries.up {d : ℕ} {ps : List c.Json} (h : Carries d level ps) (k : ℕ) :
    Carries (d + k) (level + k) ps := fun n => by
  rw [← h n]
  omega

theorem depths_append (vs ws : List c.Json) :
    Value.depths (vs ++ ws) = max (Value.depths vs) (Value.depths ws) := by
  induction vs with
  | nil => simp [Value.depths]
  | cons _ _ ih => rw [cons_append, Value.depths, Value.depths, ih, max_assoc]

theorem carries_flatMap (xs : List α) {f : α → List c.Json} {payloads : α → List c.Json}
    (h : ∀ x ∈ xs, Carries (Value.depths (f x)) level (payloads x)) :
    Carries (Value.depths (xs.flatMap f)) level (xs.flatMap payloads) := by
  induction xs with
  | nil => exact Carries.none (Nat.zero_le level)
  | cons x _ ih =>
    rw [flatMap_cons, flatMap_cons, depths_append]
    exact (h x mem_cons_self).append (ih fun y hy => h y (mem_cons_of_mem x hy))

theorem carries_mapM {β : Type} {f : α → Attempt β} (values : β → List c.Json)
    {payloads : α → List c.Json}
    (h : ∀ x y, f x = .ok y → Carries (Value.depths (values y)) level (payloads x)) {xs : List α}
    {ys : List β} (hys : xs.mapM f = .ok ys) :
    Carries (Value.depths (ys.flatMap values)) level (xs.flatMap payloads) := by
  induction xs generalizing ys with
  | nil =>
    cases hys
    exact Carries.none (Nat.zero_le level)
  | cons x _ ih =>
    rw [mapM_cons] at hys
    obtain ⟨y, hy, hys⟩ := bind_ok.mp hys
    obtain ⟨_, hz, hys⟩ := bind_ok.mp hys
    cases hys
    rw [flatMap_cons, flatMap_cons, depths_append]
    exact (h x y hy).append (ih hz)

/-! Parts and messages. -/

theorem depth_toolCall (id name : String) (arguments : c.Json) :
    (toolCall id name arguments).depth = arguments.depth + 1 := by
  simp [toolCall, Value.depth, Value.memberDepths]

theorem depth_toolCallResponse (id : String) (result : c.Json) :
    (toolCallResponse id result).depth = result.depth + 1 := by
  simp [toolCallResponse, Value.depth, Value.memberDepths]

theorem depth_message (role : String) (parts : List c.Json) (finishReason : Option c.Json) :
    (message role parts finishReason).depth = Value.depths parts + 2 := by
  unfold message
  split
  · simp [Value.depth, Value.memberDepths]
  · simp [Value.depth, Value.memberDepths]

theorem depths_singleton (v : c.Json) : Value.depths [v] = v.depth := by
  simp [Value.depths]

theorem carries_part {v p : c.Json} (h : v.depth = p.depth + 1) :
    Carries (Value.depths [v]) 1 [p] := by
  rw [depths_singleton, h]
  exact Carries.one 1 p

theorem carries_textPart (text : String) :
    Carries (Value.depths [(textPart text : c.Json)]) 1 ([] : List c.Json) :=
  Carries.none (by simp [depths_singleton, textPart, Value.depth, Value.memberDepths])

theorem carries_message (role : String) (finishReason : Option c.Json)
    (h : Carries (Value.depths parts) 1 payloads) :
    Carries (message role parts finishReason).depth 3 payloads := by
  rw [depth_message]
  exact h.up 2

theorem carries_anthropicPart (block : c.Json) :
    Carries (Value.depths (anthropicPart block).toList) 1 (blockPayload block) := by
  rw [anthropicPart, blockPayload]
  generalize (block.get "type").bind Value.asStr = kind
  split
  · exact carries_textPart _
  · exact carries_part (depth_toolCall ..)
  · exact carries_part (depth_toolCallResponse ..)
  · rename_i hu hr
    split
    · exact absurd rfl hu
    · exact absurd rfl hr
    · exact Carries.none (Nat.zero_le 1)

theorem carries_contentPart (value : c.Json) :
    Carries (Value.depths (contentPart value).toList) 1 (blockPayload value) := by
  unfold contentPart
  split
  · rename_i hk
    rw [blockPayload, hk]
    exact carries_textPart _
  · rename_i hk
    rw [blockPayload, hk]
    exact carries_textPart _
  · rename_i hk
    rw [blockPayload, hk]
    exact carries_textPart _
  · exact carries_anthropicPart value
  · exact carries_anthropicPart value
  · rw [blockPayload]
    split
    · contradiction
    · contradiction
    · exact Carries.none (Nat.zero_le 1)

theorem carries_contentParts {content : Option c.Json} (h : contentParts content = .ok parts) :
    Carries (Value.depths parts) 1 (contentPayloads content) := by
  unfold contentParts at h
  split at h
  · cases h
    exact Carries.none (Nat.zero_le 1)
  · cases h
    exact Carries.none (Nat.zero_le 1)
  · cases h
    exact carries_textPart _
  · cases h
    rw [filterMap_eq_flatMap_toList]
    exact carries_flatMap _ fun value _ => carries_contentPart value
  · cases h

theorem optionalString_ok (h : optionalString value key name = .ok r) :
    r ≠ some "" ∧ ∀ s, r = some s → (value.get key).bind Value.asStr = some s := by
  unfold optionalString at h
  split at h
  · cases h
    exact ⟨nofun, nofun⟩
  · cases h
    exact ⟨nofun, nofun⟩
  · rename_i hs
    split_ifs at h with hn
    · cases h
      refine ⟨fun he => hn (Option.some.inj he), fun t ht => ?_⟩
      rw [hs, ← ht]
      rfl
    · cases h
  · cases h

theorem requiredString_ok (h : requiredString value key name = .ok s) :
    s ≠ "" ∧ (value.get key).bind Value.asStr = some s := by
  obtain ⟨r, hr, h⟩ := bind_ok.mp h
  obtain ⟨hn, hs⟩ := optionalString_ok hr
  cases r with
  | none => cases h
  | some =>
    cases h
    exact ⟨fun he => hn (congrArg some he), hs s rfl⟩

theorem carries_toolCallParts (calls : List c.Json) :
    Carries (Value.depths (calls.map toolCallPart)) 1 (calls.map callPayload) := by
  rw [map_eq_flatMap, map_eq_flatMap]
  exact carries_flatMap calls fun call _ => carries_part (depth_toolCall ..)

theorem carries_openaiMessage (h : openaiMessage value = .ok m) :
    Carries m.depth 3 (messagePayloads value) := by
  obtain ⟨role, hr, h⟩ := bind_ok.mp h
  obtain ⟨_, hp, h⟩ := bind_ok.mp h
  cases h
  obtain ⟨-, hr⟩ := requiredString_ok hr
  rw [messagePayloads, hr]
  by_cases ht : role = "tool"
  · rw [if_pos ht, if_pos (congrArg some ht)]
    exact carries_message _ _ (carries_part (depth_toolCallResponse ..))
  · rw [if_neg ht, if_neg fun hs => ht (Option.some.inj hs)]
    apply carries_message
    rw [depths_append]
    exact (carries_contentParts hp).append (carries_toolCallParts _)

theorem carries_responsesMessage (h : responsesMessage item = .ok m) :
    Carries m.depth 3 (contentPayloads (item.get "content")) := by
  obtain ⟨_, hp, h⟩ := bind_ok.mp h
  cases h
  exact carries_message _ _ (carries_contentParts hp)

theorem carries_singleton (h : Carries m.depth level payloads) :
    Carries (Value.depths [m]) level payloads := by
  rwa [depths_singleton]

theorem carries_responsesInputItem {m : Option c.Json} (h : responsesInputItem item = .ok m) :
    Carries (Value.depths m.toList) 3 (responsesInputPayloads item) := by
  unfold responsesInputItem at h
  split at h
  · rename_i hk
    obtain ⟨_, hm, h⟩ := bind_ok.mp h
    cases h
    rw [responsesInputPayloads, hk]
    exact carries_singleton (carries_responsesMessage hm)
  · rename_i hk
    cases h
    rw [responsesInputPayloads, hk]
    exact carries_singleton (carries_message _ _ (carries_part (depth_toolCallResponse ..)))
  · rename_i hk
    cases h
    rw [responsesInputPayloads, hk]
    exact carries_singleton (carries_message _ _ (carries_part (depth_toolCall ..)))
  · rename_i hm ho hc hk
    cases h
    rw [responsesInputPayloads, hk]
    split
    · exact absurd (Option.some.inj ‹_›) hm
    · exact absurd (Option.some.inj ‹_›) ho
    · exact absurd (Option.some.inj ‹_›) hc
    · exact Carries.none (Nat.zero_le 3)
    · contradiction
  · rename_i hk
    rw [responsesInputPayloads, hk]
    dsimp only
    split_ifs at h ⊢
    · obtain ⟨_, hm, h⟩ := bind_ok.mp h
      cases h
      exact carries_singleton (carries_responsesMessage hm)
    · cases h
      exact Carries.none (Nat.zero_le 3)

theorem carries_responsesOutputItem {m : Option c.Json} (h : responsesOutputItem item = .ok m) :
    Carries (Value.depths m.toList) 3 (responsesOutputPayloads item) := by
  unfold responsesOutputItem at h
  split at h
  · rename_i hk
    obtain ⟨_, hm, h⟩ := bind_ok.mp h
    cases h
    rw [responsesOutputPayloads, hk]
    exact carries_singleton (carries_responsesMessage hm)
  · rename_i hk
    cases h
    rw [responsesOutputPayloads, hk]
    exact carries_singleton (carries_message _ _ (carries_part (depth_toolCall ..)))
  · rename_i hm hc
    cases h
    rw [responsesOutputPayloads]
    split
    · exact absurd ‹_› hm
    · exact absurd ‹_› hc
    · exact Carries.none (Nat.zero_le 3)

/-! Requests. -/

/-- The messages of one side of an exchange: an array that carries its payloads. -/
structure MessagesCarry (messages : c.Json) (payloads : List c.Json) : Prop where
  isArray : ∃ elements, messages = .array elements
  carries : Carries messages.depth 4 payloads

theorem messagesCarry_array {messages : List c.Json}
    (h : Carries (Value.depths messages) 3 payloads) :
    MessagesCarry (.array messages) payloads where
  isArray := ⟨messages, rfl⟩
  carries := h.up 1

theorem elementsOf_eq {elements : List c.Json}
    (h : (value.get key).bind Value.asArray = some elements) : elementsOf value key = elements := by
  rw [elementsOf, h, getD_some]

theorem openaiMessages_carry {messages : c.Json}
    (hm : request.get "messages" = some messages) (h : openaiMessages messages = .ok m) :
    MessagesCarry m (chatRequestPayloads request) := by
  cases messages with
  | array values =>
    obtain ⟨_, hms, h⟩ := bind_ok.mp h
    cases h
    have hv : elementsOf request "messages" = values := elementsOf_eq (by rw [hm]; rfl)
    have hc := carries_mapM (fun m => [m])
      (fun _ _ h => carries_singleton (carries_openaiMessage h)) hms
    rw [flatMap_singleton'] at hc
    rw [chatRequestPayloads, hv]
    exact messagesCarry_array hc
  | _ => cases h

theorem carries_system (role text : String) :
    Carries (Value.depths [(message role [textPart text] none : c.Json)]) 3 ([] : List c.Json) :=
  carries_singleton (carries_message _ _ (carries_textPart text))

theorem carries_instructionMessages (request : c.Json) :
    Carries (Value.depths (instructionMessages request)) 3 ([] : List c.Json) := by
  unfold instructionMessages
  split
  · exact carries_system _ _
  · exact Carries.none (Nat.zero_le 3)

theorem openaiResponsesInput_carry (h : openaiResponsesInput request = .ok m) :
    MessagesCarry m (responsesRequestPayloads request) := by
  have hs := carries_instructionMessages request
  unfold openaiResponsesInput at h
  rw [responsesRequestPayloads, elementsOf]
  split at h
  · cases h
  · rename_i hi
    cases h
    rw [hi]
    apply messagesCarry_array
    rw [depths_append]
    exact hs.append (carries_system _ _)
  · rename_i hi
    obtain ⟨_, hit, h⟩ := bind_ok.mp h
    cases h
    rw [hi]
    apply messagesCarry_array
    rw [depths_append]
    have hm := carries_mapM Option.toList (fun _ _ => carries_responsesInputItem) hit
    rw [← filterMap_eq_flatMap_toList] at hm
    exact hs.append hm
  · cases h

theorem carries_anthropicMessage (h : anthropicMessage item = .ok m) :
    Carries m.depth 3 (contentPayloads (item.get "content")) := by
  obtain ⟨_, -, h⟩ := bind_ok.mp h
  obtain ⟨_, hp, h⟩ := bind_ok.mp h
  cases h
  exact carries_message _ _ (carries_contentParts hp)

theorem anthropicInput_carry (h : anthropicInput request = .ok m) :
    MessagesCarry m (anthropicRequestPayloads request) := by
  obtain ⟨system, hs, h⟩ := bind_ok.mp h
  obtain ⟨_, hi, h⟩ := bind_ok.mp h
  obtain ⟨_, hm, h⟩ := bind_ok.mp h
  cases h
  have hca : Carries (Value.depths system) 3 (contentPayloads (request.get "system")) := by
    unfold anthropicSystem at hs
    split at hs
    · rename_i hc
      obtain ⟨_, hp, hs⟩ := bind_ok.mp hs
      cases hs
      rw [hc]
      exact carries_singleton (carries_message _ _ (carries_contentParts hp))
    · rename_i hc
      cases hs
      rw [hc]
      exact Carries.none (Nat.zero_le 3)
  have hr := carries_mapM (fun m => [m])
    (fun _ _ h => carries_singleton (carries_anthropicMessage h)) hm
  rw [flatMap_singleton'] at hr
  rw [anthropicRequestPayloads, elementsOf_eq (orBail_ok.mp hi)]
  apply messagesCarry_array
  rw [depths_append]
  exact hca.append hr

/-! Responses. -/

/-- What the adapters guarantee of the output they find. -/
structure OutputCarries (output : ProviderOutput c) (payloads : List c.Json) : Prop where
  messages : MessagesCarry output.messages payloads
  model : output.model ≠ some ""
  finishReasons : "" ∉ output.finishReasons

/-- A member that is a string leaves the depth of an object as it was, when the member that it
replaces does not nest. -/
theorem memberDepths_insertMember {ms : List (String × c.Json)}
    (h : ∀ m ∈ ms, m.1 = k → m.2.depth = 0) :
    Value.memberDepths (Value.insertMember k (.string s) ms) = Value.memberDepths ms := by
  induction ms with
  | nil => simp [Value.insertMember, Value.memberDepths, Value.depth]
  | cons m _ ih =>
    rw [Value.insertMember]
    split_ifs with he hl
    · have hm := h m mem_cons_self he.symm
      simp [Value.memberDepths, Value.depth, hm]
    · simp [Value.memberDepths, Value.depth]
    · simp [Value.memberDepths, ih fun m' hm' => h m' (mem_cons_of_mem m hm')]

/-- The end of a choice is written into its message, which is an object with such a member or
without. -/
theorem depth_assign_message {finishReason : Option c.Json}
    (h : assign (message role parts finishReason) "finish_reason" (.string reason) = .ok m) :
    m.depth = (message role parts finishReason).depth := by
  unfold message at h ⊢
  split at h
  · cases h
    rw [Value.depth, Value.depth, memberDepths_insertMember]
    simp [Value.depth]
  · cases h
    rw [Value.depth, Value.depth, memberDepths_insertMember]
    simp

theorem exists_message_of_openaiMessage (h : openaiMessage value = .ok m) :
    ∃ role parts finishReason, m = message role parts finishReason := by
  obtain ⟨role, -, h⟩ := bind_ok.mp h
  obtain ⟨_, -, h⟩ := bind_ok.mp h
  exact ⟨role, _, _, (Except.ok.inj h).symm⟩

theorem chatChoice_carries {choice : c.Json} (h : chatChoice choice = .ok (m, reason)) :
    Carries m.depth 3 (messagePayloads (getOrNull choice "message")) ∧ reason ≠ some "" := by
  obtain ⟨_, hv, h⟩ := bind_ok.mp h
  obtain ⟨_, hm, h⟩ := bind_ok.mp h
  obtain ⟨r, hr, h⟩ := bind_ok.mp h
  have hn := (optionalString_ok hr).1
  rw [getOrNull, orBail_ok.mp hv, getD_some]
  have hc := carries_openaiMessage hm
  cases r with
  | none =>
    cases h
    exact ⟨hc, nofun⟩
  | some =>
    obtain ⟨_, hm', h⟩ := bind_ok.mp h
    cases h
    obtain ⟨_, _, _, rfl⟩ := exists_message_of_openaiMessage hm
    rw [depth_assign_message hm']
    exact ⟨hc, hn⟩

theorem forall_mapM {β : Type} {f : α → Attempt β} {p : β → Prop} (h : ∀ x y, f x = .ok y → p y)
    {xs : List α} {ys : List β} (hys : xs.mapM f = .ok ys) : ∀ y ∈ ys, p y := by
  induction xs generalizing ys with
  | nil =>
    cases hys
    exact fun _ hy => nomatch hy
  | cons x _ ih =>
    rw [mapM_cons] at hys
    obtain ⟨y, hy, hys⟩ := bind_ok.mp hys
    obtain ⟨_, hz, hys⟩ := bind_ok.mp hys
    cases hys
    exact forall_mem_cons.mpr ⟨h x y hy, ih hz⟩

theorem openaiChatOutput_carries (h : openaiChatOutput response = .ok output) :
    OutputCarries output (chatResponsePayloads response) := by
  obtain ⟨_, hv, h⟩ := bind_ok.mp h
  obtain ⟨_, hch, h⟩ := bind_ok.mp h
  obtain ⟨_, hm, h⟩ := bind_ok.mp h
  obtain ⟨_, -, h⟩ := bind_ok.mp h
  obtain ⟨_, -, h⟩ := bind_ok.mp h
  cases h
  have hc := carries_mapM (fun choice : c.Json × Option String => [choice.1])
    (fun _ _ h => carries_singleton (chatChoice_carries h).1) hch
  rw [← map_eq_flatMap] at hc
  refine ⟨?_, (optionalString_ok hm).1, ?_⟩
  · rw [chatResponsePayloads, elementsOf_eq (orBail_ok.mp hv)]
    exact messagesCarry_array hc
  · intro he
    obtain ⟨choice, hcc, hr⟩ := mem_filterMap.mp he
    exact forall_mapM (p := fun choice => choice.2 ≠ some "")
      (fun _ _ h => (chatChoice_carries h).2) hch choice hcc hr

theorem not_mem_toList (h : r ≠ some "") : "" ∉ r.toList :=
  fun hm => h (mem_toList.mp hm)

theorem openaiResponsesOutput_carries (h : openaiResponsesOutput response = .ok output) :
    OutputCarries output (responsesResponsePayloads response) := by
  obtain ⟨_, hv, h⟩ := bind_ok.mp h
  obtain ⟨_, hi, h⟩ := bind_ok.mp h
  obtain ⟨_, hm, h⟩ := bind_ok.mp h
  obtain ⟨_, -, h⟩ := bind_ok.mp h
  obtain ⟨_, -, h⟩ := bind_ok.mp h
  obtain ⟨_, hs, h⟩ := bind_ok.mp h
  cases h
  have hc := carries_mapM Option.toList (fun _ _ => carries_responsesOutputItem) hi
  rw [← filterMap_eq_flatMap_toList] at hc
  refine ⟨?_, (optionalString_ok hm).1, not_mem_toList (optionalString_ok hs).1⟩
  rw [responsesResponsePayloads, elementsOf_eq (orBail_ok.mp hv)]
  exact messagesCarry_array hc

theorem anthropicOutput_carries (h : anthropicOutput response = .ok output) :
    OutputCarries output (anthropicResponsePayloads response) := by
  obtain ⟨_, hc, h⟩ := bind_ok.mp h
  obtain ⟨_, hm, h⟩ := bind_ok.mp h
  obtain ⟨_, -, h⟩ := bind_ok.mp h
  obtain ⟨_, -, h⟩ := bind_ok.mp h
  obtain ⟨_, hr, h⟩ := bind_ok.mp h
  cases h
  refine ⟨?_, (optionalString_ok hm).1, not_mem_toList (optionalString_ok hr).1⟩
  rw [anthropicResponsePayloads, elementsOf_eq (orBail_ok.mp hc)]
  apply messagesCarry_array
  refine carries_singleton (carries_message _ _ ?_)
  rw [anthropicParts, filterMap_eq_flatMap_toList]
  exact carries_flatMap _ fun block _ => carries_anthropicPart block

/-! The whole exchange. -/

/-- What an adapter makes of a manifest and the two sides of its exchange. -/
structure Normalizes (manifest : TraceEvidenceManifest) (payloads : List c.Json)
    (inference : VerifiedInference c) : Prop where
  normalized : inference.Normalized
  serverAddress : inference.serverAddress = manifest.provider.host
  capturedAt : inference.capturedAtUnixMs = manifest.createdAtUnixMs
  messages : ∃ sent received, MessagesCarry inference.inputMessages sent ∧
    MessagesCarry inference.outputMessages received ∧ payloads = sent ++ received

theorem normalizes_inferenceOf (hp : manifest.provider.name ≠ "") (hm : model ≠ "")
    (hi : MessagesCarry inputMessages sent) (ho : OutputCarries output received) :
    Normalizes manifest (sent ++ received)
      (inferenceOf manifest operation model inputMessages output) where
  normalized := ⟨hp, hm, ho.model, ho.finishReasons⟩
  serverAddress := rfl
  capturedAt := rfl
  messages := ⟨sent, received, hi, ho.messages, rfl⟩

theorem parseOpenaiCompatible_normalizes (hp : manifest.provider.name ∈ openaiCompatible)
    (h : parseOpenaiCompatible manifest requestLine request responseBody = .ok inference) :
    Normalizes manifest
      (bodyPayloads c manifest.provider.name requestLine request responseBody) inference := by
  have hn : manifest.provider.name ≠ "" := by
    intro he
    rw [he] at hp
    exact absurd hp (by decide)
  obtain ⟨_, hm, h⟩ := bind_ok.mp h
  have hm := (requiredString_ok hm).1
  rw [bodyPayloads, if_pos hp]
  cases ho : openaiOperation requestLine request with
  | responses =>
    rw [ho] at h
    obtain ⟨_, hi, h⟩ := bind_ok.mp h
    obtain ⟨_, hr, h⟩ := bind_ok.mp h
    obtain ⟨_, hou, h⟩ := bind_ok.mp h
    cases h
    simp only [responseBodyPayloads, hr]
    exact normalizes_inferenceOf hn hm (openaiResponsesInput_carry hi)
      (openaiResponsesOutput_carries hou)
  | chat =>
    rw [ho] at h
    obtain ⟨_, hme, h⟩ := bind_ok.mp h
    obtain ⟨_, hi, h⟩ := bind_ok.mp h
    obtain ⟨_, hr, h⟩ := bind_ok.mp h
    obtain ⟨_, hou, h⟩ := bind_ok.mp h
    cases h
    simp only [responseBodyPayloads, hr]
    exact normalizes_inferenceOf hn hm
      (openaiMessages_carry (orBail_ok.mp hme) hi) (openaiChatOutput_carries hou)

theorem parseAnthropic_normalizes (hp : manifest.provider.name = "anthropic")
    (h : parseAnthropic manifest request responseBody = .ok inference) : Normalizes manifest
      (bodyPayloads c manifest.provider.name requestLine request responseBody) inference := by
  have hn : manifest.provider.name ≠ "" := by
    rw [hp]
    decide
  have hot : manifest.provider.name ∉ openaiCompatible := by
    rw [hp]
    decide
  obtain ⟨_, hm, h⟩ := bind_ok.mp h
  have hm := (requiredString_ok hm).1
  obtain ⟨_, hi, h⟩ := bind_ok.mp h
  obtain ⟨_, hr, h⟩ := bind_ok.mp h
  obtain ⟨_, ho, h⟩ := bind_ok.mp h
  cases h
  rw [bodyPayloads, if_neg hot, responseBodyPayloads, hr]
  exact normalizes_inferenceOf hn hm (anthropicInput_carry hi) (anthropicOutput_carries ho)

theorem verifiedInference_normalizes {request response : List Char}
    (h : verifiedInferenceFromCapture c manifest request response = .ok inference) :
    Normalizes manifest (toolPayloads c manifest.provider.name request response) inference := by
  obtain ⟨⟨_, _⟩, hre, h⟩ := bind_ok.mp h
  obtain ⟨⟨_, _⟩, hr, h⟩ := bind_ok.mp h
  obtain ⟨_, hj, h⟩ := bind_ok.mp h
  rw [toolPayloads, hre, hr]
  simp only [orBail_ok.mp hj]
  split_ifs at h with ho ha
  · exact parseOpenaiCompatible_normalizes ho h
  · exact parseAnthropic_normalizes ha h
  · cases h

/-- The messages around the payloads add four levels. -/
theorem MessagesCarry.depth_lt (h : MessagesCarry m payloads) :
    m.depth < nestingLimit ↔ ∀ p ∈ payloads, p.depth + 4 < nestingLimit := by
  have hd := h.carries 123
  rw [nestingLimit]
  constructor
  · intro _ p hp
    have hp := hd.mp (by omega) p hp
    omega
  · intro ha
    have hl := hd.mpr fun p hp => by
      have hp := ha p hp
      omega
    omega

theorem Normalizes.renders_iff_payloads (h : Normalizes manifest payloads inference)
    (hcr : manifest.createdAtUnixMs ≠ 0) (hf : manifest.createdAtUnixMs.toNat * 1000000 < 2 ^ 64) :
    (∃ trace, renderPublicTrace [inference] = .ok trace) ↔
      manifest.provider.host ≠ "" ∧ ∀ p ∈ payloads, p.depth + 4 < nestingLimit := by
  obtain ⟨hn, ha, hc, _, _, hs, hr, rfl⟩ := h
  obtain ⟨_, hi⟩ := hs.isArray
  obtain ⟨_, ho⟩ := hr.isArray
  rw [renderPublicTrace_singleton hn hi ho (by rwa [hc])
    (by rwa [hc]), ← hi, ← ho, hs.depth_lt, hr.depth_lt, ha,
    forall_mem_append]

/-- A normalized exchange renders exactly when its host is not empty and no payload of a tool
nests so deep that the messages around it pass the limit of the parser. -/
theorem renders_iff {manifest : TraceEvidenceManifest} {request response : List Char}
    {inference : VerifiedInference c} (hcreated : manifest.createdAtUnixMs ≠ 0)
    (hfits : manifest.createdAtUnixMs.toNat * 1000000 < 2 ^ 64)
    (h : verifiedInferenceFromCapture c manifest request response = .ok inference) :
    (∃ trace, renderPublicTrace [inference] = .ok trace) ↔ manifest.provider.host ≠ "" ∧
      ∀ p ∈ toolPayloads c manifest.provider.name request response,
        p.depth + 4 < nestingLimit :=
  (verifiedInference_normalizes h).renders_iff_payloads hcreated hfits

/-! A chat in which the model calls a tool with given arguments. -/

def sampleManifest : TraceEvidenceManifest where
  format := traceEvidenceFormat
  traceId := "trace"
  createdAtUnixMs := 1
  provider := ⟨"openai", "api.openai.com"⟩
  notary := ⟨"key"⟩
  artifacts := ⟨"evidence", "request", "response"⟩

def sampleRequest : List Char :=
  chars "POST /v1/chat/completions HTTP/1.1\r\n\r\n" ++ canonicalJson (c := sampleCrates)
    (.object [("messages", .array [.object [("content", .string "hi"), ("role", .string "user")]]),
      ("model", .string "model")])

def sampleResponse (arguments : String) : List Char :=
  chars "HTTP/1.1 200 OK\r\n\r\n" ++ canonicalJson (c := sampleCrates)
    (.object [("choices", .array [.object [("message", .object [("role", .string "assistant"),
      ("tool_calls", .array [.object [("function", .object [("arguments", .string arguments),
        ("name", .string "search")]), ("id", .string "call")]])])]])])

def nestedArrays (n : ℕ) : String :=
  String.ofList (List.replicate n '[' ++ List.replicate n ']')

def sampleInference (arguments : String) : Attempt (VerifiedInference sampleCrates) :=
  verifiedInferenceFromCapture sampleCrates sampleManifest sampleRequest (sampleResponse arguments)

theorem renders_iff_sample : ∃ inference, sampleInference (nestedArrays 1) = .ok inference ∧
    ∃ trace, renderPublicTrace [inference] = .ok trace := by
  obtain ⟨inference, h⟩ := exists_of_toBool
    (show (sampleInference (nestedArrays 1)).toBool = true by decide +kernel)
  exact ⟨inference, h, (renders_iff (by decide) (by decide) h).mpr
    ⟨by decide, by decide +kernel⟩⟩

/-- The normalizer reads arguments that nest deeper, but the messages then do not parse. -/
theorem deep_arguments_not_rendered : sampleManifest.provider.name ∈ openaiCompatible ∧
    sampleManifest.createdAtUnixMs ≠ 0 ∧ sampleManifest.createdAtUnixMs.toNat * 1000000 < 2 ^ 64 ∧
    ∃ inference, sampleInference (nestedArrays 124) = .ok inference ∧
      ∀ trace, renderPublicTrace [inference] ≠ .ok trace := by
  have hdeep : ∃ p ∈ toolPayloads sampleCrates "openai" sampleRequest
      (sampleResponse (nestedArrays 124)), ¬p.depth + 4 < nestingLimit := by
    decide +kernel
  obtain ⟨inference, h⟩ := exists_of_toBool
    (show (sampleInference (nestedArrays 124)).toBool = true by decide +kernel)
  refine ⟨by decide, by decide, by decide, inference, h, fun trace htrace => ?_⟩
  obtain ⟨p, hp, hdepth⟩ := hdeep
  have hrenders := (verifiedInference_normalizes h).renders_iff_payloads (by decide) (by decide)
  exact hdepth ((hrenders.mp ⟨trace, htrace⟩).2 p hp)

end Notary.Core
