import Notary.Core.ArchiveRoundTrip
import Notary.Core.Fragments

/-! A chat completion in one piece and cut into the events of a stream: when both are read
alike. -/

namespace Notary.Core
open Utf8 Json List Option Result String

/-- A choice of a completion. Its tool calls have the indices that a stream gives them. -/
structure ChatChoice where
  content : Option String
  calls : List (ℕ × StreamCall)
  finish : String
  ordered : Ordered calls
  ended : finish ≠ ""

structure ChatCompletion where
  choices : List (ℕ × ChatChoice)
  model : Option String
  inputTokens : Option UInt64
  outputTokens : Option UInt64
  ordered : Ordered choices
  named : model ≠ some ""

variable {c : Crates}

/-! The completion as one response. Other members of the values may be anything. -/

structure IsCall (value : c.Json) (call : StreamCall) : Prop where
  callId : value.get "call_id" = none
  id : value.get "id" = some (.string call.id)
  name : (value.get "function").bind (·.get "name") = some (.string call.name)
  arguments : (value.get "function").bind (·.get "arguments") = some (.string call.arguments)

structure IsChoice (value : c.Json) (choice : ChatChoice) : Prop where
  role : (getOrNull value "message").get "role" = some (.string "assistant")
  content : getOrNull (getOrNull value "message") "content" = optionalJson choice.content
  calls : List.Forall₂ IsCall (elementsOf (getOrNull value "message") "tool_calls")
    (choice.calls.map Prod.snd)
  finish : value.get "finish_reason" = some (.string choice.finish)

/-- The token counts of a usage. -/
structure IsUsage (usage : c.Json) (inputTokens outputTokens : Option UInt64) : Prop where
  input : getOrNull usage "prompt_tokens" = optionalNumber inputTokens
  output : getOrNull usage "completion_tokens" = optionalNumber outputTokens

structure IsCompletion (response : c.Json) (completion : ChatCompletion) : Prop where
  choices : ∃ values, response.get "choices" = some (.array values) ∧
    List.Forall₂ IsChoice values (completion.choices.map Prod.snd)
  model : getOrNull response "model" = optionalJson completion.model
  usage : IsUsage (getOrNull response "usage") completion.inputTokens completion.outputTokens

/-! The completion as a stream. A piece is one choice of one event, and a piece of a call one of
its tool calls. -/

def choicePieces (events : List c.Json) : List c.Json := events.flatMap (elementsOf · "choices")

def contents (pieces : List c.Json) : List String :=
  strings "content" (pieces.map (getOrNull · "delta"))

def callPieces (pieces : List c.Json) : List c.Json :=
  pieces.flatMap fun piece => elementsOf (getOrNull piece "delta") "tool_calls"

def piecesAt (index : ℕ) (pieces : List c.Json) : List c.Json :=
  pieces.filter (indexOf · "index" = index)

/-- The id and the name are sent once and the arguments in any number of fragments. -/
structure CallSent (pieces : List c.Json) (call : StreamCall) : Prop where
  id : strings "id" pieces = [call.id]
  name : strings "name" (pieces.map (getOrNull · "function")) = [call.name]
  arguments : String.join (strings "arguments" (pieces.map (getOrNull · "function"))) =
    call.arguments

structure ChoiceSent (pieces : List c.Json) (choice : ChatChoice) : Prop where
  content : ∀ text, choice.content = some text → String.join (contents pieces) = text
  noContent : choice.content = none → contents pieces = []
  known : ∀ piece ∈ callPieces pieces, indexOf piece "index" ∈ choice.calls.map Prod.fst
  calls : ∀ call ∈ choice.calls, CallSent (piecesAt call.1 (callPieces pieces)) call.2
  finish : ∀ piece ∈ pieces, getOrNull piece "finish_reason" = .null ∨
    getOrNull piece "finish_reason" = .string choice.finish
  ended : ∃ piece ∈ pieces, getOrNull piece "finish_reason" = .string choice.finish

def lastUsage (events : List c.Json) : c.Json :=
  (events.getLast?.map (getOrNull · "usage")).getD .null

/-- The pieces of the choices may stand in any order and in any events. -/
structure IsChatStream (events : List c.Json) (completion : ChatCompletion) : Prop where
  known : ∀ piece ∈ choicePieces events,
    indexOf piece "index" ∈ completion.choices.map Prod.fst
  choices : ∀ choice ∈ completion.choices,
    ChoiceSent (piecesAt choice.1 (choicePieces events)) choice.2
  model : ∀ event ∈ events, getOrNull event "model" = .null ∨
    getOrNull event "model" = optionalJson completion.model
  named : completion.model ≠ none →
    ∃ event ∈ events, getOrNull event "model" = optionalJson completion.model
  noUsage : ∀ event ∈ events.dropLast, getOrNull event "usage" = .null
  usage : IsUsage (lastUsage events) completion.inputTokens completion.outputTokens

/-! What the response gives. -/

def StreamCall.part (call : StreamCall) : c.Json :=
  toolCall call.id call.name (parseJsonOrString (.string call.arguments))

def ChatChoice.parts (choice : ChatChoice) : List c.Json :=
  choice.content.toList.map textPart ++ choice.calls.map fun call => call.2.part

def ChatChoice.message (choice : ChatChoice) : c.Json :=
  .object [("finish_reason", .string choice.finish), ("parts", .array choice.parts),
    ("role", .string "assistant")]

def ChatCompletion.output (completion : ChatCompletion) : ProviderOutput c where
  messages := .array (completion.choices.map fun choice => choice.2.message)
  model := completion.model
  inputTokens := completion.inputTokens
  outputTokens := completion.outputTokens
  finishReasons := completion.choices.map fun choice => choice.2.finish

variable {value : c.Json} {pieces events : List c.Json}

theorem toolCallPart_of_isCall (h : IsCall value call) :
    toolCallPart value = call.part := by
  obtain ⟨_, hf, hn⟩ := bind_eq_some_iff.mp h.name
  have ha := h.arguments
  rw [hf, bind_some] at ha
  simp only [toolCallPart, h.callId, h.id, hf, stringOr, hn, ha,
    getD_some, bind_some, none_or, some_or, Value.asStr]
  rfl

theorem contentParts_eq (h : getOrNull value "content" = optionalJson content) :
    contentParts (value.get "content") = .ok (content.toList.map textPart) := by
  cases content with
  | none => obtain hg | hg := get_of_null h <;> rw [hg] <;> rfl
  | some =>
    rw [get_of_not_null h nofun]
    rfl

variable {choice : ChatChoice}

theorem chatChoice_of_isChoice (h : IsChoice value choice) :
    chatChoice value = .ok (choice.message, some choice.finish) := by
  have hm : value.get "message" = some (getOrNull value "message") := by
    have hr := h.role
    unfold getOrNull at hr ⊢
    cases hg : value.get "message" with
    | none =>
      rw [hg] at hr
      cases hr
    | some => rfl
  have hr : requiredString (getOrNull value "message") "role" "OpenAI message" =
      .ok "assistant" := by
    have ho : optionalString (getOrNull value "message") "role" "OpenAI message" =
        .ok (some "assistant") :=
      optionalString_eq _ (getOrNull_of_get h.role) (by decide)
    rw [requiredString, ho]
    rfl
  have hc : (elementsOf (getOrNull value "message") "tool_calls").map toolCallPart =
      choice.calls.map fun call => (call.2.part : c.Json) := by
    have ha := h.calls
    rw [forall₂_map_right_iff] at ha
    have hma : List.Forall₂ Eq
        ((elementsOf (getOrNull value "message") "tool_calls").map toolCallPart)
        (choice.calls.map fun call => (call.2.part : c.Json)) := by
      rw [forall₂_map_left_iff, forall₂_map_right_iff]
      exact ha.imp fun _ _ => toolCallPart_of_isCall
    rwa [forall₂_eq_eq_eq] at hma
  have hre : optionalString value "finish_reason" "chat choice" = .ok (some choice.finish) :=
    optionalString_eq _ (getOrNull_of_get h.finish) fun he => choice.ended (Option.some.inj he)
  rw [chatChoice, hm]
  simp only [orBail, ok_bind, openaiMessage, hr, contentParts_eq h.content, hc, hre]
  rw [if_neg (by decide)]
  unfold message
  split <;> rfl

variable {completion : ChatCompletion}

theorem openaiChatOutput_of_isCompletion {response : c.Json}
    (h : IsCompletion response completion) :
    openaiChatOutput response = .ok completion.output := by
  obtain ⟨values, hv, ha⟩ := h.choices
  have hc : values.mapM chatChoice = .ok (completion.choices.map fun choice =>
      ((choice.2.message : c.Json), some choice.2.finish)) := by
    rw [forall₂_map_right_iff] at ha
    exact mapM_ok (ha.imp fun _ _ => chatChoice_of_isChoice)
  have hm := optionalString_eq "chat response" h.model completion.named
  simp only [openaiChatOutput, hv, bind_some, Value.asArray, orBail, ok_bind,
    hc, hm, optionalU64_eq h.usage.input, optionalU64_eq h.usage.output]
  unfold ChatCompletion.output
  have hr : (completion.choices.map fun choice =>
      ((choice.2.message : c.Json), some choice.2.finish)).filterMap (·.2) =
        completion.choices.map fun choice => choice.2.finish := by
    rw [filterMap_map]
    exact congrFun filterMap_eq_map _
  rw [List.map_map, hr]
  rfl

/-! What the stream gives. -/

def growCall (saved : StreamCall) (call : c.Json) : StreamCall :=
  ⟨(stringAt call "id").getD saved.id, saved.name ++ stringOr (getOrNull call "function") "name",
    saved.arguments ++ stringOr (getOrNull call "function") "arguments"⟩

def collectCalls (calls : List (ℕ × StreamCall)) (pieces : List c.Json) : List (ℕ × StreamCall) :=
  collect (indexOf · "index") growCall ⟨"", "", ""⟩ calls pieces

def growChoice (saved : StreamChoice) (piece : c.Json) : StreamChoice :=
  ⟨saved.text ++ stringOr (getOrNull piece "delta") "content",
    collectCalls saved.calls (elementsOf (getOrNull piece "delta") "tool_calls"),
    (stringAt piece "finish_reason").or saved.finish⟩

def collectChoices (choices : List (ℕ × StreamChoice)) (pieces : List c.Json) :
    List (ℕ × StreamChoice) :=
  collect (indexOf · "index") growChoice ⟨"", [], none⟩ choices pieces

theorem collectCalls_append (calls : List (ℕ × StreamCall)) (before after : List c.Json) :
    collectCalls calls (before ++ after) = collectCalls (collectCalls calls before) after :=
  collect_append ..

variable (choices : List (ℕ × StreamChoice))

theorem collectChoices_append (before after : List c.Json) :
    collectChoices choices (before ++ after) =
      collectChoices (collectChoices choices before) after :=
  collect_append ..

def growChat (stream : ChatStream c) (event : c.Json) : ChatStream c :=
  ⟨collectChoices stream.choices (elementsOf event "choices"),
    stream.model.or (stringAt event "model"), (event.get "usage").getD stream.usage⟩

theorem foldl_growCall (saved : StreamCall) (pieces : List c.Json) : pieces.foldl growCall saved =
      ⟨(strings "id" pieces).getLastD saved.id,
        saved.name ++ String.join (strings "name" (pieces.map (getOrNull · "function"))),
        saved.arguments ++
          String.join (strings "arguments" (pieces.map (getOrNull · "function")))⟩ := by
  induction pieces generalizing saved with
  | nil => simp [strings]
  | cons piece _ ih =>
    rw [foldl_cons, ih, map_cons, join_strings_cons, join_strings_cons, strings_cons]
    simp only [growCall, String.append_assoc]
    cases stringAt piece "id" with
    | none => rfl
    | some => rw [getD_some, toList_some, singleton_append, getLastD_cons]

theorem foldl_growChoice (saved : StreamChoice) (pieces : List c.Json) :
    pieces.foldl growChoice saved =
      ⟨saved.text ++ String.join (contents pieces), collectCalls saved.calls (callPieces pieces),
        pieces.foldl (fun finish piece => (stringAt piece "finish_reason").or finish)
          saved.finish⟩ := by
  induction pieces generalizing saved with
  | nil => simp [contents, strings, callPieces, collectCalls, collect]
  | cons piece pieces ih =>
    have hca : callPieces (piece :: pieces) =
        elementsOf (getOrNull piece "delta") "tool_calls" ++ callPieces pieces := flatMap_cons
    have hc : String.join (contents (piece :: pieces)) =
        stringOr (getOrNull piece "delta") "content" ++ String.join (contents pieces) :=
      join_strings_cons ..
    rw [foldl_cons, ih, foldl_cons, hca, hc, collectCalls_append, ← String.append_assoc]
    rfl

theorem foldl_growChat (stream : ChatStream c) (events : List c.Json) :
    events.foldl growChat stream =
      ⟨collectChoices stream.choices (choicePieces events),
        stream.model.or (events.findSome? (stringAt · "model")),
        events.foldl (fun usage event => (event.get "usage").getD usage) stream.usage⟩ := by
  induction events generalizing stream with
  | nil => simp [collectChoices, collect, choicePieces]
  | cons event events ih =>
    have hp : choicePieces (event :: events) =
        elementsOf event "choices" ++ choicePieces events := flatMap_cons
    have hm : (event :: events).findSome? (stringAt · "model") =
        (stringAt event "model").or (events.findSome? (stringAt · "model")) := by
      rw [findSome?_cons]
      cases stringAt event "model" <;> rfl
    rw [foldl_cons, ih, foldl_cons, hp, hm, collectChoices_append, ← Option.or_assoc]
    rfl

theorem collectCalls_eq (h : ChoiceSent pieces choice) :
    collectCalls [] (callPieces pieces) = choice.calls := by
  refine collect_eq choice.ordered h.known fun call hc => ?_
  have hs := h.calls call hc
  unfold piecesAt at hs
  constructor
  · intro hn
    have hi := hs.id
    rw [hn] at hi
    cases hi
  · rw [foldl_growCall, hs.id, hs.name, hs.arguments]
    simp

/-- The choice as the stream keeps it, with an empty text for no content. -/
def ChatChoice.streamed (choice : ChatChoice) : StreamChoice :=
  ⟨choice.content.getD "", choice.calls, some choice.finish⟩

theorem foldl_growChoice_eq (h : ChoiceSent pieces choice) :
    pieces.foldl growChoice ⟨"", [], none⟩ = choice.streamed := by
  have ht : String.join (contents pieces) = choice.content.getD "" := by
    cases hc : choice.content with
    | none =>
      rw [h.noContent hc]
      rfl
    | some text => exact h.content text hc
  have hf : ∀ piece : c.Json, getOrNull piece "finish_reason" = .string choice.finish →
      stringAt piece "finish_reason" = some choice.finish := fun _ hp => stringAt_eq hp
  have hn : ∀ piece : c.Json, getOrNull piece "finish_reason" = .null →
      stringAt piece "finish_reason" = none := fun _ hp => stringAt_eq hp
  rw [foldl_growChoice, ht, collectCalls_eq h]
  rw [foldl_or_eq none (a := choice.finish) ?_ ?_]
  · rw [empty_append]
    rfl
  · intro piece hp
    exact (h.finish piece hp).imp (hn piece) (hf piece)
  · obtain ⟨piece, hp, he⟩ := h.ended
    exact ⟨piece, hp, hf piece he⟩

theorem streamChoice_eq {piece : c.Json} (h : Readable piece "finish_reason") :
    streamChoice choices piece = .ok (collectChoices choices [piece]) := by
  rw [streamChoice, optionalString_of_readable h]
  rfl

theorem foldlM_streamChoice (h : ∀ piece ∈ pieces, Readable piece "finish_reason") :
    pieces.foldlM streamChoice choices = .ok (collectChoices choices pieces) :=
  foldlM_ok (fun _ => True)
    (fun piece hp choices _ => ⟨streamChoice_eq choices (h piece hp), trivial⟩) trivial

theorem chatEvent_eq (stream : ChatStream c) (hm : Readable event "model")
    (h : ∀ piece ∈ elementsOf event "choices", Readable piece "finish_reason") :
    chatEvent stream event = .ok (growChat stream event) := by
  unfold chatEvent growChat
  rw [foldlM_streamChoice _ h, optionalString_of_readable hm]
  cases stream.model <;> rfl

theorem foldl_usage (h : ∀ event ∈ events.dropLast, getOrNull event "usage" = .null) :
    events.foldl (fun usage event => (event.get "usage").getD usage) .null = lastUsage events := by
  have hn : ∀ before : List c.Json, (∀ event ∈ before, getOrNull event "usage" = .null) →
      before.foldl (fun usage event => (event.get "usage").getD usage) .null = .null := by
    intro before hb
    induction before with
    | nil => rfl
    | cons event _ ih =>
      have hev : (event.get "usage").getD .null = .null := hb event mem_cons_self
      rw [foldl_cons, hev]
      exact ih fun e he => hb e (mem_cons_of_mem _ he)
  obtain rfl | ⟨before, _, rfl⟩ := eq_nil_or_concat events
  · rfl
  · rw [concat_eq_append, dropLast_concat] at h
    rw [concat_eq_append, foldl_append, hn before h, lastUsage, getLast?_concat]
    rfl

/-- The completion that a stream gives: the content is never null. -/
def ChatCompletion.streamed (completion : ChatCompletion) : List (ℕ × StreamChoice) :=
  completion.choices.map fun choice => (choice.1, choice.2.streamed)

theorem foldlM_chatEvent (h : IsChatStream events completion) :
    events.foldlM chatEvent ⟨[], none, .null⟩ =
      .ok ⟨completion.streamed, completion.model, lastUsage events⟩ := by
  have hr : ∀ piece ∈ choicePieces events, Readable piece "finish_reason" := by
    intro piece hp
    obtain ⟨choice, hc, hi⟩ := List.mem_map.mp (h.known piece hp)
    have hme : piece ∈ piecesAt choice.1 (choicePieces events) :=
      mem_filter.mpr ⟨hp, decide_eq_true hi.symm⟩
    obtain hn | hs := (h.choices choice hc).finish piece hme
    · exact ⟨none, nofun, hn⟩
    · exact ⟨some _, fun heq => choice.2.ended (Option.some.inj heq), hs⟩
  have hmo : ∀ event ∈ events, Readable event "model" := by
    intro event hev
    obtain hn | hs := h.model event hev
    · exact ⟨none, nofun, hn⟩
    · exact ⟨completion.model, completion.named, hs⟩
  have hru : events.foldlM chatEvent ⟨[], none, .null⟩ =
      .ok (events.foldl growChat ⟨[], none, .null⟩) := by
    refine foldlM_ok (fun _ => True) (fun event hev stream _ => ?_) trivial
    refine ⟨chatEvent_eq stream (hmo event hev) fun piece hp => ?_, trivial⟩
    exact hr piece (mem_flatMap.mpr ⟨event, hev, hp⟩)
  have hch : collectChoices [] (choicePieces events) = completion.streamed := by
    have hk : completion.streamed.map Prod.fst = completion.choices.map Prod.fst := by
      rw [ChatCompletion.streamed, List.map_map]
      rfl
    refine collect_eq (by rw [Ordered, hk]; exact completion.ordered) ?_ ?_
    · rw [hk]
      exact h.known
    · intro _ hen
      obtain ⟨choice, hc, rfl⟩ := List.mem_map.mp hen
      have hse := h.choices choice hc
      obtain ⟨_, hp, -⟩ := hse.ended
      exact ⟨ne_nil_of_mem hp, foldl_growChoice_eq hse⟩
  have hna : events.findSome? (stringAt · "model") = completion.model := by
    have hre : ∀ event ∈ events, stringAt event "model" = none ∨
        stringAt event "model" = completion.model :=
      fun event hev => (h.model event hev).imp (stringAt_eq (s := none)) stringAt_eq
    cases hm : completion.model with
    | none =>
      rw [findSome?_eq_none_iff]
      intro event hev
      obtain hn | hs := hre event hev
      · exact hn
      · exact hs.trans hm
    | some =>
      obtain ⟨event, hev, hse⟩ := h.named (by rw [hm]; nofun)
      exact findSome?_eq (fun e he => hm ▸ hre e he) ⟨event, hev, hm ▸ stringAt_eq hse⟩
  rw [hru, foldl_growChat, hch, hna, foldl_usage h.noUsage]
  rfl

def ChatChoice.withText (choice : ChatChoice) : ChatChoice :=
  { choice with content := some (choice.content.getD "") }

def ChatCompletion.withText (completion : ChatCompletion) : ChatCompletion :=
  { completion with
    choices := completion.choices.map fun choice => (choice.1, choice.2.withText)
    ordered := by
      unfold Ordered
      rw [List.map_map]
      exact completion.ordered }

theorem StreamCall.toJson_isCall (call : StreamCall) : IsCall (call.toJson : c.Json) call :=
  ⟨rfl, rfl, rfl, rfl⟩

theorem ChatChoice.streamed_isChoice (choice : ChatChoice) :
    IsChoice (choice.streamed.toJson : c.Json) choice.withText where
  role := rfl
  content := rfl
  calls := by
    have he : elementsOf (getOrNull (choice.streamed.toJson : c.Json) "message")
        "tool_calls" = choice.calls.map fun call => call.2.toJson := rfl
    rw [he, forall₂_map_left_iff, forall₂_map_right_iff]
    exact forall₂_same.mpr fun call _ => call.2.toJson_isCall
  finish := rfl

/-- The response that is rebuilt from a stream is the completion, but for its null contents. -/
theorem openaiChatSse_isCompletion (h : IsChatStream events completion) :
    ∃ response, openaiChatSse events = .ok response ∧
      IsCompletion response completion.withText := by
  have hs : openaiChatSse events = .ok (.object [
      ("choices", .array (completion.streamed.map fun choice => choice.2.toJson)),
      ("model", optionalJson completion.model), ("usage", lastUsage events)]) := by
    rw [openaiChatSse, foldlM_chatEvent h]
    rfl
  refine ⟨_, hs, ⟨_, rfl, ?_⟩, rfl, h.usage⟩
  rw [ChatCompletion.streamed, ChatCompletion.withText, List.map_map, List.map_map,
    forall₂_map_left_iff, forall₂_map_right_iff]
  exact forall₂_same.mpr fun choice _ => choice.2.streamed_isChoice

/-- A null content gains a part when it is read as text. -/
theorem ChatChoice.withText_message_eq :
    (choice.withText.message : c.Json) = choice.message ↔ choice.content ≠ none := by
  obtain ⟨content, _, _, _, _⟩ := choice
  cases content with
  | some => exact iff_of_true rfl nofun
  | none =>
    refine iff_of_false (fun he => ?_) (not_not.mpr rfl)
    have hm := Value.object.inj he
    simp [withText, parts] at hm

/-- A stream is read as the completion in one piece if and only if no content is null. -/
theorem chat_stream_matches {response : c.Json} {events : List c.Json}
    (completion : ChatCompletion) (hresponse : IsCompletion response completion)
    (hevents : IsChatStream events completion) :
    (openaiChatSse events >>= openaiChatOutput) = openaiChatOutput response ↔
      ∀ choice ∈ completion.choices, choice.2.content ≠ none := by
  obtain ⟨_, hsse, hrebuilt⟩ := openaiChatSse_isCompletion hevents
  have hmessages : ∀ choice : ℕ × ChatChoice,
      ((fun choice : ℕ × ChatChoice => (choice.2.message : c.Json)) ∘
        fun choice => (choice.1, choice.2.withText)) choice = choice.2.message ↔
      choice.2.content ≠ none := fun choice => ChatChoice.withText_message_eq
  have hfinish : completion.withText.choices.map (fun choice => choice.2.finish) =
      completion.choices.map fun choice => choice.2.finish := List.map_map
  rw [hsse, ok_bind, openaiChatOutput_of_isCompletion hrebuilt,
    openaiChatOutput_of_isCompletion hresponse]
  simp only [← hmessages, ← map_inj_left, ← List.map_map]
  constructor
  · intro heq
    exact Value.array.inj (congrArg ProviderOutput.messages (Except.ok.inj heq))
  · intro heq
    have houtput : (completion.withText.output : ProviderOutput c) = completion.output := by
      unfold ChatCompletion.output
      rw [hfinish]
      exact congrArg (fun messages => ProviderOutput.mk (.array messages) _ _ _ _) heq
    rw [houtput]

theorem model_named : some "m" ≠ some "" := by decide

def callCompletion (content : Option String) : ChatCompletion where
  choices := [(0, ⟨content, [(0, ⟨"a", "f", "\x7b\x7d"⟩)], "tool_calls", pairwise_singleton ..,
    by decide⟩)]
  model := some "m"
  inputTokens := some 3
  outputTokens := none
  ordered := pairwise_singleton ..
  named := model_named

def callUsage : c.Json := .object [("prompt_tokens", .number (.unsigned 3))]

def callResponse (content : Option String) : c.Json :=
  .object [("choices", .array [.object [("finish_reason", .string "tool_calls"),
      ("message", .object [("content", optionalJson content), ("role", .string "assistant"),
        ("tool_calls", .array [StreamCall.toJson ⟨"a", "f", "\x7b\x7d"⟩])])]]),
    ("model", .string "m"), ("usage", callUsage)]

/-- The call is sent with its first fragment and the reason to finish with its second. -/
def callEvents (content : Option String) : List c.Json :=
  [.object [("choices", .array [.object [("delta", .object [("content", optionalJson content),
      ("tool_calls", .array [.object [("function", .object [("arguments", .string "\x7b"),
        ("name", .string "f")]), ("id", .string "a"), ("index", .number (.unsigned 0))]])]),
      ("index", .number (.unsigned 0))]]), ("model", .string "m")],
    .object [("choices", .array [.object [("delta", .object [
      ("tool_calls", .array [.object [("function", .object [("arguments", .string "\x7d")]),
        ("index", .number (.unsigned 0))]])]),
      ("finish_reason", .string "tool_calls"), ("index", .number (.unsigned 0))]]),
      ("usage", callUsage)]]

theorem callResponse_isCompletion (content : Option String) :
    IsCompletion (callResponse content : c.Json) (callCompletion content) where
  choices := ⟨_, rfl, .cons ⟨rfl, rfl, .cons (StreamCall.toJson_isCall _) .nil, rfl⟩ .nil⟩
  model := rfl
  usage := ⟨rfl, rfl⟩

theorem callEvents_sent (content : Option String) :
    ChoiceSent (piecesAt 0 (choicePieces (callEvents content : List c.Json)))
      ⟨content, [(0, ⟨"a", "f", "\x7b\x7d"⟩)], "tool_calls", pairwise_singleton .., by decide⟩ where
  content text ht := by
    obtain rfl : content = some text := ht
    show String.join [text] = text
    rw [join_cons, join_nil, append_empty]
  noContent hno := by
    obtain rfl : content = none := hno
    rfl
  known := by
    rintro _ (_ | ⟨_, _ | ⟨_, hn⟩⟩)
    · exact mem_singleton.mpr rfl
    · exact mem_singleton.mpr rfl
    · cases hn
  calls := by
    rintro _ (_ | ⟨_, hn⟩)
    · exact ⟨rfl, rfl, rfl⟩
    · cases hn
  finish := by
    rintro _ (_ | ⟨_, _ | ⟨_, hn⟩⟩)
    · exact .inl rfl
    · exact .inr rfl
    · cases hn
  ended := ⟨_, mem_cons_of_mem _ mem_cons_self, rfl⟩

theorem callEvents_isChatStream (content : Option String) :
    IsChatStream (callEvents content : List c.Json) (callCompletion content) where
  known := by
    rintro _ (_ | ⟨_, _ | ⟨_, hn⟩⟩)
    · exact mem_singleton.mpr rfl
    · exact mem_singleton.mpr rfl
    · cases hn
  choices := by
    rintro _ (_ | ⟨_, hn⟩)
    · exact callEvents_sent content
    · cases hn
  model := by
    rintro _ (_ | ⟨_, _ | ⟨_, hn⟩⟩)
    · exact .inr rfl
    · exact .inl rfl
    · cases hn
  named _ := ⟨_, mem_cons_self, rfl⟩
  noUsage := by
    rintro _ (_ | ⟨_, hn⟩)
    · rfl
    · cases hn
  usage := ⟨rfl, rfl⟩

theorem chat_stream_matches_sample :
    (openaiChatSse (callEvents (some "hi")) >>= openaiChatOutput) =
      openaiChatOutput (callResponse (some "hi") : sampleCrates.Json) :=
  (chat_stream_matches (callCompletion (some "hi")) (callResponse_isCompletion _)
    (callEvents_isChatStream _)).mpr (by decide)

/-- A call without content gets an empty text before it when it comes as a stream. -/
theorem null_content_streams_as_text :
    IsCompletion (callResponse none : sampleCrates.Json) (callCompletion none) ∧
      IsChatStream (callEvents none : List sampleCrates.Json) (callCompletion none) ∧
      ∃ streamed direct, (openaiChatSse (callEvents none : List sampleCrates.Json) >>=
          openaiChatOutput) = .ok streamed ∧
        openaiChatOutput (callResponse none : sampleCrates.Json) = .ok direct ∧
        streamed.messages = .array [ChatChoice.message ⟨some "", [(0, ⟨"a", "f", "\x7b\x7d"⟩)],
          "tool_calls", pairwise_singleton .., by decide⟩] ∧
        direct.messages = .array [ChatChoice.message ⟨none, [(0, ⟨"a", "f", "\x7b\x7d"⟩)],
          "tool_calls", pairwise_singleton .., by decide⟩] ∧
        streamed.messages ≠ direct.messages := by
  refine ⟨callResponse_isCompletion none, callEvents_isChatStream none, _, _, rfl, rfl, rfl, rfl,
    fun heq => ?_⟩
  have hmessages := Value.array.inj heq
  have hmembers := Value.object.inj (List.cons.inj hmessages).1
  have hparts := Value.array.inj (Prod.mk.inj (List.cons.inj (List.cons.inj hmembers).2).1).2
  exact absurd (congrArg List.length hparts) (by decide)

end Notary.Core
