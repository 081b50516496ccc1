import Notary.Core.ArchiveRoundTrip
import Notary.Core.Fragments

/-! An Anthropic message in one piece and as the events of a stream: when both are read alike. -/

namespace Notary.Core
open Utf8 Json List Option Result String

variable {c : Crates} {block saved event start response : c.Json} {deltas events : List c.Json}

/-- A block of text, or a tool use with the members of its input. -/
inductive MessageBlock (c : Crates)
  | text (text : String)
  | toolUse (id name : String) (input : List (String × c.Json))

structure AnthropicMessage (c : Crates) where
  blocks : List (ℕ × MessageBlock c)
  model : Option String
  stopReason : Option String
  inputTokens : Option UInt64
  outputTokens : Option UInt64
  ordered : Ordered blocks
  named : model ≠ some ""
  stopped : stopReason ≠ some ""

/-! The message as one response. -/

def IsBlock (value : c.Json) : MessageBlock c → Prop
  | .text text => value.get "type" = some (.string "text") ∧ value.get "text" = some (.string text)
  | .toolUse id name input => value.get "type" = some (.string "tool_use") ∧
      value.get "id" = some (.string id) ∧ value.get "name" = some (.string name) ∧
      value.get "input" = some (.object input)

structure IsMessage (response : c.Json) (message : AnthropicMessage c) : Prop where
  content : ∃ values, response.get "content" = some (.array values) ∧
    List.Forall₂ IsBlock values (message.blocks.map Prod.snd)
  model : getOrNull response "model" = optionalJson message.model
  stopReason : getOrNull response "stop_reason" = optionalJson message.stopReason
  inputTokens : getOrNull (getOrNull response "usage") "input_tokens" =
    optionalNumber message.inputTokens
  outputTokens : getOrNull (getOrNull response "usage") "output_tokens" =
    optionalNumber message.outputTokens

/-! The message as a stream. -/

def isBlockEvent (event : c.Json) : Bool :=
  hasType event "content_block_start" || hasType event "content_block_delta"

def blockEvents (index : ℕ) (events : List c.Json) : List c.Json :=
  (events.filter isBlockEvent).filter (indexOf · "index" = index)

/-- A block that starts without text, and the fragments of its text. -/
structure TextSent (block : c.Json) (deltas : List c.Json) (text : String) : Prop where
  type : block.get "type" = some (.string "text")
  empty : block.get "text" = some (.string "")
  onlyText : ∀ delta ∈ deltas, stringAt delta "partial_json" = none
  fragments : String.join (strings "text" deltas) = text

/-- A block that starts without input, and the fragments of a text of its input. Without members
it is one empty fragment. -/
structure InputSent (block : c.Json) (deltas : List c.Json) (id name : String)
    (input : List (String × c.Json)) : Prop where
  type : block.get "type" = some (.string "tool_use")
  id : block.get "id" = some (.string id)
  name : block.get "name" = some (.string name)
  empty : block.get "input" = some (.object [])
  onlyInput : ∀ delta ∈ deltas, stringAt delta "text" = none
  noMembers : input = [] → strings "partial_json" deltas = [""]
  fragments : input ≠ [] →
    parseJson c (chars (String.join (strings "partial_json" deltas))) = some (.object input)

def ContentSent (block : c.Json) (deltas : List c.Json) : MessageBlock c → Prop
  | .text text => TextSent block deltas text
  | .toolUse id name input => InputSent block deltas id name input

/-- The start of a block and then its deltas, of which there is at least one. -/
structure BlockSent (start : c.Json) (deltas : List c.Json) (block : MessageBlock c) : Prop where
  opens : hasType start "content_block_start"
  adds : ∀ delta ∈ deltas, hasType delta "content_block_delta"
  nonempty : deltas ≠ []
  content : ContentSent (getOrNull start "content_block") (deltas.map (getOrNull · "delta")) block

structure IsMessageStart (event : c.Json) (message : AnthropicMessage c) : Prop where
  model : getOrNull (getOrNull event "message") "model" = optionalJson message.model
  inputTokens : getOrNull (getOrNull (getOrNull event "message") "usage") "input_tokens" =
    optionalNumber message.inputTokens

structure IsMessageDelta (event : c.Json) (message : AnthropicMessage c) : Prop where
  stopReason : getOrNull (getOrNull event "delta") "stop_reason" = optionalJson message.stopReason
  outputTokens : getOrNull (getOrNull event "usage") "output_tokens" =
    optionalNumber message.outputTokens

/-- The blocks may be interleaved, with other events between them. -/
structure IsMessageStream (events : List c.Json) (message : AnthropicMessage c) : Prop where
  start : ∃ event, events.filter (hasType · "message_start") = [event] ∧
    IsMessageStart event message
  known : ∀ event ∈ events.filter isBlockEvent,
    indexOf event "index" ∈ message.blocks.map Prod.fst
  blocks : ∀ block ∈ message.blocks, ∃ start deltas,
    blockEvents block.1 events = start :: deltas ∧ BlockSent start deltas block.2
  delta : ∃ event, events.filter (hasType · "message_delta") = [event] ∧
    IsMessageDelta event message

/-! What both give. -/

def MessageBlock.part : MessageBlock c → c.Json
  | .text s => textPart s
  | .toolUse id name input => toolCall id name (.object input)

def MessageBlock.streamedPart : MessageBlock c → c.Json
  | .text s => textPart s
  | .toolUse id name [] => toolCall id name (.string "")
  | .toolUse id name input => toolCall id name (.object input)

def AnthropicMessage.output (message : AnthropicMessage c) (parts : List c.Json) :
    ProviderOutput c where
  messages := .array [Core.message "assistant" parts (some (optionalJson message.stopReason))]
  model := message.model
  inputTokens := message.inputTokens
  outputTokens := message.outputTokens
  finishReasons := message.stopReason.toList

theorem message_eq_of_string {role : String} {parts : List c.Json} {a b : Option c.Json}
    (h : a.bind Value.asStr = b.bind Value.asStr) :
    message role parts a = message role parts b := by
  unfold message
  rw [h]

theorem get_parts (role : String) (parts : List c.Json) (finishReason : Option c.Json) :
    (message role parts finishReason).get "parts" = some (.array parts) := by
  unfold message
  split <;> rfl

variable {value : c.Json}

theorem anthropicPart_of_isBlock {block : MessageBlock c}
    (h : IsBlock value block) : anthropicPart value = some block.part := by
  cases block with
  | text =>
    obtain ⟨ht, hte⟩ := h
    simp [anthropicPart, ht, hte, stringOr, Value.asStr, MessageBlock.part]
  | toolUse =>
    obtain ⟨ht, hid, hn, hi⟩ := h
    simp [anthropicPart, ht, hid, hn, stringOr, getOrNull, hi, Value.asStr,
      MessageBlock.part, parseJsonOrString]

/-- The output of a response with the members of a message and some content. -/
theorem anthropicOutput_eq {message : AnthropicMessage c}
    {values parts : List c.Json} (hc : response.get "content" = some (.array values))
    (hp : anthropicParts values = parts)
    (hmo : getOrNull response "model" = optionalJson message.model)
    (hs : getOrNull response "stop_reason" = optionalJson message.stopReason)
    (hi : getOrNull (getOrNull response "usage") "input_tokens" =
      optionalNumber message.inputTokens)
    (ho : getOrNull (getOrNull response "usage") "output_tokens" =
      optionalNumber message.outputTokens) :
    anthropicOutput response = .ok (message.output parts) := by
  have hr : (response.get "stop_reason").bind Value.asStr = message.stopReason := stringAt_eq hs
  have hm : Core.message "assistant" parts (response.get "stop_reason") =
      Core.message "assistant" parts (some (optionalJson message.stopReason)) := by
    refine message_eq_of_string (hr.trans ?_)
    cases message.stopReason <;> rfl
  simp only [anthropicOutput, hc, bind_some, Value.asArray, orBail, ok_bind,
    hp, hm, optionalString_eq "Anthropic response" hmo message.named,
    optionalString_eq "Anthropic response" hs message.stopped, optionalU64_eq hi,
    optionalU64_eq ho]
  rfl

theorem anthropicParts_eq {α : Type} {as : List α} {part : α → c.Json}
    (h : List.Forall₂ (fun value a => anthropicPart value = some (part a)) values as) :
    anthropicParts values = as.map part := by
  unfold anthropicParts
  induction h with
  | nil => rfl
  | cons hp _ ih => rw [filterMap_cons_some hp, ih, map_cons]

theorem anthropicOutput_of_isMessage {message : AnthropicMessage c}
    (h : IsMessage response message) : anthropicOutput response =
      .ok (message.output (message.blocks.map fun block => block.2.part)) := by
  obtain ⟨values, hv, ha⟩ := h.content
  have hp : anthropicParts values = message.blocks.map fun block => block.2.part := by
    rw [forall₂_map_right_iff] at ha
    exact anthropicParts_eq (ha.imp fun _ _ => anthropicPart_of_isBlock)
  exact anthropicOutput_eq hv hp h.model h.stopReason h.inputTokens h.outputTokens

/-! The run of a stream. -/

def textBlock : c.Json := .object [("text", .string ""), ("type", .string "text")]

def IsObject (value : c.Json) : Prop := ∃ members, value = .object members

/-- The assignment to a member of an object. -/
def setMember (value : c.Json) (key : String) (member : c.Json) : c.Json :=
  match value with
  | .object members => .object (Value.insertMember key member members)
  | value => value

def appended (block : c.Json) (key : String) (text : Option String) : c.Json :=
  match text with
  | some text => setMember block key (.string (stringOr block key ++ text))
  | none => block

theorem appendMember_eq (h : IsObject block) (key : String)
    (text : Option String) : appendMember block key text = .ok (appended block key text) := by
  obtain ⟨_, rfl⟩ := h
  cases text <;> rfl

theorem isObject_appended (h : IsObject block) (key : String)
    (text : Option String) : IsObject (appended block key text) := by
  obtain ⟨members, rfl⟩ := h
  cases text with
  | none => exact ⟨members, rfl⟩
  | some => exact ⟨_, rfl⟩

variable {key : String}

theorem isObject_of_get {member : c.Json} (h : value.get key = some member) : IsObject value := by
  cases value with
  | object members => exact ⟨members, rfl⟩
  | _ => cases h

theorem get_appended (h : IsObject block) (text : String) :
    (appended block key (some text)).get key = some (.string (stringOr block key ++ text)) := by
  obtain ⟨_, rfl⟩ := h
  exact Value.get_insertMember ..

theorem get_appended_of_ne (hn : other ≠ key) (text : Option String) :
    (appended block key text).get other = block.get other := by
  cases text with
  | none => rfl
  | some =>
    cases block with
    | object => exact Value.get_insertMember_of_ne hn ..
    | _ => rfl

def growBlock (saved event : c.Json) : c.Json :=
  if hasType event "content_block_start" then getOrNull event "content_block"
  else appended (appended saved "text" (stringAt (getOrNull event "delta") "text")) "input"
    (stringAt (getOrNull event "delta") "partial_json")

def collectBlocks (blocks : List (ℕ × c.Json)) (events : List c.Json) : List (ℕ × c.Json) :=
  collect (indexOf · "index") growBlock textBlock blocks events

def numberAt (value : c.Json) (key : String) : Option UInt64 := (value.get key).bind Value.asU64

theorem numberAt_eq (h : getOrNull value key = optionalNumber n) : numberAt value key = n := by
  unfold numberAt
  cases n with
  | none => obtain hg | hg := get_of_null h <;> rw [hg] <;> rfl
  | some =>
    rw [get_of_not_null h nofun]
    rfl

/-- A member that is missing, null or a count. -/
def Counted (value : c.Json) (key : String) : Prop :=
  ∃ n : Option UInt64, getOrNull value key = optionalNumber n

theorem optionalU64_of_counted (h : Counted value key) :
    optionalU64 value key = .ok (numberAt value key) := by
  obtain ⟨_, he⟩ := h
  rw [optionalU64_eq he, numberAt_eq he]

def growMessage (stream : AnthropicStream c) (event : c.Json) : AnthropicStream c where
  model := if hasType event "message_start" then stringAt (getOrNull event "message") "model"
    else stream.model
  inputTokens := if hasType event "message_start" then
      numberAt (getOrNull (getOrNull event "message") "usage") "input_tokens"
    else stream.inputTokens
  outputTokens := if hasType event "message_delta" then
      numberAt (getOrNull event "usage") "output_tokens"
    else stream.outputTokens
  stopReason := if hasType event "message_delta" then
      stringAt (getOrNull event "delta") "stop_reason"
    else stream.stopReason
  blocks := if isBlockEvent event then collectBlocks stream.blocks [event] else stream.blocks

theorem foldl_growMessage (stream : AnthropicStream c) (events : List c.Json) :
    events.foldl growMessage stream =
      ⟨(events.filter (hasType · "message_start")).foldl
          (fun _ event => stringAt (getOrNull event "message") "model") stream.model,
        (events.filter (hasType · "message_start")).foldl
          (fun _ event => numberAt (getOrNull (getOrNull event "message") "usage") "input_tokens")
          stream.inputTokens, (events.filter (hasType · "message_delta")).foldl
          (fun _ event => numberAt (getOrNull event "usage") "output_tokens") stream.outputTokens,
        (events.filter (hasType · "message_delta")).foldl
          (fun _ event => stringAt (getOrNull event "delta") "stop_reason") stream.stopReason,
        collectBlocks stream.blocks (events.filter isBlockEvent)⟩ := by
  unfold collectBlocks collect
  simp only [foldl_filter]
  induction events generalizing stream with
  | nil => rfl
  | cons _ _ ih =>
    rw [foldl_cons, ih]
    rfl

/-- The blocks of a stream are objects in the order of their indices. -/
structure Tidy (blocks : List (ℕ × c.Json)) : Prop where
  ordered : Ordered blocks
  objects : ∀ i block, blocks.lookup i = some block → IsObject block

/-- An event that can be read in any stream with tidy blocks. -/
structure Fits (event : c.Json) : Prop where
  start : hasType event "message_start" → Readable (getOrNull event "message") "model" ∧
    Counted (getOrNull (getOrNull event "message") "usage") "input_tokens"
  block : hasType event "content_block_start" → IsObject (getOrNull event "content_block")
  delta : hasType event "message_delta" → Readable (getOrNull event "delta") "stop_reason" ∧
    Counted (getOrNull event "usage") "output_tokens"

theorem isObject_growBlock (he : Fits event) (hs : IsObject saved) :
    IsObject (growBlock saved event) := by
  unfold growBlock
  split_ifs with hst
  · exact he.block hst
  · exact isObject_appended (isObject_appended hs ..) ..

theorem Tidy.isObject_getD {blocks : List (ℕ × c.Json)} (h : Tidy blocks) (i : ℕ) :
    IsObject ((blocks.lookup i).getD textBlock) := by
  cases hl : blocks.lookup i with
  | none => exact ⟨_, rfl⟩
  | some block => exact h.objects i block hl

theorem Tidy.collectBlocks (h : Tidy blocks) (he : Fits event) :
    Tidy (collectBlocks blocks [event]) where
  ordered := h.ordered.collect _
  objects i block hb := by
    have hl := lookup_alterEntry (k := indexOf event "index") (j := i)
      (f := fun saved => growBlock (saved.getD textBlock) event) h.ordered
    have hb := hl.symm.trans hb
    split_ifs at hb
    · obtain rfl := Option.some.inj hb
      exact isObject_growBlock he (h.isObject_getD _)
    · exact h.objects i block hb

theorem hasType_eq (h : (event.get "type").bind Value.asStr = some type) (name : String) :
    hasType event name = decide (type = name) := by
  rw [hasType, h]
  exact decide_eq_decide.mpr some_inj

theorem anthropicEvent_eq (h : Tidy stream.blocks) (he : Fits event) :
    anthropicEvent stream event = .ok (growMessage stream event) := by
  unfold anthropicEvent
  split
  · rename_i ht
    obtain ⟨hmo, hto⟩ := he.start (by rw [hasType_eq ht]; rfl)
    simp only [optionalString_of_readable hmo, optionalU64_of_counted hto, ok_bind]
    simp [growMessage, isBlockEvent, hasType_eq ht]
  · rename_i ht
    simp [growMessage, isBlockEvent, hasType_eq ht, collectBlocks, collect, growBlock]
  · rename_i ht
    have hb := h.isObject_getD (indexOf event "index")
    have hte := isObject_appended hb "text" (stringAt (getOrNull event "delta") "text")
    have hl := alterEntry_lookup (k := indexOf event "index") h.ordered
      fun saved => growBlock (saved.getD textBlock) event
    have hg : growMessage stream event = { stream with
        blocks := alterEntry (indexOf event "index")
          (fun saved => growBlock (saved.getD textBlock) event) stream.blocks } := by
      simp [growMessage, isBlockEvent, hasType_eq ht, collectBlocks, collect]
    have ha : ∀ saved, growBlock saved event =
        appended (appended saved "text" (stringAt (getOrNull event "delta") "text")) "input"
          (stringAt (getOrNull event "delta") "partial_json") := by
      intro _
      rw [growBlock, hasType_eq ht]
      rfl
    rw [hg, ← hl, ha]
    show (appendMember ((stream.blocks.lookup (indexOf event "index")).getD textBlock) "text"
      (stringAt (getOrNull event "delta") "text") >>= fun block =>
        appendMember block "input" (stringAt (getOrNull event "delta") "partial_json") >>= _) = _
    rw [appendMember_eq hb, ok_bind, appendMember_eq hte, ok_bind]
  · rename_i ht
    obtain ⟨hr, hto⟩ := he.delta (by rw [hasType_eq ht]; rfl)
    simp only [optionalString_of_readable hr, optionalU64_of_counted hto, ok_bind]
    simp [growMessage, isBlockEvent, hasType_eq ht]
  · rename_i hs hb hd hm
    have hn : ∀ name, ((event.get "type").bind Value.asStr = some name → False) →
        hasType event name = false := fun name => decide_eq_false
    simp [growMessage, isBlockEvent, hn _ hs, hn _ hb, hn _ hd, hn _ hm]

theorem Tidy.growMessage (h : Tidy stream.blocks) (he : Fits event) :
    Tidy (growMessage stream event).blocks := by
  show Tidy (if isBlockEvent event then Core.collectBlocks stream.blocks [event] else stream.blocks)
  split_ifs
  · exact h.collectBlocks he
  · exact h

theorem foldlM_anthropicEvent (h : ∀ event ∈ events, Fits event) :
    events.foldlM anthropicEvent ⟨none, none, none, none, []⟩ =
      .ok (events.foldl growMessage ⟨none, none, none, none, []⟩) :=
  foldlM_ok (fun stream => Tidy stream.blocks) (fun event he _ ht =>
      ⟨anthropicEvent_eq ht (h event he), ht.growMessage (h event he)⟩)
    ⟨ordered_nil, nofun⟩

/-! What the events of one block make of it. -/

theorem get_foldl_appended {α : Type} (f : α → Option String) (key : String) (hb : IsObject block)
    (as : List α) (other : String) :
    (as.foldl (fun block a => appended block key (f a)) block).get other =
      if other = key ∧ as.filterMap f ≠ [] then
        some (.string (stringOr block key ++ String.join (as.filterMap f)))
      else block.get other := by
  induction as generalizing block with
  | nil => simp
  | cons a as ih =>
    rw [foldl_cons, ih (isObject_appended hb ..)]
    cases hf : f a with
    | none =>
      rw [filterMap_cons_none hf]
      rfl
    | some text =>
      have hs : stringOr (appended block key (some text)) key = stringOr block key ++ text := by
        rw [stringOr, get_appended hb]
        rfl
      rw [filterMap_cons_some hf, hs, join_cons, ← String.append_assoc]
      by_cases hk : other = key
      · subst hk
        have hc : other = other ∧ text :: as.filterMap f ≠ [] := ⟨rfl, cons_ne_nil _ _⟩
        rw [if_pos hc, get_appended hb]
        split_ifs with hr
        · rfl
        · have hn : as.filterMap f = [] := by simpa using hr
          rw [hn, join_nil, append_empty]
      · rw [if_neg fun h => hk h.1, if_neg fun h => hk h.1, get_appended_of_ne hk]

theorem growBlock_start (h : hasType event "content_block_start") :
    growBlock saved event = getOrNull event "content_block" := if_pos h

theorem growBlock_delta (h : hasType event "content_block_delta") : growBlock saved event =
      appended (appended saved "text" (stringAt (getOrNull event "delta") "text")) "input"
        (stringAt (getOrNull event "delta") "partial_json") := by
  have hs : ¬hasType event "content_block_start" = true := by
    rw [hasType_eq (of_decide_eq_true h)]
    decide
  exact if_neg hs

theorem foldl_growBlock (key member : String)
    (h : ∀ event ∈ events, ∀ saved, growBlock saved event =
      appended saved member (stringAt (getOrNull event "delta") key)) :
    events.foldl growBlock block = (events.map (getOrNull · "delta")).foldl
      (fun block delta => appended block member (stringAt delta key)) block := by
  rw [foldl_map]
  exact foldl_ext _ _ _ fun saved event he => h event he saved

theorem anthropicPart_text (h : TextSent block deltas text) :
    anthropicPart (deltas.foldl (fun block delta => appended block "text" (stringAt delta "text"))
      block) = some (textPart text) := by
  have hg := get_foldl_appended (stringAt · "text") "text" (isObject_of_get h.type) deltas
  have hty := hg "type"
  have ht := hg "text"
  have he : stringOr block "text" = "" := by
    rw [stringOr, h.empty]
    rfl
  rw [if_neg fun hk => absurd hk.1 (by decide), h.type] at hty
  rw [he, empty_append, h.empty] at ht
  have hr : stringOr (deltas.foldl
      (fun block delta => appended block "text" (stringAt delta "text")) block) "text" = text := by
    rw [stringOr, ht, ← h.fragments]
    split_ifs with hs
    · rfl
    · have hn : strings "text" deltas = [] := by simpa [strings] using hs
      rw [hn]
      rfl
  simp only [anthropicPart, hty, bind_some, Value.asStr, hr]

variable {input : List (String × c.Json)}

/-- The fragments of an input, and what is read of them. -/
theorem InputSent.parse {id name : String} (h : InputSent block deltas id name input) :
    strings "partial_json" deltas ≠ [] ∧
      toolCall id name (parseJsonOrString
        (.string (String.join (strings "partial_json" deltas)) : c.Json)) =
        MessageBlock.streamedPart (.toolUse id name input) := by
  cases input with
  | nil =>
    rw [h.noMembers rfl]
    exact ⟨nofun, rfl⟩
  | cons =>
    have hp := h.fragments (cons_ne_nil _ _)
    refine ⟨fun hn => ?_, ?_⟩
    · rw [hn] at hp
      cases hp
    · rw [parseJsonOrString, Value.asStr, bind_some, hp]
      rfl

theorem anthropicPart_input {id name : String} (h : InputSent block deltas id name input) :
    anthropicPart (deltas.foldl
      (fun block delta => appended block "input" (stringAt delta "partial_json")) block) =
        some (MessageBlock.streamedPart (.toolUse id name input)) := by
  have hg := get_foldl_appended (stringAt · "partial_json") "input" (isObject_of_get h.type) deltas
  have ho : ∀ other, other ≠ "input" → (deltas.foldl
      (fun block delta => appended block "input" (stringAt delta "partial_json")) block).get other =
        block.get other :=
    fun other hne => (hg other).trans (if_neg fun hk => hne hk.1)
  have he : stringOr block "input" = "" := by
    rw [stringOr, h.empty]
    rfl
  obtain ⟨hs, hp⟩ := h.parse
  have hi := (hg "input").trans (if_pos ⟨rfl, hs⟩)
  rw [he, empty_append] at hi
  have hid := (ho "id" (by decide)).trans h.id
  have hn := (ho "name" (by decide)).trans h.name
  have ht := (ho "type" (by decide)).trans h.type
  simp only [anthropicPart, ht, hid, hn, stringOr, getOrNull, hi, bind_some, getD_some, Value.asStr]
  exact congrArg some hp

theorem anthropicPart_of_blockSent {block : MessageBlock c} (h : BlockSent start deltas block) :
    anthropicPart ((start :: deltas).foldl growBlock textBlock) = some block.streamedPart := by
  rw [foldl_cons, growBlock_start h.opens]
  have hc := h.content
  cases block with
  | text text =>
    rw [foldl_growBlock "text" "text" ?_]
    · exact anthropicPart_text hc
    · intro event he _
      rw [growBlock_delta (h.adds event he), hc.onlyText _ (List.mem_map_of_mem he)]
      rfl
  | toolUse _ _ input =>
    rw [foldl_growBlock "partial_json" "input" ?_]
    · exact anthropicPart_input hc
    · intro event he _
      rw [growBlock_delta (h.adds event he), hc.onlyInput _ (List.mem_map_of_mem he)]
      rfl

/-! The two readings of a message. -/

/-- The blocks that the events of a message leave. -/
def AnthropicMessage.streamed (message : AnthropicMessage c) (events : List c.Json) :
    List (ℕ × c.Json) :=
  message.blocks.map fun block =>
    (block.1, (blockEvents block.1 events).foldl growBlock textBlock)

theorem IsMessageStream.fits {message : AnthropicMessage c}
    (h : IsMessageStream events message) : ∀ event ∈ events, Fits event := by
  intro event he
  obtain ⟨_, hf, hs⟩ := h.start
  obtain ⟨_, hl, hd⟩ := h.delta
  refine ⟨fun ht => ?_, fun ht => ?_, fun ht => ?_⟩
  · have hm : event ∈ events.filter (hasType · "message_start") := mem_filter.mpr ⟨he, ht⟩
    rw [hf, mem_singleton] at hm
    subst hm
    exact ⟨⟨_, message.named, hs.model⟩, _, hs.inputTokens⟩
  · have hb : event ∈ events.filter isBlockEvent :=
      mem_filter.mpr ⟨he, Bool.or_eq_true_iff.mpr (.inl ht)⟩
    obtain ⟨block, hm, hi⟩ := List.mem_map.mp (h.known event hb)
    obtain ⟨_, _, hev, hse⟩ := h.blocks block hm
    have hm : event ∈ blockEvents block.1 events := mem_filter.mpr ⟨hb, decide_eq_true hi.symm⟩
    rw [hev] at hm
    obtain rfl | hm := mem_cons.mp hm
    · have hc := hse.content
      cases hk : block.2 with
      | text =>
        rw [hk] at hc
        exact isObject_of_get (TextSent.type hc)
      | toolUse =>
        rw [hk] at hc
        exact isObject_of_get (InputSent.type hc)
    · have ho := hse.adds event hm
      rw [hasType_eq (of_decide_eq_true ht)] at ho
      exact absurd ho (by decide)
  · have hm : event ∈ events.filter (hasType · "message_delta") := mem_filter.mpr ⟨he, ht⟩
    rw [hl, mem_singleton] at hm
    subst hm
    exact ⟨⟨_, message.stopped, hd.stopReason⟩, _, hd.outputTokens⟩

theorem anthropicSse_eq {message : AnthropicMessage c} (h : IsMessageStream events message) :
    anthropicSse events = .ok (.object [ ("content", .array ((message.streamed events).map (·.2))),
      ("model", optionalJson message.model), ("stop_reason", optionalJson message.stopReason),
      ("usage", .object [("input_tokens", optionalNumber message.inputTokens),
        ("output_tokens", optionalNumber message.outputTokens)])]) := by
  obtain ⟨_, hf, hs⟩ := h.start
  obtain ⟨_, hl, hd⟩ := h.delta
  have hb : collectBlocks [] (events.filter isBlockEvent) = message.streamed events := by
    have hk : (message.streamed events).map Prod.fst = message.blocks.map Prod.fst := by
      rw [AnthropicMessage.streamed, List.map_map]
      rfl
    refine collect_eq (by rw [Ordered, hk]; exact message.ordered) ?_ ?_
    · rw [hk]
      exact h.known
    · intro _ hen
      obtain ⟨block, hbl, rfl⟩ := List.mem_map.mp hen
      obtain ⟨start, deltas, he, -⟩ := h.blocks block hbl
      refine ⟨fun hn => ?_, rfl⟩
      exact cons_ne_nil start deltas (he.symm.trans hn)
  rw [anthropicSse, foldlM_anthropicEvent h.fits, foldl_growMessage, hf, hl, hb,
    foldl_cons, foldl_cons, foldl_cons, foldl_cons,
    stringAt_eq hs.model, numberAt_eq hs.inputTokens, numberAt_eq hd.outputTokens,
    stringAt_eq hd.stopReason]
  rfl

theorem anthropicOutput_of_stream {message : AnthropicMessage c}
    (h : IsMessageStream events message) : (anthropicSse events >>= anthropicOutput) =
      .ok (message.output (message.blocks.map fun block => block.2.streamedPart)) := by
  have hp : anthropicParts ((message.streamed events).map (·.2)) =
      message.blocks.map fun block => block.2.streamedPart := by
    refine anthropicParts_eq ?_
    rw [AnthropicMessage.streamed, List.map_map, forall₂_map_left_iff, forall₂_same]
    intro block hb
    obtain ⟨_, _, he, hs⟩ := h.blocks block hb
    simp only [Function.comp_apply, he]
    exact anthropicPart_of_blockSent hs
  rw [anthropicSse_eq h, ok_bind]
  exact anthropicOutput_eq rfl hp rfl rfl rfl rfl

theorem MessageBlock.streamedPart_eq {block : MessageBlock c} :
    block.streamedPart = block.part ↔ ∀ id name, block ≠ .toolUse id name [] := by
  match block with
  | .text s => exact iff_of_true rfl nofun
  | .toolUse id name (e :: input) => exact iff_of_true rfl nofun
  | .toolUse id name [] =>
    refine iff_of_false (fun he => ?_) fun h => h id name rfl
    have hm := Value.object.inj he
    cases hm

/-- A stream is read as the message in one piece if and only if no tool use has an empty input. -/
theorem anthropic_stream_matches {events : List c.Json}
    (message : AnthropicMessage c) (hresponse : IsMessage response message)
    (hevents : IsMessageStream events message) :
    (anthropicSse events >>= anthropicOutput) = anthropicOutput response ↔
      ∀ block ∈ message.blocks, ∀ id name, block.2 ≠ .toolUse id name [] := by
  rw [anthropicOutput_of_stream hevents, anthropicOutput_of_isMessage hresponse]
  simp only [← MessageBlock.streamedPart_eq, ← map_inj_left]
  constructor
  · intro heq
    have hmessages := Value.array.inj (congrArg ProviderOutput.messages (Except.ok.inj heq))
    have hparts := congrArg (fun value : c.Json => value.get "parts") (List.cons.inj hmessages).1
    rw [get_parts, get_parts] at hparts
    exact Value.array.inj (Option.some.inj hparts)
  · intro heq
    rw [heq]

def toolMessage (input : List (String × c.Json)) : AnthropicMessage c where
  blocks := [(0, .toolUse "t" "f" input)]
  model := some "m"
  stopReason := some "tool_use"
  inputTokens := some 3
  outputTokens := some 4
  ordered := pairwise_singleton ..
  named := by decide
  stopped := by decide

def toolBlock (input : List (String × c.Json)) : c.Json :=
  .object [("id", .string "t"), ("input", .object input), ("name", .string "f"),
    ("type", .string "tool_use")]

def toolResponse (input : List (String × c.Json)) : c.Json :=
  .object [("content", .array [toolBlock input]), ("model", .string "m"),
    ("stop_reason", .string "tool_use"),
    ("usage", .object [("input_tokens", .number (.unsigned 3)),
      ("output_tokens", .number (.unsigned 4))])]

def toolEvents (fragment : String) : List c.Json :=
  [.object [("message", .object [("model", .string "m"),
      ("usage", .object [("input_tokens", .number (.unsigned 3))])]),
      ("type", .string "message_start")],
    .object [("content_block", toolBlock []), ("type", .string "content_block_start")],
    .object [("delta", .object [("partial_json", .string fragment)]),
      ("type", .string "content_block_delta")],
    .object [("delta", .object [("stop_reason", .string "tool_use")]),
      ("type", .string "message_delta"),
      ("usage", .object [("output_tokens", .number (.unsigned 4))])]]

theorem toolResponse_isMessage (input : List (String × c.Json)) :
    IsMessage (toolResponse input) (toolMessage input) where
  content := ⟨_, rfl, .cons ⟨rfl, rfl, rfl, rfl⟩ .nil⟩
  model := rfl
  stopReason := rfl
  inputTokens := rfl
  outputTokens := rfl

theorem toolEvents_isMessageStream (he : input = [] → fragment = "")
    (hf : input ≠ [] → parseJson c (chars fragment) = some (.object input)) :
    IsMessageStream (toolEvents fragment) (toolMessage input) where
  start := ⟨_, rfl, rfl, rfl⟩
  known := by
    rintro _ (_ | ⟨_, _ | ⟨_, hn⟩⟩)
    · exact mem_cons_self
    · exact mem_cons_self
    · cases hn
  blocks := by
    rintro _ (_ | ⟨_, hn⟩)
    · refine ⟨_, _, rfl, rfl, ?_, nofun, rfl, rfl, rfl, rfl, ?_, fun hn => ?_, fun hne => ?_⟩
      · rintro _ (_ | ⟨_, hn⟩)
        · rfl
        · cases hn
      · rintro _ (_ | ⟨_, hn⟩)
        · rfl
        · cases hn
      · rw [he hn]
        rfl
      · have hj : String.join [fragment] = fragment := by simp
        exact (congrArg (fun text => parseJson c (chars text)) hj).trans (hf hne)
    · cases hn
  delta := ⟨_, rfl, rfl, rfl⟩

theorem anthropic_stream_matches_sample :
    (anthropicSse (toolEvents "\x7b\"a\":null\x7d") >>= anthropicOutput) =
      anthropicOutput (toolResponse [("a", .null)] : sampleCrates.Json) :=
  (anthropic_stream_matches (toolMessage [("a", .null)]) (toolResponse_isMessage _)
    (toolEvents_isMessageStream nofun fun _ => rfl)).mpr (by
      rintro _ (_ | ⟨_, hnil⟩)
      · intro _ _ heq
        cases heq
      · cases hnil)

/-- A tool use without arguments comes out of a stream with the empty text as its arguments. -/
theorem empty_input_streams_as_text :
    IsMessage (toolResponse [] : sampleCrates.Json) (toolMessage []) ∧
      IsMessageStream (toolEvents "" : List sampleCrates.Json) (toolMessage []) ∧
      ∃ streamed direct, (anthropicSse (toolEvents "" : List sampleCrates.Json) >>=
          anthropicOutput) = .ok streamed ∧
        anthropicOutput (toolResponse [] : sampleCrates.Json) = .ok direct ∧
        streamed.messages = .array [message "assistant" [toolCall "t" "f" (.string "")]
          (some (.string "tool_use"))] ∧
        direct.messages = .array [message "assistant" [toolCall "t" "f" (.object [])]
          (some (.string "tool_use"))] ∧
        streamed.messages ≠ direct.messages := by
  refine ⟨toolResponse_isMessage [], toolEvents_isMessageStream (fun _ => rfl)
    (fun h => absurd rfl h), _, _, rfl, rfl, rfl, rfl, fun heq => ?_⟩
  cases heq

end Notary.Core
