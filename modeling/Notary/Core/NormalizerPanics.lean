import Notary.Core.ArchiveRoundTrip
import Notary.Core.CheckedDecoding
import Notary.Core.Entries

/-! Where the normalizer panics: the exchanges that break one of its assignments. -/

namespace Notary.Core
open Utf8 Json List Result

/-! ### Computations that do not panic -/

/-- The computation ends with a value or an error. -/
def NoPanic {α : Type} (x : Attempt α) : Prop := ∀ message, x ≠ .error (.panicked message)

section NoPanic

variable {α β : Type}

@[simp]
theorem noPanic_ok (a : α) : NoPanic (.ok a : Attempt α) := fun _ h => nomatch h

@[simp]
theorem noPanic_bail (message : String) : NoPanic (bail message : Attempt α) := fun _ h => nomatch h

@[simp]
theorem noPanic_orBail (x : Option α) (message : String) : NoPanic (orBail x message) := by
  cases x with
  | none => exact noPanic_bail message
  | some a => exact noPanic_ok a

theorem NoPanic.bind {x : Attempt α} {f : α → Attempt β} (hx : NoPanic x)
    (hf : ∀ a, x = .ok a → NoPanic (f a)) : NoPanic (x >>= f) := by
  cases x with
  | ok a => exact hf a rfl
  | error =>
    intro message h
    exact hx message (by cases h; rfl)

theorem noPanic_mapM {f : α → Attempt β} (hf : ∀ a, NoPanic (f a)) (xs : List α) :
    NoPanic (xs.mapM f) := by
  induction xs with
  | nil => exact noPanic_ok []
  | cons x _ ih =>
    rw [mapM_cons]
    exact (hf x).bind fun _ _ => ih.bind fun _ _ => noPanic_ok _

theorem noPanic_foldlM (hf : ∀ b a, NoPanic (f b a)) (xs : List α) (b : β) :
    NoPanic (xs.foldlM f b) := by
  induction xs generalizing b with
  | nil => exact noPanic_ok b
  | cons x _ ih =>
    rw [foldlM_cons]
    exact (hf b x).bind fun b' _ => ih b'

end NoPanic

section Adapters

variable {c : Crates}

theorem noPanic_optionalString (value : c.Json) (key name : String) :
    NoPanic (optionalString value key name) := by
  unfold optionalString
  repeat' split
  all_goals simp

theorem noPanic_requiredString (value : c.Json) (key name : String) :
    NoPanic (requiredString value key name) :=
  (noPanic_optionalString _ _ _).bind fun _ _ => noPanic_orBail _ _

theorem noPanic_optionalU64 (value : c.Json) (key : String) : NoPanic (optionalU64 value key) := by
  unfold optionalU64
  repeat' split
  all_goals simp

theorem noPanic_contentParts (content : Option c.Json) : NoPanic (contentParts content) := by
  unfold contentParts
  split <;> simp

theorem noPanic_openaiMessage (value : c.Json) : NoPanic (openaiMessage value) :=
  (noPanic_requiredString _ _ _).bind fun _ _ => (noPanic_contentParts _).bind fun _ _ =>
    noPanic_ok _

theorem noPanic_openaiMessages (messages : c.Json) : NoPanic (openaiMessages messages) := by
  unfold openaiMessages
  split
  · exact (noPanic_mapM noPanic_openaiMessage _).bind fun _ _ => noPanic_ok _
  · exact noPanic_bail _

theorem noPanic_responsesMessage (item : c.Json) : NoPanic (responsesMessage item) :=
  (noPanic_contentParts _).bind fun _ _ => noPanic_ok _

theorem noPanic_responsesInputItem (item : c.Json) : NoPanic (responsesInputItem item) := by
  unfold responsesInputItem
  split
  · exact (noPanic_responsesMessage _).bind fun _ _ => noPanic_ok _
  · exact noPanic_ok _
  · exact noPanic_ok _
  · exact noPanic_ok _
  · split_ifs
    · exact (noPanic_responsesMessage _).bind fun _ _ => noPanic_ok _
    · exact noPanic_ok _

theorem noPanic_openaiResponsesInput (request : c.Json) :
    NoPanic (openaiResponsesInput request) := by
  unfold openaiResponsesInput
  split
  · exact noPanic_bail _
  · exact noPanic_ok _
  · exact (noPanic_mapM noPanic_responsesInputItem _).bind fun _ _ => noPanic_ok _
  · exact noPanic_bail _

theorem noPanic_anthropicInput (request : c.Json) : NoPanic (anthropicInput request) := by
  have hs : NoPanic (anthropicSystem request) := by
    unfold anthropicSystem
    split
    · exact (noPanic_contentParts _).bind fun _ _ => noPanic_ok _
    · exact noPanic_ok _
  have hm (item : c.Json) : NoPanic (anthropicMessage item) :=
    (noPanic_requiredString _ _ _).bind fun _ _ => (noPanic_contentParts _).bind fun _ _ =>
      noPanic_ok _
  exact hs.bind fun _ _ => (noPanic_orBail _ _).bind fun _ _ =>
    (noPanic_mapM hm _).bind fun _ _ => noPanic_ok _

theorem noPanic_chatChoice (choice : c.Json) : NoPanic (chatChoice choice) := by
  refine (noPanic_orBail _ _).bind fun value _ => (noPanic_openaiMessage value).bind fun m hm => ?_
  obtain ⟨members, rfl⟩ : ∃ members, m = .object members := by
    simp only [openaiMessage, bind_ok] at hm
    obtain ⟨_, -, _, -, hm⟩ := hm
    cases hm
    unfold message
    split <;> exact ⟨_, rfl⟩
  refine (noPanic_optionalString _ _ _).bind fun reason _ => ?_
  cases reason <;> exact noPanic_ok _

theorem noPanic_openaiChatOutput (response : c.Json) : NoPanic (openaiChatOutput response) :=
  (noPanic_orBail _ _).bind fun _ _ => (noPanic_mapM noPanic_chatChoice _).bind fun _ _ =>
    (noPanic_optionalString _ _ _).bind fun _ _ => (noPanic_optionalU64 _ _).bind fun _ _ =>
      (noPanic_optionalU64 _ _).bind fun _ _ => noPanic_ok _

theorem noPanic_openaiResponsesOutput (response : c.Json) :
    NoPanic (openaiResponsesOutput response) := by
  have hi (item : c.Json) : NoPanic (responsesOutputItem item) := by
    unfold responsesOutputItem
    split
    · exact (noPanic_responsesMessage _).bind fun _ _ => noPanic_ok _
    · exact noPanic_ok _
    · exact noPanic_ok _
  exact (noPanic_orBail _ _).bind fun _ _ => (noPanic_mapM hi _).bind fun _ _ =>
    (noPanic_optionalString _ _ _).bind fun _ _ => (noPanic_optionalU64 _ _).bind fun _ _ =>
      (noPanic_optionalU64 _ _).bind fun _ _ => (noPanic_optionalString _ _ _).bind fun _ _ =>
        noPanic_ok _

theorem noPanic_anthropicOutput (response : c.Json) : NoPanic (anthropicOutput response) :=
  (noPanic_orBail _ _).bind fun _ _ => (noPanic_optionalString _ _ _).bind fun _ _ =>
    (noPanic_optionalU64 _ _).bind fun _ _ => (noPanic_optionalU64 _ _).bind fun _ _ =>
      (noPanic_optionalString _ _ _).bind fun _ _ => noPanic_ok _

theorem noPanic_openaiChatSse (events : List c.Json) : NoPanic (openaiChatSse events) := by
  have hc (choices : List (ℕ × StreamChoice)) (choice : c.Json) :
      NoPanic (streamChoice choices choice) :=
    (noPanic_optionalString _ _ _).bind fun _ _ => noPanic_ok _
  have he (stream : ChatStream c) (event : c.Json) : NoPanic (chatEvent stream event) := by
    simp only [chatEvent]
    split_ifs
    · exact (noPanic_optionalString _ _ _).bind fun _ _ =>
        (noPanic_foldlM hc _ _).bind fun _ _ => noPanic_ok _
    · exact (noPanic_ok _).bind fun _ _ =>
        (noPanic_foldlM hc _ _).bind fun _ _ => noPanic_ok _
  exact (noPanic_foldlM he _ _).bind fun _ _ => noPanic_ok _

theorem noPanic_sseEvents (body : List Char) : NoPanic (sseEvents c body) := by
  unfold sseEvents
  refine (noPanic_mapM (fun _ => noPanic_orBail _ _) _).bind fun events _ => ?_
  split_ifs
  · exact noPanic_bail _
  · exact noPanic_ok _

end Adapters

variable {c : Crates}

/-! ### Streams that break an assignment -/

/-- A value that has no members and cannot be given any. -/
def Closed (value : c.Json) : Prop := (∀ members, value ≠ .object members) ∧ value ≠ .null

theorem assign_panics_iff {value : c.Json} :
    (∃ message, assign value key member = .error (.panicked message)) ↔ Closed value := by
  unfold assign Closed
  cases value <;> simp

/-- A Responses stream breaks the assignment of its output if the completed response is closed and
an item is there to be assigned. -/
def ResponsesStreamPanics (events : List c.Json) : Prop :=
  ∃ response, (events.reverse.find? (hasType · "response.completed")).bind (·.get "response") =
      some response ∧ Closed response ∧
    ∃ event ∈ events, hasType event "response.output_item.done" = true ∧
      (event.get "item").isSome = true

variable {α : Type} {block event : c.Json} {stream : AnthropicStream c} {before : List c.Json}

theorem alterEntry_ne_nil {k : ℕ} {f : Option α → α} {m : List (ℕ × α)} :
    alterEntry k f m ≠ [] := by
  cases m with
  | nil => simp [alterEntry]
  | cons =>
    rw [alterEntry]
    split_ifs <;> simp

theorem completedItems_ne_nil {events : List c.Json} {items : List (ℕ × c.Json)} :
    completedItems events items ≠ [] ↔
      items ≠ [] ∨ ∃ event ∈ events, (event.get "item").isSome = true := by
  induction events generalizing items with
  | nil => simp [completedItems]
  | cons event _ ih =>
    rw [completedItems]
    cases hi : event.get "item" with
    | none => simp [ih, hi]
    | some => simp [ih, hi, alterEntry_ne_nil]

theorem responses_stream_panics_iff (events : List c.Json) :
    (∃ message, openaiResponsesSse events = .error (.panicked message)) ↔
      ResponsesStreamPanics events := by
  unfold openaiResponsesSse ResponsesStreamPanics
  cases hr : (events.reverse.find? (hasType · "response.completed")).bind (·.get "response") with
  | none => simp [orBail, bail, bind, Except.bind]
  | some response =>
    simp only [orBail, ok_bind]
    have hi : completedItems (events.filter (hasType · "response.output_item.done")) [] ≠ [] ↔
        ∃ event ∈ events, hasType event "response.output_item.done" = true ∧
          (event.get "item").isSome = true := by
      rw [completedItems_ne_nil]
      simp [and_assoc]
    constructor
    · rintro ⟨message, hp⟩
      split_ifs at hp with he hn
      exact ⟨response, rfl, assign_panics_iff.mp ⟨message, hp⟩, hi.mp hn⟩
    · rintro ⟨_, hs, hc, hd⟩
      obtain rfl := Option.some_inj.mp hs
      have he : ((response.get "output").bind Value.asArray).all List.isEmpty = true := by
        cases response with
        | object members => exact absurd rfl (hc.1 members)
        | _ => rfl
      rw [if_pos he, if_pos (hi.mpr hd)]
      exact assign_panics_iff.mpr hc

/-- The block that the last start of an index gave. -/
def startedBlock (events : List c.Json) (index : ℕ) : Option c.Json :=
  (events.reverse.find? fun event =>
    hasType event "content_block_start" && indexOf event "index" = index).map
      (getOrNull · "content_block")

/-- A delta that adds to a member of its block. -/
def addsText (event : c.Json) : Bool :=
  hasType event "content_block_delta" &&
    ((((getOrNull event "delta").get "text").bind Value.asStr).isSome ||
      (((getOrNull event "delta").get "partial_json").bind Value.asStr).isSome)

/-- An event whose model, stop reason and token counts can be read. -/
def readable (event : c.Json) : Bool :=
  let message := getOrNull event "message"
  let delta := getOrNull event "delta"
  (!hasType event "message_start" ||
    (optionalString message "model" "Anthropic message_start").toBool &&
      (optionalU64 (getOrNull message "usage") "input_tokens").toBool) &&
  (!hasType event "message_delta" ||
    (optionalString delta "stop_reason" "Anthropic message_delta").toBool &&
      (optionalU64 (getOrNull event "usage") "output_tokens").toBool)

/-- An Anthropic stream breaks an assignment if it adds text to a closed block, with nothing
unreadable before. -/
def AnthropicStreamPanics (events : List c.Json) : Prop :=
  ∃ before event after, events = before ++ event :: after ∧ (∀ e ∈ before, readable e = true) ∧
    addsText event = true ∧ ∃ block, startedBlock before (indexOf event "index") = some block ∧
      Closed block

theorem not_closed_object (members : List (String × c.Json)) :
    ¬Closed (.object members : c.Json) := fun h => h.1 members rfl

theorem appendMember_ok (key text : String) (h : ¬Closed block) :
    ∃ members, appendMember block key (some text) = .ok (.object members) := by
  cases block with
  | object | null => exact ⟨_, rfl⟩
  | _ => exact absurd ⟨nofun, nofun⟩ h

/-- The text and the input of a delta are added to its block. -/
def appendMembers (block : c.Json) (text part : Option String) : Attempt c.Json := do
  appendMember (← appendMember block "text" text) "input" part

theorem appendMembers_panics {text part : Option String} (h : Closed block)
    (ha : (text.isSome || part.isSome) = true) :
    ∃ message, appendMembers block text part = .error (.panicked message) := by
  have hp (key text : String) : ∃ message, appendMember block key (some text) =
      .error (.panicked message) := assign_panics_iff.mpr h
  cases text with
  | some text =>
    obtain ⟨message, hp⟩ := hp "text" text
    exact ⟨message, by rw [appendMembers, hp]; rfl⟩
  | none =>
    obtain ⟨part, rfl⟩ := Option.isSome_iff_exists.mp ha
    exact hp "input" part

theorem appendMembers_ok (h : ¬Closed block) (ha : (text.isSome || part.isSome) = true) :
    ∃ members, appendMembers block text part = .ok (.object members) := by
  cases text with
  | some text =>
    obtain ⟨members, ho⟩ := appendMember_ok "text" text h
    rw [appendMembers, ho, ok_bind]
    cases part with
    | none => exact ⟨members, rfl⟩
    | some part => exact appendMember_ok "input" part (not_closed_object members)
  | none =>
    obtain ⟨part, rfl⟩ := Option.isSome_iff_exists.mp ha
    exact appendMember_ok "input" part h

/-- The block that a delta is for. -/
def deltaBlock (stream : AnthropicStream c) (index : ℕ) : c.Json :=
  (stream.blocks.lookup index).getD (.object [("text", .string ""), ("type", .string "text")])

theorem anthropicEvent_start (h : hasType event "content_block_start" = true) :
    anthropicEvent stream event = .ok { stream with
      blocks := alterEntry (indexOf event "index") (fun _ => getOrNull event "content_block")
        stream.blocks } := by
  have ht : (event.get "type").bind Value.asStr = some "content_block_start" := by
    simpa [hasType] using h
  simp only [anthropicEvent, ht]

theorem anthropicEvent_delta (h : hasType event "content_block_delta" = true) :
    anthropicEvent stream event = appendMembers (deltaBlock stream (indexOf event "index"))
      (((getOrNull event "delta").get "text").bind Value.asStr)
      (((getOrNull event "delta").get "partial_json").bind Value.asStr) >>= fun block =>
        .ok { stream with
          blocks := alterEntry (indexOf event "index") (fun _ => block) stream.blocks } := by
  have ht : (event.get "type").bind Value.asStr = some "content_block_delta" := by
    simpa [hasType] using h
  simp only [anthropicEvent, ht, appendMembers, deltaBlock, bind_assoc]

/-- A delta that adds nothing leaves its block as it is. -/
theorem anthropicEvent_delta_silent (h : hasType event "content_block_delta" = true)
    (ha : addsText event = false) :
    anthropicEvent stream event = .ok { stream with
      blocks := alterEntry (indexOf event "index")
        (fun _ => deltaBlock stream (indexOf event "index")) stream.blocks } := by
  simp only [addsText, h, Bool.true_and, Bool.or_eq_false_iff, Option.isSome_eq_false_iff,
    Option.isNone_iff_eq_none] at ha
  rw [anthropicEvent_delta h, ha.1, ha.2]
  rfl

theorem anthropicEvent_delta_panics (ha : addsText event = true)
    (hc : Closed (deltaBlock stream (indexOf event "index"))) :
    ∃ message, anthropicEvent stream event = .error (.panicked message) := by
  obtain ⟨ht, ha⟩ := Bool.and_eq_true_iff.mp ha
  obtain ⟨message, hp⟩ := appendMembers_panics hc ha
  rw [anthropicEvent_delta ht, hp]
  exact ⟨message, rfl⟩

theorem anthropicEvent_delta_ok (ha : addsText event = true)
    (ho : ¬Closed (deltaBlock stream (indexOf event "index"))) :
    ∃ members, anthropicEvent stream event = .ok { stream with
      blocks := alterEntry (indexOf event "index") (fun _ => .object members) stream.blocks } := by
  obtain ⟨ht, ha⟩ := Bool.and_eq_true_iff.mp ha
  obtain ⟨members, ho⟩ := appendMembers_ok ho ha
  rw [anthropicEvent_delta ht, ho]
  exact ⟨members, rfl⟩

theorem toBool_eq_false {x : Attempt α} (hx : NoPanic x) (h : x.toBool = false) :
    ∃ message, x = bail message := by
  match x, hx, h with
  | .ok _, _, h => cases h
  | .error (.error message), _, _ => exact ⟨message, rfl⟩
  | .error (.panicked message), hx, _ => exact absurd rfl (hx message)

/-- Two fields that are read one after the other. -/
theorem read_two {β γ : Type} {y : Attempt β} (hx : NoPanic x) (hy : NoPanic y) (f : α → β → γ) :
    (x.toBool && y.toBool) = true ∧ (∃ a b, (do .ok (f (← x) (← y)) : Attempt γ) = .ok (f a b)) ∨
    (x.toBool && y.toBool) = false ∧
      ∃ message, (do .ok (f (← x) (← y)) : Attempt γ) = bail message := by
  cases hxb : x.toBool with
  | false =>
    obtain ⟨message, rfl⟩ := toBool_eq_false hx hxb
    exact .inr ⟨rfl, message, rfl⟩
  | true =>
    obtain ⟨a, rfl⟩ := exists_of_toBool hxb
    cases hyb : y.toBool with
    | false =>
      obtain ⟨message, rfl⟩ := toBool_eq_false hy hyb
      exact .inr ⟨rfl, message, rfl⟩
    | true =>
      obtain ⟨b, rfl⟩ := exists_of_toBool hyb
      exact .inl ⟨rfl, a, b, rfl⟩

/-- The other events change no block, and fail where they cannot be read. -/
theorem anthropicEvent_other (hs : hasType event "content_block_start" = false)
    (hd : hasType event "content_block_delta" = false) :
    (readable event = true ∧ ∃ stream', anthropicEvent stream event = .ok stream' ∧
      stream'.blocks = stream.blocks) ∨
    (readable event = false ∧ ∃ message, anthropicEvent stream event = bail message) := by
  unfold hasType at hs hd
  rw [decide_eq_false_iff_not] at hs hd
  unfold anthropicEvent
  split
  · rename_i hty
    simp only [readable, hasType, hty]
    obtain ⟨hr, _, _, h⟩ | ⟨hr, h⟩ := read_two
      (noPanic_optionalString (getOrNull event "message") "model" "Anthropic message_start")
      (noPanic_optionalU64 (getOrNull (getOrNull event "message") "usage") "input_tokens")
      fun model inputTokens => { stream with model, inputTokens }
    · exact .inl ⟨by simpa using hr, _, h, rfl⟩
    · exact .inr ⟨by simpa using hr, h⟩
  · rename_i hty
    exact absurd hty hs
  · rename_i hty
    exact absurd hty hd
  · rename_i hty
    simp only [readable, hasType, hty]
    obtain ⟨hr, _, _, h⟩ | ⟨hr, h⟩ := read_two
      (noPanic_optionalString (getOrNull event "delta") "stop_reason" "Anthropic message_delta")
      (noPanic_optionalU64 (getOrNull event "usage") "output_tokens")
      fun stopReason outputTokens => { stream with stopReason, outputTokens }
    · exact .inl ⟨by simpa using hr, _, h, rfl⟩
    · exact .inr ⟨by simpa using hr, h⟩
  · rename_i hs' _ _ hl'
    have hm : hasType event "message_start" = false := decide_eq_false hs'
    have hl : hasType event "message_delta" = false := decide_eq_false hl'
    exact .inl ⟨by simp [readable, hm, hl], stream, rfl, rfl⟩

/-- The closed blocks of a stream are those that its events started last. -/
def Tracks (before : List c.Json) (stream : AnthropicStream c) : Prop :=
  Ordered stream.blocks ∧ ∀ index block, Closed block →
    (stream.blocks.lookup index = some block ↔ startedBlock before index = some block)

theorem startedBlock_concat (before : List c.Json) (event : c.Json) (index : ℕ) :
    startedBlock (before ++ [event]) index =
      if hasType event "content_block_start" = true ∧ indexOf event "index" = index then
        some (getOrNull event "content_block") else startedBlock before index := by
  unfold startedBlock
  rw [reverse_append, reverse_singleton, singleton_append, find?_cons]
  split_ifs with h
  · simp [h]
  · have hn : (hasType event "content_block_start" &&
        decide (indexOf event "index" = index)) = false := by
      simpa using h
    rw [hn]

theorem startedBlock_concat_of_not (h : hasType event "content_block_start" = false) (index : ℕ) :
    startedBlock (before ++ [event]) index = startedBlock before index := by
  rw [startedBlock_concat, if_neg (by simp [h])]

theorem Tracks.same (h : Tracks before stream) (hb : stream'.blocks = stream.blocks)
    (hs : hasType event "content_block_start" = false) :
    Tracks (before ++ [event]) stream' := by
  unfold Tracks
  simp only [hb, startedBlock_concat_of_not hs]
  exact h

/-- A block that is given anew, by a start or by a delta. -/
theorem Tracks.set (h : Tracks before stream)
    (hs : ∀ b, Closed b → (block = b ↔ startedBlock (before ++ [event]) index = some b))
    (ho : ∀ i, i ≠ index → startedBlock (before ++ [event]) i = startedBlock before i) :
    Tracks (before ++ [event])
      { stream with blocks := alterEntry index (fun _ => block) stream.blocks } := by
  refine ⟨h.1.alterEntry, fun i b hb => ?_⟩
  rw [lookup_alterEntry h.1]
  split_ifs with hi
  · subst hi
    rw [Option.some_inj, hs b hb]
  · rw [ho i hi]
    exact h.2 i b hb

theorem Tracks.closed_deltaBlock (h : Tracks before stream) (index : ℕ) (hb : Closed block) :
    deltaBlock stream index = block ↔ startedBlock before index = some block := by
  rw [← h.2 index block hb]
  unfold deltaBlock
  cases hl : stream.blocks.lookup index with
  | some => rw [Option.getD_some, Option.some_inj]
  | none =>
    rw [Option.getD_none]
    refine ⟨fun he => absurd (he ▸ hb) (not_closed_object _), nofun⟩

/-- The events that one event may have before it break the assignment it makes. -/
theorem anthropic_run_panics_iff (h : Tracks before stream) :
    (∃ message, events.foldlM anthropicEvent stream = .error (.panicked message)) ↔
      ∃ middle event after, events = middle ++ event :: after ∧
        (∀ e ∈ middle, readable e = true) ∧ addsText event = true ∧
        ∃ block, startedBlock (before ++ middle) (indexOf event "index") = some block ∧
          Closed block := by
  induction events generalizing before stream with
  | nil => simp [pure, Except.pure]
  | cons event events ih =>
    rw [foldlM_cons]
    -- What is left after an event that goes through.
    have hre {stream' : AnthropicStream c} (ho : anthropicEvent stream event = .ok stream')
        (ht : Tracks (before ++ [event]) stream') (hr : readable event = true)
        (hf : ¬(addsText event = true ∧ ∃ block,
          startedBlock before (indexOf event "index") = some block ∧ Closed block)) :
        (∃ message, (anthropicEvent stream event >>= fun s => events.foldlM anthropicEvent s) =
          .error (.panicked message)) ↔
        ∃ middle e after, event :: events = middle ++ e :: after ∧
          (∀ e ∈ middle, readable e = true) ∧ addsText e = true ∧
          ∃ block, startedBlock (before ++ middle) (indexOf e "index") = some block ∧
            Closed block := by
      rw [ho, ok_bind, ih ht]
      constructor
      · rintro ⟨middle, e, after, rfl, hm, ha, block, hst, hc⟩
        exact ⟨event :: middle, e, after, rfl, forall_mem_cons.mpr ⟨hr, hm⟩, ha,
          block, by simpa using hst, hc⟩
      · rintro ⟨middle, e, after, hsp, hm, ha, block, hst, hc⟩
        cases middle with
        | nil =>
          obtain ⟨rfl, -⟩ := List.cons.inj hsp
          exact absurd ⟨ha, block, by simpa using hst, hc⟩ hf
        | cons _ middle =>
          obtain ⟨rfl, he⟩ := List.cons.inj hsp
          exact ⟨middle, e, after, he, (forall_mem_cons.mp hm).2, ha, block,
            by simpa using hst, hc⟩
    by_cases hs : hasType event "content_block_start" = true
    · have ha : addsText event = false := by
        unfold hasType at hs
        simp_all [addsText, hasType]
      have hr : readable event = true := by
        unfold hasType at hs
        simp_all [readable, hasType]
      refine hre (anthropicEvent_start hs) ?_ hr (by simp [ha])
      refine h.set (fun b _ => ?_) fun i hi => ?_
      · rw [startedBlock_concat, if_pos ⟨hs, rfl⟩, Option.some_inj]
      · rw [startedBlock_concat, if_neg (fun hand => hi hand.2.symm)]
    rw [Bool.not_eq_true] at hs
    by_cases hd : hasType event "content_block_delta" = true
    · have hr : readable event = true := by
        unfold hasType at hd
        simp_all [readable, hasType]
      cases ha : addsText event with
      | false =>
        refine hre (anthropicEvent_delta_silent hd ha) ?_ hr (by simp [ha])
        refine h.set (fun b hb => ?_) fun i _ => startedBlock_concat_of_not hs i
        rw [startedBlock_concat_of_not hs, h.closed_deltaBlock _ hb]
      | true =>
        by_cases hc : Closed (deltaBlock stream (indexOf event "index"))
        · obtain ⟨message, hp⟩ := anthropicEvent_delta_panics ha hc
          rw [hp]
          refine iff_of_true ⟨message, rfl⟩ ⟨[], event, events, rfl, nofun, ha, _, ?_, hc⟩
          rw [append_nil]
          exact (h.closed_deltaBlock _ hc).mp rfl
        · obtain ⟨members, ho⟩ := anthropicEvent_delta_ok ha hc
          refine hre ho ?_ hr ?_
          · refine h.set (fun b hb => ?_) fun i _ => startedBlock_concat_of_not hs i
            rw [startedBlock_concat_of_not hs, ← h.closed_deltaBlock _ hb]
            refine iff_of_false (fun heq => not_closed_object members (heq ▸ hb)) ?_
            rintro rfl
            exact hc hb
          · rintro ⟨-, _, hst, hbl⟩
            rw [← h.closed_deltaBlock _ hbl] at hst
            exact hc (hst ▸ hbl)
    rw [Bool.not_eq_true] at hd
    have ha : addsText event = false := by simp [addsText, hd]
    obtain ⟨hr, _, ho, hbc⟩ | ⟨hu, _, hba⟩ := anthropicEvent_other hs hd
    · exact hre ho (h.same hbc hs) hr (by simp [ha])
    · rw [hba]
      refine iff_of_false (fun ⟨_, hp⟩ => nomatch hp) ?_
      rintro ⟨middle, _, _, hsp, hm, ha', -⟩
      cases middle with
      | nil =>
        obtain ⟨rfl, -⟩ := List.cons.inj hsp
        rw [ha] at ha'
        cases ha'
      | cons =>
        obtain ⟨rfl, -⟩ := List.cons.inj hsp
        rw [hm event mem_cons_self] at hu
        cases hu

theorem anthropic_stream_panics_iff (events : List c.Json) :
    (∃ message, anthropicSse events = .error (.panicked message)) ↔
      AnthropicStreamPanics events := by
  have he : Tracks ([] : List c.Json) ⟨none, none, none, none, []⟩ := by
    refine ⟨ordered_nil, fun index block _ => ?_⟩
    simp [startedBlock]
  refine Iff.trans ?_ (anthropic_run_panics_iff he)
  unfold anthropicSse
  constructor
  · rintro ⟨message, hp⟩
    cases hf : events.foldlM anthropicEvent ⟨none, none, none, none, []⟩ with
    | ok =>
      rw [hf] at hp
      cases hp
    | error =>
      rw [hf] at hp
      cases hp
      exact ⟨message, rfl⟩
  · rintro ⟨message, hp⟩
    rw [hp]
    exact ⟨message, rfl⟩

/-! ### Exchanges that break an assignment -/

section Panics

variable {α β : Type} {x : Attempt α} {f : α → Attempt β}

def Panics (x : Attempt α) : Prop := ∃ message, x = .error (.panicked message)

theorem noPanic_iff : NoPanic x ↔ ¬Panics x := by
  simp [NoPanic, Panics]

theorem NoPanic.panics_bind (hx : NoPanic x) :
    Panics (x >>= f) ↔ ∃ a, x = .ok a ∧ Panics (f a) := by
  cases x with
  | ok a =>
    refine ⟨fun h => ⟨a, rfl, h⟩, ?_⟩
    rintro ⟨_, hb, h⟩
    cases hb
    exact h
  | error =>
    refine ⟨?_, fun ⟨_, h, _⟩ => nomatch h⟩
    rintro ⟨message, h⟩
    cases h
    exact absurd rfl (hx message)

theorem panics_bind_left (hf : ∀ a, NoPanic (f a)) : Panics (x >>= f) ↔ Panics x := by
  cases x with
  | ok a => exact iff_of_false (noPanic_iff.mp (hf a)) fun ⟨_, h⟩ => nomatch h
  | error =>
    refine ⟨?_, ?_⟩
    all_goals
      rintro ⟨message, h⟩
      cases h
      exact ⟨message, rfl⟩

end Panics

theorem noPanic_validateChunkedTrailer (name : String) (fuel : ℕ) (b : Bytes) :
    NoPanic (validateChunkedTrailer name fuel b) := by
  induction fuel generalizing b with
  | zero => exact noPanic_bail _
  | succ _ ih =>
    unfold validateChunkedTrailer
    repeat' split
    all_goals simp [ih]

theorem noPanic_decodeChunks (b : Bytes) (name : String) (fuel offset : ℕ) :
    NoPanic (decodeChunks b name fuel offset) := by
  induction fuel generalizing offset with
  | zero => exact noPanic_bail _
  | succ _ ih =>
    have ht := noPanic_validateChunkedTrailer name
    simp only [decodeChunks]
    repeat' split
    all_goals first
      | exact noPanic_ok _
      | exact noPanic_bail _
      | exact (ht _ _).bind fun _ _ => noPanic_ok _
      | exact (ih _).bind fun _ _ => noPanic_ok _

theorem noPanic_httpBody (message : List Char) (name : String) :
    NoPanic (httpBody message name) := by
  refine (noPanic_orBail _ _).bind fun parts _ => (noPanic_orBail _ _).bind fun line _ => ?_
  split_ifs
  · exact ((noPanic_decodeChunks _ _ _ _).bind fun _ _ => noPanic_orBail _ _).bind
      fun _ _ => noPanic_ok _
  · exact noPanic_ok _

theorem providerResponseJson_panics :
    Panics (providerResponseJson c body sse) ↔
      parseJson c body = none ∧ ∃ events, sseEvents c body = .ok events ∧ Panics (sse events) := by
  unfold providerResponseJson
  cases parseJson c body with
  | some json => exact iff_of_false (noPanic_iff.mp (noPanic_ok json)) (by simp)
  | none =>
    simp only [(noPanic_sseEvents body).panics_bind]
    exact (iff_of_eq (true_and _)).symm

theorem exists_ok_iff {x : Attempt α} : (∃ a, x = .ok a) ↔ x.toBool = true := by
  refine ⟨?_, exists_of_toBool⟩
  rintro ⟨_, rfl⟩
  rfl

/-- The exchanges that make the normalizer panic: the messages and the request can be read, the
response is a stream, and the stream breaks an assignment of its adapter. -/
def BreaksNormalizer (c : Crates) (manifest : TraceEvidenceManifest)
    (request response : List Char) : Prop :=
  ∃ requestLine requestBody statusLine responseBody value events,
    httpBody request "request" = .ok (requestLine, requestBody) ∧
    httpBody response "response" = .ok (statusLine, responseBody) ∧
    parseJson c requestBody = some value ∧ parseJson c responseBody = none ∧
    sseEvents c responseBody = .ok events ∧
    (manifest.provider.name ∈ openaiCompatible ∧
        openaiOperation requestLine value = .responses ∧
        (requiredString value "model" "provider request").toBool = true ∧
        (openaiResponsesInput value).toBool = true ∧ ResponsesStreamPanics events ∨
      manifest.provider.name = "anthropic" ∧
        (requiredString value "model" "Anthropic request").toBool = true ∧
        (anthropicInput value).toBool = true ∧ AnthropicStreamPanics events)

theorem parseOpenaiCompatible_panics {request : c.Json} :
    Panics (parseOpenaiCompatible manifest requestLine request responseBody) ↔
      openaiOperation requestLine request = .responses ∧
        (requiredString request "model" "provider request").toBool = true ∧
        (openaiResponsesInput request).toBool = true ∧ parseJson c responseBody = none ∧
        ∃ events, sseEvents c responseBody = .ok events ∧ ResponsesStreamPanics events := by
  have ho (model : String) (input : c.Json) (operation : Operation)
      (output : c.Json → Attempt (ProviderOutput c)) (h : ∀ r, NoPanic (output r)) (r : c.Json) :
      NoPanic (do .ok (inferenceOf manifest operation model input (← output r)) :
        Attempt (VerifiedInference c)) := (h r).bind fun _ _ => noPanic_ok _
  unfold parseOpenaiCompatible
  rw [(noPanic_requiredString _ _ _).panics_bind]
  cases hop : openaiOperation requestLine request with
  | responses =>
    simp only [(noPanic_openaiResponsesInput request).panics_bind,
      panics_bind_left (ho _ _ _ _ noPanic_openaiResponsesOutput),
      providerResponseJson_panics]
    have hs (events : List c.Json) : Panics (openaiResponsesSse events) ↔
        ResponsesStreamPanics events := responses_stream_panics_iff events
    simp only [hs, ← exists_ok_iff]
    constructor
    · rintro ⟨model, hm, input, hi, hb, events, he, hp⟩
      exact ⟨trivial, ⟨model, hm⟩, ⟨input, hi⟩, hb, events, he, hp⟩
    · rintro ⟨-, ⟨model, hm⟩, ⟨input, hi⟩, hb, events, he, hp⟩
      exact ⟨model, hm, input, hi, hb, events, he, hp⟩
  | chat =>
    refine iff_of_false ?_ (fun h => nomatch h.1)
    rintro ⟨model, -, hp⟩
    refine noPanic_iff.mp ?_ hp
    have hr : NoPanic (providerResponseJson c responseBody openaiChatSse) := by
      rw [noPanic_iff, providerResponseJson_panics]
      rintro ⟨-, events, -, hs⟩
      exact noPanic_iff.mp (noPanic_openaiChatSse events) hs
    exact (noPanic_orBail _ _).bind fun messages _ => (noPanic_openaiMessages messages).bind
      fun input _ => hr.bind fun r _ =>
        ho model input .chat _ noPanic_openaiChatOutput r

theorem parseAnthropic_panics {request : c.Json} :
    Panics (parseAnthropic manifest request responseBody) ↔
      (requiredString request "model" "Anthropic request").toBool = true ∧
        (anthropicInput request).toBool = true ∧ parseJson c responseBody = none ∧
        ∃ events, sseEvents c responseBody = .ok events ∧ AnthropicStreamPanics events := by
  have ho (model : String) (input : c.Json) (r : c.Json) :
      NoPanic (do .ok (inferenceOf manifest .chat model input (← anthropicOutput r)) :
        Attempt (VerifiedInference c)) := (noPanic_anthropicOutput r).bind fun _ _ => noPanic_ok _
  unfold parseAnthropic
  simp only [(noPanic_requiredString _ _ _).panics_bind,
    (noPanic_anthropicInput request).panics_bind, panics_bind_left (ho _ _),
    providerResponseJson_panics]
  have hs (events : List c.Json) : Panics (anthropicSse events) ↔
      AnthropicStreamPanics events := anthropic_stream_panics_iff events
  simp only [hs, ← exists_ok_iff]
  constructor
  · rintro ⟨model, hm, input, hi, hb, events, he, hp⟩
    exact ⟨⟨model, hm⟩, ⟨input, hi⟩, hb, events, he, hp⟩
  · rintro ⟨⟨model, hm⟩, ⟨input, hi⟩, hb, events, he, hp⟩
    exact ⟨model, hm, input, hi, hb, events, he, hp⟩

/-- The normalizer returns a value or an error on every exchange but those, and those alone, that
break an assignment. Texts are at most as long as memory allows. -/
theorem normalizer_panics_iff (c : Crates) (manifest : TraceEvidenceManifest)
    (request response : List Char) (hrequest : (encode request).length < 2 ^ 63)
    (hresponse : (encode response).length < 2 ^ 63) :
    NoPanic (verifiedInferenceChecked c manifest request response) ↔
      ¬BreaksNormalizer c manifest request response := by
  rw [verifiedInferenceChecked_eq c manifest hrequest hresponse, noPanic_iff, not_iff_not]
  unfold verifiedInferenceFromCapture BreaksNormalizer
  have hanthropic : "anthropic" ∉ openaiCompatible := by decide
  simp only [(noPanic_httpBody _ _).panics_bind, (noPanic_orBail _ _).panics_bind, orBail_ok]
  constructor
  · rintro ⟨⟨requestLine, requestBody⟩, hreq, ⟨statusLine, responseBody⟩, hres, value, hvalue,
      hpanics⟩
    split_ifs at hpanics with hopenai hname
    · rw [parseOpenaiCompatible_panics] at hpanics
      obtain ⟨hoperation, hmodel, hinput, hbody, events, hevents, hstream⟩ := hpanics
      exact ⟨requestLine, requestBody, statusLine, responseBody, value, events, hreq, hres, hvalue,
        hbody, hevents, .inl ⟨hopenai, hoperation, hmodel, hinput, hstream⟩⟩
    · rw [parseAnthropic_panics] at hpanics
      obtain ⟨hmodel, hinput, hbody, events, hevents, hstream⟩ := hpanics
      exact ⟨requestLine, requestBody, statusLine, responseBody, value, events, hreq, hres, hvalue,
        hbody, hevents, .inr ⟨hname, hmodel, hinput, hstream⟩⟩
    · exact absurd hpanics (noPanic_iff.mp (noPanic_bail _))
  · rintro ⟨_, _, _, _, value, events, hreq, hres, hvalue,
      hbody, hevents, ⟨hopenai, hoperation, hmodel, hinput, hstream⟩ |
        ⟨hname, hmodel, hinput, hstream⟩⟩
    · refine ⟨_, hreq, _, hres, value, hvalue, ?_⟩
      rw [if_pos hopenai]
      exact parseOpenaiCompatible_panics.mpr
        ⟨hoperation, hmodel, hinput, hbody, events, hevents, hstream⟩
    · refine ⟨_, hreq, _, hres, value, hvalue, ?_⟩
      rw [if_neg (hname ▸ hanthropic), if_pos hname]
      exact parseAnthropic_panics.mpr ⟨hmodel, hinput, hbody, events, hevents, hstream⟩

def providerManifest (provider : String) : TraceEvidenceManifest where
  format := ""
  traceId := "t"
  createdAtUnixMs := 0
  provider := ⟨provider, "h"⟩
  notary := ⟨""⟩
  artifacts := ⟨"", "", ""⟩

def deltaExchange : List Char × List Char :=
  (chars "POST /messages\r\n\r\n\x7b\"model\":\"m\",\"messages\":[]\x7d",
    chars ("200\r\n\r\n" ++
      "data:\x7b\"type\":\"content_block_start\"," ++
      "\"content_block\":\x7b\"type\":\"text\"\x7d\x7d\n\n" ++
      "data:\x7b\"type\":\"content_block_delta\",\"delta\":\x7b\"text\":\"a\"\x7d\x7d"))

theorem normalizer_panics_iff_sample :
    (∃ inference, verifiedInferenceChecked sampleCrates (providerManifest "anthropic")
      deltaExchange.1 deltaExchange.2 = .ok inference) ∧
    ¬BreaksNormalizer sampleCrates (providerManifest "anthropic") deltaExchange.1
      deltaExchange.2 := by
  obtain ⟨inference, hok⟩ : ∃ inference, verifiedInferenceChecked sampleCrates
      (providerManifest "anthropic") deltaExchange.1 deltaExchange.2 = .ok inference :=
    exists_of_toBool (by decide +kernel)
  refine ⟨⟨inference, hok⟩, (normalizer_panics_iff sampleCrates (providerManifest "anthropic") _ _
    (by decide +kernel) (by decide +kernel)).mp ?_⟩
  rw [hok]
  exact noPanic_ok inference

/-- A completed response that is a number, after an item that is done. -/
theorem normalizer_panics_on_number :
    (∃ message, verifiedInferenceChecked sampleCrates (providerManifest "openai")
      (chars "POST /responses\r\n\r\n\x7b\"model\":\"m\",\"input\":\"x\"\x7d")
      (chars ("200\r\n\r\ndata:\x7b\"type\":\"response.output_item.done\",\"item\":1\x7d\n\n" ++
        "data:\x7b\"type\":\"response.completed\",\"response\":1\x7d")) =
        .error (.panicked message)) := ⟨_, rfl⟩

end Notary.Core
