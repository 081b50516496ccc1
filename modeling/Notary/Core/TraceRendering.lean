import Notary.Core.PublicTrace
import Notary.Lib.JsonCanonical
import Notary.Lib.Result

/-! What the check of a public trace makes of a trace that was rendered. -/

namespace Notary.Core
open Utf8 Json Result List Nat Option Value

variable {c : Crates}

/-! Values of attributes. -/

theorem objectWithFields_of_keys {members : List (String × c.Json)} (h : members.map (·.1) = fields)
    (name : String) :
    objectWithFields (.object members) fields name = .ok members := by
  have hf : members.length = fields.length ∧ ∀ field ∈ fields, (members.lookup field).isSome := by
    subst h
    refine ⟨(length_map _).symm, fun field hfi => ?_⟩
    obtain ⟨m, hm, rfl⟩ := List.mem_map.mp hfi
    exact lookup_isSome_iff.mpr ⟨m, hm, beq_self_eq_true m.1⟩
  rw [objectWithFields, if_pos hf]

def attributeJson (entry : String × c.Json) : c.Json :=
  .object [("key", .string entry.1), ("value", entry.2)]

theorem collectAttributes_map (entries result : List (String × c.Json))
    (hn : ((result ++ entries).map (·.1)).Nodup) :
    collectAttributes (entries.map attributeJson) result = .ok (result ++ entries) := by
  induction entries generalizing result with
  | nil => rw [map_nil, collectAttributes, append_nil]
  | cons entry _ ih =>
    have hne : (result.lookup entry.1).isSome = false := by
      rw [Bool.eq_false_iff]
      intro h
      obtain ⟨_, hm, hk⟩ := lookup_isSome_iff.mp h
      rw [map_append] at hn
      exact disjoint_of_nodup_append hn (List.mem_map_of_mem hm)
        (List.mem_map.mpr ⟨entry, mem_cons_self, eq_of_beq hk⟩)
    have hi := ih (result ++ [entry]) (by rwa [append_assoc])
    rw [append_assoc, singleton_append] at hi
    rw [map_cons, collectAttributes]
    refine bind_ok.mpr ⟨_, objectWithFields_of_keys rfl _, ?_⟩
    simp [field, List.lookup, Value.asStr, hne, hi]

def stringJson (s : String) : c.Json := .object [("stringValue", .string s)]

theorem stringValue_stringJson (s key : String) : stringValue (stringJson s : c.Json) key =
      if s = "" then bail ("attribute " ++ key ++ " must not be empty") else .ok s := by
  have hf : objectWithFields (stringJson s : c.Json) ["stringValue"]
      ("attribute " ++ key ++ " value") = .ok [("stringValue", .string s)] :=
    objectWithFields_of_keys rfl _
  rw [stringValue, hf, ok_bind]
  rfl

variable {s key : String} {α : Type}

theorem stringValue_of_ne (hs : s ≠ "") (key : String) :
    stringValue (stringJson s : c.Json) key = .ok s := by
  rw [stringValue_stringJson, if_neg hs]

theorem parseU64_repr (h : n < 2 ^ 64) : Text.parseU64 (chars (Nat.repr n)) = some n := by
  have hdi : chars (Nat.repr n) = Nat.toDigits 10 n := by
    rw [chars_eq, Nat.repr, String.toList_ofList]
  obtain ⟨hn, ha⟩ := digits_toDigits n
  have hs : Search.stripStart ['+'] (Nat.toDigits 10 n) = none := by
    obtain ⟨d, _, hd⟩ := exists_cons_of_ne_nil hn
    have hdg : d.isDigit := ha d (by rw [hd]; exact mem_cons_self)
    have hp : '+' ≠ d := by
      rintro rfl
      cases hdg
    simp [Search.stripStart, hd, hp]
  have hv : Nat.ofDigitChars 10 (Nat.toDigits 10 n) 0 = n :=
    ofDigitChars_toDigits (by decide) (by decide)
  rw [hdi, Text.parseU64, hs, getD_none, hv, if_pos]
  exact ⟨hn, List.all_eq_true.mpr ha, h⟩

theorem integerValue_repr (n : UInt64) (key : String) :
    integerValue (.object [("intValue", .string (Nat.repr n.toNat))] : c.Json) key = .ok () := by
  refine bind_ok.mpr ⟨_, objectWithFields_of_keys rfl _, ?_⟩
  show (if (Text.parseU64 (chars (Nat.repr n.toNat))).isNone then _ else _) = _
  rw [parseU64_repr n.toNat_lt]
  rfl

theorem unixNanos_repr (hp : n ≠ 0) (h : n < 2 ^ 64) (name : String) :
    unixNanos (.string (Nat.repr n) : c.Json) name = .ok n := by
  obtain ⟨_, rfl⟩ := exists_eq_succ_of_ne_zero hp
  rw [unixNanos, Value.asStr]
  simp only [parseU64_repr h]

theorem stringArrayValue_of_ne {values : List String} (h : "" ∉ values) (key : String) :
    stringArrayValue (.object [("arrayValue", .object [("values",
      .array (values.map stringJson))])] : c.Json) key = .ok () := by
  refine bind_ok.mpr ⟨_, objectWithFields_of_keys rfl _, ?_⟩
  show (values.map stringJson).forM (fun value : c.Json => do
    let _ ← stringValue value key
    pure ()) = .ok ()
  induction values with
  | nil => rfl
  | cons value _ ih =>
    obtain ⟨hva, hv⟩ := ne_and_not_mem_of_not_mem_cons h
    exact bind_ok.mpr ⟨(), bind_ok.mpr ⟨value, stringValue_of_ne (Ne.symm hva) key, rfl⟩, ih hv⟩

/-- The messages are accepted when they are an array that does not nest too deep. -/
theorem messagesValue_canonical {messages : List c.Json} (key : String) :
    (messagesValue (stringJson (canonicalJsonString (.array messages)) : c.Json) key = .ok ()) ↔
      (Value.array messages : c.Json).depth < nestingLimit := by
  have ht : canonicalJsonString (.array messages : c.Json) ≠ "" := by
    intro h
    have hpo := print_length_pos .compact 0 (.array messages : c.Json)
    have he := congrArg String.toList h
    rw [canonicalJsonString, String.toList_ofList, canonicalJson] at he
    rw [he] at hpo
    exact absurd hpo (by decide)
  have hb : ∀ c ∈ ([] : List Char), isSpace c := by simp
  have hp := document_print .compact (.array messages : c.Json) hb
  rw [append_nil] at hp
  rw [messagesValue, stringValue_of_ne ht, ok_bind, parseJson, canonicalJsonString, chars_eq,
    String.toList_ofList, canonicalJson, hp]
  by_cases hd : (Value.array messages : c.Json).depth < nestingLimit
  · rw [if_pos hd]
    exact iff_of_true rfl hd
  · rw [if_neg hd]
    exact iff_of_false (fun h => by cases h) hd

/-! The attributes of a span. -/

def optionalEntry {α : Type} (key : String) (f : α → c.Json) (x : Option α) :
    List (String × c.Json) :=
  (x.map fun a => (key, f a)).toList

theorem lookup_optionalEntry (key key' : String) (f : α → c.Json) (x : Option α) :
    (optionalEntry key f x).lookup key' = if key' = key then x.map f else none := by
  cases x with
  | none => simp [optionalEntry]
  | some =>
    by_cases hk : key' = key
    · simp [optionalEntry, hk]
    · simp [optionalEntry, List.lookup, hk, beq_eq_false_iff_ne.mpr hk]

def fixedEntries (inference : VerifiedInference c) (conversationId : String) :
    List (String × c.Json) :=
  [("gen_ai.conversation.id", stringJson conversationId),
    ("gen_ai.input.messages", stringJson (canonicalJsonString inference.inputMessages)),
    ("gen_ai.operation.name", stringJson inference.operation.name),
    ("gen_ai.output.messages", stringJson (canonicalJsonString inference.outputMessages)),
    ("gen_ai.provider.name", stringJson inference.provider),
    ("gen_ai.request.model", stringJson inference.requestModel),
    ("server.address", stringJson inference.serverAddress)]

def reasonsJson (reasons : List String) : c.Json :=
  .object [("arrayValue", .object [("values", .array (reasons.map stringJson))])]

def tokensJson (n : UInt64) : c.Json := .object [("intValue", .string (Nat.repr n.toNat))]

def spanEntries (inference : VerifiedInference c) (conversationId : String) :
    List (String × c.Json) :=
  fixedEntries inference conversationId ++
  optionalEntry "gen_ai.response.model" stringJson inference.responseModel ++
  optionalEntry "gen_ai.usage.input_tokens" tokensJson inference.inputTokens ++
  optionalEntry "gen_ai.usage.output_tokens" tokensJson inference.outputTokens ++
  optionalEntry "gen_ai.response.finish_reasons" reasonsJson
    (if inference.finishReasons = [] then none else some inference.finishReasons)

variable (inference : VerifiedInference c)

theorem spanAttributes_eq (conversationId : String) : spanAttributes inference conversationId =
      (spanEntries inference conversationId).map attributeJson := by
  have ho : ∀ {α : Type} (key : String) (f : α → c.Json) (x : Option α),
      (optionalEntry key f x).map attributeJson =
        (x.map fun a => attributeJson (key, f a)).toList :=
    fun key f x => by cases x <;> rfl
  rw [spanEntries, map_append, map_append, map_append, map_append, ho, ho, ho, ho]
  by_cases hr : inference.finishReasons = []
  · rw [spanAttributes, if_pos hr, if_pos hr]
    rfl
  · rw [spanAttributes, if_neg hr, if_neg hr]
    rfl

theorem keys_optionalEntry (key : String) (f : α → c.Json) (x : Option α) :
    ((optionalEntry key f x).map (·.1)).Sublist [key] := by
  cases x with
  | none => exact nil_sublist [key]
  | some => exact List.Sublist.refl [key]

theorem keys_spanEntries (conversationId : String) :
    ((spanEntries inference conversationId).map (·.1)).Sublist
      ["gen_ai.conversation.id", "gen_ai.input.messages", "gen_ai.operation.name",
        "gen_ai.output.messages", "gen_ai.provider.name", "gen_ai.request.model", "server.address",
        "gen_ai.response.model", "gen_ai.usage.input_tokens", "gen_ai.usage.output_tokens",
        "gen_ai.response.finish_reasons"] := by
  rw [spanEntries, map_append, map_append, map_append, map_append]
  exact ((((List.Sublist.refl _).append (keys_optionalEntry ..)).append
    (keys_optionalEntry ..)).append (keys_optionalEntry ..)).append (keys_optionalEntry ..)

theorem nodup_spanEntries (conversationId : String) :
    ((spanEntries inference conversationId).map (·.1)).Nodup :=
  (keys_spanEntries inference conversationId).nodup (by decide)

theorem supported_spanEntries (conversationId : String) :
    (spanEntries inference conversationId).all (fun entry => entry.1 ∈ supportedAttributes) := by
  have hk : ∀ key ∈ ["gen_ai.conversation.id", "gen_ai.input.messages", "gen_ai.operation.name",
      "gen_ai.output.messages", "gen_ai.provider.name", "gen_ai.request.model", "server.address",
      "gen_ai.response.model", "gen_ai.usage.input_tokens", "gen_ai.usage.output_tokens",
      "gen_ai.response.finish_reasons"], key ∈ supportedAttributes := by decide
  rw [List.all_eq_true]
  intro entry he
  exact decide_eq_true (hk entry.1
    ((keys_spanEntries inference conversationId).subset (List.mem_map_of_mem he)))

/-- The texts of an inference are the ones that the adapters let through. -/
structure VerifiedInference.Normalized (inference : VerifiedInference c) : Prop where
  provider : inference.provider ≠ ""
  requestModel : inference.requestModel ≠ ""
  responseModel : inference.responseModel ≠ some ""
  finishReasons : "" ∉ inference.finishReasons

section

variable {inference : VerifiedInference c} {conversationId : String}

theorem ifPresent_entry {value : c.Json}
    (h : (spanEntries inference conversationId).lookup key = some value) :
    ifPresent (spanEntries inference conversationId) key check = check value key := by
  rw [ifPresent, h]

theorem lookup_fixedEntry {value : c.Json}
    (h : (fixedEntries inference conversationId).lookup key = some value) :
    (spanEntries inference conversationId).lookup key = some value := by
  rw [spanEntries, lookup_append, lookup_append, lookup_append, lookup_append, h]
  rfl

theorem requiredAttribute_fixedEntry
    (h : (fixedEntries inference conversationId).lookup key = some (stringJson s)) (hs : s ≠ "") :
    requiredAttribute (spanEntries inference conversationId) key = .ok s := by
  rw [requiredAttribute, lookup_fixedEntry h]
  exact stringValue_of_ne hs key

/-- A check of an attribute that need not be there passes when it passes on the value. -/
theorem ifPresent_optional {f : α → c.Json} {x : Option α} {check : c.Json → String → Attempt Unit}
    (hl : (spanEntries inference conversationId).lookup key = x.map f)
    (hc : ∀ a, x = some a → check (f a) key = .ok ()) :
    ifPresent (spanEntries inference conversationId) key check = .ok () := by
  rw [ifPresent, hl]
  cases x with
  | none => rfl
  | some a => exact hc a rfl

theorem isStringValue_ok : isStringValue (stringJson s : c.Json) key = .ok () ↔ s ≠ "" := by
  rw [isStringValue, stringValue_stringJson]
  by_cases hs : s = ""
  · rw [if_pos hs]
    exact iff_of_false (fun h => nomatch h) (not_not_intro hs)
  · rw [if_neg hs]
    exact iff_of_true rfl hs

/-- What the check of the attributes of a span adds to what the adapters guarantee. -/
theorem validateSpanAttributes_ok (h : inference.Normalized) (hid : conversationId ≠ "")
    {input output : List c.Json} (hin : inference.inputMessages = .array input)
    (hou : inference.outputMessages = .array output) :
    (∃ provider, validateSpanAttributes (spanEntries inference conversationId) = .ok provider) ↔
      inference.serverAddress ≠ "" ∧ (Value.array input : c.Json).depth < nestingLimit ∧
        (Value.array output : c.Json).depth < nestingLimit := by
  have hop : inference.operation.name ≠ "" := by cases inference.operation <;> decide
  have hl : ∀ key, (spanEntries inference conversationId).lookup key = _ := fun key => by
    rw [spanEntries, lookup_append, lookup_append, lookup_append,
      lookup_append, lookup_optionalEntry, lookup_optionalEntry, lookup_optionalEntry,
      lookup_optionalEntry]
  have hr : ifPresent (spanEntries inference conversationId) "gen_ai.response.model"
      isStringValue = .ok () := by
    refine ifPresent_optional (f := stringJson) (x := inference.responseModel)
      ((hl _).trans (by simp [fixedEntries, List.lookup])) ?_
    intro _ hs
    rw [isStringValue_ok]
    rintro rfl
    exact h.responseModel hs
  have hit : ifPresent (spanEntries inference conversationId) "gen_ai.usage.input_tokens"
      integerValue = .ok () :=
    ifPresent_optional (f := tokensJson) (x := inference.inputTokens)
      ((hl _).trans (by simp [fixedEntries, List.lookup])) fun n _ => integerValue_repr n _
  have hot : ifPresent (spanEntries inference conversationId)
      "gen_ai.usage.output_tokens" integerValue = .ok () :=
    ifPresent_optional (f := tokensJson) (x := inference.outputTokens)
      ((hl _).trans (by simp [fixedEntries, List.lookup])) fun n _ => integerValue_repr n _
  have hre : ifPresent (spanEntries inference conversationId)
      "gen_ai.response.finish_reasons" stringArrayValue = .ok () := by
    refine ifPresent_optional (f := reasonsJson)
      (x := if inference.finishReasons = [] then none else some inference.finishReasons)
      ((hl _).trans (by simp [fixedEntries, List.lookup])) ?_
    intro reasons hso
    obtain ⟨-, rfl⟩ : ¬inference.finishReasons = [] ∧ inference.finishReasons = reasons := by
      simpa using hso
    exact stringArrayValue_of_ne h.finishReasons _
  have hc : ifPresent (spanEntries inference conversationId) "gen_ai.conversation.id"
      isStringValue = .ok () := by
    rw [ifPresent_entry (lookup_fixedEntry rfl)]
    exact isStringValue_ok.mpr hid
  rw [validateSpanAttributes, requiredAttribute_fixedEntry rfl h.provider, ok_bind,
    requiredAttribute_fixedEntry rfl hop, ok_bind,
    requiredAttribute_fixedEntry rfl h.requestModel, ok_bind, hr, ok_bind, hit,
    ok_bind, hot, ok_bind, ifPresent_entry (lookup_fixedEntry rfl),
    ifPresent_entry (lookup_fixedEntry rfl), hre, hc,
    ifPresent_entry (lookup_fixedEntry rfl), if_pos (supported_spanEntries _ _), hin, hou]
  simp only [ok_bind]
  constructor
  · rintro ⟨_, hok⟩
    obtain ⟨_, hi, hok⟩ := bind_ok.mp hok
    obtain ⟨_, ho, hok⟩ := bind_ok.mp hok
    obtain ⟨_, ha, -⟩ := bind_ok.mp hok
    exact ⟨isStringValue_ok.mp ha, (messagesValue_canonical _).mp hi,
      (messagesValue_canonical _).mp ho⟩
  · rintro ⟨ha, hi, ho⟩
    exact ⟨inference.provider, bind_ok.mpr ⟨(), (messagesValue_canonical _).mpr hi,
      bind_ok.mpr ⟨(), (messagesValue_canonical _).mpr ho,
        bind_ok.mpr ⟨(), isStringValue_ok.mpr ha, rfl⟩⟩⟩⟩

end

/-! The whole trace. -/

def isIdByte (b : UInt8) : Bool := Ascii.isHexDigit b && !Ascii.isUppercase b

theorem encode_digitChar : ∀ n < 16, (encode [Nat.digitChar n]).length = 1 ∧
    (encode [Nat.digitChar n]).all isIdByte := by
  decide

theorem encode_hexDigits (b : Bytes) : (encode (b.flatMap Hex.digits)).length = 2 * b.length ∧
    (encode (b.flatMap Hex.digits)).all isIdByte := by
  induction b with
  | nil => exact ⟨rfl, rfl⟩
  | cons x b ih =>
    have hx := x.toNat_lt
    obtain ⟨hhi, hh⟩ := encode_digitChar (x.toNat / 16) (by omega)
    obtain ⟨hlo, hl⟩ := encode_digitChar (x.toNat % 16) (by omega)
    have hs : encode ((x :: b).flatMap Hex.digits) =
        encode [Nat.digitChar (x.toNat / 16)] ++ (encode [Nat.digitChar (x.toNat % 16)] ++
          encode (b.flatMap Hex.digits)) := by
      simp [encode, Hex.digits]
    rw [hs, length_append, length_append, hhi, hlo, ih.1, length_cons,
      all_append, all_append, hh, hl, ih.2]
    exact ⟨by omega, rfl⟩

theorem hexadecimalId_encode (b : Bytes) (name : String) {length : ℕ} (hl : 2 * b.length = length) :
    hexadecimalId (.string (Hex.encode b) : c.Json) length name = .ok (Hex.encode b) := by
  obtain ⟨hb, hd⟩ := encode_hexDigits b
  rw [← bytes_ofList] at hb hd
  exact if_pos ⟨hb.trans hl, hd⟩

theorem canonical_attributeJson {entry : String × c.Json} (h : entry.2.Canonical) :
    (attributeJson entry).Canonical :=
  canonical_pair (by decide) (canonical_string entry.1) h

theorem canonical_stringJson (s : String) : (stringJson s : c.Json).Canonical :=
  canonical_singleton _ (canonical_string s)

theorem canonical_tokensJson (n : UInt64) : (tokensJson n : c.Json).Canonical :=
  canonical_singleton _ (canonical_string _)

theorem canonical_reasonsJson (reasons : List String) :
    (reasonsJson reasons : c.Json).Canonical := by
  refine canonical_singleton _ (canonical_singleton _ (canonical_array fun v hv => ?_))
  obtain ⟨s, -, rfl⟩ := List.mem_map.mp hv
  exact canonical_stringJson s

theorem forall_spanEntries {p : c.Json → Prop} (hs : ∀ s, p (stringJson s))
    (ht : ∀ n, p (tokensJson n)) (hr : ∀ reasons, p (reasonsJson reasons))
    (inference : VerifiedInference c) (conversationId : String) :
    ∀ entry ∈ spanEntries inference conversationId, p entry.2 := by
  have ho : ∀ {α : Type} (key : String) (f : α → c.Json) (x : Option α), (∀ a, p (f a)) →
      ∀ entry ∈ optionalEntry key f x, p entry.2 := by
    intro _ _ _ _ hf _ he
    obtain ⟨a, -, rfl⟩ := map_eq_some_iff.mp (mem_toList.mp he)
    exact hf a
  intro entry he
  simp only [spanEntries, mem_append] at he
  rcases he with (((he | he) | he) | he) | he
  · simp only [fixedEntries, mem_cons, not_mem_nil, or_false] at he
    rcases he with rfl | rfl | rfl | rfl | rfl | rfl | rfl
    all_goals exact hs _
  · exact ho _ _ _ hs entry he
  · exact ho _ _ _ ht entry he
  · exact ho _ _ _ ht entry he
  · exact ho _ _ _ hr entry he

def spanMembers (inference : VerifiedInference c) (traceId : String) (index : ℕ) :
    List (String × c.Json) :=
  let start := Nat.repr (inference.capturedAtUnixMs.toNat * 1000000)
  [("attributes", .array (spanAttributes inference ("notary:" ++ traceId))),
    ("endTimeUnixNano", .string start),
    ("kind", .number (.unsigned 3)),
    ("name", .string "gen_ai.inference"),
    ("spanId", .string (spanIdOf c traceId index)),
    ("startTimeUnixNano", .string start),
    ("traceId", .string traceId)]

def spanJson (inference : VerifiedInference c) (traceId : String) (index : ℕ) : c.Json :=
  .object (spanMembers inference traceId index)

theorem canonical_spanJson (traceId : String) (index : ℕ) :
    (spanJson inference traceId index).Canonical := by
  have ha : (Value.array (spanAttributes inference ("notary:" ++ traceId))).Canonical := by
    rw [spanAttributes_eq]
    refine canonical_array fun v hv => ?_
    obtain ⟨entry, he, rfl⟩ := List.mem_map.mp hv
    exact canonical_attributeJson (forall_spanEntries canonical_stringJson canonical_tokensJson
      canonical_reasonsJson inference _ entry he)
  exact canonical_object ["attributes", "endTimeUnixNano", "kind", "name", "spanId",
    "startTimeUnixNano", "traceId"] rfl (by decide)
    (by simp [spanMembers, ha, canonical_string, canonical_unsigned])

theorem depth_reasonsJson (reasons : List String) : (reasonsJson reasons : c.Json).depth ≤ 4 := by
  have hva : Value.depths (reasons.map stringJson : List c.Json) ≤ 1 := depths_le fun v hv => by
      obtain ⟨_, -, rfl⟩ := List.mem_map.mp hv
      exact le_refl 1
  simp only [reasonsJson, Value.depth, Value.memberDepths]
  omega

theorem depth_spanJson (traceId : String) (index : ℕ) :
    (spanJson inference traceId index).depth ≤ 7 := by
  have ha : Value.depths (spanAttributes inference ("notary:" ++ traceId)) ≤ 5 := by
    rw [spanAttributes_eq]
    refine depths_le fun v hv => ?_
    obtain ⟨entry, he, rfl⟩ := List.mem_map.mp hv
    have he : entry.2.depth ≤ 4 := forall_spanEntries (p := fun v => v.depth ≤ 4)
      (fun s => succ_le_succ (Nat.zero_le 3)) (fun n => succ_le_succ (Nat.zero_le 3))
      depth_reasonsJson inference _ entry he
    simp only [attributeJson, Value.depth, Value.memberDepths]
    omega
  simp only [spanJson, spanMembers, Value.depth, Value.memberDepths]
  omega

/-- The first span of a rendered trace passes exactly when its attributes do. -/
theorem validateSpan_spanJson {inference : VerifiedInference c} (hb : b.length = 16)
    (hst : inference.capturedAtUnixMs ≠ 0)
    (hfi : inference.capturedAtUnixMs.toNat * 1000000 < 2 ^ 64) (index : ℕ) :
    (∃ scan, validateSpan ⟨none, [], none⟩ (spanJson inference (Hex.encode b) index) = .ok scan) ↔
      ∃ provider, validateSpanAttributes
        (spanEntries inference ("notary:" ++ Hex.encode b)) = .ok provider := by
  have hne : inference.capturedAtUnixMs.toNat * 1000000 ≠ 0 :=
    Nat.mul_ne_zero (fun h => hst (UInt64.toNat_inj.mp h)) (by decide)
  have hf : objectWithFields (spanJson inference (Hex.encode b) index)
      ["attributes", "endTimeUnixNano", "kind", "name", "spanId", "startTimeUnixNano", "traceId"]
      "inference span" = .ok (spanMembers inference (Hex.encode b) index) :=
    objectWithFields_of_keys rfl _
  have hn : (field (spanMembers inference (Hex.encode b) index) "name").asStr =
      some "gen_ai.inference" := rfl
  have hk : (field (spanMembers inference (Hex.encode b) index) "kind").asU64 = some 3 := rfl
  have ht : hexadecimalId (field (spanMembers inference (Hex.encode b) index) "traceId") 32
      "traceId" = .ok (Hex.encode b) :=
    hexadecimalId_encode b _ (by rw [hb])
  have hsi : hexadecimalId (field (spanMembers inference (Hex.encode b) index) "spanId") 16
      "spanId" = .ok (spanIdOf c (Hex.encode b) index) :=
    hexadecimalId_encode _ _ (by rw [length_take, c.sha256_length]; rfl)
  have hs : unixNanos (field (spanMembers inference (Hex.encode b) index)
      "startTimeUnixNano") "startTimeUnixNano" = .ok _ := unixNanos_repr hne hfi _
  have he : unixNanos (field (spanMembers inference (Hex.encode b) index)
      "endTimeUnixNano") "endTimeUnixNano" = .ok _ := unixNanos_repr hne hfi _
  have ha : attributes (field (spanMembers inference (Hex.encode b) index) "attributes")
      "inference span attributes" = .ok (spanEntries inference ("notary:" ++ Hex.encode b)) := by
    have hfl : field (spanMembers inference (Hex.encode b) index) "attributes" =
        .array (spanAttributes inference ("notary:" ++ Hex.encode b)) := rfl
    rw [hfl, attributes, arrayOf, ok_bind, spanAttributes_eq]
    exact collectAttributes_map _ [] (nodup_spanEntries _ _)
  rw [validateSpan, hf, ok_bind, if_neg (not_not_intro hn), if_neg (not_not_intro hk),
    ht, ok_bind, hsi, ok_bind, if_neg (by simp), if_neg (by simp), hs, ok_bind,
    he, ok_bind, if_neg (lt_irrefl _), ha, ok_bind]
  constructor
  · rintro ⟨_, hsc⟩
    obtain ⟨provider, hp, -⟩ := bind_ok.mp hsc
    exact ⟨provider, hp⟩
  · rintro ⟨provider, hp⟩
    exact ⟨_, bind_ok.mpr ⟨provider, hp, rfl⟩⟩

theorem validateTraceShape_singleton (span : c.Json) :
    validateTraceShape (publicTrace [span]) = .ok () ↔
      ∃ scan, validateSpan ⟨none, [], none⟩ span = .ok scan := by
  show ((validateSpan ⟨none, [], none⟩ span >>= pure) >>= fun _ => pure ()) = .ok () ↔ _
  constructor
  · intro h
    obtain ⟨_, h, -⟩ := bind_ok.mp h
    obtain ⟨scan, hs, -⟩ := bind_ok.mp h
    exact ⟨scan, hs⟩
  · rintro ⟨scan, hs⟩
    exact bind_ok.mpr ⟨scan, bind_ok.mpr ⟨scan, hs, rfl⟩, rfl⟩

theorem depth_publicTrace (spans : List c.Json) :
    (publicTrace spans).depth = max 7 (Value.depths spans + 6) := by
  simp only [publicTrace, stringAttribute, Value.depth, Value.depths, Value.memberDepths]
  omega

theorem canonical_publicTrace {spans : List c.Json} (h : ∀ span ∈ spans, span.Canonical) :
    (publicTrace spans).Canonical := by
  have hst : ∀ key value, (stringAttribute key value : c.Json).Canonical := fun key value =>
    canonical_pair (by decide) (canonical_string key) (canonical_stringJson value)
  have hsc : (Value.object [("name", .string "notary.normalizer"),
      ("version", .string normalizerVersion)] : c.Json).Canonical :=
    canonical_pair (by decide) (canonical_string _) (canonical_string _)
  have hs : (Value.object [("scope", .object [("name", .string "notary.normalizer"),
      ("version", .string normalizerVersion)]), ("spans", .array spans)] : c.Json).Canonical :=
    canonical_pair (by decide) hsc (canonical_array h)
  refine canonical_singleton _ (canonical_array fun v hv => ?_)
  rw [mem_singleton.mp hv]
  refine canonical_pair (by decide) (canonical_singleton _ ?_) (canonical_array fun v hv => ?_)
  · exact canonical_array (by simp [hst])
  · rw [mem_singleton.mp hv]
    exact hs

/-- A trace of one span is accepted exactly when the span is. -/
theorem validatePublicTraceBytes_singleton {span : c.Json} (hc : span.Canonical)
    (hd : span.depth ≤ 7) :
    validatePublicTraceBytes c (canonicalTraceBytes (publicTrace [span])) = .ok () ↔
      ∃ scan, validateSpan ⟨none, [], none⟩ span = .ok scan := by
  have ht : (publicTrace [span]).Canonical :=
    canonical_publicTrace fun v hv => by rwa [mem_singleton.mp hv]
  have hl : (publicTrace [span]).depth < nestingLimit := by
    rw [depth_publicTrace, nestingLimit]
    simp only [Value.depths]
    omega
  have hb : canonicalTraceBytes (publicTrace [span]) =
      encode ((publicTrace [span]).print .compact 0 ++ ['\n']) := by
    rw [canonicalTraceBytes, canonicalJson, encode, encode, flatMap_append]
    rfl
  have hp : (fromSlice (canonicalTraceBytes (publicTrace [span])) : Option c.Json) =
      some (publicTrace [span]) := by
    rw [hb]
    refine ht.fromSlice_print hl .compact fun ch hch => ?_
    rw [mem_singleton.mp hch]
    rfl
  rw [validatePublicTraceBytes, hp, orBail, ok_bind, if_pos rfl]
  exact validateTraceShape_singleton span

theorem exists_traceIdOf (inferences : List (VerifiedInference c)) :
    ∃ b : Bytes, b.length = 16 ∧ traceIdOf inferences = Hex.encode b :=
  ⟨_, by rw [length_take, c.sha256_length]; rfl, rfl⟩

/-- What rendering one inference asks for, beyond what the adapters guarantee. -/
theorem renderPublicTrace_singleton {inference : VerifiedInference c} (h : inference.Normalized)
    {input output : List c.Json} (hi : inference.inputMessages = .array input)
    (ho : inference.outputMessages = .array output) (hst : inference.capturedAtUnixMs ≠ 0)
    (hf : inference.capturedAtUnixMs.toNat * 1000000 < 2 ^ 64) :
    (∃ trace, renderPublicTrace [inference] = .ok trace) ↔
      inference.serverAddress ≠ "" ∧ (Value.array input : c.Json).depth < nestingLimit ∧
        (Value.array output : c.Json).depth < nestingLimit := by
  obtain ⟨b, hb, ht⟩ := exists_traceIdOf [inference]
  have hid : "notary:" ++ Hex.encode b ≠ "" := by
    intro he
    have hte := congrArg String.toList he
    rw [String.toList_append] at hte
    exact absurd (append_eq_nil_iff.mp hte).1 (by decide)
  have hsp : inferenceSpan inference (Hex.encode b) ("notary:" ++ Hex.encode b) 0 =
      .ok (spanJson inference (Hex.encode b) 0) := if_pos hf
  have hs : ([inference].zipIdx.mapM fun x => inferenceSpan x.1 (Hex.encode b)
      ("notary:" ++ Hex.encode b) x.2) = .ok [spanJson inference (Hex.encode b) 0] := by
    rw [zipIdx_singleton, mapM_cons, hsp, ok_bind]
    rfl
  have hp : [inference].all (·.provider = inference.provider) := by simp
  rw [← validateSpanAttributes_ok h hid hi ho, ← validateSpan_spanJson hb hst hf 0,
    ← validatePublicTraceBytes_singleton (canonical_spanJson inference _ 0)
      (depth_spanJson inference _ 0), renderPublicTrace, if_pos hp]
  simp only [ht, hs, ok_bind]
  constructor
  · rintro ⟨_, ht⟩
    obtain ⟨_, hv, -⟩ := bind_ok.mp ht
    exact hv
  · intro hv
    exact ⟨_, bind_ok.mpr ⟨(), hv, rfl⟩⟩

end Notary.Core
