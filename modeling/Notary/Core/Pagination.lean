import Notary.Core.ArchiveRoundTrip
import Notary.Lib.Base64Url
import Notary.Lib.JsonCanonical

/-! Pagination cursors: how a position is bound to a route, its filters and its order. -/

namespace Notary.Core
open Utf8 Json Result List

inductive PaginationError
  | cursorTooLong
  | malformedCursor
  | unsupportedCursorVersion
  | cursorChecksum
  | cursorScope
  | serialization
  | invalidConfiguration
  deriving DecidableEq

def cursorVersion : UInt8 := 1

def cursorDigestDomain : Bytes := bytes "notary/cursor/v1\x00"

def maxCursorLength : ℕ := 2048

def maxCursorPayloadLength : ℕ := 1536

/-- The URL-safe alphabet of the base64 library. -/
structure Base64 where
  encode : Bytes → String
  decode : String → Option Bytes
  decode_empty : decode "" = some []
  decode_encode : ∀ b, decode (encode b) = some b

/-- A type that serializes, with the reader that its serialization has. -/
structure Serde (c : Crates) (α : Type) where
  serialize : α → Option c.Json
  deserialize : c.Json → Option α
  deserialize_serialize : ∀ a v, serialize a = some v → deserialize v.normalize = some a

structure CursorScope where
  digest : Bytes
  length_eq : digest.length = 32

structure CursorBody (c : Crates) where
  version : UInt8
  scope : String
  position : c.Json

structure CursorEnvelope (c : Crates) where
  body : CursorBody c
  digest : String

def orFail {α : Type} (x : Option α) (e : PaginationError) : Except PaginationError α :=
  match x with
  | some a => .ok a
  | none => .error e

def constantTimeEq (left right : Bytes) : Bool :=
  left.length = right.length &&
    (left.zip right).foldl (fun difference p => difference ||| (p.1 ^^^ p.2)) (0 : UInt8) = 0

section

variable {c : Crates} {P F : Type}

/-- What the digest of a scope is taken of. -/
def scopeInput (serde : Serde c F) (route : String) (filters : F) (order : String) :
    Option c.Json :=
  (serde.serialize filters).map fun v => .array [.string route, v, .string order]

def CursorScope.new (serde : Serde c F) (route : String) (filters : F) (order : String) :
    Except PaginationError CursorScope :=
  if route = "" ∨ order = "" then .error .invalidConfiguration
  else do
    let input ← orFail (scopeInput serde route filters order) .serialization
    .ok ⟨c.sha256 (toVec input), c.sha256_length _⟩

def CursorBody.toJson (body : CursorBody c) : c.Json :=
  .object [("version", .number (.unsigned body.version.toUInt64)), ("scope", .string body.scope),
    ("position", body.position)]

def CursorEnvelope.toJson (envelope : CursorEnvelope c) : c.Json :=
  .object [("body", envelope.body.toJson), ("digest", .string envelope.digest)]

def CursorBody.ofJson (v : c.Json) : Option (CursorBody c) := do
  match ← structFields ["version", "scope", "position"] false v with
  | [version, scope, position] =>
    let version ← version.asU64
    if version < 256 then some ⟨version.toUInt8, ← scope.asStr, position.normalize⟩ else none
  | _ => none

def CursorEnvelope.ofJson (v : c.Json) : Option (CursorEnvelope c) := do
  match ← structFields ["body", "digest"] false v with
  | [body, digest] => some ⟨← CursorBody.ofJson body, ← digest.asStr⟩
  | _ => none

def cursorDigest (c : Crates) (body : Bytes) : String :=
  Hex.encode (c.sha256 (cursorDigestDomain ++ body))

/-- `serde_json::to_value`. -/
def Serde.toValue (serde : Serde c P) (position : P) : Option c.Json :=
  (serde.serialize position).map Value.normalize

/-- The envelope of a position. -/
def cursorEnvelope (scope : CursorScope) (position : c.Json) : CursorEnvelope c :=
  let body := ⟨cursorVersion, Hex.encode scope.digest, position⟩
  ⟨body, cursorDigest c (toVec body.toJson)⟩

def encodeCursor (base64 : Base64) (serde : Serde c P) (scope : CursorScope) (position : P) :
    Except PaginationError String := do
  let value ← orFail (serde.toValue position) .serialization
  let payload := toVec (cursorEnvelope scope value).toJson
  if payload.length > maxCursorPayloadLength then .error .cursorTooLong
  else
    let encoded := base64.encode payload
    if encoded.utf8ByteSize > maxCursorLength then .error .cursorTooLong else .ok encoded

def decodeCursor (base64 : Base64) (serde : Serde c P) (scope : CursorScope) (cursor : String) :
    Except PaginationError P :=
  if cursor = "" then .error .malformedCursor
  else if cursor.utf8ByteSize > maxCursorLength then .error .cursorTooLong
  else do
    let payload ← orFail (base64.decode cursor) .malformedCursor
    if payload.length > maxCursorPayloadLength then .error .cursorTooLong
    else do
      let envelope ← orFail ((fromSliceRaw c payload).bind CursorEnvelope.ofJson) .malformedCursor
      if envelope.body.version ≠ cursorVersion then .error .unsupportedCursorVersion
      else if !constantTimeEq (bytes envelope.digest)
          (bytes (cursorDigest c (toVec envelope.body.toJson))) then .error .cursorChecksum
      else if !constantTimeEq (bytes envelope.body.scope) (bytes (Hex.encode scope.digest)) then
        .error .cursorScope
      else orFail (serde.deserialize envelope.body.position) .malformedCursor

/-- `serde_json` reads the value from its own text. -/
def ReadsBack (v : c.Json) : Prop := fromSliceRaw c (toVec v) = some v

theorem orFail_ok {α : Type} {x : Option α} {e : PaginationError} {a : α} :
    orFail x e = .ok a ↔ x = some a := by
  cases x with
  | none => exact iff_of_false nofun nofun
  | some => simp [orFail]

theorem foldl_difference {a b : Bytes} (hl : a.length = b.length) (d : UInt8) :
    (a.zip b).foldl (fun difference p => difference ||| (p.1 ^^^ p.2)) d = 0 ↔ d = 0 ∧ a = b := by
  induction a generalizing b d with
  | nil => simp [length_eq_zero_iff.mp hl.symm]
  | cons x a ih =>
    obtain _ | ⟨y, b⟩ := b
    · cases hl
    · rw [zip_cons_cons, foldl_cons, ih (Nat.succ.inj hl), UInt8.or_eq_zero_iff,
        UInt8.xor_eq_zero_iff, cons.injEq, and_assoc]

theorem constantTimeEq_iff {a b : Bytes} : constantTimeEq a b = true ↔ a = b := by
  simp only [constantTimeEq, Bool.and_eq_true, decide_eq_true_eq]
  constructor
  · exact fun h => ((foldl_difference h.1 0).mp h.2).2
  · rintro rfl
    exact ⟨rfl, (foldl_difference rfl 0).mpr ⟨rfl, rfl⟩⟩

theorem ofJson_cursorEnvelope (scope : CursorScope) {value : c.Json}
    (hn : value.normalize = value) : CursorEnvelope.ofJson (cursorEnvelope scope value).toJson =
      some (cursorEnvelope scope value) := by
  have hb : CursorBody.ofJson (cursorEnvelope scope value).body.toJson =
      some (cursorEnvelope scope value).body := by
    change some (CursorBody.mk cursorVersion _ value.normalize) = _
    rw [hn]
    rfl
  change ((CursorBody.ofJson (cursorEnvelope scope value).body.toJson).bind fun body =>
    some (CursorEnvelope.mk body _)) = _
  rw [hb]
  rfl

variable {base64 : Base64} {serde : Serde c P} {scope : CursorScope} {position : P}
  {cursor : String} {value : c.Json}

theorem Serde.of_toValue (h : serde.toValue position = some value) :
    value.normalize = value ∧ serde.deserialize value = some position := by
  obtain ⟨v, hv, rfl⟩ := Option.map_eq_some_iff.mp h
  exact ⟨v.normalize_normalize.1, serde.deserialize_serialize position v hv⟩

/-- The payload that a cursor stands for, within both limits. -/
structure Encodes (base64 : Base64) (cursor : String) (payload : Bytes) : Prop where
  encode_eq : base64.encode payload = cursor
  payload_le : payload.length ≤ maxCursorPayloadLength
  cursor_le : cursor.utf8ByteSize ≤ maxCursorLength

theorem encodeCursor_ok (h : encodeCursor base64 serde scope position = .ok cursor) :
    ∃ value, serde.toValue position = some value ∧
      Encodes base64 cursor (toVec (cursorEnvelope scope value).toJson) := by
  obtain ⟨value, hv, h⟩ := bind_ok.mp h
  obtain ⟨hp, h⟩ := guard_ok.mp h
  obtain ⟨hl, h⟩ := guard_ok.mp h
  cases h
  exact ⟨value, orFail_ok.mp hv, rfl, not_lt.mp hp, not_lt.mp hl⟩

theorem Encodes.decode_eq (h : Encodes base64 cursor payload) :
    base64.decode cursor = some payload :=
  h.encode_eq ▸ base64.decode_encode payload

/-- What a cursor decodes to under any scope, and for any type of positions. -/
theorem decodeCursor_eq {Q : Type} (others : Serde c Q) (scope' : CursorScope)
    (hn : value.normalize = value) (hr : ReadsBack (cursorEnvelope scope value).toJson)
    (he : Encodes base64 cursor (toVec (cursorEnvelope scope value).toJson)) :
    decodeCursor base64 others scope' cursor =
      if scope.digest = scope'.digest then orFail (others.deserialize value) .malformedCursor
      else .error .cursorScope := by
  have hc : cursor ≠ "" := by
    rintro rfl
    have hd := he.decode_eq
    rw [base64.decode_empty, Option.some_inj] at hd
    rw [ReadsBack, ← hd] at hr
    cases hr
  have hs : constantTimeEq (bytes (Hex.encode scope.digest)) (bytes (Hex.encode scope'.digest)) =
      decide (scope.digest = scope'.digest) := by
    rw [Bool.eq_iff_iff, constantTimeEq_iff, decide_eq_true_eq, bytes_injective.eq_iff,
      Hex.encode_injective.eq_iff]
  have ht : ∀ b : Bytes, constantTimeEq b b = true := fun _ => constantTimeEq_iff.mpr rfl
  rw [decodeCursor, if_neg hc, if_neg (not_lt.mpr he.cursor_le), he.decode_eq, orFail, ok_bind,
    if_neg (not_lt.mpr he.payload_le), show fromSliceRaw c _ = _ from hr, Option.bind_some,
    ofJson_cursorEnvelope scope hn, orFail, ok_bind]
  simp only [cursorEnvelope, ne_eq, not_true_eq_false, if_false, ht, hs, Bool.not_true,
    Bool.false_eq_true]
  by_cases heq : scope.digest = scope'.digest
  · simp [heq]
  · simp [heq]

variable {filterSerde : Serde c F} {route order : String} {filters : F}

theorem CursorScope.new_ok (h : CursorScope.new filterSerde route filters order = .ok scope) :
    ∃ input, scopeInput filterSerde route filters order = some input ∧
      scope.digest = c.sha256 (toVec input) := by
  obtain ⟨-, h⟩ := guard_ok.mp h
  obtain ⟨input, hi, h⟩ := bind_ok.mp h
  cases h
  exact ⟨input, orFail_ok.mp hi, rfl⟩

theorem scopeInput_inj (h : scopeInput filterSerde route filters order = some input)
    (h' : scopeInput filterSerde route' filters' order' = some input) :
    (route, filters, order) = (route', filters', order') := by
  obtain ⟨v, hv, rfl⟩ := Option.map_eq_some_iff.mp h
  obtain ⟨_, hv', he⟩ := Option.map_eq_some_iff.mp h'
  cases he
  have hf := filterSerde.deserialize_serialize filters _ hv
  rw [filterSerde.deserialize_serialize filters' _ hv', Option.some_inj] at hf
  rw [hf]

/-- A cursor decodes to its position under its own scope, is refused under the scope of another
route, other filters or another order, and is within the limits of the decoder. The hypotheses are
that `serde_json` reads what it wrote for these values and that the digests of the two scopes do
not collide. -/
theorem decodeCursor_encodeCursor {Q : Type} (others : Serde c Q) (filterSerde : Serde c F)
    (hencode : encodeCursor base64 serde scope position = .ok cursor)
    (hserde : ∀ value, serde.toValue position = some value →
      ReadsBack (cursorEnvelope scope value).toJson) :
    decodeCursor base64 serde scope cursor = .ok position ∧
    (cursor.utf8ByteSize ≤ maxCursorLength ∧
      ∀ payload, base64.decode cursor = some payload → payload.length ≤ maxCursorPayloadLength) ∧
    ∀ route filters order route' filters' order' scope',
      CursorScope.new filterSerde route filters order = .ok scope →
      CursorScope.new filterSerde route' filters' order' = .ok scope' →
      (route, filters, order) ≠ (route', filters', order') →
      (∀ a b, scopeInput filterSerde route filters order = some a →
        scopeInput filterSerde route' filters' order' = some b → ReadsBack a ∧ ReadsBack b ∧
          (c.sha256 (toVec a) = c.sha256 (toVec b) → toVec a = toVec b)) →
      decodeCursor base64 others scope' cursor = .error .cursorScope := by
  obtain ⟨value, hvalue, hencodes⟩ := encodeCursor_ok hencode
  obtain ⟨hnormal, hposition⟩ := Serde.of_toValue hvalue
  have hdecode {Q : Type} (others : Serde c Q) (scope' : CursorScope) :=
    decodeCursor_eq others scope' hnormal (hserde value hvalue) hencodes
  refine ⟨?_, ⟨hencodes.cursor_le, fun payload hpayload => ?_⟩, ?_⟩
  · rw [hdecode serde scope, if_pos rfl, hposition]
    rfl
  · rw [hencodes.decode_eq, Option.some_inj] at hpayload
    exact hpayload ▸ hencodes.payload_le
  · intro route filters order route' filters' order' scope' hscope hscope' hne hdigest
    obtain ⟨a, ha, hda⟩ := CursorScope.new_ok hscope
    obtain ⟨b, hb, hdb⟩ := CursorScope.new_ok hscope'
    obtain ⟨hreada, hreadb, hinjective⟩ := hdigest a b ha hb
    rw [hdecode others scope', if_neg]
    intro hsame
    have htext := hinjective (hda.symm.trans (hsame.trans hdb))
    rw [ReadsBack, htext, hreadb, Option.some_inj] at hreada
    exact hne (scopeInput_inj ha (hreada ▸ hb))

end

def urlSafeNoPad : Base64 := ⟨Base64Url.encode, Base64Url.decode, rfl, Base64Url.decode_encode⟩

def sampleSerde : Serde sampleCrates String where
  serialize s := some (.string s)
  deserialize := Value.asStr
  deserialize_serialize := by
    rintro s _ ⟨⟩
    rfl

theorem decodeCursor_encodeCursor_sample : ∃ scope scope' cursor,
    CursorScope.new sampleSerde "/v1" "a" "id" = .ok scope ∧
    CursorScope.new sampleSerde "/v1" "b" "id" = .ok scope' ∧
    encodeCursor urlSafeNoPad sampleSerde scope "42" = .ok cursor ∧
    decodeCursor urlSafeNoPad sampleSerde scope cursor = .ok "42" ∧
    decodeCursor urlSafeNoPad sampleSerde scope' cursor = .error .cursorScope := by
  have hread : ∀ v : sampleCrates.Json, v.depth < nestingLimit → ReadsBack v := fun v hdepth =>
    fromSliceRaw_toVec hdepth (Value.reread_eq (fun _ => rfl) v)
  obtain ⟨scope, hscope⟩ := exists_of_toBool
    (show (CursorScope.new sampleSerde "/v1" "a" "id").toBool = true by decide +kernel)
  obtain ⟨scope', hscope'⟩ := exists_of_toBool
    (show (CursorScope.new sampleSerde "/v1" "b" "id").toBool = true by decide +kernel)
  obtain ⟨cursor, hcursor⟩ : ∃ cursor,
      encodeCursor urlSafeNoPad sampleSerde scope "42" = .ok cursor := by
    cases hscope
    exact exists_of_toBool (by decide +kernel)
  obtain ⟨hsame, -, hother⟩ := decodeCursor_encodeCursor sampleSerde sampleSerde hcursor (by
    rintro _ ⟨⟩
    exact hread _ (show 2 < nestingLimit by decide))
  refine ⟨scope, scope', cursor, hscope, hscope', hcursor, hsame,
    hother _ _ _ _ _ _ _ hscope hscope' (by decide) ?_⟩
  rintro _ _ ⟨⟩ ⟨⟩
  exact ⟨hread _ (by decide), hread _ (by decide), fun h => absurd h (by decide +kernel)⟩

end Notary.Core
