import Notary.Core.Http

/-! How the normalizer takes the body from an HTTP message and the events from a stream. -/

namespace Notary.Core
open Utf8 Json

/-- A function of the normalizer fails with an error or with a panic. -/
inductive Failure
  | error (message : String)
  | panicked (message : String)
  deriving DecidableEq

abbrev Attempt := Except Failure

def bail {α : Type} (message : String) : Attempt α := .error (.error message)

def orBail {α : Type} (x : Option α) (message : String) : Attempt α :=
  match x with
  | some a => .ok a
  | none => bail message

theorem orBail_ok {α : Type} {x : Option α} {message : String} {a : α} :
    orBail x message = .ok a ↔ x = some a := by
  cases x with
  | none => exact iff_of_false nofun nofun
  | some => simp [orBail]

/-- Where the first line ends, and the length of its end. -/
def lineEnd (b : Bytes) : Option (ℕ × ℕ) :=
  ((Search.position [0x0D, 0x0A] b).or (Search.position [0x0A] b)).map fun n =>
    (n, if (b.drop n).take 2 = [0x0D, 0x0A] then 2 else 1)

/-- The lines after the last chunk, up to an empty one. -/
def validateChunkedTrailer (name : String) : (fuel : ℕ) → Bytes → Attempt Unit
  | 0, _ => bail ("chunked " ++ name ++ " body has no terminal blank line")
  | fuel + 1, b =>
    match lineEnd b with
    | none => bail ("chunked " ++ name ++ " body has no terminal blank line")
    | some (n, endingLen) =>
      if n = 0 then
        if b.drop (n + endingLen) = [] then .ok ()
        else bail ("chunked " ++ name ++ " body has bytes after its terminal chunk")
      else
        match decode (b.take n) with
        | none => bail "chunked trailer is not UTF-8"
        | some trailer =>
          match Search.splitOnce [':'] trailer with
          | none => bail ("chunked " ++ name ++ " body has an invalid trailer field")
          | some (header, _) =>
            if Text.trim header = [] then
              bail ("chunked " ++ name ++ " body has an invalid trailer field")
            else validateChunkedTrailer name fuel (b.drop (n + endingLen))

/-- The size that a chunk announces, without the extensions after a semicolon. -/
def chunkSize (line : List Char) : Option ℕ :=
  Text.parseHex (Text.trim ((line.splitOnP (· = ';')).headD []))

/-- The loop over the chunks from an offset on. A response may end after a whole chunk. -/
def decodeChunks (b : Bytes) (name : String) : (fuel : ℕ) → (offset : ℕ) → Attempt Bytes
  | 0, _ => bail ("chunked " ++ name ++ " body has no chunk length")
  | fuel + 1, offset =>
    let allowEof := name = "response"
    if allowEof ∧ offset = b.length then .ok []
    else
      match lineEnd (b.drop offset) with
      | none => bail ("chunked " ++ name ++ " body has no chunk length")
      | some (n, endingLen) =>
        match decode ((b.drop offset).take n) with
        | none => bail "invalid utf-8 sequence"
        | some line =>
          match chunkSize line with
          | none => bail ("chunked " ++ name ++ " body has an invalid chunk length")
          | some 0 => do
            let rest := b.drop (offset + n + endingLen)
            validateChunkedTrailer name (rest.length + 1) rest
            .ok []
          | some size =>
            let start := offset + n + endingLen
            match checkedAdd start size with
            | none => bail ("chunked " ++ name ++ " body length overflow")
            | some stop =>
              if b.length < stop then bail ("chunked " ++ name ++ " body ends inside a chunk")
              else
                let chunk := (b.drop start).take size
                if (b.drop stop).take 2 = [0x0D, 0x0A] then do
                  .ok (chunk ++ (← decodeChunks b name fuel (stop + 2)))
                else if (b.drop stop).head? = some 0x0A then do
                  .ok (chunk ++ (← decodeChunks b name fuel (stop + 1)))
                else if allowEof ∧ stop = b.length then .ok chunk
                else bail ("chunked " ++ name ++ " body is missing a chunk terminator")

def decodeChunkedHttpBody (body : List Char) (name : String) : Attempt (List Char) := do
  let b := encode body
  let decoded ← decodeChunks b name (b.length + 1) 0
  orBail (decode decoded) "chunked provider body is not UTF-8"

/-- Whether a line of the head says that the body comes in chunks. -/
def isChunkedHeader (line : List Char) : Bool :=
  match Search.splitOnce [':'] line with
  | none => false
  | some (header, value) =>
    Text.eqIgnoreAsciiCase header (chars "transfer-encoding") &&
      Text.eqIgnoreAsciiCase (Text.trim value) (chars "chunked")

/-- The head and the body of a message. -/
def splitHead (message : List Char) : Option (List Char × List Char) :=
  (Search.splitOnce ['\r', '\n', '\r', '\n'] message).or
    (Search.splitOnce ['\n', '\n'] message)

def httpBody (message : List Char) (name : String) : Attempt (List Char × List Char) := do
  let (head, body) ← orBail (splitHead message) ("captured " ++ name ++ " is not an HTTP message")
  let line ← orBail (Text.lines head).head? ("captured " ++ name ++ " has no start line")
  if (Text.lines head).any isChunkedHeader then
    .ok (line, ← decodeChunkedHttpBody body name)
  else .ok (line, body)

def eventData (block : List Char) : List Char :=
  ['\n'].intercalate (((Text.lines block).filterMap (Search.stripStart (chars "data:"))).map
    Text.trimStart)

def eventDatas (body : List Char) : List (List Char) :=
  ((Search.splitAll ['\n', '\n'] (Text.unifyLineEnds body)).map eventData).filter fun data =>
    data ≠ [] ∧ data ≠ chars "[DONE]"

section

variable (c : Crates)

/-- `serde_json::from_str` on characters. -/
def parseJson (t : List Char) : Option c.Json := (document t).map Value.normalize

def sseEvents (body : List Char) : Attempt (List c.Json) := do
  let events ← (eventDatas body).mapM fun data =>
    orBail (parseJson c data) "parsing provider SSE data event"
  if events = [] then bail "provider response was neither JSON nor SSE" else .ok events

def providerResponseJson (body : List Char) (sse : List c.Json → Attempt c.Json) :
    Attempt c.Json :=
  match parseJson c body with
  | some json => .ok json
  | none => sseEvents c body >>= sse

end

end Notary.Core
