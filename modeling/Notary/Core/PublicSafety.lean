import Notary.Core.Http
import Notary.Lib.Json

/-! The check that a package is safe to make public. -/

namespace Notary.Core
open Utf8 Json

def publicPackageSafetyVersion : String := "notary/public-package-safety/v1"

structure PublicPackageSafetyContext where
  providerHost : String
  requestPath : String
  deriving DecidableEq

inductive PublicPackageLocation
  | archive | manifest | evidence | requestHeaders | requestBody | responseHeaders | responseBody
  | trace
  deriving DecidableEq

structure PublicPackageSafetyError where
  code : String
  location : PublicPackageLocation
  deriving DecidableEq

structure PublicPackageSafetyResult where
  version : String
  highEntropyOverrideApplied : Bool
  deriving DecidableEq

structure ScanState where
  allowHighEntropy : Bool
  highEntropyOverrideApplied : Bool
  deriving DecidableEq

/-- A scan reads and updates the scan state. -/
abbrev Scan (α : Type) := StateT ScanState (Except PublicPackageSafetyError) α

/-! Keys and values that need care. -/

def normalizedKey (value : String) : String :=
  String.ofList (((bytes value).filter Ascii.isAlphanumeric).map fun b =>
    Char.ofNat (Ascii.toLowercase b).toNat)

def isCredentialKey (value : String) : Bool :=
  normalizedKey value ∈ ["authorization", "proxyauthorization", "apikey", "xapikey", "accesskey",
    "accesskeyid", "secretaccesskey", "clientsecret", "secret", "password", "passwd", "cookie",
    "setcookie", "token", "accesstoken", "refreshtoken", "sessiontoken", "privatekey",
    "credential", "credentials"]

def isSignedQueryKey (value : String) : Bool :=
  normalizedKey value ∈ ["signature", "sig", "xamzsignature", "xgoogsignature",
    "googlesignature", "signedtoken"]

def isIntentionallyPublicCryptoKey (value : String) : Bool :=
  let key := chars (normalizedKey value)
  Search.occurs (chars "sha256") key || chars "hash" <:+ key ||
    Search.occurs (chars "signature") key || Search.occurs (chars "publickey") key ||
    chars "keyid" <:+ key || key = chars "digest"

def hasPublicValue {F : Type} : Value F → Bool
  | .null => false
  | .bool b => b
  | .number _ => true
  | .string s => Text.trim (chars s) ≠ []
  | .array vs => vs ≠ []
  | .object ms => ms ≠ []

/-! Secrets that are recognised by their form. -/

def secretPatterns : List Bytes :=
  ["authorization: bearer ", "authorization: basic ", "proxy-authorization:", "x-api-key:",
    "-----begin private key-----", "-----begin rsa private key-----",
    "-----begin ec private key-----", "aws_secret_access_key"].map bytes

def isWordByte (b : UInt8) : Bool := Ascii.isAlphanumeric b || b = 0x5F || b = 0x2D

def containsPrefixedToken (b start : Bytes) : Bool :=
  b.tails.any fun t =>
    start.length ≤ t.length && Ascii.eqIgnoreCase (t.take start.length) start &&
      20 ≤ (((t.drop start.length).takeWhile isWordByte).take 20).length

def containsAwsAccessKey (b : Bytes) : Bool :=
  b.tails.any fun t =>
    20 ≤ t.length && (t.take 4 = bytes "AKIA" || t.take 4 = bytes "ASIA") &&
      ((t.take 20).drop 4).all Ascii.isAlphanumeric

def containsJwt (b : Bytes) : Bool :=
  (b.splitOnP fun b => Ascii.isWhitespace b || b = 0x22 || b = 0x27 || b = 0x2C || b = 0x3B).any
    fun token =>
      let segments := token.splitOnP (· = 0x2E)
      segments.length = 3 && segments.all fun part =>
        16 ≤ part.length && part.all fun b => isWordByte b || b = 0x3D

/-- Whether the bytes contain a secret that the scan recognises. -/
def containsSecret (b : Bytes) : Bool :=
  let lower := b.map Ascii.toLowercase
  secretPatterns.any (Search.occurs · lower) || containsPrefixedToken b (bytes "sk-ant-") ||
    containsPrefixedToken b (bytes "sk-or-v1-") || containsPrefixedToken b (bytes "sk-proj-") ||
    containsPrefixedToken b (bytes "sk-") || containsAwsAccessKey b || containsJwt b

def scanPublicBytes (b : Bytes) (location : PublicPackageLocation) : Scan Unit :=
  if containsSecret b then throw ⟨"secret_pattern", location⟩ else pure ()

/-! Tokens that look random. -/

def looksLikePublicHex (token : Bytes) : Bool :=
  token.length ∈ [40, 64, 96, 128] && token.all Ascii.isHexDigit

def isTokenPunctuation (b : UInt8) : Bool :=
  b = 0x5F || b = 0x2D || b = 0x2B || b = 0x2F || b = 0x3D

def characterClasses (token : Bytes) : ℕ :=
  ([token.any Ascii.isLowercase, token.any Ascii.isUppercase, token.any Ascii.isDigit,
    token.any isTokenPunctuation].filter id).length

/-- The test of one token; whether its entropy is high is a computation on floats. -/
def isHighEntropyToken (isHighEntropy : Bytes → Bool) (token : Bytes) : Bool :=
  32 ≤ token.length && token.length ≤ 512 && !looksLikePublicHex token &&
    3 ≤ characterClasses token && isHighEntropy token

def rejectHighEntropy (location : PublicPackageLocation) : Scan Unit := fun scan =>
  if scan.allowHighEntropy then .ok ((), { scan with highEntropyOverrideApplied := true })
  else .error ⟨"high_entropy_value", location⟩

def scanEntropyTokens (test : Bytes → Bool) (b : Bytes) (key : Option String) (exempt : Bool)
    (location : PublicPackageLocation) : Scan Unit :=
  if exempt || key.any isIntentionallyPublicCryptoKey then return ()
  else if (b.splitOnP fun b => !(Ascii.isAlphanumeric b || isTokenPunctuation b)).any test then
    rejectHighEntropy location
  else return ()

/-! Identifiers that a provider documents. -/

inductive JsonPathSegment
  | key (name : String)
  | index (i : ℕ)
  deriving DecidableEq

def hasPublicIdFormat (value start : String) : Bool :=
  match Search.stripStart (bytes start) (bytes value) with
  | none => false
  | some rest => rest ≠ [] && rest.length ≤ 128 && rest.all isWordByte

def isAnthropicToolUseIdPath (location : PublicPackageLocation) (path : List JsonPathSegment) :
    Bool :=
  match location, path with
  | .requestBody, [.key messages, .index _, .key content, .index _, .key id] =>
    messages = "messages" && content = "content" && (id = "id" || id = "tool_use_id")
  | .responseBody, [.key content, .index _, .key id] => content = "content" && id = "id"
  | .responseBody, [.key contentBlock, .key id] => contentBlock = "content_block" && id = "id"
  | _, _ => false

def isChatCompletionToolCallIdPath (location : PublicPackageLocation)
    (path : List JsonPathSegment) : Bool :=
  match location, path with
  | .requestBody, [.key messages, .index _, .key toolCalls, .index _, .key id] =>
    messages = "messages" && toolCalls = "tool_calls" && id = "id"
  | .requestBody, [.key messages, .index _, .key toolCallId] =>
    messages = "messages" && toolCallId = "tool_call_id"
  | .responseBody, [.key choices, .index _, .key messageOrDelta, .key toolCalls, .index _,
      .key id] =>
    choices = "choices" && (messageOrDelta = "message" || messageOrDelta = "delta") &&
      toolCalls = "tool_calls" && id = "id"
  | _, _ => false

def isDocumentedPublicProtocolId (value : String) (context : Option PublicPackageSafetyContext)
    (location : PublicPackageLocation) (path : List JsonPathSegment) : Bool :=
  match context with
  | none => false
  | some ⟨providerHost, requestPath⟩ =>
    let anthropic := providerHost = "api.anthropic.com" ∧ requestPath = "/v1/messages"
    let responseId := location = .responseBody ∧ path = [.key "id"]
    if anthropic ∧ location = .responseBody ∧
        (path = [.key "id"] ∨ path = [.key "message", .key "id"]) then
      hasPublicIdFormat value "msg_"
    else if anthropic ∧ isAnthropicToolUseIdPath location path then
      hasPublicIdFormat value "toolu_"
    else if (providerHost = "api.openai.com" ∨ providerHost = "chatgpt.com") ∧ responseId then
      if requestPath = "/v1/chat/completions" then hasPublicIdFormat value "chatcmpl-"
      else if requestPath ∈ ["/v1/responses", "/backend-api/codex/responses",
          "/backend-api/codex/responses/compact"] then
        hasPublicIdFormat value "resp_"
      else false
    else if (providerHost, requestPath) ∉ [("api.openai.com", "/v1/chat/completions"),
        ("openrouter.ai", "/api/v1/chat/completions")] then false
    else if responseId then
      (providerHost = "api.openai.com" && hasPublicIdFormat value "chatcmpl-") ||
        (providerHost = "openrouter.ai" &&
          (hasPublicIdFormat value "gen-" || hasPublicIdFormat value "chatcmpl-"))
    else isChatCompletionToolCallIdPath location path && hasPublicIdFormat value "call_"

/-! The traversal of a document. -/

def maxNestedDocumentBytes : ℕ := 1048576

/-- The key that describes a member of an object. -/
def childKeyContext {F : Type} (members : List (String × Value F)) (key : Option String)
    (childKey : String) : Option String :=
  let semanticKey := (members.lookup "key").bind fun v =>
    v.asStr.filter fun _ => (members.lookup "value").isSome
  if childKey = "value" then semanticKey.or (key.or (some childKey))
  else if childKey ∈ ["stringValue", "intValue", "doubleValue", "boolValue", "arrayValue"] then
    key.or (some childKey)
  else some childKey

/-- The documents that were found in strings so far. -/
abbrev Nested := List (List Char)

section

variable {F : Type} [Floats F] (test : Bytes → Bool) (location : PublicPackageLocation)
  (context : Option PublicPackageSafetyContext)

/-- A string is scanned, and a document in it is scanned in turn. -/
def scanJsonString
    (scanInner : Value F → Option String → List JsonPathSegment → Nested → Scan Nested)
    (exemptionsAllowed : Bool) (value : String) (key : Option String)
    (path : List JsonPathSegment) (nested : Nested) : Scan Nested := do
  scanPublicBytes (bytes value) location
  scanEntropyTokens test (bytes value) key
    (exemptionsAllowed && isDocumentedPublicProtocolId value context location path) location
  let trimmed := Text.trim (chars value)
  if (encode trimmed).length ≤ maxNestedDocumentBytes ∧
      (trimmed.head? = some '\x7b' ∨ trimmed.head? = some '[') ∧ trimmed ∉ nested then
    match (document trimmed : Option (Value F)) with
    | some inner => scanInner inner.normalize key path (trimmed :: nested)
    | none => return trimmed :: nested
  else return nested

mutual

/-- One document, with the scan of documents inside its strings as a parameter. -/
def scanJsonTree
    (scanInner : Value F → Option String → List JsonPathSegment → Nested → Scan Nested)
    (exemptionsAllowed : Bool) :
    Value F → Option String → List JsonPathSegment → Nested → Scan Nested
  | value, key, path, nested =>
    if key.any isCredentialKey && hasPublicValue value then throw ⟨"credential_field", location⟩
    else
      match value with
      | .object members => scanJsonMembers scanInner exemptionsAllowed (childKeyContext members key)
          members path nested
      | .array values => scanJsonElements scanInner exemptionsAllowed key 0 values path nested
      | .string value => scanJsonString test location context scanInner exemptionsAllowed value
          key path nested
      | _ => return nested

def scanJsonMembers
    (scanInner : Value F → Option String → List JsonPathSegment → Nested → Scan Nested)
    (exemptionsAllowed : Bool) (childKey : String → Option String) :
    List (String × Value F) → List JsonPathSegment → Nested → Scan Nested
  | [], _, nested => return nested
  | (name, value) :: members, path, nested => do
    let nested ← scanJsonTree scanInner exemptionsAllowed value (childKey name)
      (path ++ [.key name]) nested
    scanJsonMembers scanInner exemptionsAllowed childKey members path nested

def scanJsonElements
    (scanInner : Value F → Option String → List JsonPathSegment → Nested → Scan Nested)
    (exemptionsAllowed : Bool) (key : Option String) :
    ℕ → List (Value F) → List JsonPathSegment → Nested → Scan Nested
  | _, [], _, nested => return nested
  | index, value :: values, path, nested => do
    let nested ← scanJsonTree scanInner exemptionsAllowed value key (path ++ [.index index]) nested
    scanJsonElements scanInner exemptionsAllowed key (index + 1) values path nested

end

/-- Documents inside strings are scanned without the provider's exemptions. The fuel bounds how
deep they nest; a document is longer than every string in it, so its length is enough. -/
def scanJsonValue : (fuel : ℕ) → (exemptionsAllowed : Bool) →
    Value F → Option String → List JsonPathSegment → Nested → Scan Nested
  | 0, exemptionsAllowed =>
    scanJsonTree test location context (fun _ _ _ nested => return nested) exemptionsAllowed
  | fuel + 1, exemptionsAllowed =>
    scanJsonTree test location context (scanJsonValue fuel false) exemptionsAllowed

end

section

variable (c : Crates) (test : Bytes → Bool) (context : Option PublicPackageSafetyContext)
  (location : PublicPackageLocation)

def scanJsonWithContext (b : Bytes) : Scan Unit :=
  match (fromSlice b : Option c.Json) with
  | none => throw ⟨"public_json_invalid", location⟩
  | some value => do
    let _ ← scanJsonValue test location context b.length true value none [] []

/-- The lines of an event stream that carry no data. -/
def isSseMetadata (line : List Char) : Bool :=
  chars ":" <+: line || chars "event:" <+: line || chars "id:" <+: line || chars "retry:" <+: line

/-- The loop over the lines of an event stream. It gives up on a line that it does not know. -/
def scanSseLines : List (List Char) → Bool → Scan Bool
  | [], sawJson => return sawJson
  | line :: lines, sawJson =>
    let line := line.rdropWhile (· = '\r')
    if line = [] then scanSseLines lines sawJson
    else if isSseMetadata line then do
      scanEntropyTokens test (encode line) none false location
      scanSseLines lines sawJson
    else
      match Search.stripStart (chars "data:") line with
      | none => return false
      | some data =>
        let data := Text.trimStart data
        if data = chars "[DONE]" then scanSseLines lines sawJson
        else if (document data : Option c.Json).isNone then return false
        else do
          scanJsonWithContext c test context location (encode data)
          scanSseLines lines true

def scanSseJson (b : Bytes) : Scan Bool :=
  match decode b with
  | none => return false
  | some body => scanSseLines c test context location (Text.lines body) false

def scanBody (b : Bytes) : Scan Unit := do
  if b.all fun b => Ascii.isWhitespace b || b = 0 then return ()
  else if (fromSlice b : Option c.Json).isSome then scanJsonWithContext c test context location b
  else
    scanPublicBytes b location
    let structured ← if context.isSome then scanSseJson c test context location b else pure false
    if structured then return ()
    else scanEntropyTokens test b none false location

end

def splitHttp (b : Bytes) (location : PublicPackageLocation) : Scan (Bytes × Bytes) :=
  match Search.position headerBoundary b with
  | none => throw ⟨"http_invalid", location⟩
  | some boundary => return b.splitAt (boundary + 4)

def queryKey (pair : List Char) : List Char :=
  match Search.splitOnce ['='] pair with
  | some (key, _) => key
  | none => pair

def scanRequestTarget (head : Bytes) : Scan Unit :=
  match ((head.splitOnP (· = 0x0A)).head?.bind decode).bind fun line =>
      (Text.splitAsciiWhitespace line)[1]? with
  | none => throw ⟨"http_invalid", .requestHeaders⟩
  | some target =>
    match Search.splitOnce ['?'] target with
    | none => return ()
    | some (_, query) =>
      if (query.splitOnP (· = '&')).any fun pair =>
          let key := String.ofList (queryKey pair)
          isCredentialKey key || isSignedQueryKey key then
        throw ⟨"credential_query_value", .requestHeaders⟩
      else return ()

/-- A failure that is reported under a code of its own. -/
def orReject {ε α : Type} (x : Except ε α) (code : String) (location : PublicPackageLocation) :
    Scan α :=
  match x with
  | .ok a => return a
  | .error _ => throw ⟨code, location⟩

section

variable (c : Crates) (test : Bytes → Bool) (context : Option PublicPackageSafetyContext)

/-- The checks of the validator, from the archive to its last scan. -/
def scanTracePackage (b : Bytes) : Scan Unit := do
  let archive ← orReject (readTracePackageArchive c b) "archive_invalid" .archive
  let request ← orReject (archive.file "request.disclosed.http") "archive_invalid" .archive
  let response ← orReject (archive.file "response.disclosed.http") "archive_invalid" .archive
  orReject (validateDisclosedHttpRedactions request (bytes "HTTP/1.1 200 OK\r\n\r\n"))
    "credential_header_disclosed" .requestHeaders
  orReject (validateDisclosedHttpRedactions (bytes "GET / HTTP/1.1\r\n\r\n") response)
    "credential_header_disclosed" .responseHeaders
  let (requestHead, requestBody) ← splitHttp request .requestHeaders
  let (responseHead, responseBody) ← splitHttp response .responseHeaders
  scanRequestTarget requestHead
  scanPublicBytes requestHead .requestHeaders
  scanPublicBytes responseHead .responseHeaders
  scanBody c test context .requestBody requestBody
  scanBody c test context .responseBody responseBody
  scanJsonWithContext c test none .manifest (toVec (archive.manifest.toJson c))
  scanJsonWithContext c test none .manifest
    (← orReject (archive.file "manifest.json") "archive_invalid" .archive)
  scanPublicBytes (← orReject (archive.file "evidence.tlsn") "archive_invalid" .archive) .evidence
  scanJsonWithContext c test none .trace
    (← orReject (archive.file "trace.otlp.json") "archive_invalid" .archive)
  scanPublicBytes b .archive

def validatePublicTracePackageInner (b : Bytes) (allowHighEntropy : Bool) :
    Except PublicPackageSafetyError PublicPackageSafetyResult := do
  let (_, scan) ← (scanTracePackage c test context b).run ⟨allowHighEntropy, false⟩
  return ⟨publicPackageSafetyVersion, scan.highEntropyOverrideApplied⟩

end

def validatePublicTracePackage (c : Crates) (test : Bytes → Bool) (b : Bytes) :
    Except PublicPackageSafetyError PublicPackageSafetyResult :=
  validatePublicTracePackageInner c test none b false

def validatePublicTracePackageWithContextAndForce (c : Crates) (test : Bytes → Bool) (b : Bytes)
    (context : PublicPackageSafetyContext) (force : Bool) :
    Except PublicPackageSafetyError PublicPackageSafetyResult :=
  validatePublicTracePackageInner c test (some context) b force

def validatePublicTracePackageWithContext (c : Crates) (test : Bytes → Bool) (b : Bytes)
    (context : PublicPackageSafetyContext) :
    Except PublicPackageSafetyError PublicPackageSafetyResult :=
  validatePublicTracePackageInner c test (some context) b false

end Notary.Core
