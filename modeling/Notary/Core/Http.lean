import Notary.Core.Archive
import Notary.Lib.Ascii
import Notary.Lib.Result

/-! Disclosed HTTP messages and the redaction of their headers. -/

namespace Notary.Core
open Utf8

def headerBoundary : Bytes := [0x0D, 0x0A, 0x0D, 0x0A]

def disclosedHeaderValueName : Bytes := bytes "transfer-encoding"

def disclosedTransferEncodingValue : Bytes := bytes "chunked"

def mayDiscloseHeaderValue (name value : Bytes) : Bool :=
  Ascii.eqIgnoreCase name disclosedHeaderValueName &&
    Ascii.eqIgnoreCase (Ascii.trim value) disclosedTransferEncodingValue

def validateRedactedHeader (label : String) (line : Bytes) : Except String Unit :=
  let line := (Search.stripEnd [0x0D] line).getD line
  match Search.splitOnce [0x3A] line with
  | none => .error (label ++ " contains a malformed HTTP header")
  | some (name, value) =>
    let visible := value.any fun b => !Ascii.isWhitespace b && b ≠ 0
    if (decode name).isNone then .error (label ++ " contains a non-UTF-8 HTTP header name")
    else if visible && (!mayDiscloseHeaderValue name value || value.contains 0) then
      .error (label ++ " discloses a non-allowlisted HTTP header value")
    else .ok ()

def validateRedactedHeaders (message : Bytes) (label : String) : Except String Unit :=
  match Search.position headerBoundary message with
  | none => .error (label ++ " does not contain a complete HTTP header block")
  | some headerEnd =>
    (((message.take headerEnd).splitOnP (· = 0x0A)).drop 1).forM (validateRedactedHeader label)

def validateDisclosedHttpRedactions (request response : Bytes) : Except String Unit := do
  validateRedactedHeaders request "request"
  validateRedactedHeaders response "response"

end Notary.Core
