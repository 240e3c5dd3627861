import Barqium.ForStd.Replace
import Barqium.ForStd.Text
import Barqium.Native.Json
import Barqium.Native.ProxyService

/-!
# Protocol detection and protocol handlers

Model of `detect_protocol` in `crates/barqium-protocols/src/protocol.rs` and of the
handlers that look at the content type again: `parse_soap_action` in `soap.rs` and
`detect` in `graphql.rs`. The fourth, `is_grpc`, is with the forwarder. An upstream error
goes back to a SOAP client in the fault of `wrap_fault`.

Deserialising a body into the derived struct is serde_json's and stays a parameter.
-/

namespace Barqium.Native

/-- The text before the first semicolon, trimmed: each classifier starts with
    `content_type.split(';').next().unwrap_or("").trim()`. -/
def mediaType (contentType : String) : String :=
  String.ofList (Text.trim (contentType.toList.takeWhile (· ≠ ';')))

/-- `str::contains` with a string pattern. -/
def contains (s pat : String) : Bool := decide (pat.toList <:+: s.toList)

/-- `str::ends_with` with a string pattern. -/
def endsWith (s pat : String) : Bool := decide (pat.toList <:+ s.toList)

/-! ## Detection -/

/-- The application-layer protocol used for a given request. -/
inductive Protocol where
  | http1
  | http2
  | http3
  | grpc
  | webSocket
  | sse
  | graphQl
  | soap
  deriving Repr, DecidableEq

/-- The protocol that content type, path, `Upgrade` and `SOAPAction` ask for. -/
def detectProtocol (contentType path : String) (upgrade soapAction : Option String) : Protocol :=
  let ct := asciiLower (mediaType contentType)
  if startsWith ct "application/grpc" then .grpc
  else if (upgrade.map fun u => contains (asciiLower u) "websocket").getD false then .webSocket
  else if ct = "text/event-stream" ∨ endsWith path "/events" ∨ endsWith path "/sse" then .sse
  else if ct = "application/soap+xml" ∨ (ct = "text/xml" ∧ soapAction.isSome) then .soap
  else if ct = "application/graphql+json" then .graphQl
  else .http1

/-! ## SOAP -/

inductive SoapVersion where
  | soap11
  | soap12
  deriving Repr, DecidableEq

/-- Information extracted from a SOAP request. -/
structure SoapAction where
  version : SoapVersion
  action : Option String
  bodyElement : Option String
  deriving Repr, DecidableEq

namespace Soap

def detectVersion (contentType : String) (soapActionHeader : Option String) :
    Option SoapVersion :=
  let ct := mediaType contentType
  if ct = "application/soap+xml" then some .soap12
  else if ct = "text/xml" ∨ soapActionHeader.isSome then some .soap11
  else none

/-- `trim_matches('"')`. -/
def trimQuotes (t : List Char) : List Char :=
  ((t.dropWhile (· = '"')).reverse.dropWhile (· = '"')).reverse

def extractAction (version : SoapVersion) (contentType : String)
    (soapActionHeader : Option String) : Option String :=
  match version with
  | .soap11 =>
    (soapActionHeader.map fun h => String.ofList (trimQuotes h.toList)).filter (· ≠ "")
  | .soap12 =>
    -- the action is a parameter of the content type
    (contentType.toList.splitOn ';').findSome? fun part =>
      (Text.stripPrefix "action=".toList (Text.trim part)).map fun val =>
        String.ofList (trimQuotes val)

/-- What follows the first occurrence of `pat`. -/
def afterFirst (pat : List Char) : List Char → Option (List Char)
  | [] => Text.stripPrefix pat []
  | c :: t =>
    match Text.stripPrefix pat (c :: t) with
    | some rest => some rest
    | none => afterFirst pat t

/-- `char::is_ascii_whitespace`. -/
def isAsciiWhitespace (c : Char) : Bool :=
  c = ' ' || c = '\t' || c = '\n' || c = '\r' || c.val == 0xC

/-- The local name of the first child element of the SOAP body. -/
def extractBodyElement (body : ByteArray) : Option String := do
  let text ← String.fromUTF8? body
  -- both patterns are six bytes long
  let afterBody ←
    (afterFirst ":Body>".toList text.toList).or (afterFirst "<Body>".toList text.toList)
  let tagStart ← Text.stripPrefix ['<'] (afterBody.dropWhile Text.isWhitespace)
  let tagEnd ← tagStart.findIdx? fun c => c = '>' || isAsciiWhitespace c
  let fullTag := tagStart.take tagEnd
  return String.ofList (fullTag.reverse.takeWhile (· ≠ ':')).reverse

/-- SOAP metadata of the request; none if it is not SOAP. -/
def parseSoapAction (contentType : String) (soapActionHeader : Option String)
    (body : ByteArray) : Option SoapAction := do
  let version ← detectVersion contentType soapActionHeader
  let action := extractAction version contentType soapActionHeader
  let bodyElement := extractBodyElement body
  return ⟨version, action, bodyElement⟩

/-- `str::replace` with a character as pattern. -/
def replaceChar (c : Char) (rep : String) (t : List Char) : List Char :=
  Replace.replace [c] rep.toList t

def escapeXml (s : String) : String :=
  String.ofList (s.toList |> replaceChar '&' "&amp;" |> replaceChar '<' "&lt;"
    |> replaceChar '>' "&gt;" |> replaceChar '"' "&quot;" |> replaceChar '\'' "&apos;")

/-- The format of a fault envelope. -/
def faultEnvelope (ns faultCode : String) (upstreamStatus : UInt16) (escapedBody : String) :
    String :=
  "<?xml version=\"1.0\" encoding=\"utf-8\"?>\n" ++
  "<soap:Envelope xmlns:soap=\"" ++ ns ++ "\">\n" ++
  "  <soap:Body>\n" ++
  "    <soap:Fault>\n" ++
  "      <faultcode>" ++ faultCode ++ "</faultcode>\n" ++
  "      <faultstring>Upstream error: HTTP " ++ upstreamStatus.toNat.repr ++ "</faultstring>\n" ++
  "      <detail>" ++ escapedBody ++ "</detail>\n" ++
  "    </soap:Fault>\n" ++
  "  </soap:Body>\n" ++
  "</soap:Envelope>"

/-- An upstream error body in a SOAP fault envelope, and the content type. -/
def wrapFault (version : SoapVersion) (upstreamStatus : UInt16) (upstreamBody : String) :
    ByteArray × String :=
  let (ns, faultCode, contentType) :=
    match version with
    | .soap11 =>
      ("http://schemas.xmlsoap.org/soap/envelope/", "soap:Server", "text/xml; charset=utf-8")
    | .soap12 =>
      ("http://www.w3.org/2003/05/soap-envelope", "env:Receiver",
        "application/soap+xml; charset=utf-8")
  let escapedBody := escapeXml upstreamBody
  ((faultEnvelope ns faultCode upstreamStatus escapedBody).toUTF8, contentType)

end Soap

/-! ## GraphQL -/

namespace GraphQl

inductive OperationType where
  | query
  | mutation
  | subscription
  | unknown
  deriving Repr, DecidableEq

/-- Result of inspecting a request for GraphQL content. -/
structure GraphQlInfo where
  operationType : OperationType
  operationName : Option String
  query : Option String
  persistedHash : Option String
  deriving Repr, DecidableEq

/-- The members of a body that are read. -/
structure GqlBody where
  query : Option String
  operationName : Option String
  extensions : Option Json

/-- Classify the first keyword of a GraphQL document. -/
def classifyOperation (query : String) : OperationType :=
  let trimmed := String.ofList (query.toList.dropWhile Text.isWhitespace)
  if startsWith trimmed "mutation" then .mutation
  else if startsWith trimmed "subscription" then .subscription
  else .query

/-- `Value::get` with a string key. -/
def get (value : Json) (key : String) : Option Json :=
  match value with
  | .obj members => members.lookup key
  | _ => none

/-- What `detect` makes of a body once the content type is accepted. -/
def inspect (fromSlice : List UInt8 → Option GqlBody) (body : List UInt8) :
    Option GraphQlInfo := do
  let parsed ← fromSlice body
  let persistedHash :=
    ((parsed.extensions.bind (get · "persistedQuery")).bind (get · "sha256Hash")).bind Json.asStr
  if parsed.query.isNone ∧ persistedHash.isNone then none
  else
    let opType := (parsed.query.map classifyOperation).getD .query
    return ⟨opType, parsed.operationName, parsed.query, persistedHash⟩

/-- Detect whether the content type signals a GraphQL request and parse the body. -/
def detect (fromSlice : List UInt8 → Option GqlBody) (contentType : String)
    (body : List UInt8) : Option GraphQlInfo :=
  let ct := mediaType contentType
  if ct ≠ "application/graphql+json" ∧ ct ≠ "application/json" then none
  else inspect fromSlice body

end GraphQl

end Barqium.Native
