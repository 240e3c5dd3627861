import Barqium.ForStd.LineStream
import Barqium.ForStd.Text
import Barqium.Native.McpServer
import Barqium.Native.Serde

/-!
# MCP client over HTTP

Model of `HttpMcpClient::send` and `subscribe_sse` of
`crates/barqium-mcp/src/client/http.rs`, from the response of the server on.
-/

namespace Barqium.Native.McpClient

/-! ## Requests -/

/-- `serde_json::from_str` for an `RpcResponse`; an error is given by its text. What it
    accepts is a sequence of JSON tokens. -/
structure ResponseParser where
  fromStr : List Char → Except String RpcResponse
  isTokens_of_ok : ∀ text r, fromStr text = .ok r → Serde.isTokens text = true

/-- A response of the server: its status, and its body read as text. -/
structure HttpResponse where
  status : UInt16
  text : Except String (List Char)

/-- `StatusCode::is_success`. -/
def isSuccess (status : UInt16) : Bool := 200 ≤ status ∧ status < 300

/-- The part of a body that is parsed: the first `data:` line of a body with that marker in
    it, or else all of it. -/
def jsonStr (body : List Char) : List Char :=
  if "data:".toList <:+: body then
    (((Utf8.lines body).find? fun l => "data:".toList.isPrefixOf l).map fun l =>
      Text.trim (l.drop "data:".length)).getD body
  else body

/-- POST a JSON-RPC request and await the response. `post` is the exchange with the
    server; a transport error is given by its text. -/
def send (parser : ResponseParser) (post : RpcRequest → Except String HttpResponse)
    (req : RpcRequest) : Except McpError RpcResponse :=
  match post req with
  | .error text => .error (.transport text)
  | .ok httpResp =>
    if !isSuccess httpResp.status then
      -- a body that cannot be read gives an empty message
      .error (.rpc (Int32.ofNat httpResp.status.toNat)
        (String.ofList (httpResp.text.toOption.getD [])))
    else
      match httpResp.text with
      | .error text => .error (.transport text)
      | .ok body => (parser.fromStr (jsonStr body)).mapError .serialization

/-! ## Subscriptions -/

variable (serde : SerdeJson)

/-- The value of a data line, if it parses. -/
def event (line : List Char) : Option Json := do
  let data ← Text.stripPrefix "data:".toList line
  (serde.fromStr (Text.trim data)).toOption

/-- The values `on_event` is called with, and how the subscription ends: a transport
    error, given by its text, ends it. -/
def subscribeSse : List (Except String (List UInt8)) → List Json × Except McpError Unit
  | [] => ([], .ok ())
  | .error text :: _ => ([], .error (.transport text))
  | .ok bytes :: results =>
    let rest := subscribeSse results
    ((Utf8.lines (Utf8.fromLossy bytes)).filterMap (event serde) ++ rest.1, rest.2)

end Barqium.Native.McpClient
