import Barqium.Native.ProxyService

/-!
# WebSocket tunnels

Model of `proxy_websocket` in `crates/barqium-core/src/websocket.rs` from the connection to
the upstream on: the handshake over it, and the response to the client. The two streams that
are spliced afterwards and log output are left out.
-/

namespace Barqium.Native

structure HttpResponse (http : Http) where
  status : UInt16
  headers : HeaderMap http
  body : List UInt8

/-- How `TcpStream::connect` under the timeout ends, if it fails. -/
inductive ConnectError where
  | elapsed
  | io (message : String)
  deriving Repr, DecidableEq

/-- The foreign parts of a tunnel: the connection, the handshake of the HTTP client over it,
    and the answer of the upstream. -/
structure Upgrade (http : Http) where
  connect : String → UInt16 → UInt32 → Except ConnectError Unit
  handshake : Except String Unit
  sendRequest : HttpRequest http → Except String (HttpResponse http)

variable {http : Http}

/-- `Response::builder()` with one more header; static names and values are valid. -/
def HeaderMap.withStatic (headers : HeaderMap http) (name value : String) : HeaderMap http :=
  match http.nameFromBytes name, http.valueFromStr value with
  | some n, some v => headers.insert n v
  | _, _ => headers

/-- The response to a client whose upgrade the upstream did not accept. -/
def badGateway : HttpResponse http where
  status := 502
  headers := (∅ : HeaderMap http).withStatic "content-type" "text/plain"
  body := []

/-- The response to a client whose upgrade the upstream accepted. -/
def switchingProtocols : HttpResponse http where
  status := 101
  headers :=
    ((∅ : HeaderMap http).withStatic "connection" "Upgrade").withStatic "upgrade" "websocket"
  body := []

namespace Upgrade

/-- The connection to the upstream and the handshake over it. -/
def openConnection (up : Upgrade http) (host : String) (port : UInt16) (timeoutMs : UInt32) :
    Except ProxyError Unit := do
  (up.connect host port timeoutMs).mapError fun
    | .elapsed => .upstreamTimeout
    | .io e => .snapshot ("upstream TCP connect failed: " ++ e)
  up.handshake.mapError fun e => .snapshot ("upstream handshake failed: " ++ e)

/-- The response to the client once the upgrade request is sent. -/
def respond (up : Upgrade http) (req : HttpRequest http) :
    Except ProxyError (HttpResponse http) := do
  let upstreamResp ← (up.sendRequest req).mapError fun e =>
    .snapshot ("upstream WebSocket send failed: " ++ e)
  -- of the response of the upstream only the status is looked at
  if upstreamResp.status ≠ 101 then return badGateway
  return switchingProtocols

/-- The network of a proxy with this way to open tunnels. -/
def net (up : Upgrade http) (parseUri : String → Except String Uri)
    (request : HttpRequest http → UInt32 → Exchange (HttpResponse http)) :
    Net http (HttpResponse http) where
  parseUri := parseUri
  request := request
  connect := up.openConnection
  sendRequest _ _ := up.respond

end Upgrade

end Barqium.Native
