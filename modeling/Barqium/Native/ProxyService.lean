import Barqium.Native.RouteMatch
import Barqium.Native.WasmPlugin

/-!
# Proxy service of the data plane

Model of `ProxyService::call` in `crates/barqium-core/src/service.rs` with what it
dispatches to (`forwarder.rs`, `websocket.rs`, `grpc.rs`), of `match_route` in
`snapshot.rs`, and of what the health checker writes in `upstream_health.rs`.

The URI parser and the network are foreign code and stay parameters. A response
of an upstream is opaque. Log output is left out. Beside its response a call records
what it sends: a request that matches a route need not go out.
-/

namespace Barqium.Native

/-! ## Health state -/

namespace UpstreamHealth

/-- No upstream has been probed. -/
def new : UpstreamHealth := ⟨∅⟩

/-- Records the result of a probe. -/
def set (h : UpstreamHealth) (upstreamId : String) (healthy : Bool) : UpstreamHealth :=
  ⟨h.healthy.insert upstreamId healthy⟩

end UpstreamHealth

/-- One pass of the loop of `HealthChecker::run`: the upstreams it was given, each
    with the result of its probe. -/
def HealthChecker.pass (h : UpstreamHealth) (probes : List (String × Bool)) : UpstreamHealth :=
  probes.foldl (fun h p => h.set p.1 p.2) h

/-! ## Requests -/

inductive HttpVersion where
  | http10
  | http11
  | http2
  | http3
  deriving Repr, DecidableEq

/-- A parsed URI with the parts that are read. -/
structure Uri where
  host : Option String
  port : Option UInt16
  path : String
  pathAndQuery : Option String
  deriving Repr, DecidableEq

structure HttpRequest (http : Http) where
  method : String
  uri : Uri
  version : HttpVersion
  headers : HeaderMap http

/-- The errors of `ProxyError` that a dispatched request can end with. -/
inductive ProxyError where
  | upstreamRequest (message : String)
  | upstreamTimeout
  | snapshot (message : String)
  deriving Repr, DecidableEq

/-- How a call of the pooled client ends: whether it had a connection on which the
    request went out, and the response or the error. -/
structure Exchange (R : Type) where
  connected : Bool
  result : Except ProxyError R

/-- The foreign parts: the parser of URIs, the pooled client, the connection for a
    WebSocket tunnel, and the upgrade request over it. -/
structure Net (http : Http) (R : Type) where
  parseUri : String → Except String Uri
  request : HttpRequest http → UInt32 → Exchange R
  connect : String → UInt16 → UInt32 → Except ProxyError Unit
  sendRequest : String → UInt16 → HttpRequest http → Except ProxyError R

/-- A request that went out: through the client to the authority of its URI, or over
    a connection that was opened for it. -/
inductive Sent (http : Http) where
  | client (req : HttpRequest http)
  | connection (host : String) (port : UInt16) (req : HttpRequest http)

/-- What the dispatch of a request does: what it sends, and how it ends. -/
structure Dispatched (http : Http) (R : Type) where
  sent : Option (Sent http)
  result : Except ProxyError R

section

variable {http : Http} {R : Type}

/-- `headers.get(name).and_then(|v| v.to_str().ok())`. -/
def HeaderMap.getStr (headers : HeaderMap http) (name : String) : Option String :=
  ((http.nameFromBytes name).bind fun n => (headers.getAll n).head?).bind http.toStr

/-- True when the request carries a gRPC content-type. -/
def isGrpc (headers : HeaderMap http) : Bool :=
  ((headers.getStr "content-type").map fun ct => startsWith ct "application/grpc").getD false

/-- True when the request is an HTTP/1.1 WebSocket upgrade. -/
def isWebsocketUpgrade (headers : HeaderMap http) : Bool :=
  let upgradeIsWs :=
    ((headers.getStr "upgrade").map fun v => eqIgnoreAsciiCase v "websocket").getD false
  let connectionHasUpgrade :=
    ((headers.getStr "connection").map fun v =>
      decide ("upgrade".toList <:+: (asciiLower v).toList)).getD false
  upgradeIsWs && connectionHasUpgrade

/-! ## The forwarder -/

/-- Headers stripped before forwarding. -/
def hopByHop : List String :=
  ["connection", "te", "trailer", "transfer-encoding", "upgrade", "proxy-authenticate",
    "proxy-authorization", "keep-alive"]

def stripHopByHop (headers : HeaderMap http) : HeaderMap http :=
  hopByHop.foldl (fun hs name => (http.nameFromBytes name).elim hs hs.remove) headers

/-- Appends the original path and query to the base URL. -/
def buildUpstreamUri (net : Net http R) (upstreamUrl : String) (original : Uri) :
    Except ProxyError Uri :=
  let base := String.ofList (upstreamUrl.toList.reverse.dropWhile (· = '/')).reverse
  let pq := original.pathAndQuery.getD "/"
  (net.parseUri (base ++ pq)).mapError fun e => .snapshot ("invalid upstream URI: " ++ e)

/-- Forwards the request to the upstream of `route`. -/
def forward (net : Net http R) (req : HttpRequest http) (route : RouteMatch) :
    Dispatched http R :=
  let version := if isGrpc req.headers then .http2 else req.version
  match buildUpstreamUri net route.upstreamUrl req.uri with
  | .error e => ⟨none, .error e⟩
  | .ok uri =>
    let req := { req with version, uri, headers := stripHopByHop req.headers }
    let exchange := net.request req route.timeoutMs
    ⟨if exchange.connected then some (.client req) else none, exchange.result⟩

/-- Proxies a WebSocket upgrade to the upstream. -/
def proxyWebsocket (net : Net http R) (req : HttpRequest http) (upstreamUrl : String)
    (timeoutMs : UInt32) : Dispatched http R :=
  match net.parseUri upstreamUrl with
  | .error e => ⟨none, .error (.snapshot ("invalid upstream URI: " ++ e))⟩
  | .ok uri =>
    match uri.host with
    | none => ⟨none, .error (.snapshot "upstream URI has no host")⟩
    | some host =>
      -- without a port the one of plain HTTP, whatever the scheme is
      let port := uri.port.getD 80
      match net.connect host port timeoutMs with
      | .error e => ⟨none, .error e⟩
      | .ok _ => ⟨some (.connection host port req), net.sendRequest host port req⟩

/-! ## The service -/

/-- `match_route` on what reading the snapshot gave. -/
def matchRoute (read : Except String RouteSnapshot) (req : MatchRequest)
    (health : Option UpstreamHealth) : Except ProxyError (Option RouteMatch) :=
  (read.mapError .snapshot).map fun snapshot => findRoute snapshot req health

/-- How a matched request is dispatched. -/
inductive Branch where
  | webSocket
  | grpc
  | http
  deriving Repr, DecidableEq

/-- A response made here, or one of an upstream. -/
inductive ProxyResponse (R : Type) where
  | status (code : Nat) (body : String)
  | upstream (response : R)
  deriving Repr, DecidableEq

/-- What a call does: the route it matches, the request it forwards to the upstream of
    that route, and its response. -/
structure Handled (http : Http) (R : Type) where
  matched : Option RouteMatch
  forwarded : Option (Branch × Sent http)
  response : ProxyResponse R

namespace ProxyService

/-- What the request is matched by: method, path and `Host` header. -/
def matchRequest (req : HttpRequest http) : MatchRequest where
  method := String.ofList (req.method.toList.map Char.toUpper)
  path := req.uri.path
  host := (req.headers.getStr "host").getD ""

/-- Reads the snapshot, matches the route, and dispatches the request. -/
def call (net : Net http R) (read : Except String RouteSnapshot) (req : HttpRequest http) :
    Handled http R :=
  match matchRoute read (matchRequest req) none with
  | .ok (some m) =>
    if isWebsocketUpgrade req.headers then
      let dispatched := proxyWebsocket net req m.upstreamUrl m.timeoutMs
      ⟨some m, dispatched.sent.map (.webSocket, ·),
        match dispatched.result with
        | .ok resp => .upstream resp
        | .error _ => .status 502 "websocket upgrade error\n"⟩
    else
      let dispatched := forward net req m
      -- gRPC differs from plain HTTP only inside the forwarder
      ⟨some m, dispatched.sent.map (if isGrpc req.headers then .grpc else .http, ·),
        match dispatched.result with
        | .ok resp => .upstream resp
        | .error _ => .status 502 "upstream error\n"⟩
  | .ok none => ⟨none, none, .status 404 "no route matched\n"⟩
  | .error _ => ⟨none, none, .status 503 "snapshot unavailable\n"⟩

end ProxyService

end

end Barqium.Native
