import Barqium.ForStd.Digits
import Barqium.Native.McpClient

/-!
# MCP sessions

Model of `HttpMcpClient` of `crates/barqium-mcp/src/client/http.rs` with the deserializers of
`types.rs`, and of a session of such a client with an `McpServer`: the requests of the client
are handled by the server, whose registry changes between them.
-/

namespace Barqium.Native

/-! ## Deserialization -/

namespace Serde

def bool : Json → Option Bool
  | .bool b => some b
  | _ => none

/-- An `i32`: digits, perhaps behind a minus sign. `-0` is a float. -/
def i32 : Json → Option Int32
  | .num literal =>
    if literal.toList.head? = some '-' then
      ((Digits.parse (2 ^ 31 + 1) literal.toList.tail).filter fun n => 0 < n).map fun n : Nat =>
        Int32.ofInt (-n)
    else (Digits.parse (2 ^ 31) literal.toList).map fun n : Nat => Int32.ofInt n
  | _ => none

/-- A field with `#[serde(default)]`. -/
def defaulted {α : Type} (default : α) (decode : Json → Option α) : Option Json → Option α
  | none => some default
  | some value => decode value

/-- The fields of a struct, the first of which have no default: the others may be missing at
    the end of an array too. -/
def leadingFields (needed : Nat) (names : List String) : Json → Option (List (Option Json))
  | .arr elems =>
    if needed ≤ elems.length ∧ elems.length ≤ names.length then
      some (elems.map some ++ List.replicate (names.length - elems.length) none)
    else none
  | v => structFields names v

end Serde

def Tool.fromValue (v : Json) : Option Tool := do
  match ← Serde.structFields ["name", "description", "inputSchema"] v with
  | [name, description, inputSchema] =>
    some ⟨← Serde.required Serde.string name, ← Serde.optional Serde.string description,
      ← Serde.required some inputSchema⟩
  | _ => none

def ResourceLink.fromValue (v : Json) : Option ResourceLink := do
  match ← Serde.structFields ["uri", "text", "mimeType"] v with
  | [uri, text, mimeType] =>
    some ⟨← Serde.required Serde.string uri, ← Serde.optional Serde.string text,
      ← Serde.optional Serde.string mimeType⟩
  | _ => none

/-- The tag of an internally tagged enum, and what the fields of the variant are taken from: the
    object with the tag in it, or the elements of an array behind the tag. -/
def ToolContent.tagged : Json → Option (String × Json)
  | .obj members => (members.lookup "type").bind fun tag =>
    tag.asStr.map fun tag => (tag, .obj members)
  | .arr (.str tag :: elems) => some (tag, .arr elems)
  | _ => none

def ToolContent.fromValue (v : Json) : Option ToolContent := do
  let (tag, v) ← ToolContent.tagged v
  match tag with
  | "text" =>
    match ← Serde.structFields ["text"] v with
    | [content] => some (.text (← Serde.required Serde.string content))
    | _ => none
  | "image" =>
    match ← Serde.structFields ["data", "mimeType"] v with
    | [data, mimeType] =>
      some (.image (← Serde.required Serde.string data) (← Serde.required Serde.string mimeType))
    | _ => none
  | "resource" =>
    match ← Serde.structFields ["resource"] v with
    | [link] => some (.resource (← Serde.required ResourceLink.fromValue link))
    | _ => none
  | _ => none

def ToolResult.fromValue (v : Json) : Option ToolResult := do
  match ← Serde.leadingFields 1 ["content", "isError"] v with
  | [content, isError] =>
    some ⟨← Serde.required (Serde.vec ToolContent.fromValue) content,
      ← Serde.defaulted false Serde.bool isError⟩
  | _ => none

structure ToolsCapability where
  listChanged : Bool
  deriving Repr, DecidableEq

structure ResourcesCapability where
  subscribe : Bool
  listChanged : Bool
  deriving Repr, DecidableEq

structure PromptsCapability where
  listChanged : Bool
  deriving Repr, DecidableEq

/-- Capabilities advertised by an MCP server during the `initialize` handshake. -/
structure ServerCapabilities where
  tools : Option ToolsCapability := none
  resources : Option ResourcesCapability := none
  prompts : Option PromptsCapability := none
  deriving Repr, DecidableEq

/-- Server identity block returned during `initialize`. -/
structure ServerInfo where
  name : String
  version : String
  deriving Repr, DecidableEq

def ToolsCapability.fromValue (v : Json) : Option ToolsCapability := do
  match ← Serde.leadingFields 0 ["listChanged"] v with
  | [listChanged] => some ⟨← Serde.defaulted false Serde.bool listChanged⟩
  | _ => none

def ResourcesCapability.fromValue (v : Json) : Option ResourcesCapability := do
  match ← Serde.leadingFields 0 ["subscribe", "listChanged"] v with
  | [subscribe, listChanged] =>
    some ⟨← Serde.defaulted false Serde.bool subscribe,
      ← Serde.defaulted false Serde.bool listChanged⟩
  | _ => none

def PromptsCapability.fromValue (v : Json) : Option PromptsCapability := do
  match ← Serde.leadingFields 0 ["listChanged"] v with
  | [listChanged] => some ⟨← Serde.defaulted false Serde.bool listChanged⟩
  | _ => none

def ServerCapabilities.fromValue (v : Json) : Option ServerCapabilities := do
  match ← Serde.structFields ["tools", "resources", "prompts"] v with
  | [tools, resources, prompts] =>
    some ⟨← Serde.optional ToolsCapability.fromValue tools,
      ← Serde.optional ResourcesCapability.fromValue resources,
      ← Serde.optional PromptsCapability.fromValue prompts⟩
  | _ => none

def ServerInfo.fromValue (v : Json) : Option ServerInfo := do
  match ← Serde.structFields ["name", "version"] v with
  | [name, version] =>
    some ⟨← Serde.required Serde.string name, ← Serde.required Serde.string version⟩
  | _ => none

/-! ## Envelopes -/

def RpcRequest.toValue (req : RpcRequest) : Json :=
  .obj ([("jsonrpc", .str req.jsonrpc), ("id", req.id), ("method", .str req.method)] ++
    (req.params.map fun params => ("params", params)).toList)

def RpcError.toValue (e : RpcError) : Json :=
  .obj ([("code", .num (toString e.code.toInt)), ("message", .str e.message)] ++
    (e.data.map fun data => ("data", data)).toList)

def RpcResponse.toValue (r : RpcResponse) : Json :=
  .obj ([("jsonrpc", .str r.jsonrpc), ("id", r.id)] ++
    (r.result.map fun result => ("result", result)).toList ++
    (r.error.map fun e => ("error", e.toValue)).toList)

def RpcError.fromValue (v : Json) : Option RpcError := do
  match ← Serde.structFields ["code", "message", "data"] v with
  | [code, message, data] =>
    some ⟨← Serde.required Serde.i32 code, ← Serde.required Serde.string message,
      ← Serde.optional some data⟩
  | _ => none

def RpcResponse.fromValue (v : Json) : Option RpcResponse := do
  match ← Serde.structFields ["jsonrpc", "id", "result", "error"] v with
  | [jsonrpc, id, result, error] =>
    some ⟨← Serde.required Serde.string jsonrpc, ← Serde.required some id,
      ← Serde.optional some result, ← Serde.optional RpcError.fromValue error⟩
  | _ => none

/-! ## The client -/

namespace McpClient

/-- What the client uses of serde_json: the parser of responses, and the text of the error for
    a value that is no `ToolResult`. -/
structure ClientSerde where
  parser : ResponseParser
  valueError : Json → String

/-- An exchange with the server, as in `send`. -/
abbrev Post := RpcRequest → Except String HttpResponse

structure HttpMcpClient where
  idCounter : UInt64
  serverInfo : Option ServerInfo
  capabilities : ServerCapabilities
  tools : List Tool

namespace HttpMcpClient

def new : HttpMcpClient := ⟨1, none, {}, []⟩

/-- `next_id`, as a JSON value. -/
def nextId (client : HttpMcpClient) : Json × HttpMcpClient :=
  (.num (toString client.idCounter.toNat), { client with idCounter := client.idCounter + 1 })

def initializeRequest (id : Json) : RpcRequest :=
  ⟨"2.0", id, "initialize", some (.obj [("protocolVersion", .str "2024-11-05"),
    ("capabilities", .obj []),
    ("clientInfo", .obj [("name", .str "barqium"), ("version", .str "0.1.0")])])⟩

def listRequest (id : Json) : RpcRequest := ⟨"2.0", id, "tools/list", none⟩

def callRequest (id : Json) (call : ToolCall) : RpcRequest :=
  ⟨"2.0", id, "tools/call", some (.obj [("name", .str call.name), ("arguments", call.arguments)])⟩

variable (serde : ClientSerde)

/-- Re-fetch the tool list from the server. -/
def refreshTools (client : HttpMcpClient) (list : Post) : Except McpError Unit × HttpMcpClient :=
  let (id, client) := client.nextId
  match send serde.parser list (listRequest id) with
  | .error e => (.error e, client)
  | .ok resp =>
    let result := resp.result.getD (.obj [("tools", .arr [])])
    (.ok (),
      { client with tools := (Serde.vec Tool.fromValue (result.index "tools")).getD [] })

/-- Perform the MCP `initialize` handshake and fetch the tool list. What becomes of the
    notification between the two requests is not looked at. -/
def connect (client : HttpMcpClient) (handshake list : Post) :
    Except McpError Unit × HttpMcpClient :=
  let (id, client) := client.nextId
  match send serde.parser handshake (initializeRequest id) with
  | .error e => (.error e, client)
  | .ok resp =>
    match resp.result with
    | none => (.error (.rpc (-32600) "initialize returned no result"), client)
    | some result =>
      let client := { client with
        capabilities := (ServerCapabilities.fromValue (result.index "capabilities")).getD {}
        serverInfo := ServerInfo.fromValue (result.index "serverInfo") }
      -- tools are listed only if the server offers them
      if client.capabilities.tools.isSome then client.refreshTools serde list
      else (.ok (), client)

/-- Invoke a tool and return its result. -/
def callTool (client : HttpMcpClient) (call : ToolCall) (post : Post) :
    Except McpError ToolResult × HttpMcpClient :=
  let (id, client) := client.nextId
  match send serde.parser post (callRequest id call) with
  | .error e => (.error e, client)
  | .ok resp =>
    match resp.result with
    | some v =>
      match ToolResult.fromValue v with
      | some result => (.ok result, client)
      | none => (.error (.serialization (serde.valueError v)), client)
    | none =>
      -- without a result there is an error, or a default one
      let err := resp.error.getD ⟨-32603, "unknown error", none⟩
      (.error (.rpc err.code err.message), client)

end HttpMcpClient

end McpClient

/-! ## Sessions -/

/-- The response once the dispatcher, if it is called, has answered. -/
def Handling.finish (dispatcher : String → ToolCall → Except McpError ToolResult) :
    Handling → RpcResponse
  | .respond response => response
  | .dispatch serverName call resume => resume (dispatcher serverName call)

namespace McpSession

open McpClient

/-- What is not the client's nor the server's part in an exchange: the order in which the
    registry is walked, the dispatcher's answer to a call, and the way there and back. Either
    it fails, with the text of an error, or the response is carried as an HTTP response. -/
structure Exchange where
  order : ∀ registry : ToolRegistry, HashMap.Values registry.entries
  dispatcher : String → ToolCall → Except McpError ToolResult
  lost : Option String
  carry : RpcResponse → HttpResponse

/-- The caller, as the server knows it. -/
structure Caller where
  roles : List String
  maxTier : ToolTier

/-- The server's response to a request. -/
def Exchange.response (x : Exchange) (server : McpServer) (caller : Caller) (req : RpcRequest) :
    RpcResponse :=
  (server.handle (x.order server.registry) req.toValue caller.roles caller.maxTier).finish
    x.dispatcher

/-- The exchange as the client sees it. -/
def Exchange.post (x : Exchange) (server : McpServer) (caller : Caller) : Post := fun req =>
  match x.lost with
  | some text => .error text
  | none => .ok (x.carry (x.response server caller req))

structure World where
  server : McpServer
  client : HttpMcpClient

inductive Action where
  /-- A tool is registered, or a server's tools are removed. -/
  | registry (op : RegistryOp)
  /-- `connect`, with the operations on the registry between its requests. -/
  | connect (handshake : Exchange) (ops : List RegistryOp) (list : Exchange)
  | refreshTools (list : Exchange)
  | callTool (call : ToolCall) (exchange : Exchange)

/-- What an operation of the client returns. -/
inductive Outcome where
  | unit (result : Except McpError Unit)
  | called (result : Except McpError ToolResult)

def World.operate (w : World) (ops : List RegistryOp) : World :=
  { w with server := { w.server with registry := ops.foldl ToolRegistry.step w.server.registry } }

variable (serde : ClientSerde) (caller : Caller)

def step (w : World) : Action → World × Option Outcome
  | .registry op => (w.operate [op], none)
  | .connect handshake ops list =>
    -- the registry may change between the two exchanges
    let w' := w.operate ops
    let (result, client) := w.client.connect serde (handshake.post w.server caller)
      (list.post w'.server caller)
    ({ w' with client }, some (.unit result))
  | .refreshTools list =>
    let (result, client) := w.client.refreshTools serde (list.post w.server caller)
    ({ w with client }, some (.unit result))
  | .callTool call exchange =>
    let (result, client) := w.client.callTool serde call (exchange.post w.server caller)
    ({ w with client }, some (.called result))

/-- The world after a run, and what the operations of the client returned. -/
def run (w : World) : List Action → World × List Outcome
  | [] => (w, [])
  | action :: actions =>
    let (w', outcome) := step serde caller w action
    let (w'', outcomes) := run w' actions
    (w'', outcome.toList ++ outcomes)

end McpSession

end Barqium.Native
