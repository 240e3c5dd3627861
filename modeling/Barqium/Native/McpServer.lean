import Barqium.Native.ToolRegistry

/-!
# MCP server

Model of `crates/barqium-mcp/src/server.rs`. A request is handled up to the call of
the dispatcher, which is injected and asynchronous: `Handling.dispatch` carries
what it is called with and what becomes of its result.
-/

namespace Barqium.Native

/-- A request to invoke a tool. -/
structure ToolCall where
  name : String
  arguments : Json

structure ResourceLink where
  uri : String
  text : Option String
  mimeType : Option String

/-- A single piece of content returned by a tool. -/
inductive ToolContent where
  | text (text : String)
  | image (data mimeType : String)
  | resource (resource : ResourceLink)

/-- The result of a tool invocation. -/
structure ToolResult where
  content : List ToolContent
  isError : Bool

/-- JSON-RPC 2.0 request envelope. -/
structure RpcRequest where
  jsonrpc : String
  id : Json
  method : String
  params : Option Json

structure RpcError where
  code : Int32
  message : String
  data : Option Json

/-- JSON-RPC 2.0 response envelope. -/
structure RpcResponse where
  jsonrpc : String
  id : Json
  result : Option Json
  error : Option RpcError

/-! ## Serialization -/

/-- A member that `skip_serializing_if = "Option::is_none"` may leave out. -/
def optionalMember (key : String) (value : Option String) : List (String × Json) :=
  (value.map fun s => (key, Json.str s)).toList

def Tool.toValue (tool : Tool) : Json :=
  .obj ([("name", .str tool.name)] ++ optionalMember "description" tool.description ++
    [("inputSchema", tool.inputSchema)])

def ResourceLink.toValue (link : ResourceLink) : Json :=
  .obj ([("uri", .str link.uri)] ++ optionalMember "text" link.text ++
    optionalMember "mimeType" link.mimeType)

def ToolContent.toValue : ToolContent → Json
  | .text s => .obj [("type", .str "text"), ("text", .str s)]
  | .image data mimeType =>
    .obj [("type", .str "image"), ("data", .str data), ("mimeType", .str mimeType)]
  | .resource link => .obj [("type", .str "resource"), ("resource", link.toValue)]

def ToolResult.toValue (result : ToolResult) : Json :=
  .obj [("content", .arr (result.content.map ToolContent.toValue)),
    ("isError", .bool result.isError)]

/-- The derived deserializer of `RpcRequest`: an object with its required members, or
    an array of its four fields. A null `params` is absent. -/
def RpcRequest.fromValue : Json → Option RpcRequest
  | .obj members =>
    match members.lookup "jsonrpc", members.lookup "id", members.lookup "method" with
    | some (.str jsonrpc), some id, some (.str method) =>
      some ⟨jsonrpc, id, method, (members.lookup "params").bind present⟩
    | _, _, _ => none
  -- the derived visitor reads a sequence as well
  | .arr [.str jsonrpc, id, .str method, params] => some ⟨jsonrpc, id, method, present params⟩
  | _ => none
where
  present : Json → Option Json
    | .null => none
    | params => some params

/-! ## The server -/

/-- Where the handling of a request stands: answered, or waiting for the dispatcher
    called with a server name and a tool call. -/
inductive Handling where
  | respond (response : RpcResponse)
  | dispatch (serverName : String) (call : ToolCall)
      (resume : Except McpError ToolResult → RpcResponse)

/-- The MCP server role. `parseError` is the text of serde_json's error for a value
    that is no request, `debugRoles` the `{:?}` text of a list of roles. -/
structure McpServer where
  registry : ToolRegistry
  version : String
  parseError : Json → String
  debugRoles : List String → String

def okResponse (id result : Json) : RpcResponse := ⟨"2.0", id, some result, none⟩

def errorResponse (id : Json) (code : Int32) (message : String) : RpcResponse :=
  ⟨"2.0", id, none, some ⟨code, message, none⟩⟩

namespace McpServer

def handleInitialize (server : McpServer) (id : Json) : RpcResponse :=
  okResponse id (.obj [
    ("protocolVersion", .str "2024-11-05"),
    ("capabilities", .obj [("tools", .obj [("listChanged", .bool true)])]),
    ("serverInfo", .obj [("name", .str "barqium"), ("version", .str server.version)])])

def handleToolsList (server : McpServer) (values : HashMap.Values server.registry.entries)
    (id : Json) (callerRoles : List String) (maxTier : ToolTier) : RpcResponse :=
  let tools := (server.registry.visibleTools values maxTier callerRoles).map (·.tool.toValue)
  okResponse id (.obj [("tools", .arr tools)])

/-- What the caller gets once the dispatcher has answered. A tool-level error is a
    successful response with `isError` set. -/
def toolResponse (id : Json) : Except McpError ToolResult → RpcResponse
  | .ok result => okResponse id result.toValue
  | .error e => okResponse id (ToolResult.toValue ⟨[.text e.display], true⟩)

def handleToolsCall (server : McpServer) (values : HashMap.Values server.registry.entries)
    (id : Json) (params : Option Json) (callerRoles : List String) : Handling :=
  match params with
  | none => .respond (errorResponse id (-32602) "missing params")
  | some params =>
    match (params.index "name").asStr with
    | none => .respond (errorResponse id (-32602) "missing tool name")
    | some toolName =>
      let arguments := params.index "arguments"
      -- the search ignores the tier the caller may see
      let all := server.registry.visibleTools values .full callerRoles
      match all.find? fun e => e.tool.name = toolName with
      | none => .respond (errorResponse id (-32601) ("tool '" ++ toolName ++ "' not found"))
      | some entry =>
        match server.registry.getChecked server.debugRoles entry.serverName toolName
          callerRoles with
        | .error (.accessDenied _ _) => .respond (errorResponse id (-32603) "access denied")
        | .error e => .respond (errorResponse id (-32603) e.display)
        | .ok _ => .dispatch entry.serverName ⟨toolName, arguments⟩ (toolResponse id)

/-- Handle a single JSON-RPC request from an agent, the registry being walked in the
    order `values`. -/
def handle (server : McpServer) (values : HashMap.Values server.registry.entries) (raw : Json)
    (callerRoles : List String) (maxTier : ToolTier) : Handling :=
  match RpcRequest.fromValue raw with
  | none => .respond (errorResponse .null (-32700) ("parse error: " ++ server.parseError raw))
  | some req =>
    match req.method with
    | "initialize" => .respond (server.handleInitialize req.id)
    | "tools/list" => .respond (server.handleToolsList values req.id callerRoles maxTier)
    | "tools/call" => server.handleToolsCall values req.id req.params callerRoles
    | _ => .respond (errorResponse req.id (-32601) "method not found")

end McpServer

end Barqium.Native
