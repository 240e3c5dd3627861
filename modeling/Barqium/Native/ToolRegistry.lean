import Barqium.Native.Config
import Barqium.Native.Json
import Barqium.Native.RouteMatch

/-!
# MCP tool registry

Model of `crates/barqium-mcp/src/registry.rs` with the types of `types.rs` and
`error.rs` it uses. Every operation takes the registry's lock once, so it is a
function of the registry.
-/

namespace Barqium.Native

/-- Describes a tool exposed by an MCP server. -/
structure Tool where
  name : String
  description : Option String
  inputSchema : Json

/-- Visibility tier for Code Mode progressive disclosure. -/
inductive ToolTier where
  /-- Always visible: read-only, low-risk tools. -/
  | readOnly
  /-- Shown after the user confirms intent. -/
  | limited
  /-- Shown only after full authorization. -/
  | full
  deriving Repr, DecidableEq

/-- The errors of the crate. Those of other crates carry their text. -/
inductive McpError where
  | transport (text : String)
  | serialization (text : String)
  | rpc (code : Int32) (message : String)
  | toolNotFound (server name : String)
  | io (text : String)
  | notConnected (server : String)
  | accessDenied (tool required : String)
  deriving Repr, DecidableEq

/-- `Display` of an error. -/
def McpError.display : McpError → String
  | .transport text => "transport error: " ++ text
  | .serialization text => "serialization error: " ++ text
  | .rpc code message => "RPC error " ++ toString code.toInt ++ ": " ++ message
  | .toolNotFound server name => "tool '" ++ name ++ "' not found on server '" ++ server ++ "'"
  | .io text => "IO error: " ++ text
  | .notConnected server => "server '" ++ server ++ "' is not connected"
  | .accessDenied tool required =>
    "access denied: tool '" ++ tool ++ "' requires tier '" ++ required ++ "'"

/-- An entry in the tool registry with RBAC metadata. -/
structure RegistryEntry where
  tool : Tool
  /-- Which server this tool was discovered from. -/
  serverName : String
  tier : ToolTier
  /-- Roles that are allowed to invoke this tool. Empty means everyone. -/
  allowedRoles : List String

def tierLevel : ToolTier → Nat
  | .readOnly => 0
  | .limited => 1
  | .full => 2

def isAllowed (allowed caller : List String) : Bool :=
  if allowed.isEmpty then true
  else caller.any fun r => allowed.contains r

/-- The registry key of a tool. -/
def toolKey (server tool : String) : String := server ++ "/" ++ tool

/-- In-memory tool registry. Entries are stored under their own key. -/
structure ToolRegistry where
  entries : HashMap RegistryEntry
  keyed : HashMap.Keyed (fun e => toolKey e.serverName e.tool.name) entries

namespace ToolRegistry

def new : ToolRegistry where
  entries := ∅
  keyed := HashMap.keyed_empty _

/-- Register or update a tool discovered from `serverName`. -/
def upsert (registry : ToolRegistry) (serverName : String) (tool : Tool) (tier : ToolTier)
    (allowedRoles : List String) : ToolRegistry :=
  let entry : RegistryEntry := ⟨tool, serverName, tier, allowedRoles⟩
  { entries := registry.entries.insert (toolKey serverName tool.name) entry
    keyed := registry.keyed.insert entry }

/-- Remove all tools belonging to `serverName` (called on disconnect). -/
def removeServer (registry : ToolRegistry) (serverName : String) : ToolRegistry where
  entries := HashMap.retain (fun k => !startsWith k (serverName ++ "/")) registry.entries
  keyed := registry.keyed.retain _

/-- All tools visible at or below `maxTier` for the given roles, in the order in
    which the map is walked. -/
def visibleTools (registry : ToolRegistry) (values : HashMap.Values registry.entries)
    (maxTier : ToolTier) (roles : List String) : List RegistryEntry :=
  (values.val.filter fun e => tierLevel e.tier ≤ tierLevel maxTier).filter fun e =>
    isAllowed e.allowedRoles roles

/-- Look up a specific tool and check RBAC. `debugRoles` is the `{:?}` text of a
    list of roles. -/
def getChecked (registry : ToolRegistry) (debugRoles : List String → String)
    (serverName toolName : String) (callerRoles : List String) : Except McpError RegistryEntry :=
  match registry.entries.lookup (toolKey serverName toolName) with
  | none => .error (.toolNotFound serverName toolName)
  | some entry =>
    if !isAllowed entry.allowedRoles callerRoles then
      .error (.accessDenied toolName (debugRoles entry.allowedRoles))
    else
      .ok entry

end ToolRegistry

/-- The operations that change a registry. -/
inductive RegistryOp where
  | upsert (serverName : String) (tool : Tool) (tier : ToolTier) (allowedRoles : List String)
  | removeServer (serverName : String)

namespace ToolRegistry

/-- The registry after an operation. -/
def step (registry : ToolRegistry) : RegistryOp → ToolRegistry
  | .upsert serverName tool tier allowedRoles => registry.upsert serverName tool tier allowedRoles
  | .removeServer serverName => registry.removeServer serverName

/-- A new registry after a sequence of operations. -/
def run (ops : List RegistryOp) : ToolRegistry := ops.foldl step new

end ToolRegistry

end Barqium.Native
