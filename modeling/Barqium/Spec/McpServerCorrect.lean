import Barqium.Native.McpServer

/-!
# Authorization of tool calls

`tools/list` filters the registry by tier and roles, `tools/call` by roles alone. A
call is dispatched exactly to the first entry of that name the roles admit, so it
reaches a tool the same caller would not be shown as soon as that entry's tier is
above the caller's.

## Key results

- `handle_eq_dispatch`, `handle_of_target`: when the dispatcher is called, and with what.
- `authorized_iff`: every order of the registry dispatches to visible tools only,
  exactly when the entries a call may reach are within the caller's tier.
- `dispatched_orders`: every order of the registry dispatches to some server that
  exposes the tool to the caller, and to the same one exactly when there is only one.
-/

namespace Barqium.Native

namespace ToolRegistry

variable {registry : ToolRegistry} {values : HashMap.Values registry.entries}

/-- The visible tools are the registered ones of a low enough tier and an allowed role. -/
theorem mem_visibleTools {maxTier : ToolTier} {roles : List String} {e : RegistryEntry} :
    e ∈ registry.visibleTools values maxTier roles ↔
      registry.entries.lookup (toolKey e.serverName e.tool.name) = some e ∧
        tierLevel e.tier ≤ tierLevel maxTier ∧ isAllowed e.allowedRoles roles = true := by
  unfold visibleTools
  rw [List.mem_filter, List.mem_filter, HashMap.mem_values_keyed registry.keyed, and_assoc,
    decide_eq_true_iff]

/-- An entry found among the visible ones passes the second, keyed lookup. -/
private theorem getChecked_of_visible {maxTier : ToolTier} {roles : List String} {e : RegistryEntry}
    (debugRoles : List String → String) (h : e ∈ registry.visibleTools values maxTier roles) :
    registry.getChecked debugRoles e.serverName e.tool.name roles = .ok e := by
  obtain ⟨hlookup, -, hallowed⟩ := mem_visibleTools.mp h
  unfold getChecked
  rw [hlookup]
  simp [hallowed]

theorem tierLevel_le_full (tier : ToolTier) : tierLevel tier ≤ tierLevel .full := by
  cases tier <;> decide

end ToolRegistry

namespace McpServer

open ToolRegistry

variable {server : McpServer} {values : HashMap.Values server.registry.entries} {raw : Json}
  {roles : List String} {maxTier : ToolTier}

/-- The tool a `tools/call` request names. -/
def calledTool (raw : Json) : Option String :=
  (RpcRequest.fromValue raw).bind fun req =>
    if req.method = "tools/call" then req.params.bind fun params => (params.index "name").asStr
    else none

/-- The entry a call of `name` is sent to. -/
def target (server : McpServer) (values : HashMap.Values server.registry.entries)
    (roles : List String) (name : String) : Option RegistryEntry :=
  (server.registry.visibleTools values .full roles).find? fun e => e.tool.name = name

/-- The target of a call has the name and is visible at the full tier. -/
theorem target_eq_some {name : String} {e : RegistryEntry}
    (h : target server values roles name = some e) :
    e.tool.name = name ∧ e ∈ server.registry.visibleTools values .full roles := by
  have hname := List.find?_some h
  rw [decide_eq_true_iff] at hname
  exact ⟨hname, List.mem_of_find?_eq_some h⟩

/-- A call with a target is dispatched to its server. -/
theorem handleToolsCall_of_target {id params : Json} {name : String} {e : RegistryEntry}
    (hname : (params.index "name").asStr = some name)
    (h : target server values roles name = some e) :
    server.handleToolsCall values id (some params) roles =
      .dispatch e.serverName ⟨name, params.index "arguments"⟩ (toolResponse id) := by
  obtain ⟨rfl, hvisible⟩ := target_eq_some h
  unfold handleToolsCall
  unfold target at h
  simp only [hname, h, getChecked_of_visible _ hvisible]

/-- The dispatcher is called for a `tools/call` request only, with the named tool and
    the server of the target entry. -/
theorem handle_eq_dispatch {serverName : String} {call : ToolCall}
    {resume : Except McpError ToolResult → RpcResponse}
    (h : server.handle values raw roles maxTier = .dispatch serverName call resume) :
    calledTool raw = some call.name ∧
      ∃ e, target server values roles call.name = some e ∧ e.serverName = serverName := by
  unfold handle at h
  cases hreq : RpcRequest.fromValue raw with
  | none => rw [hreq] at h; cases h
  | some req =>
    rw [hreq] at h
    dsimp only at h
    -- `initialize` and `tools/list` answer at once; only `tools/call` goes on
    split at h
    · cases h
    · cases h
    · rename_i hmethod
      cases hparams : req.params with
      | none => rw [hparams] at h; cases h
      | some params =>
        rw [hparams] at h
        cases hname : (params.index "name").asStr with
        | none =>
          unfold handleToolsCall at h
          simp only [hname] at h
          cases h
        | some name =>
          cases htarget : target server values roles name with
          | none =>
            -- no visible entry of that name: the call is answered with an error
            unfold handleToolsCall at h
            unfold target at htarget
            simp only [hname, htarget] at h
            cases h
          | some e =>
            rw [handleToolsCall_of_target hname htarget] at h
            cases h
            refine ⟨?_, e, htarget, rfl⟩
            simp [calledTool, hreq, hmethod, hparams, hname]
    · cases h

/-- A call that names a tool with a target is dispatched. -/
theorem handle_of_target {name : String} {e : RegistryEntry}
    (hcall : calledTool raw = some name) (h : target server values roles name = some e) :
    ∃ arguments resume, server.handle values raw roles maxTier =
      .dispatch e.serverName ⟨name, arguments⟩ resume := by
  unfold calledTool at hcall
  obtain ⟨req, hreq, hcall⟩ := Option.bind_eq_some_iff.mp hcall
  split at hcall
  · rename_i hmethod
    obtain ⟨params, hparams, hname⟩ := Option.bind_eq_some_iff.mp hcall
    -- the arguments of the request are passed on as they are
    refine ⟨params.index "arguments", toolResponse req.id, ?_⟩
    rw [← handleToolsCall_of_target hname h, ← hparams]
    unfold handle
    simp only [hreq, hmethod]
  · cases hcall

/-- Whatever the order of the registry, the dispatcher is called only with a server and
    a tool of an entry that `visible_tools` returns for the caller. -/
def Authorized (server : McpServer) (raw : Json) (roles : List String) (maxTier : ToolTier) :
    Prop :=
  ∀ values serverName call resume,
    server.handle values raw roles maxTier = .dispatch serverName call resume →
    ∃ e ∈ server.registry.visibleTools values maxTier roles,
      e.serverName = serverName ∧ e.tool.name = call.name

/-- Tool calls stay within what the caller is shown exactly when no entry of the called
    name that admits the caller's roles has a tier above the caller's. -/
theorem authorized_iff (server : McpServer) (raw : Json) (roles : List String)
    (maxTier : ToolTier) :
    Authorized server raw roles maxTier ↔
      ∀ name, calledTool raw = some name → ∀ key e, server.registry.entries.lookup key = some e →
        e.tool.name = name → isAllowed e.allowedRoles roles = true →
        tierLevel e.tier ≤ tierLevel maxTier := by
  constructor
  · intro h name hcall key e hlookup hname hallowed
    -- walk the registry with `e` first
    obtain ⟨values, rest, hvalues⟩ := HashMap.exists_values_first hlookup
    have htarget : target server values roles name = some e := by
      unfold target visibleTools
      simp [hvalues, tierLevel_le_full, hallowed, hname]
    obtain ⟨arguments, resume, hhandle⟩ := handle_of_target hcall htarget
    obtain ⟨e', hvisible, hserver, htool⟩ := h values _ _ _ hhandle
    obtain ⟨hlookup', htier, -⟩ := mem_visibleTools.mp hvisible
    -- one key, one entry
    have hkey : toolKey e.serverName name = key := by
      rw [← hname]
      exact server.registry.keyed key e hlookup
    rw [hserver, htool, hkey, hlookup] at hlookup'
    cases hlookup'
    exact htier
  · intro h values serverName call resume hhandle
    -- what was dispatched to is an entry of the called name that admits the roles
    obtain ⟨hcall, e, htarget, hserver⟩ := handle_eq_dispatch hhandle
    obtain ⟨hname, hvisible⟩ := target_eq_some htarget
    obtain ⟨hlookup, -, hallowed⟩ := mem_visibleTools.mp hvisible
    have htier := h call.name hcall _ e hlookup hname hallowed
    exact ⟨e, mem_visibleTools.mpr ⟨hlookup, htier, hallowed⟩, hserver, hname⟩

/-- A read-only caller reaches a tool of the highest tier by naming it. -/
theorem full_tier_tool_reached :
    let registry := ToolRegistry.new.upsert "files" ⟨"delete", none, .obj []⟩ .full []
    let raw := Json.obj [("jsonrpc", .str "2.0"), ("id", .num "1"), ("method", .str "tools/call"),
      ("params", .obj [("name", .str "delete"), ("arguments", .obj [])])]
    ¬ Authorized ⟨registry, "0.1.0", fun _ => "", fun _ => ""⟩ raw [] .readOnly := by
  intro registry raw h
  let entry : RegistryEntry := ⟨⟨"delete", none, .obj []⟩, "files", .full, []⟩
  obtain ⟨e, he, -, -⟩ := h ⟨[entry], rfl⟩ "files" ⟨"delete", .obj []⟩ (toolResponse (.num "1")) rfl
  -- nothing is visible to a read-only caller
  change e ∈ [] at he
  cases he

/-! ## The order of the registry -/

/-- The server a request is dispatched to. -/
def dispatchedTo : Handling → Option String
  | .respond _ => none
  | .dispatch serverName _ _ => some serverName

/-- `serverName` exposes the tool that the request calls to a caller with these roles. -/
def Exposes (server : McpServer) (raw : Json) (roles : List String) (serverName : String) : Prop :=
  ∃ name key e, calledTool raw = some name ∧ server.registry.entries.lookup key = some e ∧
    e.tool.name = name ∧ isAllowed e.allowedRoles roles = true ∧ e.serverName = serverName

/-- What is dispatched goes to a server. -/
private theorem dispatchedTo_eq_some {handling : Handling} {serverName : String}
    (h : dispatchedTo handling = some serverName) :
    ∃ call resume, handling = .dispatch serverName call resume := by
  cases handling with
  | respond response => cases h
  | dispatch s call resume =>
    cases h
    exact ⟨call, resume, rfl⟩

/-- A call is dispatched only to a server that exposes the tool. -/
private theorem exposes_of_dispatchedTo {serverName : String}
    (h : dispatchedTo (server.handle values raw roles maxTier) = some serverName) :
    Exposes server raw roles serverName := by
  obtain ⟨call, resume, hhandle⟩ := dispatchedTo_eq_some h
  obtain ⟨hcall, e, htarget, hserver⟩ := handle_eq_dispatch hhandle
  obtain ⟨hname, hvisible⟩ := target_eq_some htarget
  obtain ⟨hlookup, -, hallowed⟩ := mem_visibleTools.mp hvisible
  exact ⟨call.name, _, e, hcall, hlookup, hname, hallowed, hserver⟩

/-- When some server exposes the tool, every order finds one. -/
private theorem dispatchedTo_isSome_of_exposes {serverName : String}
    (h : Exposes server raw roles serverName) (values : HashMap.Values server.registry.entries)
    (maxTier : ToolTier) :
    (dispatchedTo (server.handle values raw roles maxTier)).isSome := by
  obtain ⟨name, key, e, hcall, hlookup, hname, hallowed, -⟩ := h
  -- the tool of that server is among the visible ones, so a scan finds one
  have hvisible : e ∈ server.registry.visibleTools values .full roles := by
    refine mem_visibleTools.mpr ⟨?_, tierLevel_le_full _, hallowed⟩
    have hkey : toolKey e.serverName e.tool.name = key := server.registry.keyed key e hlookup
    rw [hkey, hlookup]
  cases htarget : target server values roles name with
  | none => exact absurd (decide_eq_true hname) (List.find?_eq_none.mp htarget e hvisible)
  | some e' =>
    obtain ⟨arguments, resume, hhandle⟩ : ∃ arguments resume,
        server.handle values raw roles maxTier =
          .dispatch e'.serverName ⟨name, arguments⟩ resume := handle_of_target hcall htarget
    rw [hhandle]
    rfl

/-- Some order of the registry dispatches to any given server that exposes the tool. -/
private theorem exists_dispatchedTo {serverName : String} (h : Exposes server raw roles serverName)
    (maxTier : ToolTier) :
    ∃ values, dispatchedTo (server.handle values raw roles maxTier) = some serverName := by
  obtain ⟨name, key, e, hcall, hlookup, hname, hallowed, rfl⟩ := h
  -- walk the registry with `e` first
  obtain ⟨values, rest, hvalues⟩ := HashMap.exists_values_first hlookup
  have htarget : target server values roles name = some e := by
    unfold target visibleTools
    simp [hvalues, tierLevel_le_full, hallowed, hname]
  obtain ⟨arguments, resume, hhandle⟩ : ∃ arguments resume,
      server.handle values raw roles maxTier =
        .dispatch e.serverName ⟨name, arguments⟩ resume := handle_of_target hcall htarget
  refine ⟨values, ?_⟩
  rw [hhandle]
  rfl

/-- For every order of the registry a call is dispatched exactly when some server exposes
    the tool to the caller's roles, and then to such a server; every order dispatches
    to the same server if and only if at most one server exposes the tool. -/
theorem dispatched_orders (server : McpServer) (raw : Json) (roles : List String)
    (maxTier : ToolTier) :
    (∀ values, (dispatchedTo (server.handle values raw roles maxTier)).isSome ↔
      ∃ serverName, Exposes server raw roles serverName) ∧
    (∀ values serverName, dispatchedTo (server.handle values raw roles maxTier) = some serverName →
      Exposes server raw roles serverName) ∧
    ((∀ values values', dispatchedTo (server.handle values raw roles maxTier) =
        dispatchedTo (server.handle values' raw roles maxTier)) ↔
      ∀ s s', Exposes server raw roles s → Exposes server raw roles s' → s = s') := by
  refine ⟨fun values => ⟨fun h => ?_, ?_⟩, fun values serverName => exposes_of_dispatchedTo, ?_⟩
  · obtain ⟨serverName, hserver⟩ := Option.isSome_iff_exists.mp h
    exact ⟨serverName, exposes_of_dispatchedTo hserver⟩
  · rintro ⟨serverName, hserver⟩
    exact dispatchedTo_isSome_of_exposes hserver values maxTier
  · constructor
    · intro hsame s s' hs hs'
      obtain ⟨values, hvalues⟩ := exists_dispatchedTo hs maxTier
      obtain ⟨values', hvalues'⟩ := exists_dispatchedTo hs' maxTier
      have heq := hsame values values'
      rw [hvalues, hvalues'] at heq
      exact Option.some_inj.mp heq
    · intro hone values values'
      cases hfirst : dispatchedTo (server.handle values raw roles maxTier) with
      | none =>
        cases hsecond : dispatchedTo (server.handle values' raw roles maxTier) with
        | none => rfl
        | some s' =>
          -- one order finding a server, so does the other
          have hsome := dispatchedTo_isSome_of_exposes (exposes_of_dispatchedTo hsecond) values
            maxTier
          rw [hfirst] at hsome
          cases hsome
      | some s =>
        have hexposes := exposes_of_dispatchedTo hfirst
        obtain ⟨s', hsecond⟩ := Option.isSome_iff_exists.mp
          (dispatchedTo_isSome_of_exposes hexposes values' maxTier)
        rw [hsecond, hone s s' hexposes (exposes_of_dispatchedTo hsecond)]

/-- Two servers with a tool of the same name: which of them gets the call depends on the
    order in which the map is walked. -/
theorem shared_tool_name_ambiguous :
    let registry := (ToolRegistry.new.upsert "a" ⟨"read", none, .obj []⟩ .readOnly []).upsert "b"
      ⟨"read", none, .obj []⟩ .readOnly []
    let raw := Json.obj [("jsonrpc", .str "2.0"), ("id", .num "1"), ("method", .str "tools/call"),
      ("params", .obj [("name", .str "read"), ("arguments", .obj [])])]
    ¬ ∀ values values',
      dispatchedTo (handle ⟨registry, "0.1.0", fun _ => "", fun _ => ""⟩ values raw [] .readOnly) =
      dispatchedTo
        (handle ⟨registry, "0.1.0", fun _ => "", fun _ => ""⟩ values' raw [] .readOnly) := by
  intro registry raw h
  let inA : RegistryEntry := ⟨⟨"read", none, .obj []⟩, "a", .readOnly, []⟩
  let inB : RegistryEntry := ⟨⟨"read", none, .obj []⟩, "b", .readOnly, []⟩
  -- the entries may be walked in either order
  have heq := h ⟨[inA, inB], Multiset.coe_eq_coe.mpr (List.Perm.swap _ _ _)⟩ ⟨[inB, inA], rfl⟩
  exact absurd heq (by decide)

end McpServer

end Barqium.Native
