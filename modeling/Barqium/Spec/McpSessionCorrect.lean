import Barqium.Native.McpSession
import Barqium.Spec.McpServerCorrect
import Barqium.Spec.McpClientCorrect

/-!
# Sessions of the MCP client with the MCP server

The client and the server agree on every message: what one of them serializes is what the other
one reads. So a session is what it looks like to the caller, requests to a registry, and JSON
and the envelopes do not show.

## Key results

- `RpcResponse.fromValue_toValue_okResponse` and the lemmas before it: messages are read back.
- `refreshTools_eq`, `connect_eq`, `callTool_eq`: what each operation of the client gives.
- `view_run`: a session refines one without messages.
- `answered_of_known`: a tool that the client was shown is not refused while it is registered.
-/

namespace Barqium.Native

/-! ## Round trips -/

/-- The code of an error is read back. -/
private theorem i32_toString (code : Int32) :
    Serde.i32 (.num (toString code.toInt)) = some code := by
  have hlo := code.le_toInt
  have hhi := code.toInt_lt
  have hback : Int32.ofInt code.toInt = code := Int32.ofInt_toInt code
  generalize code.toInt = n at hlo hhi hback
  rw [Int.toString_eq_repr, Int.repr_eq_if, Serde.i32]
  by_cases hn : 0 ≤ n
  · -- a number that is not negative has no sign
    have hhead : n.toNat.repr.toList.head? ≠ some '-' := by
      intro h
      have hdigit := Nat.isDigit_of_mem_toDigits (b := 10) (n := n.toNat) (by decide) (by decide)
        (List.mem_of_mem_head? (Nat.toList_repr ▸ h))
      cases hdigit
    rw [if_pos hn, if_neg hhead, Nat.toList_repr, Digits.parse_toDigits (by omega),
      Option.map_some, Int.toNat_of_nonneg hn, hback]
  · -- a negative one has its digits behind the minus
    have hlist : ("-" ++ (-n).toNat.repr).toList = '-' :: Nat.toDigits 10 (-n).toNat := by
      simp [String.toList_append]
    rw [if_neg hn, hlist, List.head?_cons, if_pos rfl, List.tail_cons,
      Digits.parse_toDigits (by omega), Option.filter_some_pos (by simpa using hn),
      Option.map_some, Int.toNat_of_nonneg (by omega), Int.neg_neg, hback]

/-! ### What a tool and a result are read back as -/

/-- A tool is read back. -/
@[simp] theorem Tool.fromValue_toValue (tool : Tool) : Tool.fromValue tool.toValue = some tool := by
  obtain ⟨name, description, inputSchema⟩ := tool
  cases description <;> rfl

/-- A link is read back. -/
@[simp] theorem ResourceLink.fromValue_toValue (link : ResourceLink) :
    ResourceLink.fromValue link.toValue = some link := by
  obtain ⟨uri, text, mimeType⟩ := link
  cases text <;> cases mimeType <;> rfl

/-- Content is read back. -/
@[simp] theorem ToolContent.fromValue_toValue (content : ToolContent) :
    ToolContent.fromValue content.toValue = some content := by
  cases content with
  | text s => rfl
  | image data mimeType => rfl
  | resource link =>
    have hlink := ResourceLink.fromValue_toValue link
    simp [ToolContent.fromValue, ToolContent.toValue, ToolContent.tagged, Serde.structFields,
      Serde.required, Json.asStr, List.lookup_cons, hlink]

/-- A list of values that are each read back is read back. -/
private theorem vec_map {α : Type} {decode : Json → Option α} {encode : α → Json}
    (h : ∀ a, decode (encode a) = some a) (as : List α) :
    Serde.vec decode (.arr (as.map encode)) = some as := by
  rw [Serde.vec, List.mapM_map]
  induction as with
  | nil => rfl
  | cons a as ih =>
    rw [List.mapM_cons, Function.comp_apply, h, ih]
    rfl

/-- A result is read back. -/
@[simp] theorem ToolResult.fromValue_toValue (result : ToolResult) :
    ToolResult.fromValue result.toValue = some result := by
  obtain ⟨content, isError⟩ := result
  have hcontent := vec_map ToolContent.fromValue_toValue content
  simp [ToolResult.fromValue, ToolResult.toValue, Serde.leadingFields, Serde.structFields,
    Serde.required, Serde.defaulted, Serde.bool, List.lookup_cons, hcontent]

/-! ### Envelopes -/

/-- A request is read back unless its parameters are null. -/
theorem RpcRequest.fromValue_toValue {req : RpcRequest} (h : req.params ≠ some .null) :
    RpcRequest.fromValue req.toValue = some req := by
  obtain ⟨jsonrpc, id, method, params⟩ := req
  cases params with
  | none => rfl
  | some params =>
    cases params with
    | null => exact absurd rfl h
    | _ => rfl

/-- An error without data is read back. -/
theorem RpcError.fromValue_toValue {e : RpcError} (h : e.data = none) :
    RpcError.fromValue e.toValue = some e := by
  obtain ⟨code, message, data⟩ := e
  obtain rfl : data = none := h
  have hcode := i32_toString code
  simp [RpcError.fromValue, RpcError.toValue, Serde.structFields, Serde.required, Serde.optional,
    Serde.string, Json.asStr, List.lookup_cons, hcode, -Int.toString_eq_repr]

/-- A response with a result is read back, unless that is null. -/
theorem RpcResponse.fromValue_toValue_okResponse (id : Json) {result : Json}
    (h : result ≠ .null) :
    RpcResponse.fromValue (okResponse id result).toValue = some (okResponse id result) := by
  cases result with
  | null => exact absurd rfl h
  | _ => rfl

/-- A response with an error is read back. -/
theorem RpcResponse.fromValue_toValue_errorResponse (id : Json) (code : Int32)
    (message : String) :
    RpcResponse.fromValue (errorResponse id code message).toValue =
      some (errorResponse id code message) := by
  have herror := RpcError.fromValue_toValue (e := ⟨code, message, none⟩) rfl
  have hfields : RpcResponse.fromValue (errorResponse id code message).toValue =
      ((RpcError.fromValue (RpcError.toValue ⟨code, message, none⟩)).map some).bind fun error =>
        some ⟨"2.0", id, none, error⟩ := rfl
  rw [hfields, herror]
  rfl

namespace McpSession

open McpClient HttpMcpClient

/-! ## Exchanges -/

variable {serde : ClientSerde} {server : McpServer} {caller : Caller} {x : Exchange}

/-- The way back is faithful: if the exchange is not lost, the response arrives with a status of
    success and a body that serde reads as what the server serialized. -/
def Exchange.Delivers (serde : ClientSerde) (x : Exchange) (r : RpcResponse) : Prop :=
  x.lost = none → ∃ body, (x.carry r).text = .ok body ∧ isSuccess (x.carry r).status = true ∧
    ∀ r', RpcResponse.fromValue r.toValue = some r' → serde.parser.fromStr body = .ok r'

/-- A lost exchange is an error of the transport. -/
private theorem send_of_lost {req : RpcRequest} {text : String} (h : x.lost = some text) :
    send serde.parser (x.post server caller) req = .error (.transport text) := by
  have hpost : x.post server caller req = .error text := by rw [Exchange.post, h]
  rw [send, hpost]

/-- A response that the client can read arrives as it was sent: in the JSON text of a response
    no line is taken for an event. -/
private theorem send_of_delivers {req : RpcRequest} (h : x.lost = none)
    (hdelivers : x.Delivers serde (x.response server caller req))
    (hread : RpcResponse.fromValue (x.response server caller req).toValue =
      some (x.response server caller req)) :
    send serde.parser (x.post server caller) req = .ok (x.response server caller req) := by
  obtain ⟨body, htext, hstatus, hparse⟩ := hdelivers h
  have hbody := hparse _ hread
  have hpost : x.post server caller req =
      .ok ⟨(x.carry (x.response server caller req)).status, .ok body⟩ := by
    rw [Exchange.post, h, ← htext]
  rw [send_eq_ok hpost hstatus, jsonStr_of_isTokens (serde.parser.isTokens_of_ok _ _ hbody)]
  exact hbody

/-! ### The server's side -/

variable (x server caller) in
/-- The server answers the handshake. -/
private theorem response_initialize (id : Json) :
    x.response server caller (initializeRequest id) = server.handleInitialize id := by
  rw [Exchange.response, McpServer.handle,
    RpcRequest.fromValue_toValue (by simp [initializeRequest])]
  rfl

variable (x server caller) in
/-- The server answers a list with the tools of the caller. -/
private theorem response_list (id : Json) :
    x.response server caller (listRequest id) =
      server.handleToolsList (x.order server.registry) id caller.roles caller.maxTier := by
  rw [Exchange.response, McpServer.handle, RpcRequest.fromValue_toValue (by simp [listRequest])]
  rfl

/-- A call without a target is answered with an error. -/
private theorem handleToolsCall_of_no_target {values : HashMap.Values server.registry.entries}
    {roles : List String} {id params : Json} {name : String}
    (hname : (params.index "name").asStr = some name)
    (h : McpServer.target server values roles name = none) :
    server.handleToolsCall values id (some params) roles =
      .respond (errorResponse id (-32601) ("tool '" ++ name ++ "' not found")) := by
  unfold McpServer.handleToolsCall
  unfold McpServer.target at h
  simp only [hname, h]

variable (x server caller) in
/-- A call goes to the first tool of its name that the roles of the caller admit. -/
private theorem response_call (id : Json) (call : ToolCall) :
    x.response server caller (callRequest id call) =
      match McpServer.target server (x.order server.registry) caller.roles call.name with
      | some e => McpServer.toolResponse id (x.dispatcher e.serverName call)
      | none => errorResponse id (-32601) ("tool '" ++ call.name ++ "' not found") := by
  rw [Exchange.response, McpServer.handle, RpcRequest.fromValue_toValue (by simp [callRequest])]
  have hname : ((Json.obj [("name", .str call.name), ("arguments", call.arguments)]).index
      "name").asStr = some call.name := rfl
  cases htarget : McpServer.target server (x.order server.registry) caller.roles call.name with
  | some e =>
    exact congrArg (Handling.finish x.dispatcher)
      (McpServer.handleToolsCall_of_target hname htarget)
  | none =>
    exact congrArg (Handling.finish x.dispatcher) (handleToolsCall_of_no_target hname htarget)

/-! ## The session as the caller sees it -/

/-- What the registry exposes to the caller, in the order of the exchange. -/
def exposed (registry : ToolRegistry) (caller : Caller) (x : Exchange) : List Tool :=
  (registry.visibleTools (x.order registry) caller.maxTier caller.roles).map RegistryEntry.tool

/-- The first tool of a name that the caller may invoke, in the order of the exchange. -/
def callable (registry : ToolRegistry) (caller : Caller) (x : Exchange) (name : String) :
    Option RegistryEntry :=
  (registry.visibleTools (x.order registry) .full caller.roles).find? fun e => e.tool.name = name

/-- The result of a call that is dispatched. An error of the dispatcher is a result too. -/
def ofDispatch : Except McpError ToolResult → ToolResult
  | .ok result => result
  | .error err => ⟨[.text err.display], true⟩

def answer (registry : ToolRegistry) (caller : Caller) (x : Exchange) (call : ToolCall) :
    Except McpError ToolResult :=
  match callable registry caller x call.name with
  | none => .error (.rpc (-32601) ("tool '" ++ call.name ++ "' not found"))
  | some e => .ok (ofDispatch (x.dispatcher e.serverName call))

/-- A session without messages: a registry, and what is known of it. -/
structure View where
  registry : ToolRegistry
  serverInfo : Option ServerInfo
  tools : List Tool

namespace View

/-- What an exchange gives if it is not lost. -/
def exchange {α β : Type} (x : Exchange) (v : α) (result : α × Except McpError β) :
    α × Except McpError β :=
  match x.lost with
  | some text => (v, .error (.transport text))
  | none => result

def operate (v : View) (ops : List RegistryOp) : View :=
  { v with registry := ops.foldl ToolRegistry.step v.registry }

def list (caller : Caller) (v : View) (x : Exchange) : View × Except McpError Unit :=
  exchange x v ({ v with tools := exposed v.registry caller x }, .ok ())

def step (version : String) (caller : Caller) (v : View) : Action → View × Option Outcome
  | .registry op => (v.operate [op], none)
  | .connect handshake ops list =>
    let (v, result) := match handshake.lost with
      | some text => (v.operate ops, .error (.transport text))
      | none => { v.operate ops with serverInfo := some ⟨"barqium", version⟩ }.list caller list
    (v, some (.unit result))
  | .refreshTools list =>
    let (v, result) := v.list caller list
    (v, some (.unit result))
  | .callTool call x =>
    let (v, result) := exchange x v (v, answer v.registry caller x call)
    (v, some (.called result))

def run (version : String) (caller : Caller) (v : View) : List Action → View × List Outcome
  | [] => (v, [])
  | action :: actions =>
    let (v', outcome) := v.step version caller action
    let (v'', outcomes) := v'.run version caller actions
    (v'', outcome.toList ++ outcomes)

end View

/-- What is seen of a world. -/
def World.view (w : World) : View := ⟨w.server.registry, w.client.serverInfo, w.client.tools⟩

/-- The exchanges of an action deliver what the server responds. -/
def Delivered (serde : ClientSerde) (caller : Caller) (w : World) : Action → Prop
  | .registry _ => True
  | .connect handshake ops list =>
    handshake.Delivers serde
      (handshake.response w.server caller (initializeRequest w.client.nextId.1)) ∧
    list.Delivers serde
      (list.response (w.operate ops).server caller (listRequest w.client.nextId.2.nextId.1))
  | .refreshTools list =>
    list.Delivers serde (list.response w.server caller (listRequest w.client.nextId.1))
  | .callTool call x =>
    x.Delivers serde (x.response w.server caller (callRequest w.client.nextId.1 call))

/-- The exchanges of a run deliver what the server responds. -/
def RunDelivered (serde : ClientSerde) (caller : Caller) (w : World) : List Action → Prop
  | [] => True
  | action :: actions =>
    Delivered serde caller w action ∧
      RunDelivered serde caller (step serde caller w action).1 actions

/-! ## Operations of the client -/

section

variable {values : HashMap.Values server.registry.entries}

/-- A list of tools is read back. -/
private theorem fromValue_handleToolsList (id : Json) (roles : List String) (maxTier : ToolTier) :
    RpcResponse.fromValue (server.handleToolsList values id roles maxTier).toValue =
      some (server.handleToolsList values id roles maxTier) :=
  RpcResponse.fromValue_toValue_okResponse id (by simp)

/-- The client reads the tools that the registry exposes, with all they have. -/
private theorem tools_handleToolsList (id : Json) (roles : List String) (maxTier : ToolTier)
    (other : Json) :
    Serde.vec Tool.fromValue
      (((server.handleToolsList values id roles maxTier).result.getD other).index "tools") =
      some ((server.registry.visibleTools values maxTier roles).map RegistryEntry.tool) := by
  have htools := vec_map Tool.fromValue_toValue
    ((server.registry.visibleTools values maxTier roles).map RegistryEntry.tool)
  rwa [List.map_map] at htools

end

/-- After a refresh the client holds what is exposed to the caller. -/
theorem refreshTools_eq (client : HttpMcpClient)
    (hdelivers : x.Delivers serde (x.response server caller (listRequest client.nextId.1))) :
    client.refreshTools serde (x.post server caller) =
      match x.lost with
      | some text => (.error (.transport text), client.nextId.2)
      | none => (.ok (), { client.nextId.2 with tools := exposed server.registry caller x }) := by
  rw [refreshTools]
  cases hlost : x.lost with
  | some text => simp only [send_of_lost hlost]
  | none =>
    have hresponse := response_list server caller x client.nextId.1
    have hsend := send_of_delivers hlost hdelivers
      (by rw [hresponse]; exact fromValue_handleToolsList _ _ _)
    simp only [hsend, hresponse, tools_handleToolsList, Option.getD_some, exposed]

/-- A connection is the handshake and then a refresh. -/
theorem connect_eq (client : HttpMcpClient) {server' : McpServer} {handshake list : Exchange}
    (hhandshake : handshake.Delivers serde
      (handshake.response server caller (initializeRequest client.nextId.1))) :
    client.connect serde (handshake.post server caller) (list.post server' caller) =
      match handshake.lost with
      | some text => (.error (.transport text), client.nextId.2)
      | none =>
        HttpMcpClient.refreshTools serde
          { client.nextId.2 with
            capabilities := { tools := some ⟨true⟩ }
            serverInfo := some ⟨"barqium", server.version⟩ } (list.post server' caller) := by
  rw [connect]
  cases hlost : handshake.lost with
  | some text => simp only [send_of_lost hlost]
  | none =>
    have hresponse := response_initialize server caller handshake client.nextId.1
    -- the answer to the handshake is read back
    have hread : RpcResponse.fromValue (server.handleInitialize client.nextId.1).toValue =
        some (server.handleInitialize client.nextId.1) :=
      RpcResponse.fromValue_toValue_okResponse client.nextId.1 (by simp)
    have hsend := send_of_delivers hlost hhandshake (by rw [hresponse]; exact hread)
    simp only [hsend, hresponse]
    rfl

/-- A call is answered as the registry says. -/
theorem callTool_eq (client : HttpMcpClient) (call : ToolCall)
    (hdelivers : x.Delivers serde
      (x.response server caller (callRequest client.nextId.1 call))) :
    client.callTool serde call (x.post server caller) =
      match x.lost with
      | some text => (.error (.transport text), client.nextId.2)
      | none => (answer server.registry caller x call, client.nextId.2) := by
  rw [callTool]
  -- a lost reply is a transport error
  cases hlost : x.lost with
  | some text => simp only [send_of_lost hlost]
  | none =>
    have hresponse := response_call server caller x client.nextId.1 call
    cases htarget : McpServer.target server (x.order server.registry) caller.roles call.name with
    | none =>
      -- the refusal of the server is the client's error
      rw [htarget] at hresponse
      have hsend := send_of_delivers hlost hdelivers
        (by rw [hresponse]; exact RpcResponse.fromValue_toValue_errorResponse _ _ _)
      have hanswer : answer server.registry caller x call =
          .error (.rpc (-32601) ("tool '" ++ call.name ++ "' not found")) := by
        rw [answer, show callable server.registry caller x call.name = none from htarget]
      simp only [hsend, hresponse, hanswer]
      rfl
    | some e =>
      rw [htarget] at hresponse
      -- the result of the tool reads back as it was sent
      have hread : RpcResponse.fromValue
          (McpServer.toolResponse client.nextId.1 (x.dispatcher e.serverName call)).toValue =
          some (McpServer.toolResponse client.nextId.1 (x.dispatcher e.serverName call)) := by
        cases x.dispatcher e.serverName call <;>
          exact RpcResponse.fromValue_toValue_okResponse _ (by simp [ToolResult.toValue])
      have hsend := send_of_delivers hlost hdelivers (by rw [hresponse]; exact hread)
      simp only [hsend, hresponse, answer,
        show callable server.registry caller x call.name = some e from htarget]
      cases x.dispatcher e.serverName call with
      | ok result =>
        simp only [McpServer.toolResponse, okResponse, ToolResult.fromValue_toValue, ofDispatch]
      | error err =>
        simp only [McpServer.toolResponse, okResponse, ToolResult.fromValue_toValue, ofDispatch]

/-! ## Refinement -/

/-- A session is seen as one of its caller with the registry, one action at a time. -/
theorem view_step {w : World} (action : Action) (h : Delivered serde caller w action) :
    ((step serde caller w action).1.view, (step serde caller w action).2) =
        w.view.step w.server.version caller action ∧
      (step serde caller w action).1.server.version = w.server.version := by
  -- each action of the session, through the operation it runs
  cases action with
  | registry op => exact ⟨rfl, rfl⟩
  | connect handshake ops list =>
    rw [step, View.step]
    simp only [connect_eq w.client h.1]
    cases hlost : handshake.lost with
    | some text => exact ⟨rfl, rfl⟩
    | none =>
      have hlist := refreshTools_eq
        { w.client.nextId.2 with
          capabilities := { tools := some ⟨true⟩ }
          serverInfo := some ⟨"barqium", w.server.version⟩ } h.2
      simp only [hlist, View.list, View.exchange]
      cases list.lost <;> exact ⟨rfl, rfl⟩
  | refreshTools list =>
    rw [step, View.step]
    simp only [refreshTools_eq w.client h, View.list, View.exchange]
    cases list.lost <;> exact ⟨rfl, trivial⟩
  | callTool call x =>
    rw [step, View.step]
    simp only [callTool_eq w.client call h, View.exchange]
    cases x.lost <;> exact ⟨rfl, trivial⟩

/-- What is seen of a run, the version of the server included, which no step changes. -/
theorem simulates_run (w : World) (actions : List Action)
    (h : RunDelivered serde caller w actions) :
    ((run serde caller w actions).1.view, (run serde caller w actions).2) =
        w.view.run w.server.version caller actions ∧
      (run serde caller w actions).1.server.version = w.server.version := by
  induction actions generalizing w with
  | nil => exact ⟨rfl, rfl⟩
  | cons action actions ih =>
    obtain ⟨hstep, hversion⟩ := view_step action h.1
    obtain ⟨hrest, hlast⟩ := ih (step serde caller w action).1 h.2
    rw [hversion] at hrest hlast
    refine ⟨?_, hlast⟩
    rw [run, View.run, ← hstep]
    simp only [← hrest]

/-- Whatever the client does, however the registry changes between its requests, and whichever
    exchanges are lost: what the client returns and what it knows is what a caller would get
    from the registry itself. -/
theorem view_run (w : World) (actions : List Action) (h : RunDelivered serde caller w actions) :
    ((run serde caller w actions).1.view, (run serde caller w actions).2) =
      w.view.run w.server.version caller actions :=
  (simulates_run w actions h).1

/-! ### A session with one tool -/

def forecast : RegistryEntry := ⟨⟨"forecast", none, .obj []⟩, "weather", .readOnly, []⟩

def forecastServer : McpServer := ⟨ToolRegistry.new, "0.1.0", fun _ => "", fun _ => ""⟩

def forecastListed : RpcResponse :=
  okResponse (.num "1") (.obj [("tools", .arr [forecast.tool.toValue])])

def forecastCalled : RpcResponse :=
  okResponse (.num "2") (ToolResult.toValue ⟨[.text "sunny"], false⟩)

def forecastListedText : List Char :=
  ("\x7b\"jsonrpc\":\"2.0\",\"id\":1,\"result\":\x7b\"tools\":[\x7b\"name\":\"forecast\"," ++
    "\"inputSchema\":\x7b\x7d\x7d]\x7d\x7d").toList

def forecastCalledText : List Char :=
  ("\x7b\"jsonrpc\":\"2.0\",\"id\":2,\"result\":\x7b\"content\":[\x7b\"type\":\"text\"," ++
    "\"text\":\"sunny\"\x7d],\"isError\":false\x7d\x7d").toList

/-- What serde_json makes of the two texts. -/
def forecastSerde : ClientSerde where
  parser :=
    { fromStr := fun text =>
        if text = forecastListedText then .ok forecastListed
        else if text = forecastCalledText then .ok forecastCalled
        else .error "expected value at line 1 column 1"
      isTokens_of_ok := by
        intro text r h
        split at h
        · next heq => exact heq ▸ by decide
        · split at h
          · next heq => exact heq ▸ by decide
          · cases h }
  valueError := fun _ => ""

noncomputable def anyOrder (registry : ToolRegistry) : HashMap.Values registry.entries :=
  ⟨(registry.entries.entries.map Sigma.snd).toList, Multiset.coe_toList _⟩

noncomputable def forecastList : Exchange :=
  ⟨anyOrder, fun _ _ => .ok ⟨[], false⟩, none, fun _ => ⟨200, .ok forecastListedText⟩⟩

noncomputable def forecastCall : Exchange :=
  ⟨anyOrder, fun _ _ => .ok ⟨[.text "sunny"], false⟩, none,
    fun _ => ⟨200, .ok forecastCalledText⟩⟩

def forecastCaller : Caller := ⟨["agent"], .readOnly⟩

def forecastRegistry : ToolRegistry := ToolRegistry.new.upsert "weather" forecast.tool .readOnly []

def forecastWorld : World := ⟨{ forecastServer with registry := forecastRegistry }, .new⟩

/-- The one tool of the registry is visible to the agent. -/
private theorem visibleTools_forecast (maxTier : ToolTier) :
    forecastRegistry.visibleTools (anyOrder forecastRegistry) maxTier ["agent"] = [forecast] := by
  have hentries : forecastRegistry.entries.entries.map Sigma.snd = {forecast} := rfl
  have hvalues := Multiset.coe_eq_singleton.mp
    ((anyOrder forecastRegistry).property.trans hentries)
  rw [ToolRegistry.visibleTools, hvalues]
  cases maxTier <;> rfl

/-- The text of the list is read back. -/
private theorem fromStr_forecastListedText :
    forecastSerde.parser.fromStr forecastListedText = .ok forecastListed := by
  simp [forecastSerde]

/-- The text of the result is read back. -/
private theorem fromStr_forecastCalledText :
    forecastSerde.parser.fromStr forecastCalledText = .ok forecastCalled := by
  have hne : forecastCalledText ≠ forecastListedText := by decide
  simp [forecastSerde, hne]

/-- The agent may call the tool. -/
private theorem callable_forecast :
    callable forecastRegistry forecastCaller forecastCall "forecast" = some forecast := by
  have hvisible := congrArg (List.find? fun e => e.tool.name = "forecast")
    (visibleTools_forecast .full)
  exact hvisible.trans (by simp [forecast])

/-- The list is delivered. -/
private theorem delivers_forecastList :
    forecastList.Delivers forecastSerde
      (forecastList.response forecastWorld.server forecastCaller (listRequest (.num "1"))) := by
  have hresponse : forecastList.response forecastWorld.server forecastCaller
      (listRequest (.num "1")) = forecastListed := by
    rw [response_list, McpServer.handleToolsList]
    exact congrArg (fun tools : List RegistryEntry => okResponse (.num "1")
      (.obj [("tools", .arr (tools.map (·.tool.toValue)))])) (visibleTools_forecast .readOnly)
  refine fun _ => ⟨forecastListedText, rfl, rfl, fun r' hread => ?_⟩
  rw [hresponse, forecastListed, RpcResponse.fromValue_toValue_okResponse _ (by simp)] at hread
  cases hread
  exact fromStr_forecastListedText

/-- The result is delivered. -/
private theorem delivers_forecastCall :
    forecastCall.Delivers forecastSerde (forecastCall.response forecastWorld.server forecastCaller
      (callRequest (.num "2") ⟨"forecast", .obj []⟩)) := by
  have hresponse : forecastCall.response forecastWorld.server forecastCaller
      (callRequest (.num "2") ⟨"forecast", .obj []⟩) = forecastCalled := by
    rw [response_call]
    -- the tool is the one visible
    have htarget : McpServer.target forecastWorld.server
        (forecastCall.order forecastWorld.server.registry) forecastCaller.roles "forecast" =
        some forecast := callable_forecast
    simp only [htarget]
    rfl
  refine fun _ => ⟨forecastCalledText, rfl, rfl, fun r' hread => ?_⟩
  rw [hresponse, forecastCalled,
    RpcResponse.fromValue_toValue_okResponse _ (by simp [ToolResult.toValue])] at hread
  cases hread
  exact fromStr_forecastCalledText

/-- After the refresh the client holds the tool. -/
private theorem step_forecastList :
    step forecastSerde forecastCaller forecastWorld (.refreshTools forecastList) =
      ({ forecastWorld with
          client := { HttpMcpClient.new.nextId.2 with
            tools := exposed forecastRegistry forecastCaller forecastList } },
        some (.unit (.ok ()))) := by
  rw [step, refreshTools_eq forecastWorld.client delivers_forecastList]
  rfl

/-- Both exchanges of the session are delivered. -/
private theorem delivered_forecast :
    RunDelivered forecastSerde forecastCaller forecastWorld
      [.refreshTools forecastList, .callTool ⟨"forecast", .obj []⟩ forecastCall] := by
  refine ⟨delivers_forecastList, ?_, trivial⟩
  rw [step_forecastList]
  exact delivers_forecastCall

/-- The client lists the tools and calls the one there is. -/
theorem view_run_forecast :
    (run forecastSerde forecastCaller forecastWorld
      [.refreshTools forecastList, .callTool ⟨"forecast", .obj []⟩ forecastCall]).2 =
      [.unit (.ok ()), .called (.ok ⟨[.text "sunny"], false⟩)] := by
  have h := view_run forecastWorld _ delivered_forecast
  -- the server that has the tool answers the call
  have hanswer : answer forecastRegistry forecastCaller forecastCall ⟨"forecast", .obj []⟩ =
      .ok ⟨[.text "sunny"], false⟩ := by
    simp only [answer, callable_forecast]
    rfl
  have houtcomes := congrArg Prod.snd h
  dsimp only at houtcomes
  rw [houtcomes]
  change [Outcome.unit (.ok ()), .called (answer forecastRegistry _ _ _)] = _
  rw [hanswer]

/-! ## Tools that the client was shown -/

/-- After a step the tools are those of before, or those that the registry then exposes. -/
theorem View.tools_step (caller : Caller) (version : String) (v : View) (action : Action) :
    (v.step version caller action).1.tools = v.tools ∨
      ∃ x, (v.step version caller action).1.tools =
        exposed (v.step version caller action).1.registry caller x := by
  -- only a list that arrives changes the tools
  cases action with
  | registry op => exact .inl rfl
  | connect handshake ops list =>
    cases hlost : handshake.lost with
    | some text =>
      left
      simp only [View.step, hlost, View.operate]
    | none =>
      simp only [View.step, hlost, View.list, View.exchange]
      cases list.lost with
      | some text => exact .inl rfl
      | none => exact .inr ⟨list, rfl⟩
  | refreshTools list =>
    simp only [View.step, View.list, View.exchange]
    cases list.lost with
    | some text => exact .inl rfl
    | none => exact .inr ⟨list, rfl⟩
  | callTool call x =>
    left
    simp only [View.step, View.exchange]
    cases x.lost <;> rfl

/-- A tool that is known at the end was known at the start or exposed on the way. -/
theorem View.mem_tools_run (version : String) (v : View) (actions : List Action) {t : Tool}
    (ht : t ∈ (v.run version caller actions).1.tools) :
    t ∈ v.tools ∨ ∃ pre post x, actions = pre ++ post ∧
      t ∈ exposed (v.run version caller pre).1.registry caller x := by
  induction actions generalizing v with
  | nil => exact .inl ht
  | cons action actions ih =>
    rcases ih (v.step version caller action).1 ht with hstep | ⟨pre, post, x, rfl, hexposed⟩
    · rcases v.tools_step caller version action with heq | ⟨x, heq⟩
      · exact .inl (heq ▸ hstep)
      · exact .inr ⟨[action], actions, x, rfl, heq ▸ hstep⟩
    · exact .inr ⟨action :: pre, post, x, rfl, hexposed⟩

/-- What is delivered in a run is so in its beginning. -/
theorem RunDelivered.left {w : World} {pre post : List Action}
    (h : RunDelivered serde caller w (pre ++ post)) : RunDelivered serde caller w pre := by
  induction pre generalizing w with
  | nil => trivial
  | cons action pre ih => exact ⟨h.1, ih h.2⟩

/-- A tool that is still registered for the roles of the caller can be called by its name. -/
private theorem callable_of_registered {registry : ToolRegistry} {e : RegistryEntry}
    (hlookup : registry.entries.lookup (toolKey e.serverName e.tool.name) = some e)
    (hallowed : isAllowed e.allowedRoles caller.roles = true) :
    ∃ e', callable registry caller x e.tool.name = some e' := by
  rw [← Option.isSome_iff_exists, callable, List.find?_isSome]
  exact ⟨e, ToolRegistry.mem_visibleTools.mpr
    ⟨hlookup, ToolRegistry.tierLevel_le_full _, hallowed⟩, by simp⟩

/-- Every tool that a client knows was exposed to it by the registry at some point of the run.
    As long as the registry keeps that entry, a call of the tool is answered by the server of a
    tool of that name, whatever else was registered or removed since. -/
theorem answered_of_known {w : World} (hnew : w.client.tools = []) (actions : List Action)
    (hrun : RunDelivered serde caller w actions) (t : Tool)
    (ht : t ∈ (run serde caller w actions).1.client.tools) :
    ∃ e pre post, e.tool = t ∧ actions = pre ++ post ∧
      ((run serde caller w pre).1.server.registry.entries.lookup
          (toolKey e.serverName e.tool.name) = some e ∧
        tierLevel e.tier ≤ tierLevel caller.maxTier ∧
        isAllowed e.allowedRoles caller.roles = true) ∧
      ∀ (call : ToolCall) (x : Exchange), call.name = t.name → x.lost = none →
        (run serde caller w actions).1.server.registry.entries.lookup
          (toolKey e.serverName e.tool.name) = some e →
        Delivered serde caller (run serde caller w actions).1 (.callTool call x) →
        ∃ e' : RegistryEntry, e'.tool.name = t.name ∧
          isAllowed e'.allowedRoles caller.roles = true ∧
          (step serde caller (run serde caller w actions).1 (.callTool call x)).2 =
            some (.called (.ok (ofDispatch (x.dispatcher e'.serverName call)))) := by
  have hview := (simulates_run w actions hrun).1
  rw [show (run serde caller w actions).1.client.tools = (w.view.run _ caller actions).1.tools
    from congrArg (·.1.tools) hview] at ht
  rcases View.mem_tools_run _ _ _ ht with hstart | ⟨pre, post, x, rfl, hexposed⟩
  · rw [show w.view.tools = [] from hnew] at hstart
    cases hstart
  have hpre := congrArg (·.1.registry) (simulates_run w pre hrun.left).1
  obtain ⟨e, he, rfl⟩ := List.mem_map.mp hexposed
  obtain ⟨hlookup, htier, hallowed⟩ := ToolRegistry.mem_visibleTools.mp he
  refine ⟨e, pre, post, rfl, rfl, ⟨?_, htier, hallowed⟩, ?_⟩
  · rw [← hlookup]
    exact congrArg (fun r : ToolRegistry => r.entries.lookup _) hpre
  · intro call x hname hlost hstill hdelivered
    -- the entry itself may be called, so the search for its name finds one
    obtain ⟨e', hcallable⟩ := callable_of_registered (x := x) hstill hallowed
    have hfound := McpServer.target_eq_some (show McpServer.target _ _ caller.roles e.tool.name =
      some e' from hcallable)
    refine ⟨e', hfound.1, (ToolRegistry.mem_visibleTools.mp hfound.2).2.2, ?_⟩
    rw [(Prod.ext_iff.mp (view_step _ hdelivered).1).2]
    simp only [View.step, View.exchange, hlost, answer, hname, World.view, hcallable]

/-- The tool that the client was shown is called. -/
theorem answered_of_known_forecast :
    ∃ serverName, (step forecastSerde forecastCaller
      (run forecastSerde forecastCaller forecastWorld [.refreshTools forecastList]).1
      (.callTool ⟨"forecast", .obj []⟩ forecastCall)).2 =
        some (.called (.ok (ofDispatch
          (forecastCall.dispatcher serverName ⟨"forecast", .obj []⟩)))) := by
  have hworld : (run forecastSerde forecastCaller forecastWorld [.refreshTools forecastList]).1 =
      { forecastWorld with
        client := { HttpMcpClient.new.nextId.2 with
          tools := exposed forecastRegistry forecastCaller forecastList } } := by
    rw [run, step_forecastList]
    rfl
  have hvisible : forecast ∈
      forecastRegistry.visibleTools (anyOrder forecastRegistry) .readOnly ["agent"] := by
    rw [visibleTools_forecast]
    exact List.mem_singleton_self _
  have hknown : forecast.tool ∈ (run forecastSerde forecastCaller forecastWorld
      [.refreshTools forecastList]).1.client.tools := by
    rw [hworld]
    exact List.mem_map_of_mem hvisible
  obtain ⟨e, pre, post, htool, hsplit, ⟨hregistered, -⟩, hcall⟩ :=
    answered_of_known (w := forecastWorld) rfl [.refreshTools forecastList]
      ⟨delivers_forecastList, trivial⟩ forecast.tool hknown
  have hstill : forecastRegistry.entries.lookup (toolKey e.serverName e.tool.name) = some e := by
    -- the registry is the same before the listing and after it
    rcases List.append_eq_cons_iff.mp hsplit.symm with ⟨rfl, -⟩ | ⟨rest, rfl, hrest⟩
    · exact hregistered
    · obtain ⟨rfl, -⟩ := List.append_eq_nil_iff.mp hrest.symm
      rwa [hworld] at hregistered
  obtain ⟨e', -, -, houtcome⟩ := hcall ⟨"forecast", .obj []⟩ forecastCall rfl rfl
    (by rw [hworld]; exact hstill) (by rw [hworld]; exact delivers_forecastCall)
  exact ⟨e'.serverName, houtcome⟩

end McpSession

end Barqium.Native
