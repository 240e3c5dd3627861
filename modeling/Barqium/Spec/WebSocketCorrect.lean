import Barqium.ForStd.Except
import Barqium.Native.WebSocket
import Barqium.Spec.HopByHopCorrect

/-!
# WebSocket upgrades

An upgrade is offered by the tokens of all `Upgrade` and `Connection` lines of a request. The
proxy looks at the first line of each, and looks for the letters of the option in it. Of the
response to the handshake it passes on the status alone.

## Key results

- `isWebsocketUpgrade_exact_iff`: when the detection is exact.
- `passesHandshake_iff`: when the answer to the handshake reaches the client
-/

namespace Barqium.Native

variable {http : Http}

/-! ## Detection -/

/-- The bytes of the first line of a header. -/
def HeaderMap.firstLine (bytes : HeaderBytes http) (headers : HeaderMap http) (name : String) :
    Option (List Char) :=
  (headers.values name).head?.map bytes.asBytes

def websocketToken : List Char := "websocket".toList

def upgradeToken : List Char := "upgrade".toList

/-- The tokens of all lines ask for an upgrade to the WebSocket protocol. -/
def OffersWebsocket (bytes : HeaderBytes http) (headers : HeaderMap http) : Prop :=
  websocketToken ∈ headers.tokens bytes "upgrade" ∧
    upgradeToken ∈ headers.tokens bytes "connection"

/-- The first `Upgrade` line is the protocol and nothing else. -/
def ProtocolLine (bytes : HeaderBytes http) (headers : HeaderMap http) : Prop :=
  ∃ line ∈ headers.firstLine bytes "upgrade", line.map Char.toLower = websocketToken

/-- The first `Connection` line is text with the letters of the option in it. -/
def OptionLine (bytes : HeaderBytes http) (headers : HeaderMap http) : Prop :=
  ∃ line ∈ headers.firstLine bytes "connection",
    line.all isVisibleAscii = true ∧ upgradeToken <:+: line.map Char.toLower

/-- What is offered stands in the lines that are looked at, and nothing else looks like it. -/
structure OfferedFirst (bytes : HeaderBytes http) (headers : HeaderMap http) : Prop where
  protocol : OffersWebsocket bytes headers → ProtocolLine bytes headers
  option : ProtocolLine bytes headers →
    (OptionLine bytes headers ↔ upgradeToken ∈ headers.tokens bytes "connection")

/-- `get` with `to_str` is the first line, if it is visible ASCII. -/
theorem HeaderMap.getStr_eq_firstLine (bytes : HeaderBytes http) (headers : HeaderMap http)
    (name : String) :
    headers.getStr name = (headers.firstLine bytes name).bind fun line =>
      if line.all isVisibleAscii then some (String.ofList line) else none := by
  unfold getStr firstLine values
  cases http.nameFromBytes name with
  | none => rfl
  | some n =>
    rw [Option.bind_some, Option.map_some, Option.getD_some]
    -- only the first line of a name is looked at
    cases headers.getAll n with
    | nil => rfl
    | cons value _ =>
      rw [List.head?_cons, Option.bind_some, Option.map_some, Option.bind_some]
      exact bytes.toStr_eq value

/-- Lower case keeps what is visible. -/
private theorem isVisibleAscii_of_toLower {c : Char} (h : isVisibleAscii c.toLower = true) :
    isVisibleAscii c = true := by
  by_cases hupper : c.val ≥ 'A'.val ∧ c.val ≤ 'Z'.val
  · -- a capital letter
    obtain ⟨hlow, hhigh⟩ := hupper
    have hspace : ' ' ≤ c := Char.le_trans (by decide : ' ' ≤ 'A') hlow
    have hdel : c < '\x7f' := UInt32.lt_of_le_of_lt hhigh (by decide)
    simp [isVisibleAscii, hspace, hdel]
  · have hsame : c.toLower = c := dif_neg hupper
    rw [hsame] at h
    exact h

section WebsocketLine

variable {line : List Char} (hline : line.map Char.toLower = websocketToken)

include hline

/-- The token `websocket` is visible ASCII in any case. -/
private theorem isVisibleAscii_of_websocket : line.all isVisibleAscii = true := by
  rw [List.all_eq_true]
  intro c hc
  refine isVisibleAscii_of_toLower ?_
  have hmem : c.toLower ∈ websocketToken := hline ▸ List.mem_map_of_mem hc
  exact List.forall_iff_forall_mem.mp
    (by decide : websocketToken.Forall fun c => isVisibleAscii c = true) _ hmem

/-- A character outside the token is in no spelling of it. -/
private theorem notMem_of_websocket {c : Char} (hc : c.toLower ∉ websocketToken) : c ∉ line :=
  fun hmem => hc (hline ▸ List.mem_map_of_mem hmem)

/-- The line is a list of one element. -/
private theorem elements_of_websocket : FieldList.elements line = [line] := by
  refine FieldList.elements_of_plain ?_ (notMem_of_websocket hline (by decide)) fun c hc => ?_
  · rintro rfl
    exact absurd hline (by decide)
  · have hspace : c ≠ ' ' := fun h => notMem_of_websocket hline (c := ' ') (by decide) (h ▸ hc)
    have htab : c ≠ '\t' := fun h => notMem_of_websocket hline (c := '\t') (by decide) (h ▸ hc)
    simp [FieldList.isSpace, hspace, htab]

end WebsocketLine

/-- What a first line lists is listed. -/
theorem HeaderMap.mem_tokens_of_firstLine {bytes : HeaderBytes http} {headers : HeaderMap http}
    {name : String} {line token : List Char} (hline : line ∈ headers.firstLine bytes name)
    (htoken : token ∈ (FieldList.elements line).map (List.map Char.toLower)) :
    token ∈ headers.tokens bytes name := by
  obtain ⟨value, hvalue, rfl⟩ := Option.map_eq_some_iff.mp hline
  exact List.mem_flatMap.mpr ⟨value, List.mem_of_mem_head? hvalue, htoken⟩

/-- A protocol line names the token. -/
private theorem mem_tokens_of_protocolLine {bytes : HeaderBytes http} {headers : HeaderMap http}
    (h : ProtocolLine bytes headers) : websocketToken ∈ headers.tokens bytes "upgrade" := by
  obtain ⟨line, hline, hlower⟩ := h
  refine HeaderMap.mem_tokens_of_firstLine hline ?_
  rw [elements_of_websocket hlower, List.map_singleton, hlower]
  exact List.mem_singleton_self _

/-- The comparison without case, on a line. -/
private theorem eqIgnoreAsciiCase_websocket (line : List Char) :
    eqIgnoreAsciiCase (String.ofList line) "websocket" =
      decide (line.map Char.toLower = websocketToken) := by
  have hlower : "websocket".toList.map Char.toLower = websocketToken := by decide
  rw [eqIgnoreAsciiCase, String.toList_ofList, hlower]

/-- What the detection does, line by line. -/
theorem isWebsocketUpgrade_iff (bytes : HeaderBytes http) (headers : HeaderMap http) :
    isWebsocketUpgrade headers = true ↔
      ProtocolLine bytes headers ∧ OptionLine bytes headers := by
  -- the `Upgrade` line is compared as a whole
  have hprotocol : ((headers.getStr "upgrade").map fun v =>
      eqIgnoreAsciiCase v "websocket").getD false = true ↔ ProtocolLine bytes headers := by
    rw [headers.getStr_eq_firstLine bytes, ProtocolLine]
    cases headers.firstLine bytes "upgrade" with
    | none => simp
    | some line =>
      rw [Option.bind_some]
      split
      case isTrue hvisible => simp [eqIgnoreAsciiCase_websocket]
      case isFalse hvisible =>
        have hline : line.map Char.toLower ≠ websocketToken := fun h =>
          hvisible (isVisibleAscii_of_websocket h)
        simp [hline]
  -- in the `Connection` line the letters are searched
  have hoption : ((headers.getStr "connection").map fun v =>
      decide ("upgrade".toList <:+: (asciiLower v).toList)).getD false = true ↔
        OptionLine bytes headers := by
    rw [headers.getStr_eq_firstLine bytes, OptionLine]
    cases headers.firstLine bytes "connection" with
    | none => simp
    | some line =>
      rw [Option.bind_some]
      split
      case isTrue hvisible =>
        have hlower : (asciiLower (String.ofList line)).toList = line.map Char.toLower := by
          rw [asciiLower, String.toList_ofList, String.toList_ofList]
        rw [Option.map_some, Option.getD_some, hlower, decide_eq_true_iff]
        exact ⟨fun h => ⟨line, rfl, hvisible, h⟩, fun ⟨_, hline, _, h⟩ => Option.some.inj hline ▸ h⟩
      case isFalse hvisible => simpa using fun h => absurd (List.all_eq_true.mpr h) hvisible
  rw [isWebsocketUpgrade, Bool.and_eq_true, hprotocol, hoption]

/-- The detection is exact if and only if what a request offers stands in the lines that are
    looked at. -/
theorem isWebsocketUpgrade_exact_iff (bytes : HeaderBytes http) (headers : HeaderMap http) :
    (isWebsocketUpgrade headers = true ↔ OffersWebsocket bytes headers) ↔
      OfferedFirst bytes headers := by
  rw [isWebsocketUpgrade_iff bytes]
  constructor
  · intro h
    refine ⟨fun hoffers => (h.mpr hoffers).1, fun hprotocol => ?_⟩
    -- the protocol line names the token
    have hlisted := mem_tokens_of_protocolLine hprotocol
    exact ⟨fun hoption => (h.mp ⟨hprotocol, hoption⟩).2,
      fun htoken => (h.mpr ⟨hlisted, htoken⟩).2⟩
  · rintro ⟨hfirst, hoption⟩
    constructor
    · rintro ⟨hprotocol, hletters⟩
      exact ⟨mem_tokens_of_protocolLine hprotocol, (hoption hprotocol).mp hletters⟩
    · intro hoffers
      have hprotocol := hfirst hoffers
      exact ⟨hprotocol, (hoption hprotocol).mpr hoffers.2⟩

def upgradeName : byteHttp.HeaderName := byteHttpName "Upgrade" (by decide)

/-- A request with two `Connection` lines. -/
def twoLineHeaders : HeaderMap byteHttp :=
  Finmap.insert connectionName ⟨["keep-alive".toList, "Upgrade".toList], List.cons_ne_nil _ _⟩
    ((∅ : HeaderMap byteHttp).insert upgradeName "websocket".toList)

/-- Its upgrade is not detected. -/
theorem second_connection_line_ignored :
    ¬ ∀ (http : Http) (bytes : HeaderBytes http) (headers : HeaderMap http),
      isWebsocketUpgrade headers = true ↔ OffersWebsocket bytes headers := by
  intro h
  have hoffers : OffersWebsocket byteHttpBytes twoLineHeaders := by
    unfold OffersWebsocket
    decide +kernel
  obtain ⟨-, line, hline, -, hletters⟩ :=
    (isWebsocketUpgrade_iff byteHttpBytes _).mp ((h byteHttp _ _).mpr hoffers)
  -- the first line has no `upgrade`
  have hfirst : twoLineHeaders.firstLine byteHttpBytes "connection" =
      some "keep-alive".toList := by decide +kernel
  rw [hfirst] at hline
  cases hline
  revert hletters
  decide

example : isWebsocketUpgrade
    (((∅ : HeaderMap byteHttp).insert upgradeName "websocket".toList).insert connectionName
      "no-upgrade".toList) = true := by
  decide +kernel

/-! ## The handshake -/

/-- What the client checks a handshake by. -/
def handshakeHeaders : List String :=
  ["sec-websocket-accept", "sec-websocket-protocol", "sec-websocket-extensions"]

/-- The client gets the answer of the upstream to the handshake. -/
def PassesHandshake (upstreamResp resp : HttpResponse http) : Prop :=
  ∀ name ∈ handshakeHeaders, resp.headers.values name = upstreamResp.headers.values name

/-- An insertion leaves the other names. -/
theorem HeaderMap.getAll_insert_of_ne (headers : HeaderMap http) {name other : http.HeaderName}
    (h : name ≠ other) (value : http.HeaderValue) :
    (headers.insert other value).getAll name = headers.getAll name := by
  rw [getAll, insert, Finmap.lookup_insert_of_ne _ h]
  rfl

/-- The inserted value is the only one. -/
@[simp] theorem HeaderMap.getAll_insert_self (headers : HeaderMap http) (name : http.HeaderName)
    (value : http.HeaderValue) : (headers.insert name value).getAll name = [value] := by
  rw [getAll, insert, Finmap.lookup_insert]
  rfl

/-- The values under a name's own text. -/
theorem HeaderMap.values_asStr (headers : HeaderMap http) (name : http.HeaderName) :
    headers.values (http.asStr name) = headers.getAll name := by
  rw [values, http.nameFromBytes_asStr]
  rfl

/-- A static header leaves the other names. -/
theorem HeaderMap.values_withStatic (headers : HeaderMap http) {name other : String}
    (h : asciiLower name ≠ asciiLower other) (value : String) :
    (headers.withStatic other value).values name = headers.values name := by
  unfold values withStatic
  cases hname : http.nameFromBytes name with
  | none => rfl
  | some n =>
    split
    case h_1 m v hother _ =>
      -- names are equal exactly if their lower-case texts are
      have hne : n ≠ m := by
        rintro rfl
        exact h ((http.asStr_nameFromBytes _ _ hname).symm.trans
          (http.asStr_nameFromBytes _ _ hother))
      exact headers.getAll_insert_of_ne hne v
    case h_2 => rfl

/-- The empty map has no values. -/
theorem HeaderMap.values_empty (name : String) : (∅ : HeaderMap http).values name = [] := by
  unfold values
  cases http.nameFromBytes name <;> rfl

/-- Nothing of the handshake is in the response that is made here. -/
private theorem values_switchingProtocols {name : String} (h : name ∈ handshakeHeaders) :
    (switchingProtocols : HttpResponse http).headers.values name = [] := by
  have hother : ∀ name ∈ handshakeHeaders,
      asciiLower name ≠ asciiLower "connection" ∧ asciiLower name ≠ asciiLower "upgrade" := by
    decide
  obtain ⟨hconnection, hupgrade⟩ := hother name h
  rw [switchingProtocols, HeaderMap.values_withStatic _ hupgrade,
    HeaderMap.values_withStatic _ hconnection, HeaderMap.values_empty]

/-- Of the answer of the upstream the response depends on the status only. -/
private theorem respond_of_sendRequest {up : Upgrade http} {req : HttpRequest http}
    {upstreamResp resp : HttpResponse http} (hsend : up.sendRequest req = .ok upstreamResp)
    (h : up.respond req = .ok resp) :
    resp = if upstreamResp.status ≠ 101 then badGateway else switchingProtocols := by
  unfold Upgrade.respond at h
  obtain ⟨answer, hanswer, h⟩ := Except.bind_eq_ok_iff.mp h
  obtain rfl : answer = upstreamResp :=
    Except.ok.inj ((Except.mapError_eq_ok_iff.mp hanswer).symm.trans hsend)
  split at h
  case isTrue hstatus => rw [if_pos hstatus, Except.ok.inj h]
  case isFalse hstatus => rw [if_neg hstatus, Except.ok.inj h]

/-- A response of `proxy_websocket` is made from the answer to the upgrade request. -/
private theorem respond_of_proxyWebsocket {up : Upgrade http}
    {parseUri : String → Except String Uri}
    {request : HttpRequest http → UInt32 → Exchange (HttpResponse http)}
    {req : HttpRequest http} {upstreamUrl : String} {timeoutMs : UInt32}
    {resp : HttpResponse http}
    (h : (proxyWebsocket (up.net parseUri request) req upstreamUrl timeoutMs).result = .ok resp) :
    up.respond req = .ok resp := by
  unfold proxyWebsocket at h
  cases hparse : parseUri upstreamUrl with
  | error e => simp [Upgrade.net, hparse] at h
  | ok uri =>
    cases hhost : uri.host with
    | none => simp [Upgrade.net, hparse, hhost] at h
    | some host =>
      -- every step before the handshake has succeeded
      cases hopen : up.openConnection host (uri.port.getD 80) timeoutMs with
      | error e => simp [Upgrade.net, hparse, hhost, hopen] at h
      | ok _ => simpa [Upgrade.net, hparse, hhost, hopen] using h

/-- After a 101 of the upstream the client gets the answer to its handshake if and only if
    there is nothing in it. -/
theorem passesHandshake_iff (up : Upgrade http) (parseUri : String → Except String Uri)
    (request : HttpRequest http → UInt32 → Exchange (HttpResponse http))
    (req : HttpRequest http) (upstreamUrl : String) (timeoutMs : UInt32)
    (upstreamResp resp : HttpResponse http)
    (hsend : up.sendRequest req = .ok upstreamResp) (hstatus : upstreamResp.status = 101)
    (h : (proxyWebsocket (up.net parseUri request) req upstreamUrl timeoutMs).result = .ok resp) :
    PassesHandshake upstreamResp resp ↔
      ∀ name ∈ handshakeHeaders, upstreamResp.headers.values name = [] := by
  have hresp := respond_of_sendRequest hsend (respond_of_proxyWebsocket h)
  rw [if_neg (not_not.mpr hstatus)] at hresp
  subst hresp
  refine forall₂_congr fun name hname => ?_
  rw [values_switchingProtocols hname]
  exact eq_comm

/-- A connection to an upstream that answers with these headers. -/
def answering (headers : HeaderMap byteHttp) : Upgrade byteHttp where
  connect _ _ _ := .ok ()
  handshake := .ok ()
  sendRequest _ := .ok ⟨101, headers, []⟩

def exampleUri : Uri := ⟨some "example.com", some 8080, "/", some "/"⟩

def upgradeRequest : HttpRequest byteHttp := ⟨"GET", exampleUri, .http11, twoLineHeaders⟩

/-- The headers of an upstream that switches protocols and says nothing of a handshake. -/
def switchHeaders : HeaderMap byteHttp :=
  ((∅ : HeaderMap byteHttp).insert connectionName "Upgrade".toList).insert upgradeName
    "websocket".toList

/-- An upstream that already answers with the 101 of the gateway. -/
theorem passesHandshake_without_answer :
    PassesHandshake (⟨101, switchHeaders, []⟩ : HttpResponse byteHttp) switchingProtocols :=
  (passesHandshake_iff (answering switchHeaders) (fun _ => .ok exampleUri)
    (fun _ _ => ⟨false, .error .upstreamTimeout⟩) upgradeRequest "http://example.com:8080" 1000
    ⟨101, switchHeaders, []⟩ switchingProtocols rfl rfl rfl).mpr (by decide +kernel)

def acceptName : byteHttp.HeaderName := ⟨"sec-websocket-accept", by decide⟩

/-- The headers of an upstream that accepts the key. -/
def acceptHeaders : HeaderMap byteHttp :=
  (∅ : HeaderMap byteHttp).insert acceptName "s3pPLMBiTxaQ9kYGzzhZRbK+xOo=".toList

/-- The client does not see that its key was accepted. -/
theorem accept_header_dropped :
    ¬ ∀ (http : Http) (up : Upgrade http) (parseUri : String → Except String Uri)
      (request : HttpRequest http → UInt32 → Exchange (HttpResponse http))
      (req : HttpRequest http) (upstreamUrl : String) (timeoutMs : UInt32)
      (upstreamResp resp : HttpResponse http),
      up.sendRequest req = .ok upstreamResp → upstreamResp.status = 101 →
        (proxyWebsocket (up.net parseUri request) req upstreamUrl timeoutMs).result = .ok resp →
          PassesHandshake upstreamResp resp := by
  intro h
  have hmem : byteHttp.asStr acceptName ∈ handshakeHeaders := List.mem_cons_self
  have haccept := h byteHttp (answering acceptHeaders) (fun _ => .ok exampleUri)
    (fun _ _ => ⟨false, .error .upstreamTimeout⟩) upgradeRequest "http://example.com:8080" 1000
    ⟨101, acceptHeaders, []⟩ switchingProtocols rfl rfl rfl _ hmem
  rw [values_switchingProtocols hmem, HeaderMap.values_asStr] at haccept
  have hvalues := HeaderMap.getAll_insert_self (∅ : HeaderMap byteHttp) acceptName
    "s3pPLMBiTxaQ9kYGzzhZRbK+xOo=".toList
  exact List.cons_ne_nil _ _ (haccept.trans hvalues).symm

end Barqium.Native
