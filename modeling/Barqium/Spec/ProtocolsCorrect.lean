import Barqium.Native.Protocols
import Barqium.Spec.WasmPluginCorrect

/-!
# Detection and handlers on one content type

`detect_protocol` compares the media type in lower case. The handlers compare it
as it is spelled, and `is_grpc` looks at the raw header value. They agree on a
request whose media type is spelled in lower case.

## Key results

- `handlersAgree_iff`: the spellings for which detection and handlers agree
-/

namespace Barqium.Native

variable (http : Http) (contentType path : String) (upgrade soapAction : Option String)

/-- A header map of the request carries the content type. -/
def Carries {http : Http} (headers : HeaderMap http) (contentType : String) : Prop :=
  headers.getStr "content-type" = some contentType

/-- The handler of the detected protocol takes the request: SOAP metadata is found
    whatever the body, GraphQL goes on to the body, and the forwarder sees gRPC. -/
def HandlersAgree : Prop :=
  (detectProtocol contentType path upgrade soapAction = .soap →
    ∀ body, (Soap.parseSoapAction contentType soapAction body).isSome) ∧
  (detectProtocol contentType path upgrade soapAction = .graphQl →
    ∀ fromSlice body, GraphQl.detect fromSlice contentType body =
      GraphQl.inspect fromSlice body) ∧
  (detectProtocol contentType path upgrade soapAction = .grpc →
    ∀ headers : HeaderMap http, Carries headers contentType → isGrpc headers = true)

/-- The `Upgrade` header asks for a WebSocket. -/
def asksWebSocket : Bool := (upgrade.map fun u => contains (asciiLower u) "websocket").getD false

/-- The spellings on which detection and handlers agree. A gRPC content type starts
    with the literal `application/grpc`, unless no header value has that text. If
    the request is not taken as a WebSocket or an event stream by its other parts,
    a SOAP 1.2 media type is in lower case or comes with a `SOAPAction`, and a
    GraphQL media type is in lower case. -/
def WellSpelled : Prop :=
  let media := mediaType contentType
  if startsWith (asciiLower media) "application/grpc" then
    (∃ headers : HeaderMap http, Carries headers contentType) →
      startsWith contentType "application/grpc" = true
  else
    asksWebSocket upgrade = true ∨ endsWith path "/events" = true ∨ endsWith path "/sse" = true ∨
      (asciiLower media = "application/soap+xml" →
        media = "application/soap+xml" ∨ soapAction.isSome) ∧
      (asciiLower media = "application/graphql+json" → media = "application/graphql+json")

/-! ## What each handler looks at -/

variable {http contentType path upgrade soapAction}

/-- The gRPC handler compares the content type as it is spelled. -/
private theorem isGrpc_of_carries {headers : HeaderMap http} (h : Carries headers contentType) :
    isGrpc headers = startsWith contentType "application/grpc" := by
  unfold isGrpc
  rw [show headers.getStr "content-type" = some contentType from h]
  rfl

/-- The SOAP handler takes two media types, and every request with an action. -/
theorem parseSoapAction_isSome_iff {body : ByteArray} :
    (Soap.parseSoapAction contentType soapAction body).isSome ↔
      mediaType contentType = "application/soap+xml" ∨ mediaType contentType = "text/xml" ∨
        soapAction.isSome := by
  simp only [Soap.parseSoapAction, Soap.detectVersion]
  by_cases h₁ : mediaType contentType = "application/soap+xml"
  · simp [h₁]
  · by_cases h₂ : mediaType contentType = "text/xml" ∨ soapAction.isSome = true
    · simp [h₁, h₂]
    · simp [h₁, h₂]

/-- A body that GraphQL accepts shows whether the content type was accepted. -/
theorem detect_eq_inspect_iff :
    (∀ fromSlice body, GraphQl.detect fromSlice contentType body =
      GraphQl.inspect fromSlice body) ↔
      mediaType contentType = "application/graphql+json" ∨
        mediaType contentType = "application/json" := by
  simp only [GraphQl.detect]
  constructor
  · intro h
    -- a body with a query tells them apart
    have hq := h (fun _ => some ⟨some "query", none, none⟩) []
    by_contra hne
    rw [not_or] at hne
    rw [if_pos hne] at hq
    exact absurd hq (by decide)
  · intro h fromSlice body
    rw [if_neg fun hne => h.elim hne.1 hne.2]

/-! ## The detection order -/

/-- The media types of gRPC are detected first. -/
private theorem detectProtocol_grpc (h : startsWith (asciiLower (mediaType contentType))
    "application/grpc" = true) :
    detectProtocol contentType path upgrade soapAction = .grpc := by
  simp only [detectProtocol, h, if_true]

/-- The parts of the request other than its content type do not decide its
    protocol. -/
def Undecided (path : String) (upgrade : Option String) : Prop :=
  asksWebSocket upgrade = false ∧ endsWith path "/events" = false ∧ endsWith path "/sse" = false

/-- Beyond gRPC, a request is SOAP or GraphQL by its media type, unless it is taken
    as a WebSocket or an event stream. -/
private theorem detectProtocol_eq (h : startsWith (asciiLower (mediaType contentType))
    "application/grpc" = false) :
    (detectProtocol contentType path upgrade soapAction = .soap ↔ Undecided path upgrade ∧
      (asciiLower (mediaType contentType) = "application/soap+xml" ∨
        asciiLower (mediaType contentType) = "text/xml" ∧ soapAction.isSome)) ∧
    (detectProtocol contentType path upgrade soapAction = .graphQl ↔ Undecided path upgrade ∧
      asciiLower (mediaType contentType) = "application/graphql+json") ∧
    detectProtocol contentType path upgrade soapAction ≠ .grpc := by
  unfold detectProtocol Undecided asksWebSocket
  generalize (upgrade.map fun u => contains (asciiLower u) "websocket").getD false = ws
  generalize endsWith path "/events" = events
  generalize endsWith path "/sse" = sse
  generalize asciiLower (mediaType contentType) = media at h ⊢
  simp only [h, Bool.false_eq_true, if_false]
  cases ws with
  | true => simp
  | false =>
    cases events with
    | true => simp
    | false =>
      cases sse with
      | true => simp
      | false =>
        -- the media types are distinct, so at most one comparison succeeds
        by_cases h₁ : media = "text/event-stream"
        · simp [h₁]
        · by_cases h₂ : media = "application/soap+xml"
          · simp [h₂]
          · by_cases h₃ : media = "text/xml" ∧ soapAction.isSome = true
            · simp [h₃]
            · by_cases h₄ : media = "application/graphql+json"
              · simp [h₄]
              · simp [h₁, h₂, h₃, h₄]

/-! ## Agreement -/

/-- For these the handler agrees if the type is spelled in lower case. -/
theorem handlersAgree_grpc_iff (h : startsWith (asciiLower (mediaType contentType))
    "application/grpc" = true) :
    HandlersAgree http contentType path upgrade soapAction ↔
      ((∃ headers : HeaderMap http, Carries headers contentType) →
        startsWith contentType "application/grpc" = true) := by
  unfold HandlersAgree
  simp only [detectProtocol_grpc h, reduceCtorEq, false_imp_iff, true_and, true_imp_iff]
  constructor
  · rintro hall ⟨headers, hcarries⟩
    rw [← isGrpc_of_carries hcarries]
    exact hall headers hcarries
  · intro himp headers hcarries
    rw [isGrpc_of_carries hcarries]
    exact himp ⟨headers, hcarries⟩

/-- A SOAP 1.2 media type in another spelling is not one of SOAP 1.1. -/
theorem soap_accepted_iff (h : asciiLower (mediaType contentType) = "application/soap+xml") :
    (∀ body, (Soap.parseSoapAction contentType soapAction body).isSome) ↔
      mediaType contentType = "application/soap+xml" ∨ soapAction.isSome := by
  have hne : mediaType contentType ≠ "text/xml" := by
    intro htext
    rw [htext] at h
    exact absurd h (by decide)
  simp only [parseSoapAction_isSome_iff, hne, false_or]
  exact ⟨fun hall => hall ByteArray.empty, fun hor _ => hor⟩

/-- The GraphQL handler takes its media type in lower case only. -/
theorem graphql_accepted_iff
    (h : asciiLower (mediaType contentType) = "application/graphql+json") :
    (∀ fromSlice body, GraphQl.detect fromSlice contentType body =
      GraphQl.inspect fromSlice body) ↔
      mediaType contentType = "application/graphql+json" := by
  have hne : mediaType contentType ≠ "application/json" := by
    intro hjson
    rw [hjson] at h
    exact absurd h (by decide)
  rw [detect_eq_inspect_iff]
  exact ⟨fun hor => hor.resolve_right hne, Or.inl⟩

/-- For all other types the handlers agree if theirs are spelled in lower case. -/
theorem handlersAgree_other_iff (h : startsWith (asciiLower (mediaType contentType))
    "application/grpc" = false) :
    HandlersAgree http contentType path upgrade soapAction ↔ (Undecided path upgrade →
      (asciiLower (mediaType contentType) = "application/soap+xml" →
        mediaType contentType = "application/soap+xml" ∨ soapAction.isSome) ∧
      (asciiLower (mediaType contentType) = "application/graphql+json" →
        mediaType contentType = "application/graphql+json")) := by
  -- what the detection says of the three protocols
  obtain ⟨hsoap, hgraphql, hgrpc⟩ := @detectProtocol_eq contentType path upgrade soapAction h
  unfold HandlersAgree
  rw [hsoap, hgraphql]
  constructor
  · rintro ⟨h₁, h₂, -⟩ hopen
    refine ⟨fun hm => ?_, fun hm => ?_⟩
    · exact (soap_accepted_iff hm).mp (h₁ ⟨hopen, .inl hm⟩)
    · exact (graphql_accepted_iff hm).mp (h₂ ⟨hopen, hm⟩)
  · intro himp
    refine ⟨?_, ?_, fun hdet => absurd hdet hgrpc⟩
    · rintro ⟨hopen, hm | ⟨-, haction⟩⟩
      · exact (soap_accepted_iff hm).mpr ((himp hopen).1 hm)
      · intro body
        exact parseSoapAction_isSome_iff.mpr (.inr (.inr haction))
    · rintro ⟨hopen, hm⟩
      exact (graphql_accepted_iff hm).mpr ((himp hopen).2 hm)

/-- Detection and handlers agree on a request exactly when its content type is
    spelled as the handlers compare it. -/
theorem handlersAgree_iff (http : Http) (contentType path : String)
    (upgrade soapAction : Option String) :
    HandlersAgree http contentType path upgrade soapAction ↔
      WellSpelled http contentType path upgrade soapAction := by
  unfold WellSpelled
  cases hg : startsWith (asciiLower (mediaType contentType)) "application/grpc" with
  | true =>
    -- gRPC is tested first
    rw [handlersAgree_grpc_iff hg]
    simp only [hg, if_true]
  | false =>
    rw [handlersAgree_other_iff hg]
    simp only [hg, Bool.false_eq_true, if_false, Undecided]
    cases asksWebSocket upgrade <;> cases endsWith path "/events" <;>
      cases endsWith path "/sse" <;> simp

/-- Media types in mixed case: detected as SOAP, GraphQL and gRPC, and refused by
    the handler of each. -/
theorem mixed_case_not_handled :
    (detectProtocol "Application/SOAP+XML; charset=utf-8" "/svc" none none = .soap ∧
      Soap.parseSoapAction "Application/SOAP+XML; charset=utf-8" none ByteArray.empty = none) ∧
    (detectProtocol "application/GraphQL+json" "/graphql" none none = .graphQl ∧
      ∀ fromSlice body, GraphQl.detect fromSlice "application/GraphQL+json" body = none) ∧
    ∃ headers : HeaderMap WasmPlugin.asciiHttp, Carries headers "Application/grpc" ∧
      detectProtocol "Application/grpc" "/svc/Method" none none = .grpc ∧
      isGrpc headers = false := by
  refine ⟨⟨by decide, by decide⟩, ⟨by decide, fun fromSlice body => ?_⟩, ?_⟩
  · unfold GraphQl.detect
    rw [if_pos (by decide)]
  · -- a header map with this content type
    have hname : (WasmPlugin.asciiHttp.nameFromBytes "content-type").isSome := by decide
    obtain ⟨name, hname⟩ := Option.isSome_iff_exists.mp hname
    have hcarries : Carries
        (HeaderMap.insert ∅ name (.inl ⟨"Application/grpc", by decide⟩) :
          HeaderMap WasmPlugin.asciiHttp) "Application/grpc" := by
      simp [Carries, HeaderMap.getStr, hname, HeaderMap.getAll, HeaderMap.insert,
        Finmap.lookup_insert]
      rfl
    refine ⟨_, hcarries, by decide, ?_⟩
    rw [isGrpc_of_carries hcarries]
    decide

end Barqium.Native
