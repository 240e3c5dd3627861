import Barqium.Spec.StreamingCorrect

/-!
# The final chunk of an Anthropic stream

The last content of an Anthropic stream is a `message_delta` event, whose delta has a stop reason
and no type. The decoder of a delta requires a type, and an event that does not decode is passed
over.

## Key results

- `streamEvent_fromValue_eq_none`: such an event does not decode.
- `not_deliversFinal`: its finish reason is never delivered
-/

namespace Barqium.Native.ChatStream.Anthropic

variable {TransportError : Type} {serde : SerdeJson}

/-- The data lines of what the transport delivers at once. -/
def dataLines (bytes : List UInt8) : List (List Char) :=
  (Utf8.lines (Utf8.fromLossy bytes)).filter startsWithData

/-- One `message_delta` event with this stop reason. Its other members may be any, its usage
    among them. -/
structure MessageDelta (serde : SerdeJson) (bytes : List UInt8) (reason : String) where
  line : List Char
  members : List (String × Json)
  delta : List (String × Json)
  dataLines_eq : dataLines bytes = [line]
  parses : serde.fromStr (payload line) = .ok (.obj members)
  type_eq : members.lookup "type" = some (.str "message_delta")
  delta_eq : members.lookup "delta" = some (.obj delta)
  delta_type : delta.lookup "type" = none
  stopReason : delta.lookup "stop_reason" = some (.str reason)

/-- A stream emits the finish reason in the place of the event. -/
def DeliversFinal (serde : SerdeJson) (id : String)
    (before : List (Except TransportError (List UInt8))) (bytes : List UInt8)
    (after : List (Except TransportError (List UInt8))) (reason : String) : Prop :=
  ∃ emitted, chatStream serde id (before ++ .ok bytes :: after) =
      chatStream serde id before ++ emitted ++ chatStream serde id after ∧
    ∃ chunk, .ok chunk ∈ emitted ∧ chunk.finishReason = some (parseStopReason (some reason))

/-- A delta without a type is none of the known ones. -/
private theorem streamDelta_fromValue_eq_none {delta : List (String × Json)}
    (h : delta.lookup "type" = none) : StreamDelta.fromValue (.obj delta) = none := by
  unfold StreamDelta.fromValue Serde.structFields
  simp only [List.map_cons, List.map_nil, h]
  rfl

/-- An event does not decode unless its delta does. -/
theorem streamEvent_fromValue_eq_none {members delta : List (String × Json)}
    (hdelta : members.lookup "delta" = some (.obj delta)) (h : delta.lookup "type" = none) :
    StreamEvent.fromValue (.obj members) = none := by
  have hnone : Serde.optional StreamDelta.fromValue (members.lookup "delta") = none := by
    rw [hdelta]
    simp only [Serde.optional, streamDelta_fromValue_eq_none h, Option.map_none]
  rw [Option.eq_none_iff_forall_ne_some]
  intro ev hev
  -- the fields are decoded one after the other
  obtain ⟨eventType, -, hev⟩ := Option.bind_eq_some_iff.mp hev
  obtain ⟨index, -, hev⟩ := Option.bind_eq_some_iff.mp hev
  obtain ⟨decoded, hdecoded, -⟩ := Option.bind_eq_some_iff.mp hev
  rw [hnone] at hdecoded
  cases hdecoded

/-- The line of a message delta has no event. -/
theorem MessageDelta.event_eq_none {bytes : List UInt8} {reason : String}
    (e : MessageDelta serde bytes reason) (id : String) :
    event serde id e.line = (none : Option (Item TransportError serde)) := by
  unfold event
  rw [e.parses]
  simp only [Except.toOption, bind, Option.bind,
    streamEvent_fromValue_eq_none e.delta_eq e.delta_type]

/-- Nothing is emitted for the event. -/
theorem MessageDelta.chatStream_eq_nil {bytes : List UInt8} {reason : String}
    (e : MessageDelta serde bytes reason) (id : String) :
    chatStream serde id [.ok bytes] = ([] : List (Item TransportError serde)) := by
  have hlines : (dataLines bytes).filterMap (event serde id) =
      ([] : List (Item TransportError serde)) := by
    rw [e.dataLines_eq, List.filterMap_cons, e.event_eq_none id, List.filterMap_nil]
  rw [chatStream, decode, List.flatMap_cons, List.flatMap_nil, List.append_nil]
  exact hlines

/-- What a stream emits is cut where its chunks are. -/
private theorem chatStream_append_cons (id : String)
    (before after : List (Except TransportError (List UInt8)))
    (result : Except TransportError (List UInt8)) :
    chatStream serde id (before ++ result :: after) =
      chatStream serde id before ++ chatStream serde id [result] ++ chatStream serde id after := by
  simp only [chatStream, decode, List.flatMap_append, List.flatMap_cons, List.flatMap_nil,
    List.append_nil, List.append_assoc]

/-- In no stream the finish reason of such an event is delivered. -/
theorem not_deliversFinal (id : String) (before after : List (Except TransportError (List UInt8)))
    (bytes : List UInt8) (reason : String) (e : MessageDelta serde bytes reason) :
    ¬ DeliversFinal serde id before bytes after reason := by
  rintro ⟨emitted, hstream, chunk, hchunk, -⟩
  rw [chatStream_append_cons, e.chatStream_eq_nil id, List.append_nil] at hstream
  -- what stands before and behind the event is all there is
  have hlength := congrArg List.length hstream
  simp only [List.length_append] at hlength
  have hnil : emitted = [] := List.length_eq_zero_iff.mp (by omega)
  rw [hnil] at hchunk
  cases hchunk

/-- The event at the end of an answer. -/
def finalPayload : List Char :=
  ("\x7b\"type\":\"message_delta\",\"delta\":\x7b\"stop_reason\":\"max_tokens\"\x7d," ++
    "\"usage\":\x7b\"output_tokens\":15\x7d\x7d").toList

def finalDelta : List (String × Json) := [("stop_reason", .str "max_tokens")]

def finalMembers : List (String × Json) :=
  [("type", .str "message_delta"), ("delta", .obj finalDelta),
    ("usage", .obj [("output_tokens", .num "15")])]

/-- A parser that knows this text. -/
def finalSerde : SerdeJson where
  Error := Unit
  fromStr text := if text = finalPayload then .ok (.obj finalMembers) else .error ()
  two_le_of_fromStr_obj text members h := by
    split at h
    case isTrue htext =>
      rw [htext]
      decide
    case isFalse => cases h
  valueError _ := ()

def finalBytes : List UInt8 :=
  Decoder.asciiBytes ("event: message_delta\ndata: ".toList ++ finalPayload ++ "\n\n".toList)

def finalEvent : MessageDelta finalSerde finalBytes "max_tokens" where
  line := "data: ".toList ++ finalPayload
  members := finalMembers
  delta := finalDelta
  dataLines_eq := by decide +kernel
  parses := rfl
  type_eq := rfl
  delta_eq := rfl
  delta_type := rfl
  stopReason := rfl

/-- The last chunk of a stream that ran out of tokens does not come. -/
theorem not_deliversFinal_maxTokens :
    ¬ DeliversFinal finalSerde "id" ([] : List (Except Unit (List UInt8))) finalBytes []
      "max_tokens" :=
  not_deliversFinal "id" [] [] finalBytes "max_tokens" finalEvent

/-- The answer ends without a finish reason. -/
theorem final_chunk_lost :
    ¬ ∀ (serde : SerdeJson) (id : String) (before after : List (Except Unit (List UInt8)))
      (bytes : List UInt8) (reason : String), MessageDelta serde bytes reason →
        DeliversFinal serde id before bytes after reason := by
  intro h
  obtain ⟨emitted, hstream, chunk, hchunk, -⟩ := h finalSerde "id" [] [] finalBytes _ finalEvent
  have hnone : chatStream finalSerde "id" [.ok finalBytes] = ([] : List (Item Unit finalSerde)) :=
    finalEvent.chatStream_eq_nil "id"
  rw [List.nil_append, hnone] at hstream
  have hnil : emitted = [] :=
    (List.append_eq_nil_iff.mp (List.append_eq_nil_iff.mp hstream.symm).1).2
  rw [hnil] at hchunk
  cases hchunk

end Barqium.Native.ChatStream.Anthropic
