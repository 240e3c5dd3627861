import Barqium.Native.ChatStream
import Barqium.Native.McpClient

/-!
# Streaming and transport chunks

The four stream decoders of the gateway decode every transport chunk by itself. They
are instances of one line decoder, so what they emit depends on the chunks in one
and the same way.

## Key results

- `ChatStream.ok_mem_decode`: an item comes from a line of a chunk.
- `Decoder.emits_eq`: the decoders are line decoders.
- `Decoder.emits_independent_iff`: when the chunks do not matter for a body.
- `Decoder.emits_of_atLineEnds`: chunks that end with a line give the events of the
  whole body.
-/

namespace Barqium.Native

open LineStream (emitted AtLineEnds)

/-- An item that is no error comes from one line of one chunk. -/
theorem ChatStream.ok_mem_decode {T Error ε : Type} {keep : List Char → Bool}
    {event : List Char → Option (Except Error ε)} {transport : T → Error}
    {results : List (Except T (List UInt8))} {item : ε} :
    .ok item ∈ decode keep event transport results ↔
      ∃ bytes, .ok bytes ∈ results ∧ ∃ line ∈ Utf8.lines (Utf8.fromLossy bytes),
        keep line = true ∧ event line = some (.ok item) := by
  unfold decode
  -- an item comes from a line of some chunk
  rw [List.mem_flatMap]
  constructor
  · rintro ⟨result, hresult, hitem⟩
    cases result with
    | error e =>
      rw [List.mem_singleton] at hitem
      cases hitem
    | ok bytes =>
      obtain ⟨line, hline, hevent⟩ := List.mem_filterMap.mp hitem
      obtain ⟨hmem, hkeep⟩ := List.mem_filter.mp hline
      exact ⟨bytes, hresult, line, hmem, hkeep, hevent⟩
  · rintro ⟨bytes, hbytes, line, hmem, hkeep, hevent⟩
    exact ⟨.ok bytes, hbytes,
      List.mem_filterMap.mpr ⟨line, List.mem_filter.mpr ⟨hmem, hkeep⟩, hevent⟩⟩

/-- The decoders of streamed responses; `id` is the identifier made up for a stream. -/
inductive Decoder where
  | openAi
  | anthropic (id : String)
  | bedrock (id : String)
  | mcp

namespace Decoder

variable (serde : SerdeJson)

/-- What a decoder emits. -/
def Event : Decoder → Type
  | openAi => ChatStream.Item String serde
  | anthropic _ => ChatStream.Item String serde
  | bedrock _ => ChatStream.Item String serde
  | mcp => Json

/-- What a decoder emits for a body that is delivered in these chunks. -/
def emits (chunks : List (List UInt8)) : (d : Decoder) → List (d.Event serde)
  | openAi => ChatStream.OpenAi.chatStream serde (chunks.map Except.ok)
  | anthropic id => ChatStream.Anthropic.chatStream serde id (chunks.map Except.ok)
  | bedrock id => ChatStream.Bedrock.chatStream serde id (chunks.map Except.ok)
  | mcp => (McpClient.subscribeSse serde (chunks.map Except.ok)).1

/-- What a decoder makes of one line. -/
def lineEvent : (d : Decoder) → List Char → Option (d.Event serde)
  | openAi, line =>
    if ChatStream.startsWithData line then ChatStream.OpenAi.event serde line else none
  | anthropic id, line =>
    if ChatStream.startsWithData line then ChatStream.Anthropic.event serde id line else none
  | bedrock id, line => if !line.isEmpty then ChatStream.Bedrock.event serde id line else none
  | mcp, line => McpClient.event serde line

/-- The chat decoder emits, chunk by chunk, what the lines of the chunk give. -/
private theorem decode_eq_emitted {T E ε : Type} (keep : List Char → Bool)
    (event : List Char → Option (Except E ε)) (transport : T → E) (chunks : List (List UInt8)) :
    ChatStream.decode keep event transport (chunks.map Except.ok) =
      emitted (fun line => if keep line then event line else none) chunks := by
  unfold ChatStream.decode emitted LineStream.chunkEvents
  rw [List.flatMap_map]
  apply List.flatMap_congr
  intro chunk _
  exact List.filterMap_filter

/-- `subscribe_sse` does the same with its own line handler. -/
private theorem subscribeSse_eq_emitted (chunks : List (List UInt8)) :
    (McpClient.subscribeSse serde (chunks.map Except.ok)).1 =
      emitted (McpClient.event serde) chunks := by
  induction chunks with
  | nil => rfl
  | cons chunk chunks ih =>
    rw [List.map_cons, McpClient.subscribeSse, ih]
    rfl

/-- The four decoders in one equation. -/
theorem emits_eq (d : Decoder) (chunks : List (List UInt8)) :
    d.emits serde chunks = emitted (d.lineEvent serde) chunks := by
  cases d with
  | openAi => exact decode_eq_emitted _ _ _ chunks
  | anthropic id => exact decode_eq_emitted _ _ _ chunks
  | bedrock id => exact decode_eq_emitted _ _ _ chunks
  | mcp => exact subscribeSse_eq_emitted serde chunks

/-! ## Short lines -/

/-- A line of one character does not start with `data:`. -/
private theorem startsWithData_singleton (c : Char) : ChatStream.startsWithData [c] = false := by
  have hdata : "data: ".toList = ['d', 'a', 't', 'a', ':', ' '] := by decide
  unfold ChatStream.startsWithData
  rw [hdata, Text.stripPrefix]
  by_cases hc : 'd' = c
  · rw [if_pos hc, Text.stripPrefix]
    rfl
  · rw [if_neg hc]
    rfl

/-- From a line of one character `data:` cannot be stripped. -/
private theorem stripPrefix_data_singleton (c : Char) :
    Text.stripPrefix "data:".toList [c] = none := by
  have hdata : "data:".toList = ['d', 'a', 't', 'a', ':'] := by decide
  rw [hdata, Text.stripPrefix]
  by_cases hc : 'd' = c
  · rw [if_pos hc, Text.stripPrefix]
  · rw [if_neg hc]

/-- One character is no object. -/
private theorem bedrock_event_singleton (id : String) (c : Char) :
    (ChatStream.Bedrock.event serde id [c] : Option (ChatStream.Item String serde)) = none := by
  unfold ChatStream.Bedrock.event
  cases hv : serde.fromStr [c] with
  | error e => rfl
  | ok v =>
    -- a text of one character is no object
    have hindex : v.index "contentBlockDelta" = .null := by
      cases v with
      | obj members =>
        have hlen := serde.two_le_of_fromStr_obj [c] members hv
        simp at hlen
      | null => rfl
      | bool b => rfl
      | num literal => rfl
      | str s => rfl
      | arr elems => rfl
    have htext : (((v.index "contentBlockDelta").index "delta").index "text").asStr = none := by
      rw [hindex]
      rfl
    simp [Except.toOption, htext]

private theorem lineEvent_nil (d : Decoder) : d.lineEvent serde [] = none := by
  cases d <;> rfl

/-- A line of one character is no event. -/
private theorem lineEvent_singleton (d : Decoder) (c : Char) : d.lineEvent serde [c] = none := by
  cases d with
  | openAi => simp [lineEvent, startsWithData_singleton]
  | anthropic id => simp [lineEvent, startsWithData_singleton]
  | bedrock id => exact bedrock_event_singleton serde id c
  | mcp =>
    show McpClient.event serde [c] = none
    rw [McpClient.event, stripPrefix_data_singleton]
    rfl

/-! ## Chunks -/

/-- A body gives every decoder the same events for all chunkings only if no part of it
    has an event: delivered byte by byte it has none. -/
theorem emits_independent_iff (d : Decoder) (body : List UInt8) :
    (∀ a b : List (List UInt8), a.flatten = body → b.flatten = body →
        d.emits serde a = d.emits serde b) ↔
      ∀ part, part <:+: body → '\n' ∉ Utf8.fromLossy part →
        d.lineEvent serde (Utf8.fromLossy part) = none := by
  simp only [emits_eq]
  exact LineStream.independent_iff (lineEvent_nil serde d) (lineEvent_singleton serde d) body

/-- Chunks that end with a line give the events of the whole body. -/
theorem emits_of_atLineEnds (d : Decoder) {chunks : List (List UInt8)} (h : AtLineEnds chunks) :
    d.emits serde chunks = d.emits serde [chunks.flatten] := by
  have hone : AtLineEnds [chunks.flatten] := by simp [AtLineEnds]
  rw [emits_eq, emits_eq, LineStream.emitted_of_atLineEnds h, LineStream.emitted_of_atLineEnds hone]
  simp

/-- An OpenAI event. -/
def hiPayload : List Char :=
  "\x7b\"id\":\"c\",\"choices\":[\x7b\"delta\":\x7b\"content\":\"Hi\"\x7d\x7d]\x7d".toList

def hiValue : Json :=
  .obj [("id", .str "c"),
    ("choices", .arr [.obj [("delta", .obj [("content", .str "Hi")])]])]

/-- A parser that knows one text. -/
def hiSerde : SerdeJson where
  Error := Unit
  fromStr text := if text = hiPayload then .ok hiValue else .error ()
  two_le_of_fromStr_obj text members h := by
    split at h
    · rename_i htext
      rw [htext]
      decide
    · cases h
  valueError _ := ()

/-- The bytes of ASCII text. -/
def asciiBytes (text : List Char) : List UInt8 := text.map fun c => UInt8.ofNat c.toNat

/-- An event that is cut inside its payload is lost. -/
theorem cut_payload_not_decoded :
    ¬ ∀ a b : List (List UInt8), a.flatten = asciiBytes ("data: ".toList ++ hiPayload) →
      b.flatten = asciiBytes ("data: ".toList ++ hiPayload) →
      openAi.emits hiSerde a = openAi.emits hiSerde b := by
  intro h
  have heq := h [asciiBytes ("data: ".toList ++ hiPayload)]
    [(asciiBytes ("data: ".toList ++ hiPayload)).take 20,
      (asciiBytes ("data: ".toList ++ hiPayload)).drop 20] (by decide) (by decide)
  have hok :=
    congrArg (List.map fun item : ChatStream.Item String hiSerde => item.toOption.isSome) heq
  revert hok
  decide

end Decoder

end Barqium.Native
