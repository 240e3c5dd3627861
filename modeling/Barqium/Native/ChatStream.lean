import Barqium.ForStd.LineStream
import Barqium.ForStd.Text
import Barqium.Native.Serde

/-!
# Streamed chat responses

Model of `chat_stream` in `crates/barqium-ai/src/providers/openai.rs`, `anthropic.rs`
and `bedrock.rs`, from the byte stream of the response on: what is emitted for every
chunk that the transport delivers.

A chunk is decoded by itself. Nothing is kept from one chunk to the next.
-/

namespace Barqium.Native

inductive Role where
  | system
  | user
  | assistant
  | tool
  deriving Repr, DecidableEq

inductive FinishReason where
  | stop
  | length
  | toolCall
  | contentFilter
  deriving Repr, DecidableEq

structure DeltaContent where
  role : Option Role
  /-- Incremental text token. -/
  content : Option String
  deriving Repr, DecidableEq

/-- A single chunk emitted during a streaming response. -/
structure ChatChunk where
  id : String
  provider : String
  delta : DeltaContent
  /-- Set on the final chunk when the stream is closing. -/
  finishReason : Option FinishReason
  deriving Repr, DecidableEq

/-- Of the errors of the AI crate, those a stream emits. -/
inductive AiError (TransportError SerdeError : Type) where
  | transport (e : TransportError)
  | serialization (e : SerdeError)
  deriving Repr, DecidableEq

namespace ChatStream

variable {TransportError : Type} (serde : SerdeJson)

/-- What a stream emits. -/
abbrev Item (TransportError : Type) (serde : SerdeJson) :=
  Except (AiError TransportError serde.Error) ChatChunk

/-- The part the three decoders share: every chunk is read as text, and of its lines
    those that pass `keep` give their event. -/
def decode {ε Error : Type} (keep : List Char → Bool) (event : List Char → Option (Except Error ε))
    (transport : TransportError → Error) :
    List (Except TransportError (List UInt8)) → List (Except Error ε) :=
  List.flatMap fun
    -- the stream goes on after a transport error
    | .error e => [.error (transport e)]
    | .ok bytes => ((Utf8.lines (Utf8.fromLossy bytes)).filter keep).filterMap event

/-- `l.starts_with("data: ")`. -/
def startsWithData (line : List Char) : Bool := (Text.stripPrefix "data: ".toList line).isSome

/-- `&l["data: ".len()..]`. -/
def payload (line : List Char) : List Char := line.drop 6

namespace OpenAi

structure OaiDelta where
  role : Option String
  content : Option String
  deriving Repr, DecidableEq

structure OaiStreamChoice where
  delta : OaiDelta
  finishReason : Option String
  deriving Repr, DecidableEq

structure OaiStreamChunk where
  id : String
  choices : List OaiStreamChoice
  deriving Repr, DecidableEq

def OaiDelta.fromValue (v : Json) : Option OaiDelta := do
  match ← Serde.structFields ["role", "content"] v with
  | [role, content] =>
    some ⟨← Serde.optional Serde.string role, ← Serde.optional Serde.string content⟩
  | _ => none

def OaiStreamChoice.fromValue (v : Json) : Option OaiStreamChoice := do
  match ← Serde.structFields ["delta", "finish_reason"] v with
  | [delta, finishReason] =>
    some ⟨← Serde.required OaiDelta.fromValue delta, ← Serde.optional Serde.string finishReason⟩
  | _ => none

def OaiStreamChunk.fromValue (v : Json) : Option OaiStreamChunk := do
  match ← Serde.structFields ["id", "choices"] v with
  | [id, choices] =>
    some ⟨← Serde.required Serde.string id,
      ← Serde.required (Serde.vec OaiStreamChoice.fromValue) choices⟩
  | _ => none

def parseRole (s : String) : Role :=
  if s = "system" then .system
  else if s = "assistant" then .assistant
  else if s = "tool" then .tool
  else .user

def parseFinish (s : Option String) : FinishReason :=
  if s = some "length" then .length
  else if s = some "tool_calls" then .toolCall
  else if s = some "content_filter" then .contentFilter
  else .stop

/-- The event of a data line. A payload that does not parse is an error of the stream. -/
def event (line : List Char) : Option (Item TransportError serde) :=
  if Text.trim (payload line) = "[DONE]".toList then none
  else
    match serde.fromStr (payload line) with
    -- a payload that the transport has cut ends up here
    | .error e => some (.error (.serialization e))
    | .ok v =>
      match OaiStreamChunk.fromValue v with
      | none => some (.error (.serialization (serde.valueError v)))
      | some chunk =>
        -- no choice, no chunk
        chunk.choices.head?.map fun first => .ok {
          id := chunk.id
          provider := "openai"
          delta := { role := first.delta.role.map parseRole, content := first.delta.content }
          finishReason := first.finishReason.map fun r => parseFinish (some r) }

def chatStream (results : List (Except TransportError (List UInt8))) :
    List (Item TransportError serde) :=
  decode startsWithData (event serde) .transport results

end OpenAi

namespace Anthropic

structure AnthropicUsage where
  inputTokens : UInt32
  outputTokens : UInt32
  deriving Repr, DecidableEq

structure StreamDelta where
  deltaType : String
  text : Option String
  stopReason : Option String
  deriving Repr, DecidableEq

structure StreamEvent where
  eventType : String
  index : Option UInt32
  delta : Option StreamDelta
  usage : Option AnthropicUsage
  deriving Repr, DecidableEq

def AnthropicUsage.fromValue (v : Json) : Option AnthropicUsage := do
  match ← Serde.structFields ["input_tokens", "output_tokens"] v with
  | [input, output] => some ⟨← Serde.required Serde.u32 input, ← Serde.required Serde.u32 output⟩
  | _ => none

def StreamDelta.fromValue (v : Json) : Option StreamDelta := do
  match ← Serde.structFields ["type", "text", "stop_reason"] v with
  | [deltaType, text, stopReason] =>
    some ⟨← Serde.required Serde.string deltaType, ← Serde.optional Serde.string text,
      ← Serde.optional Serde.string stopReason⟩
  | _ => none

def StreamEvent.fromValue (v : Json) : Option StreamEvent := do
  match ← Serde.structFields ["type", "index", "delta", "usage"] v with
  | [eventType, index, delta, usage] =>
    some ⟨← Serde.required Serde.string eventType, ← Serde.optional Serde.u32 index,
      ← Serde.optional StreamDelta.fromValue delta,
      ← Serde.optional AnthropicUsage.fromValue usage⟩
  | _ => none

def parseStopReason (s : Option String) : FinishReason :=
  if s = some "max_tokens" then .length
  else if s = some "tool_use" then .toolCall
  else .stop

/-- The event of a data line; `id` is the identifier made up for the stream. What does
    not parse is passed over. -/
def event (id : String) (line : List Char) : Option (Item TransportError serde) := do
  let v ← (serde.fromStr (payload line)).toOption
  let ev ← StreamEvent.fromValue v
  if ev.eventType = "content_block_delta" then
    -- an event without delta is passed over
    let delta ← ev.delta
    if delta.deltaType ≠ "text_delta" then none
    else some (.ok {
      id := id
      provider := "anthropic"
      delta := { role := none, content := delta.text }
      finishReason := none })
  else if ev.eventType = "message_delta" then
    let delta ← ev.delta
    some (.ok {
      id := id
      provider := "anthropic"
      delta := { role := none, content := none }
      finishReason := some (parseStopReason delta.stopReason) })
  else none

def chatStream (id : String) (results : List (Except TransportError (List UInt8))) :
    List (Item TransportError serde) :=
  decode startsWithData (event serde id) .transport results

end Anthropic

namespace Bedrock

/-- The event of a line that is not empty. -/
def event (id : String) (line : List Char) : Option (Item TransportError serde) := do
  let v ← (serde.fromStr line).toOption
  let text ← (((v.index "contentBlockDelta").index "delta").index "text").asStr
  some (.ok {
    id := id
    provider := "bedrock"
    delta := { role := none, content := some text }
    finishReason := none })

def chatStream (id : String) (results : List (Except TransportError (List UInt8))) :
    List (Item TransportError serde) :=
  decode (fun line => !line.isEmpty) (event serde id) .transport results

end Bedrock

end ChatStream

end Barqium.Native
