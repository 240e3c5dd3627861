import Barqium.Native.AiProvider
import Mathlib.Data.List.Infix
import Mathlib.Tactic.NormNum.Basic

/-!
# The providers

Model of `crates/barqium-ai/src/providers`: the requests that each provider builds, what it makes
of the reply, and its prices. The HTTP client, the random ids and the signature of requests to
Bedrock are foreign code and stay parameters. A `u32` sum wraps, as in a release build. Counting
tokens and log output are left out.
-/

namespace Barqium.Native.Ai

/-- A reply of an upstream, by what can be read off it. -/
structure Reply (TransportError : Type) where
  status : UInt16
  text : Except TransportError String
  json : Except TransportError Json
  /-- The chunks of `bytes_stream`. -/
  chunks : List (Except TransportError (List UInt8))

/-- The foreign parts. -/
structure Env (TransportError : Type) where
  /-- Sends a JSON body to a URL with these headers. -/
  post : String → List (String × String) → Json → Except TransportError (Reply TransportError)
  /-- The error of `Response::json` for a value that does not fit. -/
  decodeError : Json → TransportError
  newUuid : String
  /-- `sigv4_sign`: the values of `authorization` and `x-amz-date`, from URL, region, body, access
      key and secret key. -/
  sigv4Sign : String → String → Json → String → String → String × String

section

variable {TransportError : Type} {serde : SerdeJson}

/-- Sends a request; a status other than 2xx is an error of the provider. -/
def Env.send (env : Env TransportError) (provider url : String)
    (headers : List (String × String)) (body : Json) :
    Except (AiError TransportError serde.Error) (Reply TransportError) := do
  let reply ← (env.post url headers body).mapError .transport
  if 200 ≤ reply.status ∧ reply.status < 300 then return reply
  throw (.provider provider reply.status (reply.text.toOption.getD ""))

/-- `resp.json().await?`. -/
def Env.json {α : Type} (env : Env TransportError) (fromValue : Json → Option α)
    (reply : Reply TransportError) : Except (AiError TransportError serde.Error) α := do
  let v ← reply.json.mapError .transport
  match fromValue v with
  | some a => return a
  | none => throw (.transport (env.decodeError v))

/-- A JSON object without the members that are none (`skip_serializing_if`). -/
def jsonObject (members : List (String × Option Json)) : Json :=
  .obj (members.filterMap fun m => m.2.map fun v => (m.1, v))

def jsonU32 (n : UInt32) : Json := .num (toString n.toNat)

/-- The first line of a price table that a model is on. -/
def findPricing (isOn : String → Bool) (table : List (List String × ModelPricing)) :
    Option ModelPricing :=
  (table.find? fun line => line.1.any isOn).map Prod.snd

/-- A provider over HTTP. A stream is the list of what it emits. -/
abbrev Provider (TransportError : Type) (serde : SerdeJson) :=
  AiProvider (AiError TransportError serde.Error) (List (ChatStream.Item TransportError serde))

/-! ## OpenAI -/

structure OpenAiProvider where
  apiKey : String
  baseUrl : String := "https://api.openai.com/v1"

structure OaiMessage where
  role : String
  content : String
  deriving Repr, DecidableEq

structure OaiRequest where
  model : String
  messages : List OaiMessage
  maxTokens : Option UInt32
  temperature : Option Json
  stream : Bool
  deriving Repr

def OaiMessage.toJson (m : OaiMessage) : Json :=
  .obj [("role", .str m.role), ("content", .str m.content)]

def OaiRequest.toJson (r : OaiRequest) : Json :=
  jsonObject [("model", some (.str r.model)),
    ("messages", some (.arr (r.messages.map OaiMessage.toJson))),
    ("max_tokens", r.maxTokens.map jsonU32), ("temperature", r.temperature),
    ("stream", some (.bool r.stream))]

structure OaiMessageOwned where
  role : String
  content : Option String
  deriving Repr, DecidableEq

structure OaiChoice where
  index : UInt32
  message : OaiMessageOwned
  finishReason : Option String
  deriving Repr, DecidableEq

structure OaiUsage where
  promptTokens : UInt32
  completionTokens : UInt32
  totalTokens : UInt32
  deriving Repr, DecidableEq

structure OaiResponse where
  id : String
  model : String
  choices : List OaiChoice
  usage : OaiUsage
  deriving Repr, DecidableEq

def OaiMessageOwned.fromValue (v : Json) : Option OaiMessageOwned := do
  match ← Serde.textFields ["role", "content"] v with
  | [role, content] =>
    some ⟨← Serde.required Serde.string role, ← Serde.optional Serde.string content⟩
  | _ => none

def OaiChoice.fromValue (v : Json) : Option OaiChoice := do
  match ← Serde.textFields ["index", "message", "finish_reason"] v with
  | [index, message, finishReason] =>
    some ⟨← Serde.required Serde.u32 index, ← Serde.required OaiMessageOwned.fromValue message,
      ← Serde.optional Serde.string finishReason⟩
  | _ => none

def OaiUsage.fromValue (v : Json) : Option OaiUsage := do
  match ← Serde.textFields ["prompt_tokens", "completion_tokens", "total_tokens"] v with
  | [prompt, completion, total] =>
    some ⟨← Serde.required Serde.u32 prompt, ← Serde.required Serde.u32 completion,
      ← Serde.required Serde.u32 total⟩
  | _ => none

def OaiResponse.fromValue (v : Json) : Option OaiResponse := do
  match ← Serde.textFields ["id", "model", "choices", "usage"] v with
  | [id, model, choices, usage] =>
    some ⟨← Serde.required Serde.string id, ← Serde.required Serde.string model,
      ← Serde.required (Serde.vec OaiChoice.fromValue) choices,
      ← Serde.required OaiUsage.fromValue usage⟩
  | _ => none

def oaiRole : Role → String
  | .system => "system"
  | .user => "user"
  | .assistant => "assistant"
  | .tool => "tool"

/-- Prices in USD per 1k tokens. -/
def openaiPrices : List (List String × ModelPricing) :=
  [(["gpt-4o", "gpt-4o-2024-11-20"], ⟨0.0025, 0.010, 128000⟩),
    (["gpt-4o-mini", "gpt-4o-mini-2024-07-18"], ⟨0.000150, 0.000600, 128000⟩),
    (["gpt-4-turbo", "gpt-4-turbo-2024-04-09"], ⟨0.010, 0.030, 128000⟩),
    (["gpt-3.5-turbo"], ⟨0.000500, 0.001500, 16385⟩),
    (["o1", "o1-2024-12-17"], ⟨0.015, 0.060, 200000⟩),
    (["o1-mini", "o1-mini-2024-09-12"], ⟨0.003, 0.012, 128000⟩)]

def openaiPricing (model : String) : Option ModelPricing := findPricing (· = model) openaiPrices

namespace OpenAiProvider

variable (p : OpenAiProvider) (env : Env TransportError) (req : ChatRequest)

def request (stream : Bool) : OaiRequest where
  model := req.model
  messages := req.messages.map fun m => ⟨oaiRole m.role, m.content⟩
  maxTokens := req.maxTokens
  temperature := req.temperature
  stream := stream

/-- Sends the request for a chat or for a stream. -/
def send (stream : Bool) : Except (AiError TransportError serde.Error) (Reply TransportError) :=
  env.send "openai" (p.baseUrl ++ "/chat/completions") [("authorization", "Bearer " ++ p.apiKey)]
    (request req stream).toJson

def response (oai : OaiResponse) : ChatResponse :=
  let usage := ⟨oai.usage.promptTokens, oai.usage.completionTokens, oai.usage.totalTokens⟩
  { id := oai.id
    model := oai.model
    choices := oai.choices.map fun c =>
      { index := c.index
        message := ⟨ChatStream.OpenAi.parseRole c.message.role, c.message.content.getD ""⟩
        finishReason := ChatStream.OpenAi.parseFinish c.finishReason }
    usage := usage
    provider := "openai"
    costUsd := ((openaiPricing oai.model).map fun p => p.cost usage).getD 0 }

def chat : Except (AiError TransportError serde.Error) ChatResponse := do
  let oai ← env.json OaiResponse.fromValue (← p.send env req false)
  return response oai

def chatStream :
    Except (AiError TransportError serde.Error) (List (ChatStream.Item TransportError serde)) := do
  let reply ← p.send env req true
  return ChatStream.OpenAi.chatStream serde reply.chunks

def provider : Provider TransportError serde where
  name := "openai"
  pricing := openaiPricing
  chat := p.chat env
  chatStream := p.chatStream env

end OpenAiProvider

/-! ## Groq -/

/-- Uses the OpenAI-compatible API surface. -/
structure GroqProvider where
  inner : OpenAiProvider

def GroqProvider.new (apiKey : String) : GroqProvider :=
  ⟨{ apiKey := apiKey, baseUrl := "https://api.groq.com/openai/v1" }⟩

def groqPrices : List (List String × ModelPricing) :=
  [(["llama-3.3-70b-versatile"], ⟨0.00059, 0.00079, 128000⟩),
    (["llama-3.1-8b-instant"], ⟨0.00005, 0.00008, 128000⟩),
    (["llama3-70b-8192"], ⟨0.00059, 0.00079, 8192⟩),
    (["llama3-8b-8192"], ⟨0.00005, 0.00008, 8192⟩),
    (["mixtral-8x7b-32768"], ⟨0.00024, 0.00024, 32768⟩),
    (["gemma2-9b-it"], ⟨0.00020, 0.00020, 8192⟩)]

def groqPricing (model : String) : Option ModelPricing := findPricing (· = model) groqPrices

namespace GroqProvider

variable (p : GroqProvider) (env : Env TransportError) (req : ChatRequest)

def chat : Except (AiError TransportError serde.Error) ChatResponse := do
  let resp ← p.inner.chat env req
  -- the cost stays that of the wrapped provider
  return { resp with provider := "groq" }

def chatStream :
    Except (AiError TransportError serde.Error) (List (ChatStream.Item TransportError serde)) :=
  p.inner.chatStream env req

def provider : Provider TransportError serde where
  name := "groq"
  pricing := groqPricing
  chat := p.chat env
  chatStream := p.chatStream env

end GroqProvider

/-! ## Ollama -/

/-- Local inference over the OpenAI-compatible shim. -/
structure OllamaProvider where
  inner : OpenAiProvider

def OllamaProvider.new (baseUrl : String := "http://localhost:11434/v1") : OllamaProvider :=
  ⟨{ apiKey := "ollama", baseUrl := baseUrl }⟩

namespace OllamaProvider

variable (p : OllamaProvider) (env : Env TransportError) (req : ChatRequest)

def chat : Except (AiError TransportError serde.Error) ChatResponse := do
  let resp ← p.inner.chat env req
  return { resp with provider := "ollama", costUsd := 0 }

def chatStream :
    Except (AiError TransportError serde.Error) (List (ChatStream.Item TransportError serde)) :=
  p.inner.chatStream env req

def provider : Provider TransportError serde where
  name := "ollama"
  pricing _ := none
  chat := p.chat env
  chatStream := p.chatStream env

end OllamaProvider

/-! ## Anthropic -/

/-- The system prompt and the remaining turns: the filter closure keeps the content of a system
    message and drops the message. -/
def splitSystem (messages : List Message) : Option String × List Message :=
  messages.foldl
    (fun (system, rest) m =>
      if m.role = .system then (some m.content, rest) else (system, rest ++ [m]))
    (none, [])

structure AnthropicProvider where
  apiKey : String

structure AnthropicMessage where
  role : String
  content : String
  deriving Repr, DecidableEq

structure AnthropicRequest where
  model : String
  messages : List AnthropicMessage
  maxTokens : UInt32
  system : Option String
  temperature : Option Json
  stream : Bool
  deriving Repr

def AnthropicMessage.toJson (m : AnthropicMessage) : Json :=
  .obj [("role", .str m.role), ("content", .str m.content)]

def AnthropicRequest.toJson (r : AnthropicRequest) : Json :=
  jsonObject [("model", some (.str r.model)),
    ("messages", some (.arr (r.messages.map AnthropicMessage.toJson))),
    ("max_tokens", some (jsonU32 r.maxTokens)), ("system", r.system.map .str),
    ("temperature", r.temperature), ("stream", some (.bool r.stream))]

structure AnthropicContent where
  contentType : String
  text : Option String
  deriving Repr, DecidableEq

structure AnthropicResponse where
  id : String
  model : String
  content : List AnthropicContent
  stopReason : Option String
  usage : ChatStream.Anthropic.AnthropicUsage
  deriving Repr, DecidableEq

def AnthropicContent.fromValue (v : Json) : Option AnthropicContent := do
  match ← Serde.textFields ["type", "text"] v with
  | [contentType, text] =>
    some ⟨← Serde.required Serde.string contentType, ← Serde.optional Serde.string text⟩
  | _ => none

/-- The usage of a reply, read off its text. -/
def anthropicUsageFromText (v : Json) : Option ChatStream.Anthropic.AnthropicUsage := do
  match ← Serde.textFields ["input_tokens", "output_tokens"] v with
  | [input, output] => some ⟨← Serde.required Serde.u32 input, ← Serde.required Serde.u32 output⟩
  | _ => none

def AnthropicResponse.fromValue (v : Json) : Option AnthropicResponse := do
  match ← Serde.textFields ["id", "model", "content", "stop_reason", "usage"] v with
  | [id, model, content, stopReason, usage] =>
    some ⟨← Serde.required Serde.string id, ← Serde.required Serde.string model,
      ← Serde.required (Serde.vec AnthropicContent.fromValue) content,
      ← Serde.optional Serde.string stopReason, ← Serde.required anthropicUsageFromText usage⟩
  | _ => none

def anthropicRole : Role → String
  | .user => "user"
  | .tool => "user"
  | .assistant => "assistant"
  -- goes to the system field
  | .system => "user"

def anthropicPrices : List (List String × ModelPricing) :=
  [(["claude-opus-4-7", "claude-opus-4-7-20251001"], ⟨0.015, 0.075, 200000⟩),
    (["claude-sonnet-4-6", "claude-sonnet-4-6-20251022"], ⟨0.003, 0.015, 200000⟩),
    (["claude-haiku-4-5", "claude-haiku-4-5-20251001"], ⟨0.0008, 0.004, 200000⟩),
    (["claude-3-5-sonnet-20241022", "claude-3-5-sonnet-20240620"], ⟨0.003, 0.015, 200000⟩),
    (["claude-3-5-haiku-20241022"], ⟨0.0008, 0.004, 200000⟩),
    (["claude-3-opus-20240229"], ⟨0.015, 0.075, 200000⟩),
    (["claude-3-haiku-20240307"], ⟨0.00025, 0.00125, 200000⟩)]

def anthropicPricing (model : String) : Option ModelPricing :=
  findPricing (· = model) anthropicPrices

namespace AnthropicProvider

variable (p : AnthropicProvider) (env : Env TransportError) (req : ChatRequest)

def request (stream : Bool) : AnthropicRequest :=
  let (system, turns) := splitSystem req.messages
  { model := req.model
    messages := turns.map fun m => ⟨anthropicRole m.role, m.content⟩
    maxTokens := req.maxTokens.getD 4096
    system := system
    temperature := req.temperature
    stream := stream }

def send (stream : Bool) : Except (AiError TransportError serde.Error) (Reply TransportError) :=
  env.send "anthropic" "https://api.anthropic.com/v1/messages"
    [("x-api-key", p.apiKey), ("anthropic-version", "2023-06-01")] (request req stream).toJson

def response (ar : AnthropicResponse) : ChatResponse :=
  let usage := ⟨ar.usage.inputTokens, ar.usage.outputTokens,
    ar.usage.inputTokens + ar.usage.outputTokens⟩
  -- blocks of other types are left out
  let text := (ar.content.filter fun c => c.contentType = "text").filterMap fun c => c.text
  { id := ar.id
    model := ar.model
    choices := [{
      index := 0
      message := ⟨.assistant, String.join text⟩
      finishReason := ChatStream.Anthropic.parseStopReason ar.stopReason }]
    usage := usage
    provider := "anthropic"
    costUsd := ((anthropicPricing ar.model).map fun p => p.cost usage).getD 0 }

def chat : Except (AiError TransportError serde.Error) ChatResponse := do
  let ar ← env.json AnthropicResponse.fromValue (← p.send env req false)
  return response ar

def chatStream :
    Except (AiError TransportError serde.Error) (List (ChatStream.Item TransportError serde)) := do
  let reply ← p.send env req true
  return ChatStream.Anthropic.chatStream serde env.newUuid reply.chunks

def provider : Provider TransportError serde where
  name := "anthropic"
  pricing := anthropicPricing
  chat := p.chat env
  chatStream := p.chatStream env

end AnthropicProvider

/-! ## Bedrock -/

structure BedrockProvider where
  region : String
  accessKey : String
  secretKey : String

structure ConverseMessage where
  role : String
  /-- The texts of the content blocks. -/
  content : List String
  deriving Repr, DecidableEq

structure InferenceConfig where
  maxTokens : Option UInt32
  temperature : Option Json
  deriving Repr

structure ConverseRequest where
  messages : List ConverseMessage
  /-- The texts of the system blocks. -/
  system : Option (List String)
  inferenceConfig : Option InferenceConfig
  deriving Repr

/-- Blocks of text, as messages and the system field have them. -/
def textBlocks (texts : List String) : Json :=
  .arr (texts.map fun text => .obj [("text", .str text)])

def ConverseMessage.toJson (m : ConverseMessage) : Json :=
  .obj [("role", .str m.role), ("content", textBlocks m.content)]

def InferenceConfig.toJson (c : InferenceConfig) : Json :=
  jsonObject [("maxTokens", c.maxTokens.map jsonU32), ("temperature", c.temperature)]

def ConverseRequest.toJson (r : ConverseRequest) : Json :=
  jsonObject [("messages", some (.arr (r.messages.map ConverseMessage.toJson))),
    ("system", r.system.map textBlocks),
    ("inferenceConfig", r.inferenceConfig.map InferenceConfig.toJson)]

structure ConverseUsage where
  inputTokens : UInt32
  outputTokens : UInt32
  totalTokens : UInt32
  deriving Repr, DecidableEq

structure ConverseContentOwned where
  text : Option String
  deriving Repr, DecidableEq

structure ConverseMessageOwned where
  content : List ConverseContentOwned
  deriving Repr, DecidableEq

structure ConverseOutput where
  message : ConverseMessageOwned
  deriving Repr, DecidableEq

structure ConverseResponse where
  output : ConverseOutput
  stopReason : Option String
  usage : ConverseUsage
  deriving Repr, DecidableEq

def ConverseUsage.fromValue (v : Json) : Option ConverseUsage := do
  match ← Serde.textFields ["inputTokens", "outputTokens", "totalTokens"] v with
  | [input, output, total] =>
    some ⟨← Serde.required Serde.u32 input, ← Serde.required Serde.u32 output,
      ← Serde.required Serde.u32 total⟩
  | _ => none

def ConverseContentOwned.fromValue (v : Json) : Option ConverseContentOwned := do
  match ← Serde.textFields ["text"] v with
  | [text] => some ⟨← Serde.optional Serde.string text⟩
  | _ => none

def ConverseMessageOwned.fromValue (v : Json) : Option ConverseMessageOwned := do
  match ← Serde.textFields ["content"] v with
  | [content] => some ⟨← Serde.required (Serde.vec ConverseContentOwned.fromValue) content⟩
  | _ => none

def ConverseOutput.fromValue (v : Json) : Option ConverseOutput := do
  match ← Serde.textFields ["message"] v with
  | [message] => some ⟨← Serde.required ConverseMessageOwned.fromValue message⟩
  | _ => none

def ConverseResponse.fromValue (v : Json) : Option ConverseResponse := do
  match ← Serde.textFields ["output", "stopReason", "usage"] v with
  | [output, stopReason, usage] =>
    some ⟨← Serde.required ConverseOutput.fromValue output,
      ← Serde.optional Serde.string stopReason, ← Serde.required ConverseUsage.fromValue usage⟩
  | _ => none

/-- Each line is for all models with its text in their id. -/
def bedrockPrices : List (List String × ModelPricing) :=
  [(["claude-opus-4"], ⟨0.015, 0.075, 200000⟩),
    (["claude-sonnet-4"], ⟨0.003, 0.015, 200000⟩),
    (["claude-haiku-4"], ⟨0.0008, 0.004, 200000⟩),
    (["claude-3-5-sonnet"], ⟨0.003, 0.015, 200000⟩),
    (["claude-3-5-haiku"], ⟨0.0008, 0.004, 200000⟩),
    (["claude-3-opus"], ⟨0.015, 0.075, 200000⟩),
    (["claude-3-haiku"], ⟨0.00025, 0.00125, 200000⟩),
    (["llama3"], ⟨0.00065, 0.00065, 128000⟩),
    (["mistral"], ⟨0.00045, 0.00070, 32000⟩)]

def bedrockPricing (model : String) : Option ModelPricing :=
  findPricing (fun part => decide (part.toList <:+: model.toList)) bedrockPrices

namespace BedrockProvider

variable (p : BedrockProvider) (env : Env TransportError) (req : ChatRequest)

def request : ConverseRequest :=
  let (system, turns) := splitSystem req.messages
  { messages := turns.map fun m =>
      ⟨if m.role = .assistant then "assistant" else "user", [m.content]⟩
    system := system.map fun s => [s]
    inferenceConfig := some ⟨req.maxTokens, req.temperature⟩ }

/-- The URL of `endpoint` and `endpoint_stream`. -/
def endpoint (action : String) : String :=
  "https://bedrock-runtime." ++ p.region ++ ".amazonaws.com/model/" ++ req.model ++ "/" ++ action

def send (action : String) : Except (AiError TransportError serde.Error) (Reply TransportError) :=
  let body := (request req).toJson
  let url := p.endpoint req action
  let (auth, dateTime) := env.sigv4Sign url p.region body p.accessKey p.secretKey
  env.send "bedrock" url [("authorization", auth), ("x-amz-date", dateTime),
    ("content-type", "application/json")] body

def response (id : String) (cr : ConverseResponse) : ChatResponse :=
  let usage := ⟨cr.usage.inputTokens, cr.usage.outputTokens, cr.usage.totalTokens⟩
  let text := cr.output.message.content.filterMap fun c => c.text
  { id := id
    model := req.model
    choices := [{
      index := 0
      message := ⟨.assistant, String.join text⟩
      finishReason := ChatStream.Anthropic.parseStopReason cr.stopReason }]
    usage := usage
    provider := "bedrock"
    costUsd := ((bedrockPricing req.model).map fun p => p.cost usage).getD 0 }

def chat : Except (AiError TransportError serde.Error) ChatResponse := do
  let cr ← env.json ConverseResponse.fromValue (← p.send env req "converse")
  return response req env.newUuid cr

def chatStream :
    Except (AiError TransportError serde.Error) (List (ChatStream.Item TransportError serde)) := do
  let reply ← p.send env req "converse-stream"
  return ChatStream.Bedrock.chatStream serde env.newUuid reply.chunks

def provider : Provider TransportError serde where
  name := "bedrock"
  pricing := bedrockPricing
  chat := p.chat env
  chatStream := p.chatStream env

end BedrockProvider

end

end Barqium.Native.Ai
