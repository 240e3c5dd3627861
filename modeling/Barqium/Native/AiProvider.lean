import Mathlib.Data.Rat.Defs
import Barqium.Native.ChatStream

/-!
# AI providers

Model of `crates/barqium-ai/src/types.rs`, `error.rs` and `provider.rs`: the requests and
responses of a chat, its errors, and the interface of a provider. Amounts of money are exact
rationals.
-/

namespace Barqium.Native.Ai

/-- A single message in a conversation. -/
structure Message where
  role : Role
  content : String
  deriving Repr, DecidableEq

/-- Outbound request to an AI provider. -/
structure ChatRequest where
  model : String
  messages : List Message
  maxTokens : Option UInt32
  /-- An `f32`, by the JSON that it is written as. -/
  temperature : Option Json
  deriving Repr

structure Choice where
  index : UInt32
  message : Message
  finishReason : FinishReason
  deriving Repr, DecidableEq

structure TokenUsage where
  promptTokens : UInt32
  completionTokens : UInt32
  totalTokens : UInt32
  deriving Repr, DecidableEq

/-- Non-streaming response from an AI provider. -/
structure ChatResponse where
  id : String
  /-- Canonical model name echoed back by the provider. -/
  model : String
  choices : List Choice
  usage : TokenUsage
  /-- Name of the provider that fulfilled the request. -/
  provider : String
  /-- Estimated cost in USD for this response. -/
  costUsd : ℚ
  deriving Repr, DecidableEq

/-- Per-model pricing. -/
structure ModelPricing where
  /-- Cost in USD per 1 000 prompt tokens. -/
  promptPer1k : ℚ
  /-- Cost in USD per 1 000 completion tokens. -/
  completionPer1k : ℚ
  /-- Maximum context window in tokens. -/
  contextLimit : UInt32
  deriving Repr, DecidableEq

def ModelPricing.cost (p : ModelPricing) (usage : TokenUsage) : ℚ :=
  usage.promptTokens.toNat / 1000 * p.promptPer1k +
    usage.completionTokens.toNat / 1000 * p.completionPer1k

/-- All errors of the AI crate. -/
inductive AiError (TransportError SerdeError : Type) where
  | provider (provider : String) (status : UInt16) (message : String)
  | rateLimited (provider : String) (retryAfterSecs : Option UInt64)
  | contextLengthExceeded (model : String) (tokens limit : UInt32)
  | budgetExceeded (cost limit : ℚ)
  | allProvidersFailed (attempts : Nat)
  | stream (provider message : String)
  | transport (e : TransportError)
  | serialization (e : SerdeError)
  | unsupported (operation : String)
  deriving Repr, DecidableEq

/-- What a provider has to offer; `Stream` is what a streaming chat gives. -/
structure AiProvider (Error Stream : Type) where
  /-- Short lowercase identifier. -/
  name : String
  /-- Returns the pricing table for a given model, or none if unknown. -/
  pricing : String → Option ModelPricing
  chat : ChatRequest → Except Error ChatResponse
  chatStream : ChatRequest → Except Error Stream

end Barqium.Native.Ai
