import Barqium.Native.AiProvider
import Barqium.Native.Config

/-!
# Token estimates and pricing

Model of `crates/barqium-ai/src/budget.rs`: the estimate of a prompt's tokens, the pricing
registry and the check of the context window. Arithmetic wraps, as in a release build.
-/

namespace Barqium.Native.Ai

/-! ## Token estimates -/

/-- The estimate for one message: 4 bytes per token, and 4 tokens for the message itself. -/
def messageTokens (m : Message) : UInt32 := UInt32.ofNat m.content.utf8ByteSize / 4 + 4

/-- Token counter backed by a per-character heuristic. -/
def countTokensHeuristic (messages : List Message) : UInt32 :=
  (messages.map messageTokens).foldl (· + ·) 0 + 2

/-- Checks the context window limit before sending a request. -/
def checkContextLimit {TransportError SerdeError : Type} (model : String)
    (pricing : ModelPricing) (promptTokens : UInt32) :
    Except (AiError TransportError SerdeError) Unit :=
  if promptTokens > pricing.contextLimit then
    .error (.contextLengthExceeded model promptTokens pricing.contextLimit)
  else .ok ()

/-! ## The pricing registry -/

/-- Static pricing registry keyed by `provider/model`. -/
structure PricingRegistry where
  table : HashMap ModelPricing

namespace PricingRegistry

/-- The text that a pair is flattened into. -/
def key (provider model : String) : String := provider ++ "/" ++ model

def new : PricingRegistry := ⟨∅⟩

/-- Registers pricing for a model under a given provider name. -/
def register (registry : PricingRegistry) (provider model : String) (pricing : ModelPricing) :
    PricingRegistry :=
  ⟨registry.table.insert (key provider model) pricing⟩

def get (registry : PricingRegistry) (provider model : String) : Option ModelPricing :=
  registry.table.lookup (key provider model)

/-- A call of `register`. -/
structure Registration where
  provider : String
  model : String
  pricing : ModelPricing
  deriving Repr, DecidableEq

/-- The registry after these calls. -/
def run (calls : List Registration) : PricingRegistry :=
  calls.foldl (fun registry c => registry.register c.provider c.model c.pricing) new

end PricingRegistry

end Barqium.Native.Ai
