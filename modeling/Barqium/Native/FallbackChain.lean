import Barqium.ForStd.Program
import Barqium.Native.AiProvider

/-!
# Fallback chain of AI providers

Model of `crates/barqium-ai/src/fallback.rs`. A provider is foreign to the chain: what counts
is in which order the chain calls its providers. Log output is left out.
-/

namespace Barqium.Native.Ai

/-- An ordered list of providers; `new` asserts that there is one. -/
structure FallbackChain (P : Type) where
  providers : List P
  nonempty : providers ≠ []

/-- A call of a provider by the chain, with the number of the attempt. -/
inductive ProviderCall (P Error Stream : Type) : Type → Type where
  | chat (attempt : Nat) (provider : P) (req : ChatRequest) :
    ProviderCall P Error Stream (Except Error ChatResponse)
  | chatStream (attempt : Nat) (provider : P) (req : ChatRequest) :
    ProviderCall P Error Stream (Except Error Stream)

/-- Errors that another provider would not cure. -/
def isPermanent {TransportError SerdeError : Type} : AiError TransportError SerdeError → Bool
  | .budgetExceeded _ _ => true
  | .contextLengthExceeded _ _ _ => true
  | _ => false

namespace FallbackChain

variable {P TransportError SerdeError Stream R : Type}

/-- The loop of `chat` and `chat_stream` over the providers with their positions. -/
def loop {Op : Type → Type} (call : P × Nat → Op (Except (AiError TransportError SerdeError) R))
    (attempts : Nat) : List (P × Nat) → Program Op (AiError TransportError SerdeError) R
  | [] => throw (.allProvidersFailed attempts)
  | provider :: rest => do
    match ← Program.perform (call provider) with
    | .ok resp => return resp
    | .error e => if isPermanent e then throw e else loop call attempts rest

/-- Sends a non-streaming request, trying each provider in order. -/
def chat (chain : FallbackChain P) (req : ChatRequest) :
    Program (ProviderCall P (AiError TransportError SerdeError) Stream)
      (AiError TransportError SerdeError) ChatResponse :=
  loop (fun (provider, i) => .chat i provider req) chain.providers.length chain.providers.zipIdx

/-- Sends a streaming request; the set-up of a stream is what can fail. -/
def chatStream (chain : FallbackChain P) (req : ChatRequest) :
    Program (ProviderCall P (AiError TransportError SerdeError) Stream)
      (AiError TransportError SerdeError) Stream :=
  loop (fun (provider, i) => .chatStream i provider req) chain.providers.length
    chain.providers.zipIdx

end FallbackChain

end Barqium.Native.Ai
