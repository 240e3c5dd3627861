import Mathlib.Logic.Function.Basic

/-!
# Circuit breaker registry

Model of `crates/barqium-core/src/circuit_breaker.rs`. Every operation takes the
`DashMap` entry of its upstream for its whole critical section and reads the
clock inside it, so concurrent requests amount to a sequence of atomic calls in
the order in which they take the entry. An `Instant` is a natural number of
clock ticks and a `Duration` a number of ticks.
-/

namespace Barqium.Native

/-- The observable state of a single circuit breaker (`opened` is the source's `Open`). -/
inductive CircuitState where
  | closed
  | opened
  | halfOpen
  deriving Repr, DecidableEq

/-- Mutable state of a single upstream breaker. The failure counter is a `u32`
    that wraps in the release profile. -/
structure BreakerState where
  state : CircuitState
  consecutiveFailures : UInt32
  openedAt : Option Nat
  deriving Repr, DecidableEq

/-- A breaker starts `Closed`. -/
def BreakerState.new : BreakerState := ⟨.closed, 0, none⟩

/-- Per-upstream circuit breaker registry. -/
structure CircuitBreakerRegistry where
  breakers : String → Option BreakerState
  failureThreshold : UInt32
  resetTimeout : Nat

namespace CircuitBreakerRegistry

/-- A registry with no breaker yet. -/
def new (failureThreshold : UInt32) (resetTimeout : Nat) : CircuitBreakerRegistry :=
  ⟨fun _ => none, failureThreshold, resetTimeout⟩

/-- `breakers.entry(id).or_insert_with(BreakerState::new)`. -/
def entry (reg : CircuitBreakerRegistry) (upstreamId : String) : BreakerState :=
  (reg.breakers upstreamId).getD BreakerState.new

/-- Store the entry back when its guard is dropped. -/
def setEntry (reg : CircuitBreakerRegistry) (upstreamId : String) (b : BreakerState) :
    CircuitBreakerRegistry :=
  { reg with breakers := Function.update reg.breakers upstreamId (some b) }

/-- Whether the upstream is allowed to receive a request at time `now`. -/
def allow (reg : CircuitBreakerRegistry) (upstreamId : String) (now : Nat) :
    Bool × CircuitBreakerRegistry :=
  let entry := reg.entry upstreamId
  match entry.state with
  | .closed | .halfOpen => (true, reg.setEntry upstreamId entry)
  | .opened =>
    -- `Instant::elapsed` saturates at zero, as `Nat` subtraction does
    let elapsed := (entry.openedAt.map (now - ·)).getD 0
    if elapsed ≥ reg.resetTimeout then
      (true, reg.setEntry upstreamId { entry with state := .halfOpen, consecutiveFailures := 0 })
    else
      (false, reg.setEntry upstreamId entry)

/-- Record a successful response from an upstream. -/
def recordSuccess (reg : CircuitBreakerRegistry) (upstreamId : String) : CircuitBreakerRegistry :=
  let entry := reg.entry upstreamId
  reg.setEntry upstreamId { entry with state := .closed, consecutiveFailures := 0 }

/-- Record a failure (5xx or timeout) from an upstream at time `now`. -/
def recordFailure (reg : CircuitBreakerRegistry) (upstreamId : String) (now : Nat) :
    CircuitBreakerRegistry :=
  let entry := reg.entry upstreamId
  let failures := entry.consecutiveFailures + 1
  if entry.state = .halfOpen ∨ failures ≥ reg.failureThreshold then
    reg.setEntry upstreamId
      { state := .opened, consecutiveFailures := failures, openedAt := some now }
  else
    reg.setEntry upstreamId { entry with consecutiveFailures := failures }

/-- The current state of the circuit for `upstreamId`. -/
def state (reg : CircuitBreakerRegistry) (upstreamId : String) : CircuitState :=
  ((reg.breakers upstreamId).map (·.state)).getD .closed

end CircuitBreakerRegistry

/-- The three operations a request performs on the registry. -/
inductive BreakerOp where
  | allow
  | recordSuccess
  | recordFailure
  deriving Repr, DecidableEq

/-- One call: the operation, its upstream and the clock reading inside its critical section. -/
structure BreakerCall where
  op : BreakerOp
  upstreamId : String
  now : Nat
  deriving Repr, DecidableEq

namespace CircuitBreakerRegistry

/-- The registry after a call. -/
def step (reg : CircuitBreakerRegistry) (c : BreakerCall) : CircuitBreakerRegistry :=
  match c.op with
  | .allow => (reg.allow c.upstreamId c.now).2
  | .recordSuccess => reg.recordSuccess c.upstreamId
  | .recordFailure => reg.recordFailure c.upstreamId c.now

/-- Whether a call is an `allow` that returns `true`. -/
def admits (reg : CircuitBreakerRegistry) (c : BreakerCall) : Bool :=
  match c.op with
  | .allow => (reg.allow c.upstreamId c.now).1
  | .recordSuccess | .recordFailure => false

/-- The registry after a sequence of calls. -/
def run (reg : CircuitBreakerRegistry) (calls : List BreakerCall) : CircuitBreakerRegistry :=
  calls.foldl step reg

end CircuitBreakerRegistry

/-- An interleaving of the calls of any number of requests. The monotonic clock
    never goes backwards along it. -/
structure Schedule where
  calls : List BreakerCall
  monotone : calls.Pairwise fun c d => c.now ≤ d.now

end Barqium.Native
