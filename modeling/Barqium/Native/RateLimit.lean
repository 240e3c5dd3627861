import Mathlib.Data.Rat.Floor
import Mathlib.Logic.Function.Basic
import Barqium.Native.RedisRateLimit

/-!
# Local sliding-window rate limiter

Model of `crates/barqium-policy/src/ratelimit.rs`: two counters per key and a
window start that moves by whole windows. Instants and durations are
nanoseconds. The floating-point weight of the previous window is an exact
rational. The entry of the map is locked for the whole call, so the calls on a
key form a sequence; `now` is read before the lock is taken, so the timestamps
of that sequence need not be ordered.
-/

namespace Barqium.Native

/-- Configuration for a single rate-limit policy; `window` is in nanoseconds. -/
structure RateLimitConfig where
  maxRequests : UInt64
  window : Nat
  deriving Repr, DecidableEq

/-- The counters of one key. -/
structure Slot where
  windowStart : Nat
  prevCount : Nat
  currCount : Nat
  deriving Repr, DecidableEq

/-- One call of `check_and_increment`: its key and the instant it read. -/
structure LocalCall where
  key : String
  now : Nat
  deriving Repr, DecidableEq

/-- The map of the limiter. -/
abbrev Slots := String → Option Slot

namespace RateLimiter

/-- `u64::MAX`. -/
def u64Max : Nat := 18446744073709551615

/-- `Instant::duration_since`, zero for an instant that lies ahead. -/
def durationSince (now earlier : Nat) : Nat := now - earlier

/-- The cast `x as u64`: truncated, and saturated at both ends. -/
def asU64 (x : ℚ) : Nat := min ⌊x⌋.toNat u64Max

/-- Advance `slot` to the window that contains `now`, preserving the previous
    window count for interpolation. The product cannot leave `u128`; the step is
    saturated at `u64::MAX` nanoseconds. -/
def advanceWindow (slot : Slot) (now window : Nat) : Slot :=
  let elapsed := durationSince now slot.windowStart
  if elapsed < window then slot
  else
    let advanceCount := elapsed / window
    let advanceNs := min (window * advanceCount) u64Max
    { windowStart := slot.windowStart + advanceNs
      prevCount := if advanceCount = 1 then slot.currCount else 0
      currCount := 0 }

/-- The request rate with the caller counted, the previous window weighted by
    what is left of it. -/
def estimate (slot : Slot) (now window : Nat) : Nat :=
  let elapsedInWindow := durationSince now slot.windowStart
  let prevWeight : ℚ := 1 - (elapsedInWindow : ℚ) / window
  asU64 (slot.prevCount * prevWeight) + slot.currCount + 1

/-- Check and increment the counter of the call's key. -/
def checkAndIncrement (config : RateLimitConfig) (slots : Slots) (c : LocalCall) :
    Except PolicyError UInt64 × Slots :=
  let slot := (slots c.key).getD ⟨c.now, 0, 0⟩
  let slot := advanceWindow slot c.now config.window
  let estimate := estimate slot c.now config.window
  if config.maxRequests.toNat < estimate then
    -- the guard is dropped here, and the advanced slot stays in the map
    (.error (.rateLimitExceeded (UInt64.ofNat (config.window / 1000000000))),
      Function.update slots c.key (some slot))
  else
    (.ok (UInt64.ofNat (config.maxRequests.toNat - estimate)),
      Function.update slots c.key (some { slot with currCount := slot.currCount + 1 }))

/-- The map after a sequence of calls on a new limiter. -/
def run (config : RateLimitConfig) (calls : List LocalCall) : Slots :=
  calls.foldl (fun slots c => (checkAndIncrement config slots c).2) fun _ => none

end RateLimiter

end Barqium.Native
