import Mathlib.Algebra.Group.Nat.Defs
import Mathlib.Algebra.Group.Int.Defs
import Mathlib.Logic.Function.Basic

/-!
# Distributed sliding-window rate limiter

Model of `crates/barqium-policy/src/redis_ratelimit.rs`: the Rust arithmetic on
64-bit words and the Lua script over a Redis keyspace. The script is atomic, so
the calls of all gateway instances form a sequence. The commands follow the
Redis documentation; `tonumber` is the script's conversion of an argument to a
Lua number and stays a parameter.
-/

namespace Barqium.Native

/-- Errors produced by the barqium-policy evaluator. -/
inductive PolicyError where
  | jwksFetch (message : String)
  | jwtDecode (message : String)
  | jwtMissingKid
  | jwtUnknownKid (kid : String)
  | apiKeyNotFound
  | rateLimitExceeded (retryAfterSecs : UInt64)
  deriving Repr, DecidableEq

/-- Configuration for the distributed sliding-window rate limiter. -/
structure RedisRateLimitConfig where
  maxRequests : UInt64
  windowSecs : UInt64
  deriving Repr, DecidableEq

/-! ## Redis -/

/-- A sorted-set key. A member is the text of a number, so it is kept as that
    number; `expireAt` is in milliseconds of the server's clock. -/
structure SortedSet where
  members : List (Int × Int)
  expireAt : Option Int
  deriving Repr, DecidableEq

/-- The keys of the server that hold a sorted set. -/
abbrev Redis := String → Option SortedSet

namespace Redis

/-- The set stored under `key`, unless its time to live has run out. -/
def live (redis : Redis) (serverMs : Int) (key : String) : Option SortedSet :=
  (redis key).filter fun s => s.expireAt.all (serverMs < ·)

/-- `ZREMRANGEBYSCORE key -inf max`. -/
def zremrangebyscore (set : SortedSet) (max : Int) : SortedSet :=
  { set with members := set.members.filter fun m => max < m.2 }

/-- `ZCARD key`. -/
def zcard (set : SortedSet) : Nat := set.members.length

/-- `ZADD key score member`: a member already in the set takes the new score. -/
def zadd (set : SortedSet) (score member : Int) : SortedSet :=
  { set with members := (set.members.filter fun m => m.1 ≠ member) ++ [(member, score)] }

/-- `EXPIRE key ttl`: a time to live that is not positive deletes the key. -/
def expire (set : SortedSet) (serverMs ttl : Int) : Option SortedSet :=
  if 0 < ttl then some { set with expireAt := some (serverMs + ttl * 1000) } else none

end Redis

/-- Conversion of a script argument to a Lua number: the nearest double. All that
    is used of it is that it is monotone. -/
structure LuaNumber where
  tonumber : Int → Int
  monotone : ∀ a b, a ≤ b → tonumber a ≤ tonumber b

/-! ## The limiter -/

/-- One call of `check_and_increment`: its key, the caller's clock in
    microseconds since the epoch (within an `i64`) and the server's clock when
    the script runs. -/
structure LimiterCall where
  key : String
  nowUs : Nat
  fits : nowUs < 2 ^ 63
  serverMs : Int
  deriving Repr, DecidableEq

namespace RedisRateLimiter

/-- The Lua script: trim the set, count it, add the caller, refresh the time to
    live, and return the count taken before the caller was added. -/
def slidingWindowCheck (lua : LuaNumber) (redis : Redis) (serverMs : Int) (key : String)
    (cutoff nowUs ttl : Int64) : Nat × Redis :=
  let set := (redis.live serverMs key).getD ⟨[], none⟩
  let set := Redis.zremrangebyscore set (lua.tonumber cutoff.toInt)
  let count := Redis.zcard set
  let set := Redis.zadd set (lua.tonumber nowUs.toInt) (lua.tonumber nowUs.toInt)
  (count, Function.update redis key (Redis.expire set serverMs (lua.tonumber ttl.toInt)))

/-- Check whether the call's key is within the rate limit, incrementing the counter. -/
def checkAndIncrement (lua : LuaNumber) (config : RedisRateLimitConfig) (redis : Redis)
    (c : LimiterCall) : Except PolicyError Unit × Redis :=
  let nowUs := Int64.ofNat c.nowUs
  let windowUs := config.windowSecs.toInt64 * 1000000
  let cutoff := nowUs - windowUs
  let redisKey := "rate:" ++ c.key
  let ttl := config.windowSecs + 1
  let (count, redis) :=
    slidingWindowCheck lua redis c.serverMs redisKey cutoff nowUs ttl.toInt64
  -- the script has added the call already
  if count > config.maxRequests.toNat then
    (.error (.rateLimitExceeded config.windowSecs), redis)
  else
    (.ok (), redis)

/-- The keyspace after a sequence of calls. -/
def run (lua : LuaNumber) (config : RedisRateLimitConfig) (redis : Redis)
    (calls : List LimiterCall) : Redis :=
  calls.foldl (fun redis c => (checkAndIncrement lua config redis c).2) redis

/-- The calls of a sequence that are admitted. -/
def admittedCalls (lua : LuaNumber) (config : RedisRateLimitConfig) :
    Redis → List LimiterCall → List LimiterCall
  | _, [] => []
  | redis, c :: calls =>
    let (outcome, redis') := checkAndIncrement lua config redis c
    match outcome with
    | .ok () => c :: admittedCalls lua config redis' calls
    | .error _ => admittedCalls lua config redis' calls

end RedisRateLimiter

/-- A sequence of calls with non-decreasing, pairwise distinct timestamps. -/
structure Arrivals where
  calls : List LimiterCall
  increasing : calls.Pairwise fun c d => c.nowUs < d.nowUs

end Barqium.Native
