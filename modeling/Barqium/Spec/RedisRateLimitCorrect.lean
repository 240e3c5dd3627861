import Mathlib.Data.List.Induction
import Mathlib.Data.List.Perm.Subperm
import Barqium.Native.RedisRateLimit

/-!
# Distributed rate limiter: the bound per window

The script returns the number of members before the caller is added, while
`check_and_increment` compares it as if the caller were counted. The bound of
`max_requests` calls per window is therefore kept only when nobody exceeds it.

## Key results

- `rateBound_iff`: at most `max_requests` calls of a key are admitted in every
  window, if and only if at most that many are made in every window
-/

namespace Barqium.Native.RedisRateLimiter

/-! ## Windows -/

/-- The configured window in microseconds, as an exact number. -/
def windowUs (config : RedisRateLimitConfig) : Nat :=
  config.windowSecs.toNat * 1000000

/-- Calls for `key` with a timestamp in `(t - window, t]`. -/
def inWindow (config : RedisRateLimitConfig) (key : String) (t : Int) (c : LimiterCall) : Bool :=
  c.key = key ∧ t - windowUs config < c.nowUs ∧ (c.nowUs : Int) ≤ t

/-- Calls of the key of `c` with a timestamp after the start of the window of `c`. -/
def remains (config : RedisRateLimitConfig) (c d : LimiterCall) : Bool :=
  d.key = c.key ∧ (c.nowUs : Int) - windowUs config < d.nowUs

/-- At most `max_requests` calls for `key` are admitted in every window. -/
def RateBound (lua : LuaNumber) (config : RedisRateLimitConfig) (key : String)
    (calls : List LimiterCall) : Prop :=
  ∀ t, ((admittedCalls lua config (fun _ => none) calls).filter (inWindow config key t)).length ≤
    config.maxRequests.toNat

/-- A number in range is its own remainder. -/
private theorem bmod_eq_self {x : Int} (h₁ : -2 ^ 63 ≤ x) (h₂ : x < 2 ^ 63) :
    x.bmod (2 ^ 64) = x := by
  exact Int.bmod_eq_of_le (by omega) (by omega)

/-- The cutoff the Rust code computes trims nothing that lies in the exact
    window, whether or not its 64-bit arithmetic wraps. -/
private theorem inWindow_of_cutoff_lt (config : RedisRateLimitConfig) {c d : LimiterCall}
    (h : (Int64.ofNat c.nowUs - config.windowSecs.toInt64 * 1000000).toInt < d.nowUs) :
    (c.nowUs : Int) - windowUs config < d.nowUs := by
  have hc := c.fits
  by_cases hw : windowUs config < 2 ^ 63
  · -- nothing wraps, so the machine arithmetic is exact
    have hsecs : (config.windowSecs.toNat : Int).bmod (2 ^ 64) = config.windowSecs.toNat :=
      bmod_eq_self (by omega) (by simp only [windowUs] at hw; omega)
    have hto : config.windowSecs.toInt64.toInt = config.windowSecs.toNat := by
      rw [← hsecs, ← Int64.toInt_toBitVec, UInt64.toBitVec_toInt64, BitVec.toInt_eq_toNat_bmod]
      rfl
    have hwin : (config.windowSecs.toInt64 * 1000000).toInt = windowUs config := by
      rw [Int64.toInt_mul, hto]
      rw [show (1000000 : Int64).toInt = 1000000 from rfl]
      rw [bmod_eq_self (by omega) (by simp only [windowUs] at hw; omega)]
      simp [windowUs]
    rw [Int64.toInt_sub, hwin, Int64.toInt_ofNat_of_lt hc, bmod_eq_self (by omega) (by omega)] at h
    exact h
  · -- the window reaches back before every timestamp
    omega

/-! ## What one call does -/

/-- The members stored for `key`, expired or not. -/
def members (redis : Redis) (key : String) : List (Int × Int) :=
  ((redis ("rate:" ++ key)).map (·.members)).getD []

/-- The set a call finds: what is alive and above the cutoff. -/
def trimmed (lua : LuaNumber) (config : RedisRateLimitConfig) (redis : Redis)
    (c : LimiterCall) : SortedSet :=
  Redis.zremrangebyscore ((redis.live c.serverMs ("rate:" ++ c.key)).getD ⟨[], none⟩)
    (lua.tonumber (Int64.ofNat c.nowUs - config.windowSecs.toInt64 * 1000000).toInt)

/-- A call is admitted when at most `max_requests` members are counted; either
    way its timestamp joins the set. -/
theorem checkAndIncrement_eq (lua : LuaNumber) (config : RedisRateLimitConfig) (redis : Redis)
    (c : LimiterCall) :
    checkAndIncrement lua config redis c =
      (if (trimmed lua config redis c).members.length ≤ config.maxRequests.toNat then .ok ()
        else .error (.rateLimitExceeded config.windowSecs),
      Function.update redis ("rate:" ++ c.key)
        (Redis.expire
          (Redis.zadd (trimmed lua config redis c) (lua.tonumber c.nowUs) (lua.tonumber c.nowUs))
          c.serverMs (lua.tonumber (config.windowSecs + 1).toInt64.toInt))) := by
  have hnow : (Int64.ofNat c.nowUs).toInt = c.nowUs := Int64.toInt_ofNat_of_lt c.fits
  have hset : trimmed lua config redis c = Redis.zremrangebyscore
      ((redis.live c.serverMs ("rate:" ++ c.key)).getD ⟨[], none⟩)
      (lua.tonumber (Int64.ofNat c.nowUs - config.windowSecs.toInt64 * 1000000).toInt) := rfl
  simp only [checkAndIncrement, slidingWindowCheck, Redis.zcard, hnow, ← hset]
  -- the limiter denies when the count is above the limit, not when it reaches it
  split
  · rename_i h
    rw [if_neg (Nat.not_le.mpr h)]
  · rename_i h
    rw [if_pos (Nat.not_lt.mp h)]

/-- Trimming only takes members away. -/
theorem trimmed_sublist (lua : LuaNumber) (config : RedisRateLimitConfig) (redis : Redis)
    (c : LimiterCall) : (trimmed lua config redis c).members.Sublist (members redis c.key) := by
  simp only [trimmed, Redis.zremrangebyscore, Redis.live, members]
  cases redis ("rate:" ++ c.key) with
  | none => simp
  | some set =>
    simp only [Option.filter_some, Option.map_some, Option.getD_some]
    -- an expired set is found empty
    split
    · exact List.filter_sublist
    · exact List.nil_sublist _

/-- A call on another key leaves the members. -/
theorem members_checkAndIncrement_ne (lua : LuaNumber) (config : RedisRateLimitConfig)
    (redis : Redis) {c : LimiterCall} {key : String} (h : c.key ≠ key) :
    members (checkAndIncrement lua config redis c).2 key = members redis key := by
  have hne : "rate:" ++ key ≠ "rate:" ++ c.key :=
    fun he => h ((String.append_right_inj _).mp he).symm
  simp only [members, checkAndIncrement_eq, Function.update_of_ne hne]

/-- A call on the key adds at most its own member. -/
theorem members_checkAndIncrement_self (lua : LuaNumber) (config : RedisRateLimitConfig)
    (redis : Redis) (c : LimiterCall) :
    (members (checkAndIncrement lua config redis c).2 c.key).Sublist
      (Redis.zadd (trimmed lua config redis c) (lua.tonumber c.nowUs)
        (lua.tonumber c.nowUs)).members := by
  simp only [members, checkAndIncrement_eq, Function.update_self, Redis.expire]
  -- from a window of 2^63 - 1 seconds on the time to live is not positive and deletes the set
  split
  · exact List.Sublist.refl _
  · exact List.nil_sublist _

/-- A call adds at most one member to those it counted. -/
private theorem members_checkAndIncrement_length (lua : LuaNumber) (config : RedisRateLimitConfig)
    (redis : Redis) (c : LimiterCall) :
    (members (checkAndIncrement lua config redis c).2 c.key).length ≤
      (trimmed lua config redis c).members.length + 1 := by
  have hself := (members_checkAndIncrement_self lua config redis c).length_le
  have hzadd : (Redis.zadd (trimmed lua config redis c) (lua.tonumber c.nowUs)
      (lua.tonumber c.nowUs)).members.length ≤ (trimmed lua config redis c).members.length + 1 := by
    simp only [Redis.zadd, List.length_append, List.length_singleton]
    exact Nat.succ_le_succ (List.length_filter_le _ _)
  omega

/-! ## What the set of a key holds -/

/-- The members stored for a key stand for distinct earlier calls of that key. -/
structure Recorded (lua : LuaNumber) (key : String) (pre : List LimiterCall)
    (ms : List (Int × Int)) : Prop where
  nodup : (ms.map Prod.fst).Nodup
  origin : ∀ m ∈ ms, m.2 = m.1 ∧ ∃ c ∈ pre, c.key = key ∧ m.1 = lua.tonumber c.nowUs

/-- What is recorded of some members is recorded of fewer. -/
theorem Recorded.sublist {lua : LuaNumber} {key : String} {pre : List LimiterCall}
    {ms ms' : List (Int × Int)} (h : Recorded lua key pre ms) (hs : ms'.Sublist ms) :
    Recorded lua key pre ms' :=
  ⟨h.nodup.sublist (hs.map _), fun m hm => h.origin m (hs.subset hm)⟩

/-- Recording one more call keeps the members distinct. -/
theorem Recorded.zadd {lua : LuaNumber} {pre : List LimiterCall} {c : LimiterCall}
    {set : SortedSet} (h : Recorded lua c.key pre set.members) :
    Recorded lua c.key (pre ++ [c])
      (Redis.zadd set (lua.tonumber c.nowUs) (lua.tonumber c.nowUs)).members := by
  refine ⟨?_, ?_⟩
  · -- the same member is replaced, the others stay
    rw [Redis.zadd, List.map_append, List.nodup_append]
    refine ⟨h.nodup.sublist (List.filter_sublist.map _), by simp, ?_⟩
    intro a ha b hb
    obtain ⟨m, hm, rfl⟩ := List.mem_map.mp ha
    have hne : m.1 ≠ lua.tonumber c.nowUs := by simpa using (List.mem_filter.mp hm).2
    simp only [List.map_cons, List.map_nil, List.mem_singleton] at hb
    rw [hb]
    exact hne
  · intro m hm
    rcases List.mem_append.mp hm with hm | hm
    · obtain ⟨heq, d, hd, hkey, hval⟩ := h.origin m (List.mem_of_mem_filter hm)
      exact ⟨heq, d, List.mem_append_left _ hd, hkey, hval⟩
    · rw [List.mem_singleton.mp hm]
      exact ⟨rfl, c, by simp, rfl, rfl⟩

/-- One more call. -/
theorem run_concat (lua : LuaNumber) (config : RedisRateLimitConfig) (redis : Redis)
    (pre : List LimiterCall) (c : LimiterCall) :
    run lua config redis (pre ++ [c]) =
      (checkAndIncrement lua config (run lua config redis pre) c).2 := by
  simp [run]

/-- After any sequence of calls, every set records calls of its own key. -/
theorem recorded_run (lua : LuaNumber) (config : RedisRateLimitConfig) (key : String)
    (pre : List LimiterCall) :
    Recorded lua key pre (members (run lua config (fun _ => none) pre) key) := by
  induction pre using List.reverseRecOn with
  | nil => exact ⟨by simp [members, run], by simp [members, run]⟩
  | append_singleton pre c ih =>
    rw [run_concat]
    by_cases hkey : c.key = key
    · subst hkey
      -- trimmed, extended by the call, and possibly expired
      exact ((ih.sublist (trimmed_sublist lua config _ c)).zadd).sublist
        (members_checkAndIncrement_self lua config _ c)
    · rw [members_checkAndIncrement_ne lua config _ hkey]
      exact ⟨ih.nodup, fun m hm =>
        let ⟨heq, d, hd, hk, hv⟩ := ih.origin m hm
        ⟨heq, d, List.mem_append_left _ hd, hk, hv⟩⟩

/-! ## The bound -/

/-- The admitted calls of two runs, one after the other. -/
theorem admittedCalls_append (lua : LuaNumber) (config : RedisRateLimitConfig) (redis : Redis)
    (xs ys : List LimiterCall) :
    admittedCalls lua config redis (xs ++ ys) =
      admittedCalls lua config redis xs ++
        admittedCalls lua config (run lua config redis xs) ys := by
  induction xs generalizing redis with
  | nil => rfl
  | cons c xs ih =>
    simp only [List.cons_append, admittedCalls, ih, run, List.foldl_cons]
    split <;> rfl

/-- One call is admitted if the window is not over-full. -/
theorem admittedCalls_singleton (lua : LuaNumber) (config : RedisRateLimitConfig) (redis : Redis)
    (c : LimiterCall) :
    admittedCalls lua config redis [c] =
      if (trimmed lua config redis c).members.length ≤ config.maxRequests.toNat then [c]
      else [] := by
  simp only [admittedCalls, checkAndIncrement_eq]
  by_cases h : (trimmed lua config redis c).members.length ≤ config.maxRequests.toNat
  · simp only [h, ↓reduceIte]
  · simp only [h, ↓reduceIte]

/-- The admitted calls are some of the calls made. -/
private theorem admittedCalls_sublist (lua : LuaNumber) (config : RedisRateLimitConfig)
    (redis : Redis)
    (calls : List LimiterCall) : (admittedCalls lua config redis calls).Sublist calls := by
  induction calls generalizing redis with
  | nil => exact List.Sublist.refl _
  | cons c calls ih =>
    simp only [admittedCalls]
    split
    · exact (ih _).cons_cons c
    · exact (ih _).cons c

/-- The members counted for a call are distinct recorded calls that remain in its window. -/
theorem Recorded.trimmed_length_le {lua : LuaNumber} {redis : Redis} {c : LimiterCall}
    {ds : List LimiterCall} (h : Recorded lua c.key ds (members redis c.key))
    (config : RedisRateLimitConfig) :
    (trimmed lua config redis c).members.length ≤ (ds.filter (remains config c)).length := by
  have hsub := trimmed_sublist lua config redis c
  -- each counted member is the number of a recorded call inside the window
  have hmem : (trimmed lua config redis c).members.map Prod.fst ⊆
      (ds.filter (remains config c)).map fun d => lua.tonumber d.nowUs := by
    intro x hx
    obtain ⟨m, hm, rfl⟩ := List.mem_map.mp hx
    obtain ⟨heq, d, hd, hkey, hval⟩ := h.origin m (hsub.subset hm)
    have hcut := (List.mem_filter.mp hm).2
    simp only [decide_eq_true_eq, heq, hval] at hcut
    refine List.mem_map.mpr ⟨d, List.mem_filter.mpr ⟨hd, ?_⟩, hval.symm⟩
    have hlt : (Int64.ofNat c.nowUs - config.windowSecs.toInt64 * 1000000).toInt < d.nowUs := by
      -- rounding to doubles is monotone, so it cannot turn `≤` into `>`
      by_contra hge
      have := lua.monotone _ _ (Int.not_lt.mp hge)
      omega
    simp only [remains, decide_eq_true_eq]
    exact ⟨hkey, inWindow_of_cutoff_lt config hlt⟩
  have hlen := ((h.sublist hsub).nodup.subperm hmem).length_le
  simpa only [List.length_map] using hlen

/-- A call and the members counted for it are distinct calls of its own window. -/
private theorem trimmed_lt_window (lua : LuaNumber) {config : RedisRateLimitConfig}
    {pre : List LimiterCall} {c : LimiterCall} (hwin : 0 < windowUs config)
    (hinc : ∀ d ∈ pre, d.nowUs < c.nowUs) :
    (trimmed lua config (run lua config (fun _ => none) pre) c).members.length <
      ((pre ++ [c]).filter (inWindow config c.key c.nowUs)).length := by
  have hcounted := (recorded_run lua config c.key pre).trimmed_length_le config
  -- all of them were made before `c`
  have hwindow : pre.filter (remains config c) = pre.filter (inWindow config c.key c.nowUs) := by
    refine List.filter_congr fun d hd => ?_
    have hbefore := hinc d hd
    simp only [remains, inWindow, decide_eq_decide]
    exact and_congr_right fun _ => ⟨fun h => ⟨h, by omega⟩, And.left⟩
  have hself : inWindow config c.key c.nowUs c = true := by
    simp only [inWindow, decide_eq_true_eq]
    exact ⟨trivial, by omega, Int.le_refl _⟩
  rw [hwindow] at hcounted
  rw [List.filter_append, List.length_append, List.filter_cons_of_pos hself]
  simp only [List.filter_nil, List.length_singleton]
  omega

/-- The window has calls on its key only. -/
private theorem filter_inWindow_key (config : RedisRateLimitConfig) (key : String) (t : Int)
    (calls : List LimiterCall) :
    (calls.filter (·.key = key)).filter (inWindow config key t) =
      calls.filter (inWindow config key t) := by
  rw [List.filter_filter]
  refine List.filter_congr fun c _ => ?_
  simp only [inWindow, Bool.decide_and, ← Bool.and_assoc, Bool.and_right_comm, Bool.and_self]

/-- While the bound holds, no set outgrows the limit, so every call is admitted. -/
private theorem admitted_of_rateBound {lua : LuaNumber} {config : RedisRateLimitConfig}
    {key : String}
    {a : Arrivals} (hbound : RateBound lua config key a.calls) (hwin : 0 < windowUs config)
    (pre : List LimiterCall) (hpre : pre <+: a.calls) :
    (admittedCalls lua config (fun _ => none) pre).filter (·.key = key) =
      pre.filter (·.key = key) ∧
    (members (run lua config (fun _ => none) pre) key).length ≤ config.maxRequests.toNat := by
  -- the next call is admitted, since the members before it are within the bound
  induction pre using List.reverseRecOn with
  | nil => simp [admittedCalls, members, run]
  | append_singleton pre c ih =>
    obtain ⟨hadm, hsize⟩ := ih ((List.prefix_append pre [c]).trans hpre)
    rw [run_concat, admittedCalls_append, admittedCalls_singleton]
    by_cases hkey : c.key = key
    · subst hkey
      have hcount : (trimmed lua config (run lua config (fun _ => none) pre) c).members.length ≤
          config.maxRequests.toNat :=
        Nat.le_trans (trimmed_sublist lua config _ c).length_le hsize
      have hall : (admittedCalls lua config (fun _ => none) (pre ++ [c])).filter (·.key = c.key) =
          (pre ++ [c]).filter (·.key = c.key) := by
        rw [admittedCalls_append, admittedCalls_singleton, if_pos hcount, List.filter_append, hadm,
          List.filter_append]
      rw [if_pos hcount, List.filter_append, hadm, List.filter_append]
      refine ⟨rfl, ?_⟩
      -- the call and the members counted for it are all admitted, so they obey the bound
      have hinc : ∀ d ∈ pre, d.nowUs < c.nowUs := fun d hd =>
        (List.pairwise_append.mp (a.increasing.sublist hpre.sublist)).2.2 d hd c (by simp)
      have hwindow := trimmed_lt_window lua hwin hinc
      rw [← filter_inWindow_key, ← hall, filter_inWindow_key] at hwindow
      have hle : ((admittedCalls lua config (fun _ => none) (pre ++ [c])).filter
          (inWindow config c.key c.nowUs)).length ≤ config.maxRequests.toNat := by
        obtain ⟨rest, hrest⟩ := hpre
        refine Nat.le_trans (List.Sublist.length_le (List.Sublist.filter _ ?_)) (hbound c.nowUs)
        rw [← hrest, admittedCalls_append lua config _ (pre ++ [c]) rest]
        exact List.sublist_append_left _ _
      have hgrow := members_checkAndIncrement_length lua config
        (run lua config (fun _ => none) pre) c
      omega
    · rw [members_checkAndIncrement_ne lua config _ hkey, List.filter_append, hadm,
        List.filter_append]
      refine ⟨?_, hsize⟩
      congr 1
      split <;> simp [hkey]

/-- At most `max_requests` calls of a key are admitted in every window if and
    only if at most `max_requests` calls of that key are made in every window. -/
theorem rateBound_iff (lua : LuaNumber) (config : RedisRateLimitConfig) (key : String)
    (a : Arrivals) :
    RateBound lua config key a.calls ↔
      ∀ t, (a.calls.filter (inWindow config key t)).length ≤ config.maxRequests.toNat := by
  constructor
  · intro hbound t
    by_cases hwin : 0 < windowUs config
    · -- under the bound every call is admitted
      have hall := (admitted_of_rateBound hbound hwin a.calls List.prefix_rfl).1
      rw [← filter_inWindow_key, ← hall, filter_inWindow_key]
      exact hbound t
    · -- no call lies in an empty window
      have hnone : a.calls.filter (inWindow config key t) = [] := by
        rw [List.filter_eq_nil_iff]
        intro c _
        simp only [inWindow, decide_eq_true_eq]
        omega
      rw [hnone]
      exact Nat.zero_le _
  · intro hcalls t
    exact Nat.le_trans
      ((admittedCalls_sublist lua config _ a.calls).filter _).length_le (hcalls t)

/-- With a limit of one request per second, two requests within a microsecond are
    both admitted. -/
theorem limit_of_one_admits_two :
    ¬ RateBound ⟨id, fun _ _ h => h⟩ ⟨1, 1⟩ "k"
      (Arrivals.mk [⟨"k", 5000000, by decide, 5000⟩, ⟨"k", 5000001, by decide, 5000⟩]
        (by decide)).calls := by
  intro h
  exact absurd (h 5000001) (by decide)

end Barqium.Native.RedisRateLimiter
