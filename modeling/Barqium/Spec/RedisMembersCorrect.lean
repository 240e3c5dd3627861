import Mathlib.Data.List.Nodup
import Barqium.Spec.RedisRateLimitCorrect

/-!
# Distributed rate limiter: which calls the sorted set stands for

The member added for a call is its timestamp, and it is added before the count
is judged. So two calls in one microsecond share a member, and a denied call
occupies one.

## Key results

- `countsEveryCall_iff`: every admitted call adds one member to its window, if and
  only if no admitted call finds its own timestamp in the set (and the window and
  the time to live it computes are positive)
- `denied_keeps_quota`: a denied call leaves the members newer than the cutoff if
  and only if its timestamp is already one of them; in runs where that is so, a
  call is admitted when fewer than `max_requests` admitted calls remain in the window
-/

namespace Barqium.Native.RedisRateLimiter

/-! ## The window a call sees -/

/-- The cutoff of a call as the script compares it. -/
def cutoffNumber (lua : LuaNumber) (config : RedisRateLimitConfig) (c : LimiterCall) : Int :=
  lua.tonumber (Int64.ofNat c.nowUs - config.windowSecs.toInt64 * 1000000).toInt

/-- The time to live a call sets, as the script passes it to `EXPIRE`. -/
def ttlNumber (lua : LuaNumber) (config : RedisRateLimitConfig) : Int :=
  lua.tonumber (config.windowSecs + 1).toInt64.toInt

/-- The members of the call's set that have not expired when the call is made. -/
def liveMembers (redis : Redis) (c : LimiterCall) : List (Int × Int) :=
  ((redis.live c.serverMs ("rate:" ++ c.key)).map (·.members)).getD []

/-- The members in the current window of a call: alive, with a score above the cutoff. -/
def windowMembers (lua : LuaNumber) (config : RedisRateLimitConfig) (redis : Redis)
    (c : LimiterCall) : List (Int × Int) :=
  (liveMembers redis c).filter fun m => cutoffNumber lua config c < m.2

/-- The call is admitted. -/
def Admits (lua : LuaNumber) (config : RedisRateLimitConfig) (redis : Redis)
    (c : LimiterCall) : Prop :=
  (checkAndIncrement lua config redis c).1 = .ok ()

/-- The call is denied. -/
def Denies (lua : LuaNumber) (config : RedisRateLimitConfig) (redis : Redis)
    (c : LimiterCall) : Prop :=
  (checkAndIncrement lua config redis c).1 = .error (.rateLimitExceeded config.windowSecs)

/-- After the trimming the members of the window are left. -/
private theorem trimmed_members (lua : LuaNumber) (config : RedisRateLimitConfig) (redis : Redis)
    (c : LimiterCall) :
    (trimmed lua config redis c).members = windowMembers lua config redis c := by
  simp only [trimmed, Redis.zremrangebyscore, windowMembers, liveMembers, cutoffNumber]
  cases redis.live c.serverMs ("rate:" ++ c.key) <;> rfl

/-- A call is admitted while the window has no more members than allowed. -/
theorem admits_iff (lua : LuaNumber) (config : RedisRateLimitConfig) (redis : Redis)
    (c : LimiterCall) :
    Admits lua config redis c ↔
      (windowMembers lua config redis c).length ≤ config.maxRequests.toNat := by
  simp only [Admits, checkAndIncrement_eq, trimmed_members]
  split <;> simp_all

/-- Otherwise it is denied. -/
theorem denies_iff (lua : LuaNumber) (config : RedisRateLimitConfig) (redis : Redis)
    (c : LimiterCall) :
    Denies lua config redis c ↔
      config.maxRequests.toNat < (windowMembers lua config redis c).length := by
  simp only [Denies, checkAndIncrement_eq, trimmed_members]
  split <;> simp_all

/-- The members a call leaves in its own set: those in its window, with its own
    timestamp once; none when the time to live is not positive. -/
private theorem liveMembers_checkAndIncrement (lua : LuaNumber) (config : RedisRateLimitConfig)
    (redis : Redis) (c : LimiterCall) :
    liveMembers (checkAndIncrement lua config redis c).2 c =
      if 0 < ttlNumber lua config then
        ((windowMembers lua config redis c).filter fun m => m.1 ≠ lua.tonumber c.nowUs) ++
          [(lua.tonumber c.nowUs, lua.tonumber c.nowUs)]
      else [] := by
  simp only [liveMembers, checkAndIncrement_eq, Redis.live, Function.update_self, Redis.expire,
    ← trimmed_members, ttlNumber]
  split
  · rename_i hpos
    -- the new time of expiry lies after the time of the call
    have halive : c.serverMs <
        c.serverMs + lua.tonumber (config.windowSecs + 1).toInt64.toInt * 1000 := by omega
    simp only [Option.filter_some, Option.all_some, halive, decide_true, ↓reduceIte,
      Option.map_some, Option.getD_some, Redis.zadd]
  · rfl

/-- The live members are among the stored ones. -/
private theorem liveMembers_sublist (redis : Redis) (c : LimiterCall) :
    (liveMembers redis c).Sublist (members redis c.key) := by
  simp only [liveMembers, members, Redis.live]
  cases redis ("rate:" ++ c.key) with
  | none => simp
  | some set =>
    simp only [Option.filter_some, Option.map_some, Option.getD_some]
    split
    · exact List.Sublist.refl _
    · exact List.nil_sublist _

/-! ## Every admitted call is counted -/

/-- Every admitted call of the run adds one member to its window: afterwards the
    window holds one member more than just before the call was added. -/
def CountsEveryCall (lua : LuaNumber) (config : RedisRateLimitConfig)
    (calls : List LimiterCall) : Prop :=
  ∀ pre c post, calls = pre ++ c :: post →
    Admits lua config (run lua config (fun _ => none) pre) c →
    (windowMembers lua config (run lua config (fun _ => none) (pre ++ [c])) c).length =
      (windowMembers lua config (run lua config (fun _ => none) pre) c).length + 1

/-- The timestamp of the call is not yet a member of its set, its window is not empty
    and the set does not expire at once. -/
structure FreshMember (lua : LuaNumber) (config : RedisRateLimitConfig) (redis : Redis)
    (c : LimiterCall) : Prop where
  window : cutoffNumber lua config c < lua.tonumber c.nowUs
  ttl : 0 < ttlNumber lua config
  fresh : ∀ m ∈ liveMembers redis c, m.1 ≠ lua.tonumber c.nowUs

/-- The size of the window after a call: the members with another number, and the
    call itself if its timestamp lies above its cutoff. -/
private theorem windowMembers_checkAndIncrement (lua : LuaNumber) (config : RedisRateLimitConfig)
    (redis : Redis) (c : LimiterCall) :
    (windowMembers lua config (checkAndIncrement lua config redis c).2 c).length =
      if 0 < ttlNumber lua config then
        ((windowMembers lua config redis c).filter fun m => m.1 ≠ lua.tonumber c.nowUs).length +
          (if cutoffNumber lua config c < lua.tonumber c.nowUs then 1 else 0)
      else 0 := by
  rw [windowMembers, liveMembers_checkAndIncrement]
  split
  · -- the members kept lie above the cutoff already
    have hkept : (((windowMembers lua config redis c).filter fun m =>
        m.1 ≠ lua.tonumber c.nowUs).filter fun m => cutoffNumber lua config c < m.2) =
        (windowMembers lua config redis c).filter fun m => m.1 ≠ lua.tonumber c.nowUs := by
      rw [List.filter_eq_self]
      intro m hm
      exact (List.mem_filter.mp (List.mem_of_mem_filter hm)).2
    rw [List.filter_append, List.length_append, hkept]
    congr 1
    split <;> simp_all
  · rfl

/-- One call adds one member to its window if and only if it is fresh, in a set whose
    members carry their own number as score. -/
theorem counted_iff {lua : LuaNumber} {config : RedisRateLimitConfig} {redis : Redis}
    {c : LimiterCall} (hscore : ∀ m ∈ liveMembers redis c, m.2 = m.1) :
    (windowMembers lua config (checkAndIncrement lua config redis c).2 c).length =
        (windowMembers lua config redis c).length + 1 ↔
      FreshMember lua config redis c := by
  rw [windowMembers_checkAndIncrement]
  have hle := (windowMembers lua config redis c).length_filter_le
    fun m => m.1 ≠ lua.tonumber c.nowUs
  constructor
  · intro h
    split at h
    · rename_i httl
      split at h
      · rename_i hwin
        refine ⟨hwin, httl, fun m hm heq => ?_⟩
        have hall := List.length_filter_eq_length_iff.mp (Nat.add_right_cancel h)
        -- a member with the number of the call has it as score, so it lies in the window
        have hin : m ∈ windowMembers lua config redis c :=
          List.mem_filter.mpr ⟨hm, by rw [hscore m hm, heq]; exact decide_eq_true hwin⟩
        exact absurd heq (of_decide_eq_true (hall m hin))
      · omega
    · omega
  · rintro ⟨hwin, httl, hfresh⟩
    rw [if_pos httl, if_pos hwin, List.filter_eq_self.mpr]
    intro m hm
    exact decide_eq_true (hfresh m (List.mem_of_mem_filter hm))

/-- In every run from an empty keyspace, each admitted call is counted by a member of
    its own if and only if each admitted call is fresh: its timestamp, as the script's
    number, lies above its cutoff and is no live member of its set, and the time to
    live is positive. -/
theorem countsEveryCall_iff (lua : LuaNumber) (config : RedisRateLimitConfig)
    (calls : List LimiterCall) :
    CountsEveryCall lua config calls ↔
      ∀ pre c post, calls = pre ++ c :: post →
        Admits lua config (run lua config (fun _ => none) pre) c →
        FreshMember lua config (run lua config (fun _ => none) pre) c := by
  -- every member is its own score
  have hscore : ∀ pre (c : LimiterCall),
      ∀ m ∈ liveMembers (run lua config (fun _ => none) pre) c, m.2 = m.1 :=
    fun pre c m hm =>
      ((recorded_run lua config c.key pre).origin m ((liveMembers_sublist _ c).subset hm)).1
  constructor
  · intro hcounts pre c post hsplit hadm
    have hone := hcounts pre c post hsplit hadm
    rw [run_concat] at hone
    exact (counted_iff (hscore pre c)).mp hone
  · intro hfresh pre c post hsplit hadm
    rw [run_concat]
    exact (counted_iff (hscore pre c)).mpr (hfresh pre c post hsplit hadm)

/-- Two requests in the same microsecond are both admitted and share one member. -/
theorem same_microsecond_counted_once :
    ¬ CountsEveryCall ⟨id, fun _ _ h => h⟩ ⟨5, 1⟩
      [⟨"k", 5000000, by decide, 5000⟩, ⟨"k", 5000000, by decide, 5000⟩] := by
  intro h
  have htwo := h [⟨"k", 5000000, by decide, 5000⟩] ⟨"k", 5000000, by decide, 5000⟩ [] rfl
    (by rw [admits_iff]; decide)
  exact absurd htwo (by decide)

/-! ## Denied calls -/

/-- The members of every sorted set of the limiter are distinct, as Redis keeps them. -/
def WellFormed (redis : Redis) : Prop :=
  ∀ key, ((members redis key).map Prod.fst).Nodup

/-- After the call its set contains exactly the members it had that are newer than
    the cutoff. -/
def KeepsMembers (lua : LuaNumber) (config : RedisRateLimitConfig) (redis : Redis)
    (c : LimiterCall) : Prop :=
  ∀ m, m ∈ liveMembers (checkAndIncrement lua config redis c).2 c ↔
    m ∈ liveMembers redis c ∧ cutoffNumber lua config c < m.2

/-- The timestamp of the call is already a member of its set, with itself as a score
    above the cutoff, and the time to live is positive. -/
def AlreadyMember (lua : LuaNumber) (config : RedisRateLimitConfig) (redis : Redis)
    (c : LimiterCall) : Prop :=
  (lua.tonumber c.nowUs, lua.tonumber c.nowUs) ∈ liveMembers redis c ∧
    cutoffNumber lua config c < lua.tonumber c.nowUs ∧ 0 < ttlNumber lua config

/-- Every call of the run is admitted when fewer than `max_requests` of the calls
    admitted before it remain in its window. -/
def AdmitsWhenFree (lua : LuaNumber) (config : RedisRateLimitConfig)
    (calls : List LimiterCall) : Prop :=
  ∀ pre c post, calls = pre ++ c :: post →
    ((admittedCalls lua config (fun _ => none) pre).filter (remains config c)).length <
      config.maxRequests.toNat →
    Admits lua config (run lua config (fun _ => none) pre) c

/-- The members of the window are the live ones behind the cutoff. -/
private theorem mem_windowMembers {lua : LuaNumber} {config : RedisRateLimitConfig} {redis : Redis}
    {c : LimiterCall} {m : Int × Int} :
    m ∈ windowMembers lua config redis c ↔
      m ∈ liveMembers redis c ∧ cutoffNumber lua config c < m.2 := by
  simp [windowMembers]

/-- Live members are distinct. -/
theorem WellFormed.liveMembers {redis : Redis} (h : WellFormed redis) (c : LimiterCall) :
    ((liveMembers redis c).map Prod.fst).Nodup :=
  (h c.key).sublist ((liveMembers_sublist redis c).map _)

/-- Where the members left by a call come from: its window, or the call itself. -/
private theorem mem_of_mem_checkAndIncrement {lua : LuaNumber} {config : RedisRateLimitConfig}
    {redis : Redis} {c : LimiterCall} {m : Int × Int}
    (h : m ∈ liveMembers (checkAndIncrement lua config redis c).2 c) :
    m ∈ windowMembers lua config redis c ∨ m = (lua.tonumber c.nowUs, lua.tonumber c.nowUs) := by
  rw [liveMembers_checkAndIncrement] at h
  split at h
  · rcases List.mem_append.mp h with h | h
    · exact .inl (List.mem_of_mem_filter h)
    · exact .inr (List.mem_singleton.mp h)
  · cases h

/-- A denied call keeps the members of its window if and only if its own timestamp is
    one of them. -/
theorem keepsMembers_iff {lua : LuaNumber} {config : RedisRateLimitConfig} {redis : Redis}
    (hwf : WellFormed redis) {c : LimiterCall} (hdenied : Denies lua config redis c) :
    KeepsMembers lua config redis c ↔ AlreadyMember lua config redis c := by
  constructor
  · intro hkeeps
    -- something was counted, so the set is not deleted
    have hcount := (denies_iff lua config redis c).mp hdenied
    obtain ⟨m, hm⟩ := List.exists_mem_of_length_pos (Nat.zero_lt_of_lt hcount)
    have hm := (hkeeps m).mpr (mem_windowMembers.mp hm)
    rw [liveMembers_checkAndIncrement] at hm
    split at hm
    · rename_i httl
      have hself := hkeeps (lua.tonumber c.nowUs, lua.tonumber c.nowUs)
      rw [liveMembers_checkAndIncrement, if_pos httl] at hself
      -- the call itself is in the set now, so it was there before
      obtain ⟨hlive, hcut⟩ := hself.mp (by simp)
      exact ⟨hlive, hcut, httl⟩
    · cases hm
  · rintro ⟨hlive, hcut, httl⟩ m
    rw [← mem_windowMembers]
    have hself : (lua.tonumber c.nowUs, lua.tonumber c.nowUs) ∈ windowMembers lua config redis c :=
      mem_windowMembers.mpr ⟨hlive, hcut⟩
    constructor
    · intro hm
      rcases mem_of_mem_checkAndIncrement hm with hm | rfl
      · exact hm
      · exact hself
    · intro hm
      rw [liveMembers_checkAndIncrement, if_pos httl]
      by_cases heq : m.1 = lua.tonumber c.nowUs
      · -- the members are distinct, so `m` is the one that `ZADD` writes again
        have hmself : m = (lua.tonumber c.nowUs, lua.tonumber c.nowUs) :=
          List.inj_on_of_nodup_map (hwf.liveMembers c) (mem_windowMembers.mp hm).1 hlive heq
        rw [hmself]
        exact List.mem_append_right _ (List.mem_singleton.mpr rfl)
      · exact List.mem_append_left _ (List.mem_filter.mpr ⟨hm, decide_eq_true heq⟩)

/-- What is recorded of some calls is recorded of more. -/
theorem Recorded.mono {lua : LuaNumber} {key : String} {ds ds' : List LimiterCall}
    {ms : List (Int × Int)} (h : Recorded lua key ds ms) (hsub : ds ⊆ ds') :
    Recorded lua key ds' ms := by
  refine ⟨h.nodup, fun m hm => ?_⟩
  obtain ⟨heq, d, hd, hkey, hval⟩ := h.origin m hm
  exact ⟨heq, d, hsub hd, hkey, hval⟩

/-- A denied call whose timestamp is already a member records nothing new. -/
private theorem recorded_of_alreadyMember {lua : LuaNumber} {config : RedisRateLimitConfig}
    {redis : Redis} {c : LimiterCall} {ds : List LimiterCall}
    (h : Recorded lua c.key ds (members redis c.key))
    (hself : (lua.tonumber c.nowUs, lua.tonumber c.nowUs) ∈ liveMembers redis c) :
    Recorded lua c.key ds (members (checkAndIncrement lua config redis c).2 c.key) := by
  have htrim := h.sublist (trimmed_sublist lua config redis c)
  refine Recorded.sublist ⟨htrim.zadd.nodup, fun m hm => ?_⟩
    (members_checkAndIncrement_self lua config redis c)
  rcases List.mem_append.mp hm with hm | hm
  · exact htrim.origin m (List.mem_of_mem_filter hm)
  · rw [List.mem_singleton.mp hm]
    exact h.origin _ ((liveMembers_sublist redis c).subset hself)

/-- Along a run whose denied calls find their timestamp in the set, every set records
    admitted calls only. -/
private theorem recorded_admittedCalls {lua : LuaNumber} {config : RedisRateLimitConfig}
    {calls : List LimiterCall}
    (hdenied : ∀ pre c post, calls = pre ++ c :: post →
      Denies lua config (run lua config (fun _ => none) pre) c →
      AlreadyMember lua config (run lua config (fun _ => none) pre) c) (key : String) :
    Recorded lua key (admittedCalls lua config (fun _ => none) calls)
      (members (run lua config (fun _ => none) calls) key) := by
  induction calls using List.reverseRecOn with
  | nil => exact ⟨by simp [members, run], by simp [members, run]⟩
  | append_singleton pre c ih =>
    have hpre := ih fun pre' d post hsplit => hdenied pre' d (post ++ [c]) (by rw [hsplit]; simp)
    rw [run_concat, admittedCalls_append, admittedCalls_singleton]
    by_cases hkey : c.key = key
    · subst hkey
      split
      · -- an admitted call records itself
        exact ((hpre.sublist (trimmed_sublist lua config _ c)).zadd).sublist
          (members_checkAndIncrement_self lua config _ c)
      · rename_i hmany
        have hden : Denies lua config (run lua config (fun _ => none) pre) c := by
          rw [denies_iff, ← trimmed_members]
          exact Nat.lt_of_not_le hmany
        -- a denied one rewrites a member that an admitted call left
        rw [List.append_nil]
        exact recorded_of_alreadyMember hpre (hdenied pre c [] rfl hden).1
    · rw [members_checkAndIncrement_ne lua config _ hkey]
      exact hpre.mono (List.subset_append_left _ _)

/-- For every sorted-set state, a denied call leaves exactly the members newer than its
    cutoff if and only if its own timestamp is already one of them; and in every run
    from an empty keyspace whose denied calls all find it so, a call is admitted as
    soon as fewer than `max_requests` admitted calls remain in its window. -/
theorem denied_keeps_quota (lua : LuaNumber) (config : RedisRateLimitConfig) :
    (∀ redis c, WellFormed redis → Denies lua config redis c →
      (KeepsMembers lua config redis c ↔ AlreadyMember lua config redis c)) ∧
    ∀ calls, (∀ pre c post, calls = pre ++ c :: post →
        Denies lua config (run lua config (fun _ => none) pre) c →
        AlreadyMember lua config (run lua config (fun _ => none) pre) c) →
      AdmitsWhenFree lua config calls := by
  refine ⟨fun redis c hwf hden => keepsMembers_iff hwf hden, ?_⟩
  rintro calls hdenied pre c post hsplit hfree
  -- what is counted has all been admitted
  have hrec : Recorded lua c.key (admittedCalls lua config (fun _ => none) pre)
      (members (run lua config (fun _ => none) pre) c.key) := by
    refine recorded_admittedCalls (fun pre' d mid hpre => ?_) c.key
    exact hdenied pre' d (mid ++ c :: post) (by rw [hsplit, hpre]; simp)
  have hcounted := hrec.trimmed_length_le config
  rw [trimmed_members] at hcounted
  rw [admits_iff]
  omega

/-- A retry in the same microsecond as the admitted request is denied and leaves the
    set as it is. -/
theorem denied_keeps_quota_same_microsecond :
    let redis := run ⟨id, fun _ _ h => h⟩ ⟨0, 1⟩ (fun _ => none)
      [⟨"k", 5000000, by decide, 5000⟩]
    Denies ⟨id, fun _ _ h => h⟩ ⟨0, 1⟩ redis ⟨"k", 5000000, by decide, 5000⟩ ∧
      KeepsMembers ⟨id, fun _ _ h => h⟩ ⟨0, 1⟩ redis ⟨"k", 5000000, by decide, 5000⟩ := by
  intro redis
  have hwf : WellFormed redis := fun key => (recorded_run _ _ key _).nodup
  have hden : Denies ⟨id, fun _ _ h => h⟩ ⟨0, 1⟩ redis ⟨"k", 5000000, by decide, 5000⟩ := by
    rw [denies_iff]
    decide
  exact ⟨hden, ((denied_keeps_quota _ _).1 redis _ hwf hden).mpr ⟨by decide, by decide, by decide⟩⟩

/-- With a limit of one request per second, two requests are admitted and two retries
    denied; the retries stay in the set and keep the client out although no admitted
    request remains in the window. -/
theorem denied_retries_extend_denial :
    ¬ KeepsMembers ⟨id, fun _ _ h => h⟩ ⟨1, 1⟩
      (run ⟨id, fun _ _ h => h⟩ ⟨1, 1⟩ (fun _ => none)
        [⟨"k", 5000000, by decide, 5000⟩, ⟨"k", 5000001, by decide, 5000⟩])
      ⟨"k", 5000002, by decide, 5000⟩ ∧
    ¬ AdmitsWhenFree ⟨id, fun _ _ h => h⟩ ⟨1, 1⟩
      [⟨"k", 5000000, by decide, 5000⟩, ⟨"k", 5000001, by decide, 5000⟩,
        ⟨"k", 5000002, by decide, 5000⟩, ⟨"k", 5000003, by decide, 5000⟩,
        ⟨"k", 6000001, by decide, 6000⟩] := by
  constructor
  · intro h
    exact absurd ((h (5000002, 5000002)).mp (by decide)) (by decide)
  · intro h
    have hadm := h [⟨"k", 5000000, by decide, 5000⟩, ⟨"k", 5000001, by decide, 5000⟩,
      ⟨"k", 5000002, by decide, 5000⟩, ⟨"k", 5000003, by decide, 5000⟩]
      ⟨"k", 6000001, by decide, 6000⟩ [] rfl (by decide)
    rw [admits_iff] at hadm
    exact absurd hadm (by decide)

end Barqium.Native.RedisRateLimiter
