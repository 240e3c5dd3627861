import Mathlib.Algebra.Order.Floor.Ring
import Mathlib.Algebra.Order.Field.Basic
import Mathlib.Tactic.Positivity
import Barqium.Spec.RateLimitCorrect

/-!
# Local rate limiter: the wait a rejected call is told

A rejected call is told to wait for the whole seconds of the window. Between the
rejection and the retry only the clock moves, so the retry is decided by the slot
the rejected call left behind: in the same window the estimate falls with time,
and from the window after the next one on it is one.

## Key results

- `retryAfter_honest_iff`: every retry after the wait is admitted, if and only if
  there is room at the end of the wait, where the window has ended or the weighted
  counts are below the limit by then
-/

namespace Barqium.Native.RateLimiter

/-! ## The estimate over time -/

/-- The cast keeps the order. -/
private theorem asU64_mono {x y : ℚ} (h : x ≤ y) : asU64 x ≤ asU64 y := by
  have hfloor := Int.toNat_le_toNat (Int.floor_mono h)
  simp only [asU64]
  omega

private theorem asU64_zero : asU64 0 = 0 := by
  simp [asU64]

/-- Below a number the cast stays below it. -/
private theorem asU64_lt {x : ℚ} {n : Nat} (hn : 0 < n) (h : x < n) : asU64 x < n := by
  have hfloor : ⌊x⌋ < (n : Int) := Int.floor_lt.mpr (by exact_mod_cast h)
  simp only [asU64]
  omega

/-- The cast of a counter is the counter. -/
private theorem asU64_natCast {n : Nat} (h : n ≤ u64Max) : asU64 (n : ℚ) = n := by
  simp only [asU64, Int.floor_natCast, Int.toNat_natCast]
  exact Nat.min_eq_left h

/-- In a window the estimate falls as time passes. -/
private theorem estimate_antitone (slot : Slot) (window : Nat) {t t' : Nat} (h : t ≤ t') :
    estimate slot t' window ≤ estimate slot t window := by
  have helapsed : ((durationSince t slot.windowStart : Nat) : ℚ) ≤
      (durationSince t' slot.windowStart : Nat) := by
    simp only [durationSince]
    exact_mod_cast Nat.sub_le_sub_right h _
  -- the older the window before, the less it weighs
  have hweight : (1 : ℚ) - (durationSince t' slot.windowStart : Nat) / window ≤
      1 - (durationSince t slot.windowStart : Nat) / window :=
    sub_le_sub_left (div_le_div_of_nonneg_right helapsed (by positivity)) 1
  have hcast := asU64_mono (mul_le_mul_of_nonneg_left hweight
    (by positivity : (0 : ℚ) ≤ slot.prevCount))
  simp only [estimate]
  omega

/-! ## The retry -/

/-- The slot of a key is not touched by calls on other keys. -/
private theorem run_append_of_ne (config : RateLimitConfig) (calls mid : List LocalCall)
    {key : String}
    (h : ∀ d ∈ mid, d.key ≠ key) : run config (calls ++ mid) key = run config calls key := by
  induction mid using List.reverseRecOn with
  | nil => rw [List.append_nil]
  | append_singleton mid d ih =>
    rw [← List.append_assoc, run_snoc_of_ne config _ (h d (by simp))]
    exact ih fun e he => h e (by simp [he])

/-- Calls at any instant from `t` on find room in the slot: in its window the estimate
    at `t` is within the limit, and at its very end the current count, which then
    weighs in full, is below the limit. -/
def HasRoomFrom (config : RateLimitConfig) (slot : Slot) (t : Nat) : Prop :=
  (t < slot.windowStart + config.window →
    estimate slot t config.window ≤ config.maxRequests.toNat) ∧
  (t = slot.windowStart + config.window → config.window ≤ u64Max →
    slot.currCount < config.maxRequests.toNat)

/-- The estimate of a call in the window right after that of the slot: what was current
    is weighted by the rest of the new window. -/
private theorem estimate_next_window (config : RateLimitConfig) (slot : Slot) {t : Nat}
    (hone : durationSince t slot.windowStart / config.window = 1)
    (hle : config.window ≤ durationSince t slot.windowStart) :
    estimate (advanceWindow slot t config.window) t config.window =
      asU64 (slot.currCount * (1 - ((t - (slot.windowStart + min config.window u64Max) : Nat) : ℚ) /
        config.window)) + 1 := by
  rw [advanceWindow_of_le slot hle, hone, Nat.mul_one]
  simp only [estimate, durationSince, ↓reduceIte, Nat.add_zero]

/-- From the window after the next one on, nothing is left of the counts. -/
private theorem estimate_later_window (config : RateLimitConfig) (slot : Slot) {t : Nat}
    (hne : durationSince t slot.windowStart / config.window ≠ 1)
    (hle : config.window ≤ durationSince t slot.windowStart) :
    estimate (advanceWindow slot t config.window) t config.window = 1 := by
  rw [advanceWindow_of_le slot hle, if_neg hne]
  simp only [estimate, Nat.cast_zero, zero_mul, asU64_zero]

/-- A positive part of a window gone, the weight of a count is below the count. -/
private theorem weighted_lt {n e window : Nat} (hn : 0 < n) (he : 0 < e) (hw : 0 < window) :
    (n : ℚ) * (1 - (e : ℚ) / window) < n := by
  have hpart : (0 : ℚ) < n * ((e : ℚ) / window) := by positivity
  rw [mul_sub, mul_one]
  exact sub_lt_self _ hpart

/-- The weight is at most one. -/
private theorem weighted_le (n e window : Nat) : (n : ℚ) * (1 - (e : ℚ) / window) ≤ n := by
  have hpart : (0 : ℚ) ≤ n * ((e : ℚ) / window) := by positivity
  rw [mul_sub, mul_one]
  exact sub_le_self _ hpart

/-- In the window after that of the slot the current count alone decides, and it is
    below the limit or has lost some of its weight. -/
private theorem next_window_admits {config : RateLimitConfig} {slot : Slot} {t t' : Nat}
    (hw : 0 < config.window) (hmax : 0 < config.maxRequests.toNat)
    (hcurr : slot.currCount ≤ config.maxRequests.toNat) (hroom : HasRoomFrom config slot t)
    (ht : t ≤ t') (hle : config.window ≤ durationSince t' slot.windowStart) :
    asU64 (slot.currCount *
      (1 - ((t' - (slot.windowStart + min config.window u64Max) : Nat) : ℚ) / config.window)) <
        config.maxRequests.toNat := by
  apply asU64_lt hmax
  by_cases hlt : slot.currCount < config.maxRequests.toNat
  · -- with room left in the old window the weight does not matter
    have hcast : (slot.currCount : ℚ) < config.maxRequests.toNat := by exact_mod_cast hlt
    exact (weighted_le _ _ _).trans_lt hcast
  · -- with a full window the retry does not come at the first instant of the next one
    have hafter : 0 < t' - (slot.windowStart + min config.window u64Max) := by
      by_contra hnot
      have hinside : ¬ t < slot.windowStart + config.window := by
        intro h
        have hest := hroom.1 h
        have hcount := currCount_lt_estimate slot t config.window
        omega
      have hspan : config.window ≤ t' - slot.windowStart := hle
      refine hlt (hroom.2 ?_ ?_) <;> omega
    have hfull : slot.currCount = config.maxRequests.toNat := by omega
    have hweighted := weighted_lt (hfull ▸ hmax) hafter hw
    rw [hfull] at hweighted ⊢
    exact hweighted

/-- A slot whose current count is within the limit admits a call at every instant from
    `t` on, one instant at a time, if and only if it has room from `t` on. -/
theorem hasRoomFrom_iff {config : RateLimitConfig} {slot : Slot} (hw : 0 < config.window)
    (hmax : 0 < config.maxRequests.toNat)
    (hcurr : slot.currCount ≤ config.maxRequests.toNat) (t : Nat) :
    (∀ t', t ≤ t' → estimate (advanceWindow slot t' config.window) t' config.window ≤
        config.maxRequests.toNat) ↔ HasRoomFrom config slot t := by
  constructor
  · intro hall
    have hat := hall t (Nat.le_refl t)
    refine ⟨fun hin => ?_, ?_⟩
    · rw [advanceWindow_of_lt slot (by simp only [durationSince]; omega)] at hat
      exact hat
    · rintro rfl hfits
      have hspan : durationSince (slot.windowStart + config.window) slot.windowStart =
          config.window := by
        simp only [durationSince]
        omega
      -- at the end of the window the count weighs in full
      have hcount : slot.currCount ≤ u64Max := by
        have hlt := config.maxRequests.toNat_lt
        simp only [u64Max]
        omega
      rw [estimate_next_window config slot (by rw [hspan, Nat.div_self hw]) (by rw [hspan]),
        Nat.min_eq_left hfits, Nat.sub_self, Nat.cast_zero, zero_div, sub_zero, mul_one,
        asU64_natCast hcount] at hat
      omega
  · intro hroom t' ht
    by_cases hin : t' < slot.windowStart + config.window
    · -- in the window of the slot the estimate can only have fallen since `t`
      rw [advanceWindow_of_lt slot (by simp only [durationSince]; omega)]
      exact (estimate_antitone slot config.window ht).trans (hroom.1 (by omega))
    · have hle : config.window ≤ durationSince t' slot.windowStart := by
        simp only [durationSince]
        omega
      -- in the next window the current count still weighs, in later ones nothing does
      by_cases hone : durationSince t' slot.windowStart / config.window = 1
      · rw [estimate_next_window config slot hone hle]
        exact next_window_admits hw hmax hcurr hroom ht hle
      · rw [estimate_later_window config slot hone hle]
        exact hmax

/-! ## Honesty of the wait -/

/-- Every later call on the key of `c`, at least `s` seconds after `c` and with no
    other call on that key in between, is admitted. -/
def RetryAdmitted (config : RateLimitConfig) (calls : List LocalCall) (c : LocalCall)
    (s : UInt64) : Prop :=
  ∀ mid t, (∀ d ∈ mid, d.key ≠ c.key) → c.now + s.toNat * 1000000000 ≤ t →
    admitted config (run config (calls ++ c :: mid)) ⟨c.key, t⟩ = true

/-- The wait told by a rejected call is honest if and only if the slot the call decided
    on has room from the end of the wait on: its window still lasts then and the
    estimate has come down to the limit, or it ends at that very instant with a count
    below the limit, or it has ended before. -/
theorem retryAfter_honest_iff (config : RateLimitConfig) (hw : 0 < config.window)
    (hmax : 1 ≤ config.maxRequests.toNat) (calls : List LocalCall) (c : LocalCall) (s : UInt64)
    (hrej : (checkAndIncrement config (run config calls) c).1 = .error (.rateLimitExceeded s)) :
    RetryAdmitted config calls c s ↔
      HasRoomFrom config (entered config (run config calls) c)
        (c.now + s.toNat * 1000000000) := by
  have hnot : admitted config (run config calls) c = false := by
    rw [admitted, hrej]
    rfl
  have hsound := sound config hw c.key calls
  have hcurr : (entered config (run config calls) c).currCount ≤ config.maxRequests.toNat := by
    rw [(hsound.entered hw).curr]
    exact hsound.bound _
  rw [← hasRoomFrom_iff hw hmax hcurr]
  -- whatever happens on other keys, the retry finds the slot the rejected call left
  have hslot : ∀ mid, (∀ d ∈ mid, d.key ≠ c.key) → ∀ t,
      entered config (run config (calls ++ c :: mid)) ⟨c.key, t⟩ =
        advanceWindow (entered config (run config calls) c) t config.window := by
    intro mid hmid t
    have hrun : run config (calls ++ c :: mid) c.key =
        some (entered config (run config calls) c) := by
      rw [← List.singleton_append, ← List.append_assoc, run_append_of_ne config _ mid hmid,
        run_snoc_self, hnot]
      rfl
    rw [entered, hrun, Option.getD_some]
  constructor
  · intro hretry t ht
    -- the retry with nothing in between decides the room at `t`
    have hadm := hretry [] t (by simp) ht
    rw [admitted_iff, hslot [] (by simp)] at hadm
    exact hadm
  · intro hall mid t hmid ht
    rw [admitted_iff, hslot mid hmid]
    exact hall t ht

/-- With one request per second, a request rejected half a second after the admitted
    one finds room after its wait. -/
theorem retryAfter_honest_half_second :
    RetryAdmitted ⟨1, 1000000000⟩ [⟨"k", 0⟩] ⟨"k", 500000000⟩ 1 := by
  refine (retryAfter_honest_iff ⟨1, 1000000000⟩ (by decide) (by decide) [⟨"k", 0⟩]
    ⟨"k", 500000000⟩ 1 (by decide +kernel)).mpr ⟨?_, ?_⟩
  · intro h
    exact absurd h (by decide +kernel)
  · intro h
    exact absurd h (by decide +kernel)

/-- With one request per half second, a request rejected right after the admitted one is
    told to wait zero seconds, and is rejected again. -/
theorem half_second_window_wait :
    (checkAndIncrement ⟨1, 500000000⟩ (run ⟨1, 500000000⟩ [⟨"k", 0⟩]) ⟨"k", 0⟩).1 =
        .error (.rateLimitExceeded 0) ∧
      ¬ RetryAdmitted ⟨1, 500000000⟩ [⟨"k", 0⟩] ⟨"k", 0⟩ 0 := by
  refine ⟨by decide +kernel, fun h => ?_⟩
  have hadm := h [] 0 (by simp) (Nat.le_refl 0)
  rw [admitted_iff] at hadm
  exact absurd hadm (by decide +kernel)

end Barqium.Native.RateLimiter
