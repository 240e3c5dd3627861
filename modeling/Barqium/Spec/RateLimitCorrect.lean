import Mathlib.Data.List.Induction
import Barqium.Native.RateLimit

/-!
# Local rate limiter: what a window and an interval admit

A slot counts the calls it admits in its window and remembers the count of the
window before. The counters are related here to the history of admitted calls,
each recorded with the start of the window that admitted it.

The window start moves by at most `u64::MAX` nanoseconds in one call. A call
that comes later than that leaves the slot behind the clock, so what ties the
window to the clock from above holds only for calls in range of the window they
find. What the counters say of the windows before needs no range.

## Key results

- `slidingWindow_bound`: a window admits at most `max_requests` calls and the
  previous count is that of the window before whatever the timestamps; with
  ordered timestamps in range an interval of one window length admits at most
  twice the limit
-/

namespace Barqium.Native.RateLimiter

/-! ## The history of a limiter -/

/-- The slot a call decides on: that of its key, advanced to its instant. -/
def entered (config : RateLimitConfig) (slots : Slots) (c : LocalCall) : Slot :=
  advanceWindow ((slots c.key).getD ⟨c.now, 0, 0⟩) c.now config.window

/-- Whether a call is admitted. -/
def admitted (config : RateLimitConfig) (slots : Slots) (c : LocalCall) : Bool :=
  (checkAndIncrement config slots c).1.isOk

/-- An admitted call with the start of the window that admitted it. -/
structure Admission where
  key : String
  now : Nat
  windowStart : Nat
  deriving Repr, DecidableEq

def admissionsFrom (config : RateLimitConfig) : Slots → List LocalCall → List Admission
  | _, [] => []
  | slots, c :: calls =>
    let rest := admissionsFrom config (checkAndIncrement config slots c).2 calls
    if admitted config slots c then
      ⟨c.key, c.now, (entered config slots c).windowStart⟩ :: rest
    else rest

/-- The calls of a sequence that a new limiter admits. -/
def admissions (config : RateLimitConfig) (calls : List LocalCall) : List Admission :=
  admissionsFrom config (fun _ => none) calls

/-- How many calls on `key` the window that starts at `start` has admitted. -/
def admittedIn (config : RateLimitConfig) (key : String) (calls : List LocalCall)
    (start : Nat) : Nat :=
  (admissions config calls).countP fun a => a.key = key ∧ a.windowStart = start

/-- How many calls on `key` the window right before the one that starts at
    `start` has admitted. -/
def admittedPreceding (config : RateLimitConfig) (key : String) (calls : List LocalCall)
    (start : Nat) : Nat :=
  (admissions config calls).countP fun a => a.key = key ∧ a.windowStart + config.window = start

/-- How many calls on `key` were admitted in the window right before the one that a
    call at `now` enters: that window is the one of the slot if the call comes in the
    one right after it, and it was skipped if the call comes later. -/
def admittedBefore (config : RateLimitConfig) (key : String) (calls : List LocalCall)
    (now : Nat) : Nat :=
  match run config calls key with
  | none => 0
  | some s =>
    let elapsed := durationSince now s.windowStart
    if elapsed < config.window then s.prevCount
    else if elapsed < 2 * config.window then admittedIn config key calls s.windowStart
    else 0

/-- How many calls on `key` with a timestamp in `[lo, hi)` were admitted. -/
def admittedBetween (config : RateLimitConfig) (key : String) (calls : List LocalCall)
    (lo hi : Nat) : Nat :=
  (admissions config calls).countP fun a => a.key = key ∧ lo ≤ a.now ∧ a.now < hi

/-- Every call on `key` comes at most `u64::MAX` nanoseconds after the start of
    the window it finds. -/
def InRange (config : RateLimitConfig) (key : String) (calls : List LocalCall) : Prop :=
  ∀ pre c post, calls = pre ++ c :: post → c.key = key → ∀ s, run config pre key = some s →
    durationSince c.now s.windowStart ≤ u64Max

/-- The calls on `key`. -/
def callsOn (key : String) (calls : List LocalCall) : List LocalCall :=
  calls.filter fun c => c.key = key

/-- The timestamps of the calls on `key` never go backwards. -/
def NonDecreasing (key : String) (calls : List LocalCall) : Prop :=
  (callsOn key calls).Pairwise fun c d => c.now ≤ d.now

/-! ## What one call does -/

@[simp] theorem run_nil (config : RateLimitConfig) : run config [] = fun _ => none := rfl

/-- One more call. -/
private theorem run_snoc (config : RateLimitConfig) (calls : List LocalCall) (c : LocalCall) :
    run config (calls ++ [c]) = (checkAndIncrement config (run config calls) c).2 := by
  simp [run, List.foldl_append]

/-- A call is admitted when its estimate is within the limit, and counted in the
    window it entered only then. -/
private theorem checkAndIncrement_slot (config : RateLimitConfig) (slots : Slots) (c : LocalCall) :
    (checkAndIncrement config slots c).2 =
      Function.update slots c.key (some
        (if admitted config slots c then
          { entered config slots c with
            currCount := (entered config slots c).currCount + 1 }
        else entered config slots c)) := by
  simp only [admitted, checkAndIncrement, entered]
  split <;> simp [Except.isOk, Except.toBool]

/-- A call is admitted while the estimate is within the limit. -/
theorem admitted_iff (config : RateLimitConfig) (slots : Slots) (c : LocalCall) :
    admitted config slots c = true ↔
      estimate (entered config slots c) c.now config.window ≤ config.maxRequests.toNat := by
  simp only [admitted, checkAndIncrement, entered]
  split
  · simp only [Except.isOk, Except.toBool]
    simp; omega
  · simp only [Except.isOk, Except.toBool]
    simp; omega

/-- The estimate counts the current window and the caller in full. -/
theorem currCount_lt_estimate (slot : Slot) (now window : Nat) :
    slot.currCount < estimate slot now window := by
  simp only [estimate]
  omega

/-- The admissions of two runs, one after the other. -/
private theorem admissionsFrom_append (config : RateLimitConfig) (slots : Slots)
    (calls calls' : List LocalCall) :
    admissionsFrom config slots (calls ++ calls') = admissionsFrom config slots calls ++
      admissionsFrom config
        (calls.foldl (fun slots c => (checkAndIncrement config slots c).2) slots) calls' := by
  induction calls generalizing slots with
  | nil => rfl
  | cons c calls ih =>
    simp only [List.cons_append, admissionsFrom, List.foldl_cons, ih]
    split <;> rfl

/-- One more call adds its admission, if it is admitted. -/
private theorem admissions_snoc (config : RateLimitConfig) (calls : List LocalCall)
    (c : LocalCall) :
    admissions config (calls ++ [c]) = admissions config calls ++
      if admitted config (run config calls) c then
        [⟨c.key, c.now, (entered config (run config calls) c).windowStart⟩] else [] := by
  rw [admissions, admissionsFrom_append]
  simp only [admissionsFrom]
  rfl

/-- A call inside the window leaves it. -/
theorem advanceWindow_of_lt (slot : Slot) {now window : Nat}
    (h : durationSince now slot.windowStart < window) : advanceWindow slot now window = slot := by
  simp only [advanceWindow, if_pos h]

/-- A later call moves it on by whole windows. -/
theorem advanceWindow_of_le (slot : Slot) {now window : Nat}
    (h : window ≤ durationSince now slot.windowStart) :
    advanceWindow slot now window =
      { windowStart := slot.windowStart +
          min (window * (durationSince now slot.windowStart / window)) u64Max
        prevCount :=
          if durationSince now slot.windowStart / window = 1 then slot.currCount else 0
        currCount := 0 } := by
  simp only [advanceWindow, if_neg (Nat.not_lt.mpr h)]

/-- Advancing leaves a slot alone until its window is over; then it moves the
    start forward and empties the current count. -/
theorem advanceWindow_cases (slot : Slot) (now : Nat) {window : Nat} (hw : 0 < window) :
    advanceWindow slot now window = slot ∨
      slot.windowStart < (advanceWindow slot now window).windowStart ∧
        (advanceWindow slot now window).currCount = 0 := by
  by_cases h : durationSince now slot.windowStart < window
  · exact .inl (advanceWindow_of_lt slot h)
  · right
    -- at least one whole window has passed
    have hcount : 0 < durationSince now slot.windowStart / window :=
      Nat.div_pos (Nat.not_lt.mp h) hw
    have hstep : 0 < window * (durationSince now slot.windowStart / window) :=
      Nat.mul_pos hw hcount
    rw [advanceWindow_of_le slot (Nat.not_lt.mp h)]
    refine ⟨?_, rfl⟩
    show slot.windowStart < slot.windowStart + _
    simp only [u64Max]
    omega

/-- In range the start moves by whole windows, to the one that holds `now`. -/
private theorem advanceWindow_start (slot : Slot) (window : Nat) {now : Nat}
    (hr : durationSince now slot.windowStart ≤ u64Max) :
    (advanceWindow slot now window).windowStart =
      slot.windowStart + window * (durationSince now slot.windowStart / window) := by
  by_cases h : durationSince now slot.windowStart < window
  · rw [advanceWindow_of_lt slot h, Nat.div_eq_of_lt h]
    rfl
  · have hle : window * (durationSince now slot.windowStart / window) ≤
        durationSince now slot.windowStart := Nat.mul_div_le _ _
    rw [advanceWindow_of_le slot (Nat.not_lt.mp h)]
    show slot.windowStart + min _ _ = _
    rw [Nat.min_eq_left (hle.trans hr)]

/-! ## The counters and the history

The invariant relates the slot of a key to the admissions of that key. It is
stated over the slot a call enters, where a new slot and an existing one look
alike: no admission is later than its window, and its current count is the
number of admissions of that window. -/

/-- The window of a slot is the latest one and its current count is right. -/
structure Counted (config : RateLimitConfig) (key : String) (calls : List LocalCall)
    (slot : Slot) : Prop where
  latest : ∀ a ∈ admissions config calls, a.key = key → a.windowStart ≤ slot.windowStart
  curr : slot.currCount = admittedIn config key calls slot.windowStart

/-- What holds of the slot of `key` after a sequence of calls. -/
structure Sound (config : RateLimitConfig) (key : String) (calls : List LocalCall) : Prop where
  slot : ∀ s, run config calls key = some s → Counted config key calls s
  fresh : run config calls key = none → ∀ a ∈ admissions config calls, a.key ≠ key
  bound : ∀ start, admittedIn config key calls start ≤ config.maxRequests.toNat

/-- A window in which nothing was admitted. -/
private theorem admittedIn_eq_zero {config : RateLimitConfig} {key : String}
    {calls : List LocalCall} {start : Nat}
    (h : ∀ a ∈ admissions config calls, a.key = key → a.windowStart ≠ start) :
    admittedIn config key calls start = 0 := by
  rw [admittedIn, List.countP_eq_zero]
  intro a ha
  simpa using h a ha

/-- The counters are right in the window a call enters. -/
theorem Sound.entered {config : RateLimitConfig} {calls : List LocalCall} {c : LocalCall}
    (hw : 0 < config.window) (h : Sound config c.key calls) :
    Counted config c.key calls (entered config (run config calls) c) := by
  cases hs : run config calls c.key with
  | none =>
    -- a new slot starts now, with nothing admitted before
    have hnew : RateLimiter.entered config (run config calls) c = ⟨c.now, 0, 0⟩ := by
      rw [RateLimiter.entered, hs]
      exact advanceWindow_of_lt _ (by simpa [durationSince] using hw)
    rw [hnew]
    refine ⟨fun a ha hk => absurd hk (h.fresh hs a ha), ?_⟩
    exact (admittedIn_eq_zero fun a ha hk => absurd hk (h.fresh hs a ha)).symm
  | some s =>
    have hc := h.slot s hs
    rw [RateLimiter.entered, hs, Option.getD_some]
    rcases advanceWindow_cases s c.now hw with heq | ⟨hlt, hzero⟩
    · rw [heq]
      exact hc
    · -- a window that has just been opened is later than every admission
      refine ⟨fun a ha hk => (hc.latest a ha hk).trans hlt.le, ?_⟩
      rw [hzero, admittedIn_eq_zero]
      intro a ha hk
      have hle := hc.latest a ha hk
      omega

/-- The slot of a call's key after the call. -/
theorem run_snoc_self (config : RateLimitConfig) (calls : List LocalCall) (c : LocalCall) :
    run config (calls ++ [c]) c.key = some
      (if admitted config (run config calls) c then
        { entered config (run config calls) c with
          currCount := (entered config (run config calls) c).currCount + 1 }
      else entered config (run config calls) c) := by
  rw [run_snoc, checkAndIncrement_slot, Function.update_self]

/-- A call on another key leaves the slot. -/
theorem run_snoc_of_ne (config : RateLimitConfig) (calls : List LocalCall) {c : LocalCall}
    {key : String} (h : c.key ≠ key) : run config (calls ++ [c]) key = run config calls key := by
  rw [run_snoc, checkAndIncrement_slot, Function.update_of_ne h.symm]

/-- A call adds to a count of admissions when it is admitted and counts. -/
private theorem countP_admissions_snoc (config : RateLimitConfig) (calls : List LocalCall)
    (c : LocalCall) (p : Admission → Bool) :
    (admissions config (calls ++ [c])).countP p = (admissions config calls).countP p +
      if admitted config (run config calls) c ∧
        p ⟨c.key, c.now, (entered config (run config calls) c).windowStart⟩ then 1 else 0 := by
  rw [admissions_snoc, List.countP_append]
  cases admitted config (run config calls) c <;> simp [List.countP_cons]

/-- Calls on other keys leave every count of `key` alone. -/
private theorem countP_admissions_of_ne (config : RateLimitConfig) (calls : List LocalCall)
    {c : LocalCall} {key : String} (h : c.key ≠ key) (p : Admission → Prop) [DecidablePred p] :
    (admissions config (calls ++ [c])).countP (fun a => a.key = key ∧ p a) =
      (admissions config calls).countP fun a => a.key = key ∧ p a := by
  rw [countP_admissions_snoc]
  simp [h]

/-- An admission after one more call is an old one, or the call itself. -/
private theorem mem_admissions_snoc {config : RateLimitConfig} {calls : List LocalCall}
    {c : LocalCall} {a : Admission} (h : a ∈ admissions config (calls ++ [c])) :
    a ∈ admissions config calls ∨
      a = ⟨c.key, c.now, (entered config (run config calls) c).windowStart⟩ := by
  rw [admissions_snoc, List.mem_append] at h
  refine h.imp_right fun h => ?_
  split at h
  · exact List.mem_singleton.mp h
  · exact nomatch h

/-- A call on the key keeps the counts right. -/
theorem Sound.snoc_self {config : RateLimitConfig} {calls : List LocalCall} {c : LocalCall}
    (hw : 0 < config.window) (h : Sound config c.key calls) :
    Sound config c.key (calls ++ [c]) := by
  have he := h.entered hw
  refine ⟨fun s hs => ?_, fun hnone => ?_, fun start => ?_⟩
  · rw [run_snoc_self, Option.some_inj] at hs
    -- the slot written is the one the call entered
    have hstart : s.windowStart =
        (RateLimiter.entered config (run config calls) c).windowStart := by
      rw [← hs]
      split <;> rfl
    refine ⟨fun a ha hk => ?_, ?_⟩
    · rcases mem_admissions_snoc ha with hold | rfl
      · exact hstart ▸ he.latest a hold hk
      · exact hstart.ge
    · rw [admittedIn, countP_admissions_snoc, hstart]
      have hcurr := he.curr
      simp only [admittedIn] at hcurr
      rw [← hs, ← hcurr]
      cases admitted config (run config calls) c <;> simp
  · rw [run_snoc_self] at hnone
    exact nomatch hnone
  · rw [admittedIn, countP_admissions_snoc]
    split
    · -- the call was admitted in this window: its estimate bounds the count
      rename_i hadm
      obtain ⟨hok, hp⟩ := hadm
      have hest := (admitted_iff config (run config calls) c).mp hok
      have hlt := currCount_lt_estimate (RateLimiter.entered config (run config calls) c) c.now
        config.window
      simp only [decide_eq_true_eq, true_and] at hp
      have hcurr := he.curr
      rw [hp] at hcurr
      simp only [admittedIn] at hcurr
      omega
    · exact h.bound start

/-- A call on another key keeps them too. -/
theorem Sound.snoc_of_ne {config : RateLimitConfig} {calls : List LocalCall} {c : LocalCall}
    {key : String} (hk : c.key ≠ key) (h : Sound config key calls) :
    Sound config key (calls ++ [c]) := by
  -- a call on another key admits nothing here
  have hmem : ∀ a ∈ admissions config (calls ++ [c]), a.key = key →
      a ∈ admissions config calls := by
    intro a ha hak
    rcases mem_admissions_snoc ha with hold | rfl
    · exact hold
    · exact absurd hak hk
  have hcount : ∀ start, admittedIn config key (calls ++ [c]) start =
      admittedIn config key calls start := fun start => countP_admissions_of_ne config calls hk _
  refine ⟨fun s hs => ?_, fun hnone a ha hak => ?_, fun start => ?_⟩
  · rw [run_snoc_of_ne config calls hk] at hs
    have hc := h.slot s hs
    exact ⟨fun a ha hak => hc.latest a (hmem a ha hak) hak, by rw [hcount]; exact hc.curr⟩
  · rw [run_snoc_of_ne config calls hk] at hnone
    exact h.fresh hnone a (hmem a ha hak) hak
  · rw [hcount]
    exact h.bound start

/-- The counters are right after every sequence of calls, whatever the
    timestamps. -/
theorem sound (config : RateLimitConfig) (hw : 0 < config.window) (key : String)
    (calls : List LocalCall) : Sound config key calls := by
  induction calls using List.reverseRecOn with
  | nil => exact ⟨(fun _ hs => nomatch hs), (fun _ _ ha => nomatch ha), fun _ => Nat.zero_le _⟩
  | append_singleton calls c ih =>
    by_cases hk : c.key = key
    · subst hk
      exact ih.snoc_self hw
    · exact ih.snoc_of_ne hk

/-! ## The count of the window before -/

/-- What is in range is so at every earlier point. -/
theorem InRange.of_snoc {config : RateLimitConfig} {key : String} {calls : List LocalCall}
    {c : LocalCall} (h : InRange config key (calls ++ [c])) : InRange config key calls := by
  intro pre d post hsplit
  exact h pre d (post ++ [c]) (by rw [hsplit]; simp)

/-- The slot remembers the count of the window that it leaves, if the next one begins
    where that ends, and zero otherwise. -/
private theorem entered_prevCount_eq {config : RateLimitConfig} {calls : List LocalCall}
    {c : LocalCall} (hw : 0 < config.window) :
    (entered config (run config calls) c).prevCount =
      admittedBefore config c.key calls c.now := by
  have hsound := sound config hw c.key calls
  unfold admittedBefore
  -- the first call on the key, or one with a slot
  cases hs : run config calls c.key with
  | none =>
    rw [entered, hs, Option.getD_none,
      advanceWindow_of_lt _ (by simpa [durationSince] using hw)]
  | some s =>
    rw [entered, hs, Option.getD_some]
    dsimp only
    by_cases hlt : durationSince c.now s.windowStart < config.window
    · rw [advanceWindow_of_lt s hlt, if_pos hlt]
    · have hone : durationSince c.now s.windowStart / config.window = 1 ↔
          durationSince c.now s.windowStart < 2 * config.window := by
        rw [Nat.div_eq_iff hw]
        omega
      rw [advanceWindow_of_le s (Nat.not_lt.mp hlt), if_neg hlt, ← (hsound.slot s hs).curr]
      simp only [hone]

/-- The next window begins where the last one ends, and a later one behind that. In a short
    window this needs no range: the saturated step is longer than the window. -/
private theorem advanceWindow_next (slot : Slot) {now window : Nat} (hw : 0 < window)
    (h : window ≤ durationSince now slot.windowStart)
    (hr : window < u64Max ∨ durationSince now slot.windowStart ≤ u64Max) :
    (durationSince now slot.windowStart / window = 1 →
      (advanceWindow slot now window).windowStart = slot.windowStart + window) ∧
    (durationSince now slot.windowStart / window ≠ 1 →
      slot.windowStart + window < (advanceWindow slot now window).windowStart) := by
  have hpos : 0 < durationSince now slot.windowStart / window := Nat.div_pos h hw
  have hle : window * (durationSince now slot.windowStart / window) ≤
      durationSince now slot.windowStart := Nat.mul_div_le _ _
  rw [advanceWindow_of_le slot h]
  constructor
  · intro hone
    rw [hone, Nat.mul_one, Nat.min_eq_left (by omega)]
  · intro hne
    -- not one window, so at least two
    have htwo : window * 2 ≤ window * (durationSince now slot.windowStart / window) :=
      Nat.mul_le_mul_left _ (by omega)
    show slot.windowStart + window < slot.windowStart + min _ _
    omega

/-- The previous count of the window a call enters is the number of admissions one window
    earlier. -/
private theorem entered_prevCount {config : RateLimitConfig} {calls : List LocalCall}
    {c : LocalCall} (hw : 0 < config.window)
    (hr : config.window < u64Max ∨
      ∀ s, run config calls c.key = some s → durationSince c.now s.windowStart ≤ u64Max)
    (ih : ∀ s, run config calls c.key = some s →
      s.prevCount = admittedPreceding config c.key calls s.windowStart) :
    (entered config (run config calls) c).prevCount =
      admittedPreceding config c.key calls
        (entered config (run config calls) c).windowStart := by
  have hsound := sound config hw c.key calls
  -- the first call on the key, or one with a slot
  cases hs : run config calls c.key with
  | none =>
    have hnew : entered config (run config calls) c = ⟨c.now, 0, 0⟩ := by
      rw [entered, hs]
      exact advanceWindow_of_lt _ (by simpa [durationSince] using hw)
    rw [hnew, admittedPreceding, eq_comm, List.countP_eq_zero]
    intro a ha
    simp [hsound.fresh hs a ha]
  | some s =>
    have hc := hsound.slot s hs
    rw [entered, hs, Option.getD_some]
    by_cases hlt : durationSince c.now s.windowStart < config.window
    · rw [advanceWindow_of_lt s hlt]
      exact ih s hs
    · obtain ⟨hnext, hlater⟩ := advanceWindow_next s hw (Nat.not_lt.mp hlt)
        (hr.imp_right fun hr => hr s hs)
      have hprev : (advanceWindow s c.now config.window).prevCount =
          if durationSince c.now s.windowStart / config.window = 1 then s.currCount else 0 := by
        rw [advanceWindow_of_le s (Nat.not_lt.mp hlt)]
      rw [hprev]
      split
      · -- the next window: what was current is now the window before
        rename_i hone
        rw [hnext hone, hc.curr, admittedIn, admittedPreceding]
        congr 1
        funext a
        simp
      · -- a later window: every admission is older than the window before
        rename_i hne
        have hstart := hlater hne
        rw [admittedPreceding, eq_comm, List.countP_eq_zero]
        intro a ha
        have hle := hc.latest a ha
        simp only [decide_eq_true_eq, not_and]
        intro hk
        have := hle hk
        omega

/-- The previous count is that of the window right before. -/
private theorem prevCount_eq {config : RateLimitConfig} (hw : 0 < config.window) {key : String}
    {calls : List LocalCall} (hr : config.window < u64Max ∨ InRange config key calls) {s : Slot}
    (hs : run config calls key = some s) :
    s.prevCount = admittedPreceding config key calls s.windowStart := by
  induction calls using List.reverseRecOn generalizing s with
  | nil => exact nomatch hs
  | append_singleton calls c ih =>
    have hr' : config.window < u64Max ∨ InRange config key calls := hr.imp_right InRange.of_snoc
    by_cases hk : c.key = key
    · subst hk
      have he := entered_prevCount hw (hr.imp_right fun hr => hr calls c [] rfl rfl)
        fun s => ih hr' (s := s)
      rw [run_snoc_self, Option.some_inj] at hs
      -- the call itself is in its own window, not in the one before
      rw [admittedPreceding, countP_admissions_snoc]
      rw [admittedPreceding] at he
      rw [← hs]
      cases admitted config (run config calls) c <;> simp [he, hw.ne']
    · rw [run_snoc_of_ne config calls hk] at hs
      rw [ih hr' hs]
      exact (countP_admissions_of_ne config calls hk _).symm

/-! ## Windows and the clock -/

/-- `now` lies in the window that starts at `start`, a whole number of windows
    after `first`. -/
def OnGrid (first window start now : Nat) : Prop :=
  start ≤ now ∧ now < start + window ∧ ∃ n, start = first + window * n

/-- Advancing a slot whose window lies on the grid reaches the window that holds
    an instant not before its start. -/
private theorem advanceWindow_onGrid {first window now : Nat} {s : Slot} (hw : 0 < window)
    (hgrid : ∃ n, s.windowStart = first + window * n) (hle : s.windowStart ≤ now)
    (hr : durationSince now s.windowStart ≤ u64Max) :
    OnGrid first window (advanceWindow s now window).windowStart now := by
  obtain ⟨n, hn⟩ := hgrid
  rw [advanceWindow_start s window hr]
  simp only [durationSince]
  have hdiv := Nat.div_add_mod (now - s.windowStart) window
  have hmod := Nat.mod_lt (now - s.windowStart) hw
  refine ⟨by omega, by omega, n + (now - s.windowStart) / window, ?_⟩
  rw [hn, Nat.mul_add]
  omega

/-- Advancing never moves the start behind an instant that is not before it. -/
private theorem advanceWindow_start_le (slot : Slot) (window : Nat) {now : Nat}
    (h : slot.windowStart ≤ now) : (advanceWindow slot now window).windowStart ≤ now := by
  by_cases hlt : durationSince now slot.windowStart < window
  · rwa [advanceWindow_of_lt slot hlt]
  · have hle : window * (durationSince now slot.windowStart / window) ≤
        durationSince now slot.windowStart := Nat.mul_div_le _ _
    rw [advanceWindow_of_le slot (Nat.not_lt.mp hlt)]
    show slot.windowStart + min _ _ ≤ now
    simp only [durationSince] at hle ⊢
    omega

/-- With ordered timestamps in range, the slot of a key is on the grid of its
    first call at its last call, and so was every admission. -/
structure Timed (config : RateLimitConfig) (key : String) (calls : List LocalCall) : Prop where
  slot : ∀ s, run config calls key = some s → ∃ first last,
    (callsOn key calls).head? = some first ∧ (callsOn key calls).getLast? = some last ∧
    OnGrid first.now config.window s.windowStart last.now
  fresh : run config calls key = none → callsOn key calls = []
  history : ∀ a ∈ admissions config calls, a.key = key → ∃ first,
    (callsOn key calls).head? = some first ∧
    OnGrid first.now config.window a.windowStart a.now

/-- One more call on the key. -/
private theorem callsOn_snoc_self (calls : List LocalCall) (c : LocalCall) :
    callsOn c.key (calls ++ [c]) = callsOn c.key calls ++ [c] := by
  simp [callsOn, List.filter_append]

/-- A call on another key is none on this one. -/
private theorem callsOn_snoc_of_ne (calls : List LocalCall) {c : LocalCall} {key : String}
    (h : c.key ≠ key) : callsOn key (calls ++ [c]) = callsOn key calls := by
  simp [callsOn, List.filter_append, h]

/-- With ordered timestamps a window never starts behind the last call. -/
private theorem windowStart_le {config : RateLimitConfig} {key : String} {calls : List LocalCall}
    (hord : NonDecreasing key calls) {s : Slot} (hs : run config calls key = some s) :
    ∃ last, (callsOn key calls).getLast? = some last ∧ s.windowStart ≤ last.now := by
  -- the window of the last call on the key begins no later than the call
  induction calls using List.reverseRecOn generalizing s with
  | nil => exact nomatch hs
  | append_singleton calls c ih =>
    by_cases hk : c.key = key
    · subst hk
      rw [NonDecreasing, callsOn_snoc_self, List.pairwise_append] at hord
      refine ⟨c, by rw [callsOn_snoc_self, List.getLast?_concat], ?_⟩
      have hentered : (entered config (run config calls) c).windowStart ≤ c.now := by
        refine advanceWindow_start_le _ _ ?_
        cases hold : run config calls c.key with
        | none => exact Nat.le_refl c.now
        | some old =>
          obtain ⟨last, hlast, hle⟩ := ih hord.1 hold
          exact hle.trans
            (hord.2.2 last (List.mem_of_getLast? hlast) c (List.mem_singleton_self c))
      rw [run_snoc_self, Option.some_inj] at hs
      rw [← hs]
      split <;> exact hentered
    · rw [NonDecreasing, callsOn_snoc_of_ne calls hk] at hord
      rw [callsOn_snoc_of_ne calls hk]
      exact ih hord (run_snoc_of_ne config calls hk ▸ hs)

/-- The window a call enters holds its instant. -/
theorem Timed.entered {config : RateLimitConfig} {calls : List LocalCall} {c : LocalCall}
    (hw : 0 < config.window) (h : Timed config c.key calls)
    (hr : ∀ s, run config calls c.key = some s → durationSince c.now s.windowStart ≤ u64Max)
    (hord : ∀ d ∈ callsOn c.key calls, d.now ≤ c.now) :
    ∃ first, (callsOn c.key (calls ++ [c])).head? = some first ∧
      OnGrid first.now config.window (entered config (run config calls) c).windowStart
        c.now := by
  rw [callsOn_snoc_self, RateLimiter.entered]
  -- the first call on a key starts its grid
  cases hs : run config calls c.key with
  | none =>
    refine ⟨c, by rw [h.fresh hs]; rfl, ?_⟩
    rw [Option.getD_none, advanceWindow_of_lt _ (by simpa [durationSince] using hw)]
    exact ⟨le_rfl, Nat.lt_add_of_pos_right hw, 0, rfl⟩
  | some s =>
    obtain ⟨first, last, hfirst, hlast, hle, -, hgrid⟩ := h.slot s hs
    have hlater := hord last (List.mem_of_getLast? hlast)
    refine ⟨first, by rw [List.head?_append, hfirst]; rfl, ?_⟩
    exact advanceWindow_onGrid hw hgrid (hle.trans hlater) (hr s hs)

/-- Calls in order and in range stay inside their windows. -/
private theorem timed {config : RateLimitConfig} (hw : 0 < config.window) {key : String}
    {calls : List LocalCall} (hr : InRange config key calls) (hord : NonDecreasing key calls) :
    Timed config key calls := by
  -- call by call, as time does not go back
  induction calls using List.reverseRecOn with
  | nil => exact ⟨(fun _ hs => nomatch hs), fun _ => rfl, (fun _ ha => nomatch ha)⟩
  | append_singleton calls c ih =>
    by_cases hk : c.key = key
    · subst hk
      rw [NonDecreasing, callsOn_snoc_self, List.pairwise_append] at hord
      have hold := ih hr.of_snoc hord.1
      obtain ⟨first, hfirst, hgrid⟩ := hold.entered hw (hr calls c [] rfl rfl)
        fun d hd => hord.2.2 d hd c (List.mem_singleton_self c)
      refine ⟨fun s hs => ⟨first, c, hfirst, by rw [callsOn_snoc_self]; simp, ?_⟩,
        fun hnone => ?_, fun a ha hak => ?_⟩
      · rw [run_snoc_self, Option.some_inj] at hs
        rw [← hs]
        split <;> exact hgrid
      · rw [run_snoc_self] at hnone
        exact nomatch hnone
      · rcases mem_admissions_snoc ha with hmem | rfl
        · -- the first call stays the first
          obtain ⟨first', hfirst', hgrid'⟩ := hold.history a hmem hak
          refine ⟨first', ?_, hgrid'⟩
          rw [callsOn_snoc_self, List.head?_append, hfirst']
          rfl
        · exact ⟨first, hfirst, hgrid⟩
    · rw [NonDecreasing, callsOn_snoc_of_ne calls hk] at hord
      have hold := ih hr.of_snoc hord
      refine ⟨fun s hs => ?_, fun hnone => ?_, fun a ha hak => ?_⟩
      · rw [callsOn_snoc_of_ne calls hk]
        exact hold.slot s (run_snoc_of_ne config calls hk ▸ hs)
      · rw [callsOn_snoc_of_ne calls hk]
        exact hold.fresh (run_snoc_of_ne config calls hk ▸ hnone)
      · rw [callsOn_snoc_of_ne calls hk]
        rcases mem_admissions_snoc ha with hmem | rfl
        · exact hold.history a hmem hak
        · exact absurd hak hk

/-- An interval of one window length meets at most two windows of the grid. -/
theorem OnGrid.two_windows {first window start now lo : Nat} (h : OnGrid first window start now)
    (hlo : lo ≤ now) (hhi : now < lo + window) :
    start = first + window * ((lo - first) / window) ∨
      start = first + window * ((lo - first) / window + 1) := by
  obtain ⟨hle, hlt, n, rfl⟩ := h
  have hw : 0 < window := by omega
  -- the windows begin at multiples of the length
  have hdiv := Nat.div_add_mod (lo - first) window
  have hmod := Nat.mod_lt (lo - first) hw
  have hlower : (lo - first) / window < n + 1 := by
    rw [Nat.div_lt_iff_lt_mul hw, Nat.mul_comm, Nat.mul_add]
    omega
  have hupper : window * n < window * ((lo - first) / window + 2) := by
    rw [Nat.mul_add]
    omega
  have hn : n < (lo - first) / window + 2 := Nat.lt_of_mul_lt_mul_left hupper
  have heither : n = (lo - first) / window ∨ n = (lo - first) / window + 1 := by omega
  rcases heither with h | h
  · exact .inl (by rw [h])
  · exact .inr (by rw [h])

/-- What satisfies one of two predicates is counted by one of them. -/
private theorem countP_le_add {α : Type*} {p q r : α → Bool} {l : List α}
    (h : ∀ a ∈ l, p a = true → q a = true ∨ r a = true) :
    l.countP p ≤ l.countP q + l.countP r := by
  -- each element counts at most once
  induction l with
  | nil => exact Nat.zero_le _
  | cons a l ih =>
    have hrest := ih fun b hb => h b (List.mem_cons_of_mem a hb)
    have ha := h a List.mem_cons_self
    simp only [List.countP_cons]
    cases hp : p a with
    | false =>
      simp only [Bool.false_eq_true, if_false]
      omega
    | true =>
      rcases ha hp with hq | hr
      · simp only [hq, if_true]
        omega
      · simp only [hr, if_true]
        omega

/-- An interval of one window length meets at most two windows. -/
private theorem admittedBetween_le {config : RateLimitConfig} (hw : 0 < config.window)
    {key : String}
    {calls : List LocalCall} (hr : InRange config key calls) (hord : NonDecreasing key calls)
    (lo : Nat) :
    admittedBetween config key calls lo (lo + config.window) ≤
      2 * config.maxRequests.toNat := by
  have ht := timed hw hr hord
  have hbound := (sound config hw key calls).bound
  cases hfirst : (callsOn key calls).head? with
  | none =>
    -- without a call on the key nothing was admitted
    have : admittedBetween config key calls lo (lo + config.window) = 0 := by
      rw [admittedBetween, List.countP_eq_zero]
      intro a ha
      simp only [decide_eq_true_eq, not_and]
      intro hak
      obtain ⟨first, hsome, -⟩ := ht.history a ha hak
      rw [hfirst] at hsome
      exact nomatch hsome
    omega
  | some first =>
    let start := first.now + config.window * ((lo - first.now) / config.window)
    let next := first.now + config.window * ((lo - first.now) / config.window + 1)
    -- an interval of one length meets two windows at most
    have hcover : admittedBetween config key calls lo (lo + config.window) ≤
        admittedIn config key calls start + admittedIn config key calls next := by
      simp only [admittedBetween, admittedIn]
      refine countP_le_add fun a ha hp => ?_
      simp only [decide_eq_true_eq] at hp ⊢
      obtain ⟨hak, hlo, hhi⟩ := hp
      obtain ⟨first', hsome, hgrid⟩ := ht.history a ha hak
      obtain rfl : first = first' := Option.some_inj.mp (hfirst ▸ hsome)
      exact (hgrid.two_windows hlo hhi).imp (⟨hak, ·⟩) (⟨hak, ·⟩)
    have h₁ := hbound start
    have h₂ := hbound next
    omega

/-! ## The bound -/

/-- What is in order is so at every earlier point. -/
theorem NonDecreasing.of_append {key : String} {calls calls' : List LocalCall}
    (h : NonDecreasing key (calls ++ calls')) : NonDecreasing key calls := by
  rw [NonDecreasing, callsOn, List.filter_append] at h
  exact (List.pairwise_append.mp h).1

/-- Whatever the timestamps, a window admits at most `max_requests` calls on a
    key, a rejected call leaves the counters as the advance to its window made
    them, and the previous count is the number admitted in the window before.
    The window that starts one window length earlier is that window, unless the
    window is so long that the step is saturated. If the timestamps are ordered,
    the window never starts behind a call; and while the calls are also in range,
    after each call the window holds its instant and starts a whole number of
    windows after the first call, and an interval of one window length admits at
    most twice the limit. -/
theorem slidingWindow_bound (config : RateLimitConfig) (hw : 0 < config.window) (key : String)
    (calls : List LocalCall) :
    (∀ start, admittedIn config key calls start ≤ config.maxRequests.toNat) ∧
    (∀ pre c post, calls = pre ++ c :: post → admitted config (run config pre) c = false →
      run config (pre ++ [c]) c.key = some (entered config (run config pre) c)) ∧
    (∀ pre c post, calls = pre ++ c :: post → ∃ s, run config (pre ++ [c]) c.key = some s ∧
      s.prevCount = admittedBefore config c.key pre c.now) ∧
    (config.window < u64Max ∨ InRange config key calls →
      ∀ s, run config calls key = some s →
        s.prevCount = admittedPreceding config key calls s.windowStart) ∧
    (NonDecreasing key calls →
      (∀ pre c post, calls = pre ++ c :: post → c.key = key →
        ∃ s, run config (pre ++ [c]) key = some s ∧ s.windowStart ≤ c.now) ∧
      (InRange config key calls →
        (∀ pre c post, calls = pre ++ c :: post → c.key = key → ∃ s first n,
          run config (pre ++ [c]) key = some s ∧ (callsOn key calls).head? = some first ∧
          s.windowStart ≤ c.now ∧ c.now < s.windowStart + config.window ∧
          s.windowStart = first.now + config.window * n) ∧
        ∀ lo, admittedBetween config key calls lo (lo + config.window) ≤
          2 * config.maxRequests.toNat)) := by
  refine ⟨(sound config hw key calls).bound, fun pre c post _ hrej => ?_, fun pre c post _ => ?_,
    fun hr s => prevCount_eq hw hr, fun hord => ⟨?_, fun hr => ⟨?_, admittedBetween_le hw hr hord⟩⟩⟩
  · rw [run_snoc_self, hrej]
    rfl
  · refine ⟨_, run_snoc_self config pre c, ?_⟩
    rw [← entered_prevCount_eq hw]
    split <;> rfl
  · rintro pre c post rfl rfl
    have hsplit : pre ++ c :: post = pre ++ [c] ++ post := by simp
    obtain ⟨last, hlast, hle⟩ :=
      windowStart_le (hsplit ▸ hord).of_append (run_snoc_self config pre c)
    rw [callsOn_snoc_self, List.getLast?_concat, Option.some_inj] at hlast
    subst hlast
    exact ⟨_, run_snoc_self config pre c, hle⟩
  · rintro pre c post rfl rfl
    -- the run up to and including the call is itself in range and ordered
    have hsplit : pre ++ c :: post = pre ++ [c] ++ post := by simp
    have hr' : InRange config c.key (pre ++ [c]) := fun pre' d post' h =>
      hr pre' d (post' ++ post) (by rw [hsplit, h]; simp)
    have hord' : NonDecreasing c.key (pre ++ [c]) := (hsplit ▸ hord).of_append
    have ht := timed hw hr' hord'
    obtain ⟨first, last, hfirst, hlast, hle, hlt, n, hn⟩ := ht.slot _ (run_snoc_self config pre c)
    rw [callsOn_snoc_self, List.getLast?_concat, Option.some_inj] at hlast
    subst hlast
    refine ⟨_, first, n, run_snoc_self config pre c, ?_, hle, hlt, hn⟩
    rw [hsplit, callsOn, List.filter_append, List.head?_append, ← callsOn, hfirst]
    rfl

/-- A call more than `u64::MAX` nanoseconds after the window it finds leaves the window
    behind its instant and off the grid, and more calls at that instant open a window each.
    Windows of `u64::MAX` nanoseconds are not told apart from skipped ones. And a rejected
    call that opens a window moves the counters. -/
theorem slidingWindow_saturates :
    (run ⟨10, 1000000000⟩ [⟨"k", 0⟩, ⟨"k", 30000000000000000000⟩] "k" =
        some ⟨18446744073709551615, 0, 1⟩ ∧
      ¬ 30000000000000000000 < 18446744073709551615 + 1000000000 ∧
      18446744073709551615 % 1000000000 ≠ 0) ∧
    (2 * 1 < admittedBetween ⟨1, 1000000000⟩ "k"
      [⟨"k", 0⟩, ⟨"k", 90000000000000000000⟩, ⟨"k", 90000000000000000000⟩,
        ⟨"k", 90000000000000000000⟩] 90000000000000000000 90000000001000000000) ∧
    (run ⟨10, 18446744073709551615⟩ [⟨"k", 0⟩, ⟨"k", 36893488147419103230⟩] "k" =
        some ⟨18446744073709551615, 0, 1⟩ ∧
      admittedPreceding ⟨10, 18446744073709551615⟩ "k"
        [⟨"k", 0⟩, ⟨"k", 36893488147419103230⟩] 18446744073709551615 = 1) ∧
    run ⟨1, 10⟩ [⟨"k", 0⟩] "k" = some ⟨0, 0, 1⟩ ∧
      admitted ⟨1, 10⟩ (run ⟨1, 10⟩ [⟨"k", 0⟩]) ⟨"k", 10⟩ = false ∧
      run ⟨1, 10⟩ [⟨"k", 0⟩, ⟨"k", 10⟩] "k" = some ⟨10, 1, 0⟩ := by
  decide +kernel

/-- The bound for three calls on one key, the last of them rejected. -/
theorem slidingWindow_bound_three :
    admittedBetween ⟨1, 10⟩ "k" [⟨"k", 0⟩, ⟨"k", 4⟩, ⟨"k", 10⟩] 0 10 ≤ 2 * 1 := by
  have hbound := slidingWindow_bound ⟨1, 10⟩ (by decide) "k" [⟨"k", 0⟩, ⟨"k", 4⟩, ⟨"k", 10⟩]
  refine (hbound.2.2.2.2 ?_).2 ?_ |>.2 0
  · unfold NonDecreasing
    decide
  · rintro pre c post h hk s hs
    have hc : c ∈ [LocalCall.mk "k" 0, ⟨"k", 4⟩, ⟨"k", 10⟩] := h ▸ by simp
    -- all times are small
    have hle : c.now ≤ 10 := by
      simp only [List.mem_cons, List.not_mem_nil, or_false] at hc
      rcases hc with rfl | rfl | rfl <;> decide
    simp only [durationSince, u64Max]
    omega

end Barqium.Native.RateLimiter
