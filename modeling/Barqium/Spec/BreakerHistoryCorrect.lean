import Barqium.Spec.CircuitBreakerCorrect

/-!
# Circuit breaker: what its two counters say about the calls so far

`consecutive_failures` and `opened_at` summarise the history of a breaker. The
history itself is kept here beside the run, as functions of the calls.

## Key results

- `measuredFromOpening_iff`: `opened_at` is the time of the last transition into
  `Open`, if and only if no failure that reaches the threshold is recorded for a
  breaker that is already open
- `opens_at_threshold`: a closed breaker counts the failures since the last
  success, and leaves `Closed` at the `failure_threshold`-th of them
-/

namespace Barqium.Native

namespace CircuitBreakerRegistry

/-- A call does not change the threshold. -/
private theorem step_failureThreshold (reg : CircuitBreakerRegistry) (c : BreakerCall) :
    (reg.step c).failureThreshold = reg.failureThreshold := by
  obtain ⟨b, hb⟩ := reg.step_eq_setEntry c
  rw [hb]
  rfl

/-- A run does not change the threshold. -/
private theorem run_failureThreshold (reg : CircuitBreakerRegistry) (calls : List BreakerCall) :
    (reg.run calls).failureThreshold = reg.failureThreshold := by
  refine List.foldl_keeps (P := fun r => r.failureThreshold = reg.failureThreshold) calls reg rfl ?_
  intro pre c post _ h
  rw [step_failureThreshold, h]

/-! ## The time of the last opening -/

instance (reg : CircuitBreakerRegistry) (c : BreakerCall) : Decidable (reg.Opens c) :=
  inferInstanceAs (Decidable (_ ∧ _))

/-- Time of the last transition of the breaker of `u` into `Open` along a run from `reg`. -/
def lastOpening (u : String) : CircuitBreakerRegistry → List BreakerCall → Option Nat
  | _, [] => none
  | reg, c :: calls =>
    (lastOpening u (reg.step c) calls).or
      (if c.upstreamId = u ∧ reg.Opens c then some c.now else none)

/-- Whenever the breaker of an upstream is open, it is stamped with the time of its
    last transition into `Open`, and `allow` returns `true` exactly from
    `reset_timeout` after that time on. -/
def MeasuredFromOpening (reg : CircuitBreakerRegistry) (calls : List BreakerCall) : Prop :=
  ∀ pre u, pre <+: calls → (reg.run pre).state u = .opened →
    ∃ t₀, lastOpening u reg pre = some t₀ ∧ ((reg.run pre).entry u).openedAt = some t₀ ∧
      ∀ t, t₀ ≤ t → (((reg.run pre).allow u t).1 = true ↔ reg.resetTimeout ≤ t - t₀)

/-- `c` records a failure for a breaker that is already open and whose count
    reaches the threshold, at another instant than the one it is stamped with. -/
def Restamps (reg : CircuitBreakerRegistry) (c : BreakerCall) : Prop :=
  c.op = .recordFailure ∧ reg.state c.upstreamId = .opened ∧
    reg.failureThreshold ≤ (reg.entry c.upstreamId).consecutiveFailures + 1 ∧
    (reg.entry c.upstreamId).openedAt ≠ some c.now

/-- The last opening is the last call if that opens the breaker. -/
private theorem lastOpening_concat (u : String) (reg : CircuitBreakerRegistry)
    (calls : List BreakerCall) (c : BreakerCall) :
    lastOpening u reg (calls ++ [c]) =
      if c.upstreamId = u ∧ (reg.run calls).Opens c then some c.now
      else lastOpening u reg calls := by
  induction calls generalizing reg with
  | nil => rfl
  | cons d calls ih =>
    rw [List.cons_append, lastOpening, ih, run_cons, lastOpening]
    split
    · simp
    · rfl

/-- What a call does to the stamp of an open breaker: an opening stamps it with its
    time, a call that restamps it moves the stamp, and every other call keeps it. -/
private theorem step_openedAt {reg : CircuitBreakerRegistry} {c : BreakerCall} {u : String}
    (hafter : (reg.step c).state u = .opened) :
    (c.upstreamId = u ∧ reg.Opens c ∧ ((reg.step c).entry u).openedAt = some c.now) ∨
      (reg.state u = .opened ∧ c.upstreamId = u ∧ reg.Restamps c ∧
        ((reg.step c).entry u).openedAt = some c.now) ∨
      (reg.state u = .opened ∧ ¬ (c.upstreamId = u ∧ reg.Restamps c) ∧
        ((reg.step c).entry u).openedAt = (reg.entry u).openedAt) := by
  -- a call on the upstream itself, by what it does
  by_cases hu : c.upstreamId = u
  · subst hu
    simp only [Opens, Restamps, state_eq_entry, true_and] at hafter ⊢
    have hspec := reg.step_spec c
    generalize (reg.step c).entry c.upstreamId = b' at hspec hafter ⊢
    generalize reg.admits c = r at hspec
    cases hspec with
    | pass hop hs => exact absurd hafter hs
    | probe hop hs he => cases hafter
    | reject hop hs he => exact .inr (.inr ⟨hs, by simp [hop], rfl⟩)
    | close hop => cases hafter
    | trip hop ht =>
      by_cases hs : (reg.entry c.upstreamId).state = .opened
      · -- the failure is recorded while open: it reaches the threshold, and moves the
        -- stamp unless it comes at the very instant of the opening
        have hge : reg.failureThreshold ≤ (reg.entry c.upstreamId).consecutiveFailures + 1 := by
          rcases ht with ht | ht
          · rw [hs] at ht; cases ht
          · exact ht
        by_cases hat : (reg.entry c.upstreamId).openedAt = some c.now
        · exact .inr (.inr ⟨hs, by simp [hat], hat.symm⟩)
        · exact .inr (.inl ⟨hs, ⟨hop, hs, hge, hat⟩, rfl⟩)
      · exact .inl ⟨⟨hs, rfl⟩, rfl⟩
    | count hop ht =>
      refine .inr (.inr ⟨hafter, ?_, rfl⟩)
      rintro ⟨-, -, hge, -⟩
      exact ht (.inr hge)
  · -- a call on another upstream
    have hentry : (reg.step c).entry u = reg.entry u := reg.step_entry_ne fun h => hu h.symm
    rw [state_eq_entry, hentry, ← state_eq_entry] at hafter
    exact .inr (.inr ⟨hafter, fun h => hu h.1, by rw [hentry]⟩)

/-- An open breaker with stamp `t₀` admits exactly from `reset_timeout` after `t₀` on. -/
private theorem allow_of_openedAt {reg : CircuitBreakerRegistry} {u : String} {t₀ : Nat}
    (hopen : reg.state u = .opened) (hat : (reg.entry u).openedAt = some t₀) (t : Nat) :
    (reg.allow u t).1 = true ↔ reg.resetTimeout ≤ t - t₀ := by
  rw [state_eq_entry] at hopen
  simp only [allow, hopen, hat, Option.map_some, Option.getD_some]
  split
  · rename_i he
    exact iff_of_true rfl he
  · rename_i he
    exact iff_of_false (by simp) he

/-- Along a run in which no call restamps an open breaker, the stamp of an open
    breaker is the time of its last opening. -/
private theorem openedAt_eq_lastOpening (threshold : UInt32) (reset : Nat)
    {calls : List BreakerCall} (hnone : ∀ pre c post, calls = pre ++ c :: post →
      ¬ ((new threshold reset).run pre).Restamps c) {u : String}
    (hopen : ((new threshold reset).run calls).state u = .opened) :
    ∃ t₀, lastOpening u (new threshold reset) calls = some t₀ ∧
      (((new threshold reset).run calls).entry u).openedAt = some t₀ := by
  -- by the last call: it opens, it restamps, or the stamp stays
  induction calls using List.reverseRecOn with
  | nil => rw [run_nil, new_state] at hopen; cases hopen
  | append_singleton calls c ih =>
    have hprev := ih fun pre d post hsplit => hnone pre d (post ++ [c]) (by rw [hsplit]; simp)
    rw [run_concat] at hopen ⊢
    rw [lastOpening_concat]
    rcases step_openedAt hopen with ⟨hu, hopens, hat⟩ | ⟨-, -, hre, -⟩ | ⟨hbefore, -, hat⟩
    · exact ⟨c.now, by rw [if_pos ⟨hu, hopens⟩], hat⟩
    · exact absurd hre (hnone calls c [] rfl)
    · -- it was open before, so this call is no opening
      have hno : ¬ (c.upstreamId = u ∧ ((new threshold reset).run calls).Opens c) := by
        rintro ⟨rfl, hopens⟩
        exact hopens.1 hbefore
      rw [if_neg hno, hat]
      exact hprev hbefore

/-- In every run the open period is measured from the opening, if and only if no
    failure that reaches the threshold is recorded for a breaker that is already
    open, at another instant than that of its opening. -/
theorem measuredFromOpening_iff (threshold : UInt32) (reset : Nat) (calls : List BreakerCall) :
    (new threshold reset).MeasuredFromOpening calls ↔
      ∀ pre c post, calls = pre ++ c :: post → ¬ ((new threshold reset).run pre).Restamps c := by
  constructor
  · intro hmeasured pre c post hsplit hre
    have hafter : ((new threshold reset).run (pre ++ [c])).state c.upstreamId = .opened := by
      obtain ⟨hop, hopen, hge, -⟩ := hre
      rw [run_concat, state_eq_entry]
      simp only [step, hop, recordFailure, ge_iff_le, hge, or_true, ↓reduceIte,
        entry_setEntry_self]
    obtain ⟨t₀, hlast, hat, -⟩ := hmeasured pre c.upstreamId ⟨c :: post, hsplit.symm⟩ hre.2.1
    obtain ⟨t₁, hlast', hat', -⟩ :=
      hmeasured (pre ++ [c]) c.upstreamId ⟨post, by rw [hsplit]; simp⟩ hafter
    -- the call does not open the breaker, so the time of the last opening stays
    rw [lastOpening_concat, if_neg (fun h => h.2.1 hre.2.1), hlast] at hlast'
    cases hlast'
    rw [run_concat] at hafter hat'
    rcases step_openedAt hafter with ⟨-, hopens, -⟩ | ⟨-, -, -, hnow⟩ | ⟨-, hno, -⟩
    · exact hopens.1 hre.2.1
    · rw [hnow] at hat'
      exact hre.2.2.2 (hat.trans hat'.symm)
    · exact hno ⟨rfl, hre⟩
  · rintro hnone pre u ⟨post, rfl⟩ hopen
    obtain ⟨t₀, hlast, hat⟩ := openedAt_eq_lastOpening threshold reset
      (fun pre' c mid hsplit => hnone pre' c (mid ++ post) (by rw [hsplit]; simp)) hopen
    refine ⟨t₀, hlast, hat, fun t _ => ?_⟩
    rw [allow_of_openedAt hopen hat, run_resetTimeout]

/-- A request admitted before the opening fails after it and moves the stamp. -/
theorem late_failure_restamps :
    ¬ (new 1 10).MeasuredFromOpening
      (Schedule.mk [⟨.recordFailure, "u", 0⟩, ⟨.recordFailure, "u", 5⟩] (by decide)).calls := by
  intro h
  obtain ⟨t₀, hlast, hat, -⟩ := h _ "u" (List.prefix_refl _) (by decide)
  have hzero : lastOpening "u" (new 1 10) [⟨.recordFailure, "u", 0⟩, ⟨.recordFailure, "u", 5⟩]
      = some 0 := by decide
  have hfive : (((new 1 10).run [⟨.recordFailure, "u", 0⟩, ⟨.recordFailure, "u", 5⟩]).entry
      "u").openedAt = some 5 := by decide
  rw [hzero] at hlast
  rw [hfive] at hat
  exact absurd (hlast.trans hat.symm) (by decide)

/-! ## Consecutive failures -/

/-- Number of failures recorded for `u` since the last success recorded for it. -/
def failuresSince (u : String) (calls : List BreakerCall) : Nat :=
  (((calls.filter (·.upstreamId = u)).reverse.takeWhile (·.op ≠ .recordSuccess)).filter
    (·.op = .recordFailure)).length

/-- Calls of other upstreams do not count. -/
private theorem failuresSince_concat_ne {u : String} (calls : List BreakerCall) {c : BreakerCall}
    (h : c.upstreamId ≠ u) : failuresSince u (calls ++ [c]) = failuresSince u calls := by
  simp [failuresSince, h]

/-- A question whether a call is allowed is no failure. -/
private theorem failuresSince_concat_allow (calls : List BreakerCall) {c : BreakerCall}
    (h : c.op = .allow) :
    failuresSince c.upstreamId (calls ++ [c]) = failuresSince c.upstreamId calls := by
  simp [failuresSince, h]

/-- A success ends the series of failures. -/
private theorem failuresSince_concat_success (calls : List BreakerCall) {c : BreakerCall}
    (h : c.op = .recordSuccess) : failuresSince c.upstreamId (calls ++ [c]) = 0 := by
  simp [failuresSince, h]

/-- A failure makes the series longer by one. -/
private theorem failuresSince_concat_failure (calls : List BreakerCall) {c : BreakerCall}
    (h : c.op = .recordFailure) :
    failuresSince c.upstreamId (calls ++ [c]) = failuresSince c.upstreamId calls + 1 := by
  simp [failuresSince, h]

end CircuitBreakerRegistry

/-- What the counters of a breaker say when `n` failures were recorded since the last
    success: a closed breaker counts them and is below the threshold, an open one is
    stamped. -/
structure BreakerState.Counts (threshold : UInt32) (n : Nat) (b : BreakerState) : Prop where
  count : b.state = .closed → b.consecutiveFailures.toNat = n
  below : b.state = .closed → b.consecutiveFailures.toNat < threshold.toNat
  stamped : b.state = .opened → b.openedAt.isSome

/-- Below the threshold the counter is incremented without wrapping. -/
private theorem toNat_add_one_of_lt {n threshold : UInt32} (h : n.toNat < threshold.toNat) :
    (n + 1).toNat = n.toNat + 1 := by
  have hmax := threshold.toNat_lt
  rw [UInt32.toNat_add]
  exact Nat.mod_eq_of_lt (by simp; omega)

namespace CircuitBreakerRegistry

/-- Every call keeps the counters true to the history of its upstream. -/
private theorem step_counts (reg : CircuitBreakerRegistry) (calls : List BreakerCall)
    (c : BreakerCall) (hpos : 1 ≤ reg.failureThreshold)
    (h : (reg.entry c.upstreamId).Counts reg.failureThreshold
      (failuresSince c.upstreamId calls)) :
    ((reg.step c).entry c.upstreamId).Counts reg.failureThreshold
      (failuresSince c.upstreamId (calls ++ [c])) := by
  have hspec := reg.step_spec c
  generalize (reg.step c).entry c.upstreamId = b' at hspec ⊢
  generalize reg.admits c = r at hspec
  cases hspec with
  | pass hop hs => rw [failuresSince_concat_allow calls hop]; exact h
  | probe hop hs he =>
    -- a half-open breaker has nothing to keep
    exact ⟨by simp, by simp, by simp⟩
  | reject hop hs he => rw [failuresSince_concat_allow calls hop]; exact h
  | close hop =>
    -- the count is not carried over from an open or half-open phase
    rw [failuresSince_concat_success calls hop]
    refine ⟨fun _ => rfl, fun _ => ?_, fun hs' => by cases hs'⟩
    exact UInt32.le_iff_toNat_le.mp hpos
  | trip hop ht => exact ⟨by simp, by simp, fun _ => rfl⟩
  | count hop ht =>
    -- the threshold is not reached, so the counter stays below it
    rw [failuresSince_concat_failure calls hop]
    refine ⟨fun hs => ?_, fun hs => ?_, h.stamped⟩
    · rw [toNat_add_one_of_lt (h.below hs), h.count hs]
    · have hlt := UInt32.not_le.mp fun hge => ht (.inr hge)
      exact UInt32.lt_iff_toNat_lt.mp hlt

/-- The counters of every breaker are true to the calls so far. -/
private theorem run_counts {threshold : UInt32} (hpos : 1 ≤ threshold) (reset : Nat)
    (calls : List BreakerCall) (u : String) :
    (((new threshold reset).run calls).entry u).Counts threshold (failuresSince u calls) := by
  induction calls using List.reverseRecOn with
  | nil => exact ⟨fun _ => rfl, fun _ => UInt32.le_iff_toNat_le.mp hpos, fun hs => by cases hs⟩
  | append_singleton calls c ih =>
    have hthreshold : ((new threshold reset).run calls).failureThreshold = threshold :=
      run_failureThreshold _ calls
    rw [run_concat]
    -- a call for another upstream changes neither the entry nor the count
    by_cases hu : c.upstreamId = u
    · subst hu
      have hnext := ((new threshold reset).run calls).step_counts calls c
      rw [hthreshold] at hnext
      exact hnext hpos ih
    · rw [step_entry_ne _ fun h => hu h.symm, failuresSince_concat_ne calls hu]
      exact ih

/-- A closed breaker leaves `Closed` at a failure of its own upstream that makes the
    count reach the threshold, and at no other call. -/
private theorem step_leaves_closed {reg : CircuitBreakerRegistry} {u : String} (c : BreakerCall)
    (hclosed : reg.state u = .closed)
    (hbelow : (reg.entry u).consecutiveFailures.toNat < reg.failureThreshold.toNat) :
    (reg.step c).state u ≠ .closed ↔ c.upstreamId = u ∧ c.op = .recordFailure ∧
      (reg.entry u).consecutiveFailures.toNat + 1 = reg.failureThreshold.toNat := by
  by_cases hu : c.upstreamId = u
  · subst hu
    simp only [state_eq_entry, true_and] at hclosed ⊢
    have hspec := reg.step_spec c
    generalize (reg.step c).entry c.upstreamId = b' at hspec ⊢
    generalize reg.admits c = r at hspec
    have hadd := toNat_add_one_of_lt hbelow
    cases hspec with
    | pass hop hs => simp [hop, hclosed]
    | probe hop hs he => rw [hclosed] at hs; cases hs
    | reject hop hs he => rw [hclosed] at hs; cases hs
    | close hop => simp [hop]
    | trip hop ht =>
      -- a closed breaker is not tripped as a half-open one is, at the first failure
      have hge : reg.failureThreshold ≤ (reg.entry c.upstreamId).consecutiveFailures + 1 :=
        ht.resolve_left (by rw [hclosed]; exact nofun)
      rw [UInt32.le_iff_toNat_le, hadd] at hge
      exact iff_of_true nofun ⟨hop, by omega⟩
    | count hop ht =>
      have hlt := UInt32.lt_iff_toNat_lt.mp (UInt32.not_le.mp fun hge => ht (.inr hge))
      rw [hadd] at hlt
      exact iff_of_false (fun h => h hclosed) fun h => by omega
  · refine iff_of_false ?_ fun h => hu h.1
    rw [state_eq_entry, step_entry_ne reg fun h => hu h.symm, ← state_eq_entry]
    exact fun h => h hclosed

/-- A call for another upstream leaves the slot of `u` in the map as it is. -/
private theorem step_breakers_ne (reg : CircuitBreakerRegistry) {c : BreakerCall} {u : String}
    (h : c.upstreamId ≠ u) : (reg.step c).breakers u = reg.breakers u := by
  obtain ⟨b, hb⟩ := reg.step_eq_setEntry c
  rw [hb]
  exact Function.update_of_ne (fun heq => h heq.symm) _ _

/-- In every run with a positive threshold and for every upstream: a closed breaker
    counts the failures since the last success, is below the threshold and increments
    without overflow; the next call takes it out of `Closed` exactly when it is the
    `failure_threshold`-th consecutive failure; a call for another upstream leaves the
    breaker as it is; and an open breaker has `opened_at` set. -/
theorem opens_at_threshold (threshold : UInt32) (hpos : 1 ≤ threshold) (reset : Nat)
    (calls : List BreakerCall) (u : String) :
    (((new threshold reset).run calls).state u = .closed →
      (((new threshold reset).run calls).entry u).consecutiveFailures.toNat =
          failuresSince u calls ∧
        failuresSince u calls < threshold.toNat ∧
        ((((new threshold reset).run calls).entry u).consecutiveFailures + 1).toNat =
          failuresSince u calls + 1 ∧
        ∀ c, ((new threshold reset).run (calls ++ [c])).state u ≠ .closed ↔
          c.upstreamId = u ∧ c.op = .recordFailure ∧
            failuresSince u calls + 1 = threshold.toNat) ∧
      (∀ c, c.upstreamId ≠ u → ((new threshold reset).run (calls ++ [c])).breakers u =
        ((new threshold reset).run calls).breakers u) ∧
      (((new threshold reset).run calls).state u = .opened →
        (((new threshold reset).run calls).entry u).openedAt.isSome) := by
  -- the counter follows the history
  have hcounts := run_counts hpos reset calls u
  have hthreshold : ((new threshold reset).run calls).failureThreshold = threshold :=
    run_failureThreshold _ calls
  refine ⟨fun hclosed => ?_, fun c hu => ?_, fun hopen => ?_⟩
  · have hstate := hclosed
    rw [state_eq_entry] at hstate
    have hcount := hcounts.count hstate
    have hbelow := hcounts.below hstate
    refine ⟨hcount, by omega, by rw [toNat_add_one_of_lt hbelow, hcount], fun c => ?_⟩
    have hleaves := step_leaves_closed c hclosed (by rw [hthreshold]; exact hbelow)
    rw [run_concat, hleaves, hcount, hthreshold]
  · rw [run_concat, step_breakers_ne _ hu]
  · rw [state_eq_entry] at hopen
    exact hcounts.stamped hopen

/-- Two failures after a success open a breaker with threshold two; the failure before
    the success does not count. -/
theorem opens_at_second_failure :
    failuresSince "u" [⟨.recordFailure, "u", 0⟩, ⟨.recordSuccess, "u", 1⟩,
      ⟨.recordFailure, "u", 2⟩] = 1 ∧
      ((new 2 10).run ([⟨.recordFailure, "u", 0⟩, ⟨.recordSuccess, "u", 1⟩,
        ⟨.recordFailure, "u", 2⟩] ++ [⟨.recordFailure, "u", 3⟩])).state "u" ≠ .closed :=
  ⟨by decide, (((opens_at_threshold 2 (by decide) 10 _ "u").1 (by decide)).2.2.2 _).mpr
    ⟨rfl, rfl, by decide⟩⟩

end CircuitBreakerRegistry

end Barqium.Native
