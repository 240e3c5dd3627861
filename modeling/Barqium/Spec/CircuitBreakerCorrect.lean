import Barqium.ForStd.Run
import Barqium.Native.CircuitBreaker

/-!
# Circuit breaker: half-open probing and the transition graph

`step_spec` says once what a call can do to the breaker of its upstream; the
results about whole schedules are read off it.

## Key results

- `singleProbe_iff`: exactly one call is admitted between `Open → HalfOpen` and
  the next outcome, if and only if no `allow` arrives while half-open
- `followsGraph_iff`: every change of state is an edge of the documented graph
  and an open breaker rejects until `reset_timeout`, if and only if no success
  is recorded while open
-/

namespace Barqium.Native

namespace CircuitBreakerRegistry

/-! ## Entries -/

/-- The state of an upstream is that of its entry. -/
theorem state_eq_entry (reg : CircuitBreakerRegistry) (u : String) :
    reg.state u = (reg.entry u).state := by
  simp only [state, entry]
  cases reg.breakers u <;> rfl

@[simp] theorem entry_setEntry_self (reg : CircuitBreakerRegistry) (u : String)
    (b : BreakerState) : (reg.setEntry u b).entry u = b := by
  simp [entry, setEntry]

/-- Setting one entry leaves the others. -/
private theorem entry_setEntry_ne (reg : CircuitBreakerRegistry) {u v : String} (b : BreakerState)
    (h : u ≠ v) : (reg.setEntry v b).entry u = reg.entry u := by
  simp [entry, setEntry, Function.update_of_ne h]

@[simp] theorem setEntry_resetTimeout (reg : CircuitBreakerRegistry) (u : String)
    (b : BreakerState) : (reg.setEntry u b).resetTimeout = reg.resetTimeout := rfl

/-- Every call writes back the entry of its own upstream and nothing else. -/
theorem step_eq_setEntry (reg : CircuitBreakerRegistry) (c : BreakerCall) :
    ∃ b, reg.step c = reg.setEntry c.upstreamId b := by
  simp only [step]
  split
  · -- `allow` drops its guard in every branch, changed or not
    simp only [allow]
    split
    · exact ⟨_, rfl⟩
    · exact ⟨_, rfl⟩
    · split <;> exact ⟨_, rfl⟩
  · exact ⟨_, rfl⟩
  · simp only [recordFailure]
    split <;> exact ⟨_, rfl⟩

/-- A call leaves the breakers of the other upstreams alone. -/
theorem step_entry_ne (reg : CircuitBreakerRegistry) {c : BreakerCall} {u : String}
    (h : u ≠ c.upstreamId) : (reg.step c).entry u = reg.entry u := by
  obtain ⟨b, hb⟩ := reg.step_eq_setEntry c
  rw [hb, entry_setEntry_ne reg b h]

/-- A call does not change the timeout. -/
private theorem step_resetTimeout (reg : CircuitBreakerRegistry) (c : BreakerCall) :
    (reg.step c).resetTimeout = reg.resetTimeout := by
  obtain ⟨b, hb⟩ := reg.step_eq_setEntry c
  rw [hb, setEntry_resetTimeout]

/-- A run does not change the timeout. -/
theorem run_resetTimeout (reg : CircuitBreakerRegistry) (calls : List BreakerCall) :
    (reg.run calls).resetTimeout = reg.resetTimeout := by
  refine List.foldl_keeps (P := fun r => r.resetTimeout = reg.resetTimeout) calls reg rfl ?_
  intro pre c post _ h
  rw [step_resetTimeout, h]

@[simp] theorem run_nil (reg : CircuitBreakerRegistry) : reg.run [] = reg := rfl

/-- Two runs, one after the other. -/
theorem run_append (reg : CircuitBreakerRegistry) (xs ys : List BreakerCall) :
    reg.run (xs ++ ys) = (reg.run xs).run ys := by
  simp [run]

/-- A call and then a run. -/
theorem run_cons (reg : CircuitBreakerRegistry) (c : BreakerCall) (calls : List BreakerCall) :
    reg.run (c :: calls) = (reg.step c).run calls := rfl

/-- The registry after `pre` and then `c`. -/
theorem run_concat (reg : CircuitBreakerRegistry) (pre : List BreakerCall) (c : BreakerCall) :
    reg.run (pre ++ [c]) = (reg.run pre).step c := by
  rw [run_append, run_cons, run_nil]

end CircuitBreakerRegistry

/-! ## What one call does to the breaker of its upstream -/

/-- Time since the breaker opened, as `allow` computes it. -/
def BreakerState.elapsed (b : BreakerState) (now : Nat) : Nat :=
  (b.openedAt.map (now - ·)).getD 0

/-- The effect of a call on the breaker `b` of its upstream: the breaker
    afterwards, and whether the call is an `allow` that returns `true`. -/
inductive BreakerStep (threshold : UInt32) (reset : Nat) (c : BreakerCall)
    (b : BreakerState) : BreakerState → Bool → Prop where
  | pass (hop : c.op = .allow) (hs : b.state ≠ .opened) : BreakerStep threshold reset c b b true
  | probe (hop : c.op = .allow) (hs : b.state = .opened) (he : reset ≤ b.elapsed c.now) :
      BreakerStep threshold reset c b { b with state := .halfOpen, consecutiveFailures := 0 } true
  | reject (hop : c.op = .allow) (hs : b.state = .opened) (he : b.elapsed c.now < reset) :
      BreakerStep threshold reset c b b false
  | close (hop : c.op = .recordSuccess) :
      BreakerStep threshold reset c b { b with state := .closed, consecutiveFailures := 0 } false
  | trip (hop : c.op = .recordFailure)
      (ht : b.state = .halfOpen ∨ b.consecutiveFailures + 1 ≥ threshold) :
      BreakerStep threshold reset c b ⟨.opened, b.consecutiveFailures + 1, some c.now⟩ false
  | count (hop : c.op = .recordFailure)
      (ht : ¬(b.state = .halfOpen ∨ b.consecutiveFailures + 1 ≥ threshold)) :
      BreakerStep threshold reset c b
        { b with consecutiveFailures := b.consecutiveFailures + 1 } false

namespace CircuitBreakerRegistry

/-- Every call takes one of the six branches of `BreakerStep`. -/
theorem step_spec (reg : CircuitBreakerRegistry) (c : BreakerCall) :
    BreakerStep reg.failureThreshold reg.resetTimeout c (reg.entry c.upstreamId)
      ((reg.step c).entry c.upstreamId) (reg.admits c) := by
  cases hop : c.op with
  | allow =>
    simp only [step, admits, hop, allow]
    cases hs : (reg.entry c.upstreamId).state with
    | closed =>
      simp only [entry_setEntry_self]
      exact .pass hop (by rw [hs]; exact nofun)
    | halfOpen =>
      simp only [entry_setEntry_self]
      exact .pass hop (by rw [hs]; exact nofun)
    | opened =>
      -- the time since the breaker opened decides between a probe and a rejection
      by_cases he : ((reg.entry c.upstreamId).openedAt.map (c.now - ·)).getD 0 ≥ reg.resetTimeout
      · simp only [he, ↓reduceIte, entry_setEntry_self]
        exact .probe hop hs he
      · simp only [he, ↓reduceIte, entry_setEntry_self]
        exact .reject hop hs (Nat.lt_of_not_le he)
  | recordSuccess =>
    simp only [step, admits, hop, recordSuccess, entry_setEntry_self]
    exact .close hop
  | recordFailure =>
    simp only [step, admits, hop, recordFailure]
    -- a half-open breaker opens at its first failure, a closed one at the threshold
    split
    · rename_i ht
      rw [entry_setEntry_self]
      exact .trip hop ht
    · rename_i ht
      rw [entry_setEntry_self]
      exact .count hop ht

/-! ## Half-open probing -/

/-- `c` reports an outcome for upstream `u`. -/
def Reports (u : String) (c : BreakerCall) : Prop :=
  c.upstreamId = u ∧ c.op ≠ .allow

/-- `c` takes its upstream from `Open` to `HalfOpen`. -/
def StartsProbe (reg : CircuitBreakerRegistry) (c : BreakerCall) : Prop :=
  reg.state c.upstreamId = .opened ∧ (reg.step c).state c.upstreamId = .halfOpen

/-- Number of `allow` calls for `u` that return `true` when `calls` run from `reg`. -/
def admitted (u : String) : CircuitBreakerRegistry → List BreakerCall → Nat
  | _, [] => 0
  | reg, c :: calls =>
    (if c.upstreamId = u ∧ reg.admits c = true then 1 else 0) + admitted u (reg.step c) calls

/-- Between a transition `Open → HalfOpen` and the next outcome recorded for
    that upstream, `allow` returns `true` exactly once: at the transition. -/
def SingleProbe (reg : CircuitBreakerRegistry) (calls : List BreakerCall) : Prop :=
  ∀ pre c mid post, calls = pre ++ c :: (mid ++ post) → (reg.run pre).StartsProbe c →
    (∀ d ∈ mid, ¬ Reports c.upstreamId d) → admitted c.upstreamId (reg.run pre) (c :: mid) = 1

/-- The admitted calls of two runs add up. -/
private theorem admitted_append (u : String) (reg : CircuitBreakerRegistry)
    (xs ys : List BreakerCall) :
    admitted u reg (xs ++ ys) = admitted u reg xs + admitted u (reg.run xs) ys := by
  induction xs generalizing reg with
  | nil => simp [admitted]
  | cons c xs ih =>
    simp only [List.cons_append, admitted, ih, run_cons]
    omega

/-- Nothing is counted where no call for `u` is admitted. -/
private theorem admitted_eq_zero {u : String} {reg : CircuitBreakerRegistry}
    {calls : List BreakerCall} (h : ∀ pre d post, calls = pre ++ d :: post → d.upstreamId = u →
      (reg.run pre).admits d ≠ true) : admitted u reg calls = 0 := by
  induction calls generalizing reg with
  | nil => rfl
  | cons c calls ih =>
    have hc : ¬ (c.upstreamId = u ∧ reg.admits c = true) := fun hadm =>
      h [] c calls rfl hadm.1 hadm.2
    -- behind the first call the condition holds too
    have hrest : admitted u (reg.step c) calls = 0 := by
      apply ih
      intro pre d post hsplit hu
      rw [← run_cons]
      exact h (c :: pre) d post (by rw [hsplit]; rfl) hu
    simp only [admitted, hc, ↓reduceIte, hrest]

/-- Only an `allow` starts a probe, and it is admitted. -/
theorem StartsProbe.admits {reg : CircuitBreakerRegistry} {c : BreakerCall}
    (h : reg.StartsProbe c) : c.op = .allow ∧ reg.admits c = true := by
  obtain ⟨hbefore, hafter⟩ := h
  rw [state_eq_entry] at hbefore hafter
  have hspec := reg.step_spec c
  generalize (reg.step c).entry c.upstreamId = b' at hspec hafter
  generalize reg.admits c = r at hspec ⊢
  -- of the six branches only `probe` takes an open breaker to half-open
  cases hspec with
  | pass hop hs => exact absurd hbefore hs
  | probe hop hs he => exact ⟨hop, rfl⟩
  | reject hop hs he => rw [hs] at hafter; exact nomatch hafter
  | close hop => exact nomatch hafter
  | trip hop ht => exact nomatch hafter
  | count hop ht => exact nomatch hbefore.symm.trans hafter

/-- A half-open breaker was left by a probe that no outcome has answered yet. -/
private theorem step_state_halfOpen {reg : CircuitBreakerRegistry} {c : BreakerCall} {u : String}
    (hafter : (reg.step c).state u = .halfOpen) :
    (reg.state u ≠ .halfOpen → c.upstreamId = u ∧ reg.StartsProbe c) ∧ ¬ Reports u c := by
  by_cases hu : u = c.upstreamId
  · subst hu
    have hstate := hafter
    rw [state_eq_entry] at hstate
    have hspec := reg.step_spec c
    generalize (reg.step c).entry c.upstreamId = b' at hspec hstate
    generalize reg.admits c = r at hspec
    -- a branch that ends half-open is an `allow`, so it reports nothing
    cases hspec with
    | pass hop hs =>
      exact ⟨fun h => absurd (by rw [state_eq_entry]; exact hstate) h, fun h => h.2 hop⟩
    | probe hop hs he =>
      exact ⟨fun _ => ⟨rfl, by rw [state_eq_entry]; exact hs, hafter⟩, fun h => h.2 hop⟩
    | reject hop hs he => rw [hs] at hstate; exact nomatch hstate
    | close hop => exact nomatch hstate
    | trip hop ht => exact nomatch hstate
    | count hop ht => exact absurd (.inl hstate) ht
  · rw [state_eq_entry, step_entry_ne reg hu, ← state_eq_entry] at hafter
    exact ⟨fun h => absurd hafter h, fun h => hu h.1.symm⟩

/-- A half-open breaker stays half-open until an outcome is reported for it. -/
private theorem step_keeps_halfOpen {reg : CircuitBreakerRegistry} {c : BreakerCall} {u : String}
    (h : reg.state u = .halfOpen) (hc : ¬ Reports u c) : (reg.step c).state u = .halfOpen := by
  by_cases hu : u = c.upstreamId
  · subst hu
    -- only `allow` is no report
    have hop : c.op = .allow := by
      by_contra hne
      exact hc ⟨rfl, hne⟩
    rw [state_eq_entry] at h ⊢
    have hspec := reg.step_spec c
    generalize (reg.step c).entry c.upstreamId = b' at hspec ⊢
    generalize reg.admits c = r at hspec
    cases hspec with
    | pass hop' hs => exact h
    | probe hop' hs he => rfl
    | reject hop' hs he => exact h
    | close hop' => rw [hop] at hop'; exact nomatch hop'
    | trip hop' ht => rw [hop] at hop'; exact nomatch hop'
    | count hop' ht => rw [hop] at hop'; exact nomatch hop'
  · rw [state_eq_entry, step_entry_ne reg hu, ← state_eq_entry]
    exact h

/-- A half-open breaker stays so until a result is reported. -/
private theorem run_keeps_halfOpen {reg : CircuitBreakerRegistry} {calls : List BreakerCall}
    {u : String} (h : reg.state u = .halfOpen) (hcalls : ∀ c ∈ calls, ¬ Reports u c) :
    (reg.run calls).state u = .halfOpen := by
  refine List.foldl_keeps (P := fun r => r.state u = .halfOpen) calls reg h ?_
  intro pre c post hsplit hpre
  exact step_keeps_halfOpen hpre (hcalls c (by rw [hsplit]; simp))

/-- In the half-open state `allow` returns `true`. -/
private theorem admits_of_halfOpen {reg : CircuitBreakerRegistry} {c : BreakerCall}
    (hop : c.op = .allow) (h : reg.state c.upstreamId = .halfOpen) : reg.admits c = true := by
  rw [state_eq_entry] at h
  simp only [admits, hop, allow, h]

/-- No upstream of a new registry is half-open. -/
theorem new_state (threshold : UInt32) (reset : Nat) (u : String) :
    (new threshold reset).state u = .closed := rfl

/-- Where a half-open breaker comes from: a probe, with no outcome since. -/
private theorem halfOpen_origin {reg : CircuitBreakerRegistry} {u : String}
    {calls : List BreakerCall}
    (hstart : reg.state u ≠ .halfOpen) (hend : (reg.run calls).state u = .halfOpen) :
    ∃ pre c mid, calls = pre ++ c :: mid ∧ c.upstreamId = u ∧ (reg.run pre).StartsProbe c ∧
      ∀ d ∈ mid, ¬ Reports u d := by
  obtain ⟨pre, c, mid, hsplit, hbefore, hall⟩ :=
    List.exists_last_entry (P := fun r => r.state u = .halfOpen) calls reg hstart hend
  have hprobe : c.upstreamId = u ∧ (reg.run pre).StartsProbe c := by
    refine (step_state_halfOpen ?_).1 hbefore
    rw [← run_concat]
    exact hall [] List.nil_prefix
  refine ⟨pre, c, mid, hsplit, hprobe.1, hprobe.2, fun d hd => ?_⟩
  -- the state is half-open right after `d`, so `d` was no outcome
  obtain ⟨m₁, m₂, rfl⟩ := List.append_of_mem hd
  have hafter := hall (m₁ ++ [d]) ⟨m₂, by simp⟩
  rw [← List.cons_append, ← List.append_assoc] at hafter
  exact (step_state_halfOpen (by rw [← run_concat]; exact hafter)).2

/-- A schedule admits a single probe per half-open phase if and only if no
    `allow` for an upstream is called while its breaker is half-open. -/
theorem singleProbe_iff (threshold : UInt32) (reset : Nat) (calls : List BreakerCall) :
    (new threshold reset).SingleProbe calls ↔
      ∀ pre c post, calls = pre ++ c :: post → c.op = .allow →
        ((new threshold reset).run pre).state c.upstreamId ≠ .halfOpen := by
  constructor
  · intro hsingle pre c post hsplit hop hhalf
    obtain ⟨pre₀, c₀, mid, rfl, hu, hprobe, hmid⟩ :=
      halfOpen_origin (by rw [new_state]; exact nofun) hhalf
    -- the probe `c₀` and then `c` are both admitted before any outcome
    have hc : ¬ Reports c₀.upstreamId c := fun h => h.2 hop
    have hone := hsingle pre₀ c₀ (mid ++ [c]) post (by rw [hsplit]; simp) hprobe (by
      intro d hd
      rcases List.mem_append.mp hd with hd | hd
      · exact hu ▸ hmid d hd
      · rw [List.mem_singleton.mp hd]; exact hc)
    have hlast : (((new threshold reset).run pre₀).run (c₀ :: mid)).admits c = true := by
      rw [← run_append]
      exact admits_of_halfOpen hop hhalf
    rw [← List.cons_append, admitted_append] at hone
    simp only [admitted, hu, hprobe.admits.2, hlast, and_self, ↓reduceIte] at hone
    omega
  · intro hnone pre c mid post hsplit hprobe hmid
    have hhalf : ((new threshold reset).run pre |>.step c).state c.upstreamId = .halfOpen :=
      hprobe.2
    -- with no outcome and no further `allow`, nothing after the probe concerns the upstream
    have hzero : admitted c.upstreamId (((new threshold reset).run pre).step c) mid = 0 := by
      apply admitted_eq_zero
      intro xs d rest hmid' hdu _
      have hop : d.op = .allow := by
        by_contra hne
        exact hmid d (by simp [hmid']) ⟨hdu, hne⟩
      refine hnone (pre ++ c :: xs) d (rest ++ post) (by rw [hsplit, hmid']; simp) hop ?_
      rw [run_append, run_cons, hdu]
      exact run_keeps_halfOpen hhalf fun e he => hmid e (by simp [hmid', he])
    simp only [admitted, hprobe.admits.2, and_self, ↓reduceIte, hzero]

/-- Two requests are admitted at once when the second `allow` comes before the
    outcome of the probe. -/
theorem second_probe_admitted :
    ¬ (new 1 10).SingleProbe
      [⟨.recordFailure, "u", 0⟩, ⟨.allow, "u", 10⟩, ⟨.allow, "u", 11⟩] := by
  intro h
  have hone := h [⟨.recordFailure, "u", 0⟩] ⟨.allow, "u", 10⟩ [⟨.allow, "u", 11⟩] [] rfl
    ⟨by decide, by decide⟩ (by simp [Reports])
  exact absurd hone (by decide)

/-! ## The documented transition graph -/

/-- The transition graph in the documentation of `CircuitState`. -/
inductive Transition : CircuitState → CircuitState → Prop where
  | trip : Transition .closed .opened
  | probe : Transition .opened .halfOpen
  | recover : Transition .halfOpen .closed
  | reopen : Transition .halfOpen .opened

/-- `c` opens the breaker of its upstream. -/
def Opens (reg : CircuitBreakerRegistry) (c : BreakerCall) : Prop :=
  reg.state c.upstreamId ≠ .opened ∧ (reg.step c).state c.upstreamId = .opened

/-- Every change of state is an edge of the documented graph, and after a
    breaker opens no `allow` returns `true` before `reset_timeout` has elapsed. -/
structure FollowsGraph (reg : CircuitBreakerRegistry) (calls : List BreakerCall) : Prop where
  edges : ∀ pre c post u, calls = pre ++ c :: post →
    (reg.run pre).state u ≠ (reg.run (pre ++ [c])).state u →
    Transition ((reg.run pre).state u) ((reg.run (pre ++ [c])).state u)
  rejects : ∀ pre c mid d post, calls = pre ++ c :: (mid ++ d :: post) →
    (reg.run pre).Opens c → d.op = .allow → d.upstreamId = c.upstreamId →
    d.now < c.now + reg.resetTimeout → (reg.run (pre ++ c :: mid)).admits d = false

/-- One call follows the graph unless it records a success on an open breaker. -/
private theorem step_transition {reg : CircuitBreakerRegistry} {c : BreakerCall} {u : String}
    (hc : c.op = .recordSuccess → reg.state c.upstreamId ≠ .opened)
    (hne : reg.state u ≠ (reg.step c).state u) :
    Transition (reg.state u) ((reg.step c).state u) := by
  by_cases hu : u = c.upstreamId
  · subst hu
    simp only [state_eq_entry] at hc hne ⊢
    have hspec := reg.step_spec c
    generalize (reg.step c).entry c.upstreamId = b' at hspec hne ⊢
    generalize reg.admits c = r at hspec
    cases hspec with
    | pass hop hs => exact absurd rfl hne
    | probe hop hs he => rw [hs]; exact .probe
    | reject hop hs he => exact absurd rfl hne
    | close hop =>
      -- `record_success` closes from any state; the hypothesis rules out an open one
      cases hs : (reg.entry c.upstreamId).state with
      | closed => exact absurd hs hne
      | opened => exact absurd hs (hc hop)
      | halfOpen => exact .recover
    | trip hop ht =>
      cases hs : (reg.entry c.upstreamId).state with
      | closed => exact .trip
      | opened => exact absurd hs hne
      | halfOpen => exact .reopen
    | count hop ht => exact absurd rfl hne
  · simp only [state_eq_entry, step_entry_ne reg hu] at hne
    exact absurd rfl hne

/-- The breaker of `u` is open, and was last opened at `t` or later. -/
def OpenSince (reg : CircuitBreakerRegistry) (u : String) (t : Nat) : Prop :=
  reg.state u = .opened ∧ ∃ t', (reg.entry u).openedAt = some t' ∧ t ≤ t'

/-- A call that opens a breaker stamps it with its own time. -/
theorem Opens.openSince {reg : CircuitBreakerRegistry} {c : BreakerCall} (h : reg.Opens c) :
    (reg.step c).OpenSince c.upstreamId c.now := by
  obtain ⟨hbefore, hafter⟩ := h
  refine ⟨hafter, ?_⟩
  rw [state_eq_entry] at hbefore hafter
  have hspec := reg.step_spec c
  generalize (reg.step c).entry c.upstreamId = b' at hspec hafter ⊢
  generalize reg.admits c = r at hspec
  -- of all transitions only `trip` ends in Open from elsewhere
  cases hspec with
  | pass hop hs => exact absurd hafter hbefore
  | probe hop hs he => exact nomatch hafter
  | reject hop hs he => exact absurd hs hbefore
  | close hop => exact nomatch hafter
  | trip hop ht => exact ⟨c.now, rfl, Nat.le_refl _⟩
  | count hop ht => exact absurd hafter hbefore

/-- Before `reset_timeout` has elapsed, an open breaker rejects `allow` and stays
    open under every call but a recorded success. -/
theorem OpenSince.step {reg : CircuitBreakerRegistry} {u : String} {t : Nat}
    (h : reg.OpenSince u t) {c : BreakerCall} (hnow : t ≤ c.now)
    (hreset : c.now < t + reg.resetTimeout)
    (hc : c.op = .recordSuccess → c.upstreamId ≠ u) :
    (reg.step c).OpenSince u t ∧ (c.upstreamId = u → reg.admits c = false) := by
  obtain ⟨hopen, t', hat, htt⟩ := h
  by_cases hu : u = c.upstreamId
  · subst hu
    have hearly : (reg.entry c.upstreamId).elapsed c.now < reg.resetTimeout := by
      simp only [BreakerState.elapsed, hat, Option.map_some, Option.getD_some]
      omega
    rw [state_eq_entry] at hopen
    simp only [OpenSince, state_eq_entry]
    have hspec := reg.step_spec c
    generalize (reg.step c).entry c.upstreamId = b' at hspec ⊢
    generalize reg.admits c = r at hspec ⊢
    cases hspec with
    | pass hop hs => exact absurd hopen hs
    | probe hop hs he => exact absurd hearly (Nat.not_lt.mpr he)
    | reject hop hs he => exact ⟨⟨hopen, t', hat, htt⟩, fun _ => rfl⟩
    | close hop => exact absurd rfl (hc hop)
    | trip hop ht =>
      -- a failure reported while open stamps the breaker anew
      exact ⟨⟨rfl, c.now, rfl, hnow⟩, fun _ => rfl⟩
    | count hop ht => exact ⟨⟨hopen, t', hat, htt⟩, fun _ => rfl⟩
  · refine ⟨?_, fun h => absurd h.symm hu⟩
    simp only [OpenSince, state_eq_entry, step_entry_ne reg hu]
    exact ⟨by rw [← state_eq_entry]; exact hopen, t', hat, htt⟩

/-- An open breaker stays open along a run within `reset_timeout` in which no success is
    recorded for it. -/
theorem OpenSince.run {reg : CircuitBreakerRegistry} {u : String} {t : Nat}
    (h : reg.OpenSince u t) {calls : List BreakerCall}
    (hnow : ∀ e ∈ calls, t ≤ e.now ∧ e.now < t + reg.resetTimeout)
    (hcalls : ∀ pre e post, calls = pre ++ e :: post → (reg.run pre).OpenSince u t →
      e.op = .recordSuccess → e.upstreamId ≠ u) :
    (reg.run calls).OpenSince u t := by
  refine List.foldl_keeps (P := fun r : CircuitBreakerRegistry => r.OpenSince u t) calls reg h ?_
  intro pre e post hsplit hopen
  obtain ⟨hfrom, hbefore⟩ := hnow e (by simp [hsplit])
  refine (hopen.step hfrom ?_ (hcalls pre e post hsplit hopen)).1
  -- the timeout of the registry never changes
  rw [← CircuitBreakerRegistry.run, run_resetTimeout]
  exact hbefore

/-- A schedule follows the documented graph if and only if no success is
    recorded for an upstream while its breaker is open. -/
theorem followsGraph_iff (threshold : UInt32) (reset : Nat) (s : Schedule) :
    (new threshold reset).FollowsGraph s.calls ↔
      ∀ pre c post, s.calls = pre ++ c :: post → c.op = .recordSuccess →
        ((new threshold reset).run pre).state c.upstreamId ≠ .opened := by
  constructor
  · intro hgraph pre c post hsplit hop hopen
    -- the success takes the breaker from open to closed, which is no edge
    have hclosed : ((new threshold reset).run (pre ++ [c])).state c.upstreamId = .closed := by
      rw [run_concat, state_eq_entry]
      simp only [step, hop, recordSuccess, entry_setEntry_self]
    have hedge := hgraph.edges pre c post c.upstreamId hsplit (by rw [hopen, hclosed]; exact nofun)
    rw [hopen, hclosed] at hedge
    exact nomatch hedge
  · intro hnone
    refine ⟨?_, ?_⟩
    · intro pre c post u hsplit hne
      rw [run_concat] at hne ⊢
      exact step_transition (hnone pre c post hsplit) hne
    · intro pre c mid d post hsplit hopens hop hu hnow
      have hmono := s.monotone
      rw [hsplit, List.pairwise_append, List.pairwise_cons, List.pairwise_append,
        List.pairwise_cons] at hmono
      obtain ⟨-, ⟨hc, -, ⟨-, -⟩, hd⟩, -⟩ := hmono
      have htimeout : ∀ calls, ((new threshold reset).run calls).resetTimeout = reset :=
        fun calls => run_resetTimeout _ calls
      -- the breaker stays open from `c` to `d`
      have hmid : (((new threshold reset).run (pre ++ [c])).run mid).OpenSince c.upstreamId
          c.now := by
        apply OpenSince.run
        · rw [run_concat]
          exact hopens.openSince
        · intro e he
          rw [htimeout]
          exact ⟨hc e (by simp [he]), Nat.lt_of_le_of_lt (hd e he d (by simp)) hnow⟩
        · intro m₁ e m₂ hm hopen heop heu
          refine hnone (pre ++ [c] ++ m₁) e (m₂ ++ d :: post) (by rw [hsplit, hm]; simp) heop ?_
          rw [run_append, heu]
          exact hopen.1
      rw [← run_append, List.append_assoc, List.singleton_append] at hmid
      refine (hmid.step (hc d (by simp)) ?_ ?_).2 hu
      · rw [htimeout]; exact hnow
      · intro hdop; rw [hop] at hdop; exact nomatch hdop

/-- A late success closes an open breaker, which then admits requests at once. -/
theorem late_success_closes :
    ¬ (new 1 10).FollowsGraph
      (Schedule.mk [⟨.recordFailure, "u", 0⟩, ⟨.recordSuccess, "u", 1⟩, ⟨.allow, "u", 2⟩]
        (by decide)).calls := by
  intro h
  have hadm := h.rejects [] ⟨.recordFailure, "u", 0⟩ [⟨.recordSuccess, "u", 1⟩]
    ⟨.allow, "u", 2⟩ [] rfl ⟨by decide, by decide⟩ rfl rfl (by decide)
  exact absurd hadm (by decide)

end CircuitBreakerRegistry

end Barqium.Native
