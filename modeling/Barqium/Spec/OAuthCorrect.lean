import Barqium.ForStd.Run
import Barqium.Native.OAuth

/-!
# Lifetimes of cached OAuth tokens

A token is returned from the cache only while it has more than 30 seconds left. Its expiry is the
sum of the clock and of the lifetime that the endpoint gave, and this sum need not be a point of
the clock.

## Key results

- `advance_cases`: what a step of a call is
- `timed_run`: the expiry of a stored token is not before the start of the clock.
- `safe_step_iff`, `safe_iff`: no call panics if and only if every lifetime fits on the clock.
- `longest_lifetime_panics`: the longest lifetime does not fit.
-/

namespace Barqium.Native.OAuth

/-! ## Arithmetic on the clock -/

namespace Instant

/-- Instants are ordered as their nanoseconds. -/
theorem before_iff (t u : Instant) : t.before u ↔ t.nanos < u.nanos := by
  have ht := t.tvNsec.isLt
  have hu := u.tvNsec.isLt
  unfold before nanos
  rw [Bool.or_eq_true, Bool.and_eq_true, decide_eq_true_eq, decide_eq_true_eq, decide_eq_true_eq,
    Int64.lt_iff_toInt_lt, ← Int64.toInt_inj, Fin.lt_def]
  -- the nanoseconds are less than a second
  omega

/-- An addition overflows if the seconds leave `i64`. -/
theorem checkedAdd_eq_none_iff {t : Instant} {secs : UInt64} :
    t.checkedAdd secs = none ↔ 2 ^ 63 ≤ t.tvSec.toInt + secs.toNat := by
  unfold checkedAdd
  split
  · rename_i h
    exact ⟨fun hnone => (by cases hnone), fun hle => absurd h (Int.not_lt.mpr hle)⟩
  · rename_i h
    exact ⟨fun _ => Int.not_lt.mp h, fun _ => rfl⟩

/-- Otherwise the seconds are added. -/
private theorem tvSec_checkedAdd {t u : Instant} {secs : UInt64} (h : t.checkedAdd secs = some u) :
    u.tvSec.toInt = t.tvSec.toInt + secs.toNat := by
  unfold checkedAdd at h
  split at h
  · cases h
    have hleast := t.tvSec.le_toInt
    exact Int64.toInt_ofInt_of_le (by omega) (by omega)
  · cases h

/-- Half a minute before a point after the start of the clock there is a point of the clock. -/
private theorem nanos_checkedSub {t : Instant} (h : 0 ≤ t.tvSec.toInt) :
    ∃ u, t.checkedSub 30 = some u ∧ u.nanos = t.nanos - 30 * 1000000000 := by
  have hsecs : (30 : UInt64).toNat = 30 := rfl
  have hgreatest := t.tvSec.toInt_lt
  unfold checkedSub nanos
  rw [hsecs, if_pos (by omega)]
  refine ⟨_, rfl, ?_⟩
  show (Int64.ofInt (t.tvSec.toInt - 30)).toInt * 1000000000 + (t.tvNsec : Int) = _
  rw [Int64.toInt_ofInt_of_le (by omega) (by omega)]
  omega

end Instant

/-- The expiry is not before the start of the clock. -/
def CachedToken.Timed (t : CachedToken) : Prop := 0 ≤ t.expiresAt.tvSec.toInt

/-- A valid token has more than 30 seconds left. -/
theorem CachedToken.isValid_iff {t : CachedToken} (ht : t.Timed) (now : Instant) :
    t.isValid now ↔ now.nanos + 30 * 1000000000 < t.expiresAt.nanos := by
  obtain ⟨u, hsub, hnanos⟩ := Instant.nanos_checkedSub ht
  unfold isValid
  rw [hsub, Option.getD_some, Instant.before_iff, hnanos]
  omega

/-! ## Steps -/

/-- What one step of a call can do, with one case for each way that the call goes on. -/
inductive AdvanceTo (tokens : HashMap CachedToken) (serverName : String) (now : Now)
    (answer : Except String HttpResponse) : Phase → HashMap CachedToken → Phase → Prop where
  | hit (t : CachedToken) (found : tokens.lookup serverName = some t)
      (valid : t.isValid now.val = true) :
    AdvanceTo tokens serverName now answer .check tokens (.cached now t)
  | miss (request : TokenRequest) :
    AdvanceTo tokens serverName now answer .check tokens (.fetch request)
  | refused (request : TokenRequest) (e : McpError) :
    AdvanceTo tokens serverName now answer (.fetch request) tokens (.failed e)
  | overflow (request : TokenRequest) (tr : TokenResponse) (answered : granted answer = .ok tr)
      (tooLate : now.val.checkedAdd tr.ttl = none) :
    AdvanceTo tokens serverName now answer (.fetch request) tokens .panicked
  | acquired (request : TokenRequest) (tr : TokenResponse) (expiresAt : Instant)
      (answered : granted answer = .ok tr) (fits : now.val.checkedAdd tr.ttl = some expiresAt) :
    AdvanceTo tokens serverName now answer (.fetch request) tokens
      (.store ⟨tr.accessToken, expiresAt⟩)
  | stored (newToken : CachedToken) :
    AdvanceTo tokens serverName now answer (.store newToken)
      (tokens.insert serverName newToken) (.refreshed newToken)
  | returned (phase : Phase) (notStore : ∀ t, phase ≠ .store t) :
    AdvanceTo tokens serverName now answer phase tokens phase

/-- The check of the cache returns a token or goes on to fetch one. -/
theorem check_cases (tokens : HashMap CachedToken) (serverName : String) (cfg : OAuthConfig)
    (now : Now) (answer : Except String HttpResponse) :
    AdvanceTo tokens serverName now answer .check tokens (check tokens serverName cfg now) := by
  unfold check
  dsimp only
  split
  · rename_i t hlookup
    split
    · rename_i hvalid
      exact .hit t hlookup hvalid
    · -- both flows fall through to the same request
      split <;> exact .miss _
  · split <;> exact .miss _

/-- What the next part of a call does, by the phase it is in. -/
theorem advance_cases (tokens : HashMap CachedToken) (call : Call) (now : Now)
    (answer : Except String HttpResponse) :
    AdvanceTo tokens call.serverName now answer call.phase
      (advance tokens call now answer).1 (advance tokens call now answer).2 := by
  unfold advance
  -- what one step of a call does in each phase
  cases call.phase with
  | check => exact check_cases tokens call.serverName call.cfg now answer
  | fetch request =>
    unfold clientCredentials
    cases hgranted : granted answer with
    | error e => exact .refused request e
    | ok tr =>
      cases hadd : now.val.checkedAdd tr.ttl with
      | none =>
        simp only [hadd, Option.map_none]
        exact .overflow request tr hgranted hadd
      | some expiresAt =>
        simp only [hadd, Option.map_some]
        exact .acquired request tr expiresAt hgranted hadd
  | store newToken => exact .stored newToken
  | cached now t => exact .returned _ fun _ h => (by cases h)
  | refreshed t => exact .returned _ fun _ h => (by cases h)
  | failed e => exact .returned _ fun _ h => (by cases h)
  | panicked => exact .returned _ fun _ h => (by cases h)

/-- What an action can do. -/
inductive StepTo (w : World) (a : Action) : World → Prop where
  | started (serverName : String) (cfg : OAuthConfig) :
    StepTo w a { w with calls := w.calls ++ [⟨serverName, cfg, .check⟩] }
  | noCall : StepTo w a w
  | advanced (i : Nat) (now : Now) (answer : Except String HttpResponse) (call : Call)
      (tokens : HashMap CachedToken) (next : Phase) (action : a = .step i now answer)
      (running : w.calls[i]? = some call)
      (move : AdvanceTo w.tokens call.serverName now answer call.phase tokens next) :
    StepTo w a ⟨tokens, w.calls.set i { call with phase := next }⟩

/-- A step of a call is the next part of it. -/
private theorem step_running {w : World} {i : Nat} {call : Call} (hi : w.calls[i]? = some call)
    (now : Now) (answer : Except String HttpResponse) :
    w.step (.step i now answer) = ⟨(advance w.tokens call now answer).1,
      w.calls.set i { call with phase := (advance w.tokens call now answer).2 }⟩ := by
  unfold World.step
  simp only [hi]

/-- A step does nothing, starts a call, or advances one. -/
theorem step_cases (w : World) (a : Action) : StepTo w a (w.step a) := by
  cases a with
  | token serverName cfg => exact .started serverName cfg
  | step i now answer =>
    cases hi : w.calls[i]? with
    -- there is no such call
    | none =>
      have hsame : w.step (.step i now answer) = w := by
        unfold World.step
        simp only [hi]
      rw [hsame]
      exact .noCall
    | some call =>
      rw [step_running hi]
      exact .advanced i now answer call _ _ rfl hi (advance_cases w.tokens call now answer)

/-- A call whose token does not fit on the clock panics. -/
theorem panicked_mem_step {w : World} {i : Nat} {now : Now} {answer : Except String HttpResponse}
    {call : Call} {request : TokenRequest} {tr : TokenResponse} (hi : w.calls[i]? = some call)
    (hphase : call.phase = .fetch request) (hgranted : granted answer = .ok tr)
    (hlate : 2 ^ 63 ≤ now.val.tvSec.toInt + tr.ttl.toNat) :
    { call with phase := .panicked } ∈ (w.step (.step i now answer)).calls := by
  have hadd : now.val.checkedAdd tr.ttl = none := Instant.checkedAdd_eq_none_iff.mpr hlate
  have hpanic : (advance w.tokens call now answer).2 = .panicked := by
    unfold advance clientCredentials
    rw [hphase]
    simp only [hgranted, hadd, Option.map_none]
  rw [step_running hi, hpanic]
  exact List.mem_set (List.getElem?_eq_some_iff.mp hi).1 _

/-! ## Stored tokens -/

/-- The tokens that are stored, or about to be, expire after the start of the clock. -/
structure Timed (w : World) : Prop where
  tokens : ∀ serverName t, w.tokens.lookup serverName = some t → t.Timed
  calls : ∀ call ∈ w.calls, ∀ t, call.phase = .store t → t.Timed

/-- Every step keeps the times of the tokens. -/
theorem timed_step {w : World} (h : Timed w) (a : Action) : Timed (w.step a) := by
  have hstep := step_cases w a
  generalize w.step a = w' at hstep ⊢
  cases hstep with
  -- a new call holds no token
  | started serverName cfg =>
    refine ⟨h.tokens, fun call hcall t hphase => ?_⟩
    rcases List.mem_append.mp hcall with hold | hnew
    · exact h.calls call hold t hphase
    · rw [List.mem_singleton.mp hnew] at hphase
      cases hphase
  | noCall => exact h
  | advanced i now answer call tokens next _ running move =>
    have hmem : call ∈ w.calls := List.mem_of_getElem? running
    -- the store and the next phase are timed; the other calls stay as they were
    have hboth : (∀ serverName t, tokens.lookup serverName = some t → t.Timed) ∧
        ∀ t, next = .store t → t.Timed := by
      generalize hphase : call.phase = phase at move
      cases move with
      | hit _ _ _ => exact ⟨h.tokens, fun _ h => (by cases h)⟩
      | miss _ => exact ⟨h.tokens, fun _ h => (by cases h)⟩
      | refused _ _ => exact ⟨h.tokens, fun _ h => (by cases h)⟩
      | overflow _ _ _ _ => exact ⟨h.tokens, fun _ h => (by cases h)⟩
      | acquired _ tr expiresAt _ fits =>
        refine ⟨h.tokens, fun t ht => ?_⟩
        cases ht
        have hstart := now.property
        have hsum := Instant.tvSec_checkedAdd fits
        show 0 ≤ expiresAt.tvSec.toInt
        omega
      | stored newToken =>
        refine ⟨fun serverName t ht => ?_, fun _ h => (by cases h)⟩
        by_cases hserver : serverName = call.serverName
        · subst hserver
          rw [Finmap.lookup_insert] at ht
          cases ht
          exact h.calls call hmem newToken hphase
        · rw [Finmap.lookup_insert_of_ne _ hserver] at ht
          exact h.tokens serverName t ht
      | returned _ notStore => exact ⟨h.tokens, fun t ht => absurd ht (notStore t)⟩
    refine ⟨hboth.1, fun call' hcall' t ht => ?_⟩
    rcases List.mem_or_eq_of_mem_set hcall' with hold | rfl
    · exact h.calls call' hold t ht
    · exact hboth.2 t ht

/-- The times of the tokens are right at every point of a run. -/
theorem timed_run (actions : List Action) : Timed (World.run actions) := by
  refine List.foldl_keeps actions World.new ?_ fun _ a _ _ h => timed_step h a
  refine ⟨fun serverName t ht => ?_, fun call hcall => (by cases hcall)⟩
  rw [show World.new.tokens = ∅ from rfl, Finmap.lookup_empty] at ht
  cases ht

/-! ## Safety -/

/-- No call has panicked, and what came from the cache had at least 30 seconds left when it
was looked up. -/
structure Safe (w : World) : Prop where
  noPanic : ∀ call ∈ w.calls, call.phase ≠ .panicked
  remaining : ∀ call ∈ w.calls, ∀ now t, call.phase = .cached now t →
    now.val.nanos + 30 * 1000000000 ≤ t.expiresAt.nanos

/-- If the action gives a call the answer that it waits for, then the lifetime of the granted
token can be added to the clock. -/
def LifetimeFits (w : World) (a : Action) : Prop :=
  ∀ i now answer call request tr, a = .step i now answer → w.calls[i]? = some call →
    call.phase = .fetch request → granted answer = .ok tr →
    now.val.tvSec.toInt + tr.ttl.toNat < 2 ^ 63

/-- One step is safe if and only if the lifetime of a token granted in it fits. -/
theorem safe_step_iff {w : World} {a : Action} (htimed : Timed w) (h : Safe w) :
    Safe (w.step a) ↔ LifetimeFits w a := by
  constructor
  · -- a lifetime that does not fit panics the call
    rintro hsafe i now answer call request tr rfl hi hphase hgranted
    by_contra hlate
    have hmem := panicked_mem_step hi hphase hgranted (Int.not_lt.mp hlate)
    exact hsafe.noPanic _ hmem rfl
  · -- and if it fits, no other step panics
    intro hfits
    have hstep := step_cases w a
    generalize w.step a = w' at hstep ⊢
    cases hstep with
    | started serverName cfg =>
      refine ⟨fun call hcall => ?_, fun call hcall now t hphase => ?_⟩
      · rcases List.mem_append.mp hcall with hold | hnew
        · exact h.noPanic call hold
        · rw [List.mem_singleton.mp hnew]
          intro hphase
          cases hphase
      · rcases List.mem_append.mp hcall with hold | hnew
        · exact h.remaining call hold now t hphase
        · rw [List.mem_singleton.mp hnew] at hphase
          cases hphase
    | noCall => exact h
    | advanced i now answer call tokens next action running move =>
      have hmem : call ∈ w.calls := List.mem_of_getElem? running
      have hboth : next ≠ .panicked ∧ ∀ now t, next = .cached now t →
          now.val.nanos + 30 * 1000000000 ≤ t.expiresAt.nanos := by
        generalize hphase : call.phase = phase at move
        cases move with
        -- a cached token is used only while it is valid
        | hit t found valid =>
          refine ⟨fun h => (by cases h), fun now' t' heq => ?_⟩
          cases heq
          have htoken : t.Timed := htimed.tokens _ t found
          exact Int.le_of_lt ((CachedToken.isValid_iff htoken now.val).mp valid)
        | miss _ => exact ⟨fun h => (by cases h), fun _ _ h => (by cases h)⟩
        | refused _ _ => exact ⟨fun h => (by cases h), fun _ _ h => (by cases h)⟩
        | overflow request tr answered tooLate =>
          -- excluded by the condition
          have hlt := hfits i now answer call request tr action running hphase answered
          exact absurd (Instant.checkedAdd_eq_none_iff.mp tooLate) (Int.not_le.mpr hlt)
        | acquired _ _ _ _ _ => exact ⟨fun h => (by cases h), fun _ _ h => (by cases h)⟩
        | stored _ => exact ⟨fun h => (by cases h), fun _ _ h => (by cases h)⟩
        | returned _ _ =>
          subst hphase
          exact ⟨h.noPanic call hmem, h.remaining call hmem⟩
      refine ⟨fun call' hcall' => ?_, fun call' hcall' now' t hcached => ?_⟩
      · rcases List.mem_or_eq_of_mem_set hcall' with hold | rfl
        · exact h.noPanic call' hold
        · exact hboth.1
      · rcases List.mem_or_eq_of_mem_set hcall' with hold | rfl
        · exact h.remaining call' hold now' t hcached
        · exact hboth.2 now' t hcached

/-- Every state of a run is safe if and only if every lifetime that is granted in it fits. -/
theorem safe_iff (actions : List Action) :
    (∀ before, before <+: actions → Safe (World.run before)) ↔
      ∀ before a after, actions = before ++ a :: after → LifetimeFits (World.run before) a := by
  refine List.foldl_keeps_iff actions World.new ?_ fun before a after _ h =>
    safe_step_iff (timed_run before) h
  exact ⟨fun call hcall => (by cases hcall), fun call hcall => (by cases hcall)⟩

/-- The endpoint grants a token for the longest lifetime, and the call panics. -/
theorem longest_lifetime_panics :
    let cfg : OAuthConfig := ⟨"https://idp/token", "id", "secret", [], .clientCredentials⟩
    let start : Now := ⟨⟨0, 0⟩, by decide⟩
    let answer : Except String HttpResponse :=
      .ok ⟨200, .error "", .ok ⟨"token", some 18446744073709551615⟩⟩
    ¬ Safe (World.run [.token "server" cfg, .step 0 start answer, .step 0 start answer]) := by
  intro cfg start answer hsafe
  have hrunning : (World.run [.token "server" cfg, .step 0 start answer]).calls[0]? =
      some ⟨"server", cfg, .fetch (tokenRequest cfg)⟩ := rfl
  have hgranted : granted answer = .ok ⟨"token", some 18446744073709551615⟩ := rfl
  -- the sum leaves the range of the seconds
  have hlate : 2 ^ 63 ≤ start.val.tvSec.toInt + (18446744073709551615 : UInt64).toNat := by decide
  have hpanic := panicked_mem_step hrunning rfl hgranted hlate
  exact hsafe.noPanic _ hpanic rfl

end Barqium.Native.OAuth
