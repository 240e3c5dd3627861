import Barqium.Native.FallbackChain
import Mathlib.Order.Basic

/-!
# Fallback semantics

Each provider of a chain has an outcome for the request. The first one that is not a transient
error settles the request.

## Key results

- `loop_settled`, `loop_exhausted`: the calls and the result of the loop.
- `fallback_falls`: both kinds of chat call their providers in order up to the first that
  settles the request, and agree on it
-/

namespace Barqium.Native.Ai

variable {P TransportError SerdeError Stream R R' : Type}

/-- The outcome of every provider of a chain, by its position. -/
structure Outcomes (TransportError SerdeError Stream : Type) where
  chat : Nat → Except (AiError TransportError SerdeError) ChatResponse
  chatStream : Nat → Except (AiError TransportError SerdeError) Stream

/-- What is seen of a call. -/
structure Called (P : Type) where
  attempt : Nat
  provider : P
  req : ChatRequest

namespace Outcomes

/-- The answer to a call. -/
def answer (o : Outcomes TransportError SerdeError Stream) {β : Type}
    (call : ProviderCall P (AiError TransportError SerdeError) Stream β) (s : Unit) : β × Unit :=
  match call with
  | .chat i _ _ => (o.chat i, s)
  | .chatStream i _ _ => (o.chatStream i, s)

/-- The record of a call. -/
def record {Error β : Type} (call : ProviderCall P Error Stream β) (_ : Unit) : List (Called P) :=
  match call with
  | .chat i provider req => [⟨i, provider, req⟩]
  | .chatStream i provider req => [⟨i, provider, req⟩]

variable (o : Outcomes TransportError SerdeError Stream)

/-- How a program over the providers ends. -/
def result (x : Program (ProviderCall P (AiError TransportError SerdeError) Stream)
    (AiError TransportError SerdeError) R) : Except (AiError TransportError SerdeError) R :=
  (x.run o.answer ()).1

/-- The calls that it makes. -/
def calls (x : Program (ProviderCall P (AiError TransportError SerdeError) Stream)
    (AiError TransportError SerdeError) R) : List (Called P) :=
  x.trace o.answer record ()

end Outcomes

/-- An error after which the next provider is tried: any but an exceeded budget and an exceeded
    context length. -/
def IsTransient (outcome : Except (AiError TransportError SerdeError) R) : Prop :=
  ∃ e, outcome = .error e ∧ (∀ cost limit, e ≠ .budgetExceeded cost limit) ∧
    ∀ model tokens limit, e ≠ .contextLengthExceeded model tokens limit

/-- The predicate of the chain tells the same errors apart. -/
theorem isTransient_iff {outcome : Except (AiError TransportError SerdeError) R} :
    IsTransient outcome ↔ ∃ e, outcome = .error e ∧ isPermanent e = false := by
  refine exists_congr fun e => and_congr_right fun _ => ?_
  cases e <;> simp [isPermanent]

/-- A call of every provider of a chain, in order. -/
def FallbackChain.allCalls (chain : FallbackChain P) (req : ChatRequest) : List (Called P) :=
  chain.providers.zipIdx.map fun p => ⟨p.2, p.1, req⟩

/-- What a chain does with a request, given the outcomes of its providers. -/
structure Falls (chain : FallbackChain P) (req : ChatRequest)
    (outcome : Nat → Except (AiError TransportError SerdeError) R) (calls : List (Called P))
    (result : Except (AiError TransportError SerdeError) R) : Prop where
  /-- No provider is called twice, and none before one that stands in front of it. -/
  inOrder : calls <+: chain.allCalls req
  /-- The first success or permanent error is the result, and ends the calls. -/
  settled : ∀ k < chain.providers.length, ¬ IsTransient (outcome k) →
    (∀ i < k, IsTransient (outcome i)) →
      calls = (chain.allCalls req).take (k + 1) ∧ result = outcome k
  /-- Without such an outcome every provider is called. -/
  allCalled : (∀ i < chain.providers.length, IsTransient (outcome i)) →
    calls = chain.allCalls req
  exhausted : result = .error (.allProvidersFailed chain.providers.length) ↔
    ∀ i < chain.providers.length, IsTransient (outcome i)

/-- Both succeed, or fail with the same error. -/
inductive SameOutcome : Except (AiError TransportError SerdeError) R →
    Except (AiError TransportError SerdeError) R' → Prop where
  | ok (r : R) (r' : R') : SameOutcome (.ok r) (.ok r')
  | error (e : AiError TransportError SerdeError) : SameOutcome (.error e) (.error e)

/-! ## The loop -/

section Loop

variable {o : Outcomes TransportError SerdeError Stream}
  {call : P × Nat → ProviderCall P (AiError TransportError SerdeError) Stream
    (Except (AiError TransportError SerdeError) R)}
  {outcome : Nat → Except (AiError TransportError SerdeError) R}
  (hcall : ∀ p s, o.answer (call p) s = (outcome p.2, s))

include hcall

/-- After a transient error the loop goes on with the next provider. -/
private theorem loop_cons_transient (n : Nat) {p : P × Nat} (h : IsTransient (outcome p.2))
    (rest : List (P × Nat)) :
    o.result (FallbackChain.loop call n (p :: rest)) = o.result (FallbackChain.loop call n rest) ∧
      o.calls (FallbackChain.loop call n (p :: rest)) =
        Outcomes.record (call p) () ++ o.calls (FallbackChain.loop call n rest) := by
  obtain ⟨e, he, htransient⟩ := isTransient_iff.mp h
  -- the answer is an error that does not settle the request, so the loop goes on
  have hanswer : o.answer (call p) () = (.error e, ()) := by rw [hcall, he]
  constructor
  · rw [Outcomes.result, FallbackChain.loop, Program.run_bind_perform, hanswer]
    simp only [htransient, Bool.false_eq_true, if_false]
    rfl
  · rw [Outcomes.calls, FallbackChain.loop, Program.trace_bind, Program.perform]
    simp only [Program.trace, Program.run, hanswer, htransient, Bool.false_eq_true, if_false,
      List.append_nil]
    rfl

/-- Any other outcome ends the loop. -/
private theorem loop_cons_settled (n : Nat) {p : P × Nat} (h : ¬ IsTransient (outcome p.2))
    (rest : List (P × Nat)) :
    o.result (FallbackChain.loop call n (p :: rest)) = outcome p.2 ∧
      o.calls (FallbackChain.loop call n (p :: rest)) = Outcomes.record (call p) () := by
  have hanswer := hcall p ()
  rw [Outcomes.result, Outcomes.calls, FallbackChain.loop, Program.run_bind_perform,
    Program.trace_bind, Program.perform]
  simp only [Program.trace, Program.run, hanswer]
  cases hout : outcome p.2 with
  | ok resp => exact ⟨rfl, by simp [pure, Program.trace]⟩
  | error e =>
    -- an error that is not transient is thrown as it is
    have hpermanent : isPermanent e = true := by
      by_contra hnot
      exact h (isTransient_iff.mpr ⟨e, hout, eq_false_of_ne_true hnot⟩)
    simp only [hpermanent, if_true]
    exact ⟨rfl, by simp [throw, throwThe, MonadExceptOf.throw, Program.trace]⟩

/-- The loop calls up to the first provider that settles the request, and ends as it does. -/
theorem loop_settled (n : Nat) {before : List (P × Nat)} {p : P × Nat}
    (hbefore : ∀ q ∈ before, IsTransient (outcome q.2)) (h : ¬ IsTransient (outcome p.2))
    (after : List (P × Nat)) :
    o.result (FallbackChain.loop call n (before ++ p :: after)) = outcome p.2 ∧
      o.calls (FallbackChain.loop call n (before ++ p :: after)) =
        (before ++ [p]).flatMap fun q => Outcomes.record (call q) () := by
  -- each provider in front adds its call and hands the request on
  induction before with
  | nil =>
    obtain ⟨hresult, hcalls⟩ := loop_cons_settled hcall n h after
    exact ⟨hresult, by simpa using hcalls⟩
  | cons q before ih =>
    obtain ⟨hq, hbefore⟩ := List.forall_mem_cons.mp hbefore
    obtain ⟨hresult, hcalls⟩ := loop_cons_transient hcall n hq (before ++ p :: after)
    obtain ⟨ihresult, ihcalls⟩ := ih hbefore
    rw [List.cons_append, hresult, hcalls, ihresult, ihcalls, List.cons_append, List.flatMap_cons]
    exact ⟨rfl, rfl⟩

/-- If no provider settles it the loop calls all of them. -/
theorem loop_exhausted (n : Nat) {ps : List (P × Nat)}
    (h : ∀ q ∈ ps, IsTransient (outcome q.2)) :
    o.result (FallbackChain.loop call n ps) = .error (.allProvidersFailed n) ∧
      o.calls (FallbackChain.loop call n ps) =
        ps.flatMap fun q => Outcomes.record (call q) () := by
  induction ps with
  | nil => exact ⟨rfl, rfl⟩
  | cons q ps ih =>
    obtain ⟨hq, hps⟩ := List.forall_mem_cons.mp h
    obtain ⟨hresult, hcalls⟩ := loop_cons_transient hcall n hq ps
    obtain ⟨ihresult, ihcalls⟩ := ih hps
    rw [hresult, hcalls, ihresult, ihcalls, List.flatMap_cons]
    exact ⟨rfl, rfl⟩

end Loop

/-! ## The chain -/

/-- Either all outcomes are transient, or there is a first one that is not. -/
private theorem transient_or_first (n : Nat)
    (outcome : Nat → Except (AiError TransportError SerdeError) R) :
    (∀ i < n, IsTransient (outcome i)) ∨
      ∃ k < n, ¬ IsTransient (outcome k) ∧ ∀ i < k, IsTransient (outcome i) := by
  induction n with
  | zero => exact .inl fun i hi => absurd hi (Nat.not_lt_zero i)
  | succ n ih =>
    rcases ih with hall | ⟨k, hk, hfirst⟩
    · -- the last position decides only if none before it does
      by_cases hn : IsTransient (outcome n)
      · refine .inl fun i hi => ?_
        rcases Nat.lt_succ_iff_lt_or_eq.mp hi with hlt | rfl
        · exact hall i hlt
        · exact hn
      · exact .inr ⟨n, Nat.lt_succ_self n, hn, hall⟩
    · exact .inr ⟨k, Nat.lt_succ_of_lt hk, hfirst⟩

/-- A position is that of its provider. -/
private theorem snd_lt_of_mem_take {ps : List P} {k : Nat} {q : P × Nat}
    (h : q ∈ ps.zipIdx.take k) :
    q.2 < k ∧ q.2 < ps.length := by
  obtain ⟨i, hi, rfl⟩ := List.mem_iff_getElem.mp h
  simp only [List.length_take, List.length_zipIdx] at hi
  simp only [List.getElem_take, List.getElem_zipIdx]
  omega

section Chain

variable {o : Outcomes TransportError SerdeError Stream} {req : ChatRequest}
  {call : P × Nat → ProviderCall P (AiError TransportError SerdeError) Stream
    (Except (AiError TransportError SerdeError) R)}
  {outcome : Nat → Except (AiError TransportError SerdeError) R}
  (hcall : ∀ p s, o.answer (call p) s = (outcome p.2, s))
  (hrecord : ∀ p, Outcomes.record (call p) () = [⟨p.2, p.1, req⟩])
  (chain : FallbackChain P)

include hcall hrecord

/-- The loop over a chain settles with the first provider that settles the request. -/
private theorem loop_zipIdx_settled {k : Nat} (hk : k < chain.providers.length)
    (h : ¬ IsTransient (outcome k)) (hfirst : ∀ i < k, IsTransient (outcome i)) (n : Nat) :
    o.calls (FallbackChain.loop call n chain.providers.zipIdx) =
        (chain.allCalls req).take (k + 1) ∧
      o.result (FallbackChain.loop call n chain.providers.zipIdx) = outcome k := by
  have hlength : k < chain.providers.zipIdx.length := by rwa [List.length_zipIdx]
  -- the loop runs through the positions before `k` and stops there
  have hsplit : chain.providers.zipIdx = chain.providers.zipIdx.take k ++
      chain.providers.zipIdx[k] :: chain.providers.zipIdx.drop (k + 1) := by
    rw [List.getElem_cons_drop, List.take_append_drop]
  have hposition : chain.providers.zipIdx[k].2 = k := by simp
  have hbefore : ∀ q ∈ chain.providers.zipIdx.take k, IsTransient (outcome q.2) :=
    fun q hq => hfirst q.2 (snd_lt_of_mem_take hq).1
  obtain ⟨hresult, hcalls⟩ := loop_settled hcall n hbefore (p := chain.providers.zipIdx[k])
    (by rwa [hposition]) (chain.providers.zipIdx.drop (k + 1))
  rw [← hsplit] at hresult hcalls
  refine ⟨?_, by rw [hresult, hposition]⟩
  rw [hcalls, List.take_append_getElem, FallbackChain.allCalls, ← List.map_take]
  simp only [hrecord]
  exact List.flatMap_pure_eq_map _ _

/-- The loop over a chain is exhausted if none of its providers settles the request. -/
private theorem loop_zipIdx_exhausted (h : ∀ i < chain.providers.length, IsTransient (outcome i))
    (n : Nat) :
    o.calls (FallbackChain.loop call n chain.providers.zipIdx) = chain.allCalls req ∧
      o.result (FallbackChain.loop call n chain.providers.zipIdx) =
        .error (.allProvidersFailed n) := by
  have hall : ∀ q ∈ chain.providers.zipIdx, IsTransient (outcome q.2) := by
    intro q hq
    rw [← List.take_length (l := chain.providers.zipIdx)] at hq
    exact h q.2 (snd_lt_of_mem_take hq).2
  obtain ⟨hresult, hcalls⟩ := loop_exhausted hcall n hall
  refine ⟨?_, hresult⟩
  rw [hcalls]
  simp only [hrecord]
  exact List.flatMap_pure_eq_map _ _

/-- The loop falls through the chain as it has to. -/
private theorem falls_loop :
    Falls chain req outcome
      (o.calls (FallbackChain.loop call chain.providers.length chain.providers.zipIdx))
      (o.result (FallbackChain.loop call chain.providers.length chain.providers.zipIdx)) where
  -- the calls go down the list as far as the first provider that settles it
  inOrder := by
    rcases transient_or_first chain.providers.length outcome with hall | ⟨k, hk, hsettles, hfirst⟩
    · exact (loop_zipIdx_exhausted hcall hrecord chain hall _).1 ▸ List.prefix_rfl
    · rw [(loop_zipIdx_settled hcall hrecord chain hk hsettles hfirst _).1]
      exact List.take_prefix _ _
  settled k hk hsettles hfirst := loop_zipIdx_settled hcall hrecord chain hk hsettles hfirst _
  allCalled hall := (loop_zipIdx_exhausted hcall hrecord chain hall _).1
  exhausted := by
    constructor
    · intro hresult
      rcases transient_or_first chain.providers.length outcome with
        hall | ⟨k, hk, hsettles, hfirst⟩
      · exact hall
      · -- an error of the first provider that settles the request is permanent
        rw [(loop_zipIdx_settled hcall hrecord chain hk hsettles hfirst _).2] at hresult
        exact absurd (isTransient_iff.mpr ⟨_, hresult, rfl⟩) hsettles
    · exact fun hall => (loop_zipIdx_exhausted hcall hrecord chain hall _).2

end Chain

variable {outcome : Nat → Except (AiError TransportError SerdeError) R}
  {outcome' : Nat → Except (AiError TransportError SerdeError) R'}

/-- With the same outcome both go on to the next provider or neither does. -/
theorem SameOutcome.isTransient_iff {r : Except (AiError TransportError SerdeError) R}
    {r' : Except (AiError TransportError SerdeError) R'} (h : SameOutcome r r') :
    IsTransient r ↔ IsTransient r' := by
  cases h with
  | ok r r' => exact iff_of_false (fun ⟨_, h, _⟩ => by cases h) (fun ⟨_, h, _⟩ => by cases h)
  | error e => simp [IsTransient]

/-- With the same outcomes the calls are the same, and the one that settles the request. -/
theorem Falls.same {chain : FallbackChain P} {req : ChatRequest} {calls calls' : List (Called P)}
    {result : Except (AiError TransportError SerdeError) R}
    {result' : Except (AiError TransportError SerdeError) R'}
    (h : Falls chain req outcome calls result) (h' : Falls chain req outcome' calls' result')
    (hsame : ∀ i < chain.providers.length, SameOutcome (outcome i) (outcome' i)) :
    calls = calls' ∧ SameOutcome result result' := by
  rcases transient_or_first chain.providers.length outcome with hall | ⟨k, hk, hsettles, hfirst⟩
  · have hall' : ∀ i < chain.providers.length, IsTransient (outcome' i) :=
      fun i hi => (hsame i hi).isTransient_iff.mp (hall i hi)
    rw [h.allCalled hall, h'.allCalled hall', h.exhausted.mpr hall, h'.exhausted.mpr hall']
    exact ⟨rfl, .error _⟩
  · -- the first outcome that settles the request stands at the same position in both
    have hfirst' : ∀ i < k, IsTransient (outcome' i) :=
      fun i hi => (hsame i (hi.trans hk)).isTransient_iff.mp (hfirst i hi)
    obtain ⟨rfl, rfl⟩ := h.settled k hk hsettles hfirst
    obtain ⟨rfl, rfl⟩ := h'.settled k hk (fun ht => hsettles ((hsame k hk).isTransient_iff.mpr ht))
      hfirst'
    exact ⟨rfl, hsame k hk⟩

/-- Both kinds of chat call the providers in order and stop at the first that settles the
    request; with the same outcomes they stop at the same. -/
theorem fallback_falls (chain : FallbackChain P) (req : ChatRequest)
    (o : Outcomes TransportError SerdeError Stream) :
    Falls chain req o.chat (o.calls (chain.chat req)) (o.result (chain.chat req)) ∧
      Falls chain req o.chatStream (o.calls (chain.chatStream req))
        (o.result (chain.chatStream req)) ∧
      ((∀ i < chain.providers.length, SameOutcome (o.chat i) (o.chatStream i)) →
        o.calls (chain.chat req) = o.calls (chain.chatStream req) ∧
          SameOutcome (o.result (chain.chat req)) (o.result (chain.chatStream req))) := by
  have hchat : Falls chain req o.chat (o.calls (chain.chat req)) (o.result (chain.chat req)) :=
    falls_loop (fun _ _ => rfl) (fun _ => rfl) chain
  have hstream : Falls chain req o.chatStream (o.calls (chain.chatStream req))
      (o.result (chain.chatStream req)) :=
    falls_loop (fun _ _ => rfl) (fun _ => rfl) chain
  exact ⟨hchat, hstream, hchat.same hstream⟩

end Barqium.Native.Ai
