import Mathlib.Logic.Basic

/-!
# Programs over a signature of operations

A program performs operations of a signature `Op` one at a time, may depend on
their results, and ends with a value or an error. What an operation does is left
to an interpretation `exec`, so one program has a run from every state, and what
holds of all the operations it may perform holds of every run.

## Key results

- `run_bind`, `run_bind_eq_ok`: a run of a sequence of programs.
- `Performs.bind`, `Performs.bind_attempt`, `Performs.bind_returns`: the operations of
  a sequence.
- `Performs.run`: an invariant of the allowed operations is one of the run.
- `EndsIn.bind`: what holds when a sequence ends.
- `trace_bind`: what is recorded of the operations of a sequence.
-/

/-- A program that performs operations of `Op` and ends with an `α` or an `ε`. -/
inductive Program (Op : Type → Type) (ε α : Type) : Type 1 where
  | done (result : Except ε α)
  | call {β : Type} (op : Op β) (k : β → Program Op ε α)

namespace Program

variable {Op : Type → Type} {ε α β γ S : Type}

protected def bind : Program Op ε α → (α → Program Op ε β) → Program Op ε β
  | .done (.ok a), f => f a
  | .done (.error e), _ => .done (.error e)
  | .call op k, f => .call op fun b => (k b).bind f

protected def tryCatch : Program Op ε α → (ε → Program Op ε α) → Program Op ε α
  | .done (.ok a), _ => .done (.ok a)
  | .done (.error e), handler => handler e
  | .call op k, handler => .call op fun b => (k b).tryCatch handler

instance : Monad (Program Op ε) where
  pure a := .done (.ok a)
  bind := Program.bind

instance : MonadExceptOf ε (Program Op ε) where
  throw e := .done (.error e)
  tryCatch := Program.tryCatch

/-- Perform one operation. -/
def perform (op : Op α) : Program Op ε α := .call op fun a => .done (.ok a)

/-- End with the error of a computation that fails, go on with its value otherwise. -/
def attempt (e : Except ε α) : Program Op ε α := .done e

@[simp] theorem attempt_ok_bind (a : α) (f : α → Program Op ε β) :
    (attempt (.ok a) >>= f) = f a := rfl

/-! ## Runs -/

/-- The result of a program and the state it leaves, operations being executed by
    `exec`. -/
def run (exec : {β : Type} → Op β → S → β × S) : Program Op ε α → S → Except ε α × S
  | .done result, s => (result, s)
  | .call op k, s => (k (exec op s).1).run exec (exec op s).2

variable (exec : {β : Type} → Op β → S → β × S)

@[simp] theorem run_attempt (e : Except ε α) (s : S) :
    (attempt e : Program Op ε α).run exec s = (e, s) := rfl

/-- The second program of a sequence runs from the state the first one leaves,
    unless the first one failed. -/
theorem run_bind (x : Program Op ε α) (f : α → Program Op ε β) (s : S) :
    (x >>= f).run exec s =
      match x.run exec s with
      | (.ok a, s') => (f a).run exec s'
      | (.error e, s') => (.error e, s') := by
  induction x generalizing s with
  | done result => cases result <;> rfl
  | call op k ih => exact ih (exec op s).1 (exec op s).2

/-- A sequence ends with a value if both of its programs do. -/
theorem run_bind_eq_ok {x : Program Op ε α} {f : α → Program Op ε β} {s s' : S} {b : β} :
    (x >>= f).run exec s = (.ok b, s') ↔
      ∃ a t, x.run exec s = (.ok a, t) ∧ (f a).run exec t = (.ok b, s') := by
  rw [run_bind]
  generalize x.run exec s = result
  obtain ⟨value, t⟩ := result
  constructor
  · intro h
    -- an error of the first part is the error of the whole
    cases value with
    | ok a => exact ⟨a, t, rfl, h⟩
    | error e => cases h
  · rintro ⟨a, t', heq, h⟩
    cases heq
    exact h

/-- After a computation without operations the state is the same. -/
theorem run_bind_attempt (e : Except ε α) (f : α → Program Op ε β) (s : S) :
    (attempt e >>= f).run exec s =
      match e with
      | .ok a => (f a).run exec s
      | .error err => (.error err, s) := by
  rw [run_bind, run_attempt]
  cases e <;> rfl

/-- After an operation the program goes on with its result. -/
theorem run_bind_perform (op : Op α) (f : α → Program Op ε β) (s : S) :
    (perform op >>= f).run exec s = (f (exec op s).1).run exec (exec op s).2 := rfl

/-- The program ends with an error when it runs from `s`. -/
def Fails (s : S) (x : Program Op ε α) : Prop := ∃ e s', x.run exec s = (.error e, s')

variable {exec} {s : S}

/-- A program that fails still does when something is to follow. -/
theorem Fails.bind {x : Program Op ε α} (h : x.Fails exec s) (f : α → Program Op ε β) :
    (x >>= f).Fails exec s := by
  obtain ⟨e, s', hrun⟩ := h
  exact ⟨e, s', by rw [run_bind, hrun]⟩

/-- A computation without operations fails, or what follows it does. -/
theorem Fails.bind_attempt {e : Except ε α} {f : α → Program Op ε β}
    (hf : ∀ a, e = .ok a → (f a).Fails exec s) : (attempt e >>= f).Fails exec s := by
  cases e with
  | ok a => exact hf a rfl
  | error err => exact ⟨err, s, rfl⟩

/-! ## The operations of a program -/

/-- Every operation the program may perform, whatever the results so far, is allowed. -/
def Performs (allowed : {β : Type} → Op β → Prop) : Program Op ε α → Prop
  | .done _ => True
  | .call op k => allowed op ∧ ∀ b, (k b).Performs allowed

variable {allowed : {β : Type} → Op β → Prop}

/-- A value performs nothing. -/
theorem Performs.pure (a : α) : (pure a : Program Op ε α).Performs allowed := trivial

/-- An error performs nothing. -/
theorem Performs.throw (e : ε) : (throw e : Program Op ε α).Performs allowed := trivial

/-- An allowed operation. -/
theorem Performs.perform {op : Op α} (h : allowed op) :
    (perform op : Program Op ε α).Performs allowed := ⟨h, fun _ => trivial⟩

/-- Two programs, one after the other. -/
theorem Performs.bind {x : Program Op ε α} {f : α → Program Op ε β} (hx : x.Performs allowed)
    (hf : ∀ a, (f a).Performs allowed) : (x >>= f).Performs allowed := by
  induction x with
  | done result =>
    cases result with
    | ok a => exact hf a
    | error e => trivial
  | call op k ih => exact ⟨hx.1, fun b => ih b (hx.2 b)⟩

/-- After a computation without operations, only its own value need be considered. -/
theorem Performs.bind_attempt {e : Except ε α} {f : α → Program Op ε β}
    (hf : ∀ a, e = .ok a → (f a).Performs allowed) :
    (attempt e >>= f).Performs allowed := by
  cases e with
  | ok a => exact hf a rfl
  | error err => trivial

/-- More may be allowed. -/
theorem Performs.mono {allowed' : {β : Type} → Op β → Prop} {x : Program Op ε α}
    (hx : x.Performs allowed) (h : ∀ {β : Type} (op : Op β), allowed op → allowed' op) :
    x.Performs allowed' := by
  induction x with
  | done result => trivial
  | call op k ih => exact ⟨h op hx.1, fun b => ih b (hx.2 b)⟩

/-- Operations that are allowed twice. -/
theorem Performs.and {allowed' : {β : Type} → Op β → Prop} {x : Program Op ε α}
    (hx : x.Performs allowed) (hx' : x.Performs allowed') :
    x.Performs fun op => allowed op ∧ allowed' op := by
  induction x with
  | done result => trivial
  | call op k ih => exact ⟨⟨hx.1, hx'.1⟩, fun b => ih b (hx.2 b) (hx'.2 b)⟩

/-! ## The results of a program -/

/-- Every value the program may end with, whatever the results of its operations,
    satisfies `Q`. -/
def Returns (Q : α → Prop) : Program Op ε α → Prop
  | .done (.ok a) => Q a
  | .done (.error _) => True
  | .call _ k => ∀ b, (k b).Returns Q

/-- After a computation without operations the rest decides the value. -/
theorem Returns.attempt_bind {Q : β → Prop} {x : Except ε α} {f : α → Except ε β}
    (hf : ∀ a, (Program.attempt (f a) : Program Op ε β).Returns Q) :
    (Program.attempt (x >>= f) : Program Op ε β).Returns Q := by
  cases x with
  | ok a => exact hf a
  | error e => trivial

/-- After a computation without operations, only its own value need be considered. -/
theorem Returns.attempt_bind_ok {Q : β → Prop} {x : Except ε α} {f : α → Except ε β}
    (hf : ∀ a, x = .ok a → (Program.attempt (f a) : Program Op ε β).Returns Q) :
    (Program.attempt (x >>= f) : Program Op ε β).Returns Q := by
  cases x with
  | ok a => exact hf a rfl
  | error e => trivial

/-- The rest of a program decides the value. -/
theorem Returns.bind {Q : β → Prop} {x : Program Op ε α} {f : α → Program Op ε β}
    (hf : ∀ a, (f a).Returns Q) : (x >>= f).Returns Q := by
  induction x with
  | done result =>
    cases result with
    | ok a => exact hf a
    | error e => trivial
  | call op k ih => exact fun b => ih b

/-- The second program of a sequence need be considered only on what the first one
    may end with. -/
theorem Performs.bind_returns {Q : α → Prop} {x : Program Op ε α} {f : α → Program Op ε β}
    (hx : x.Performs allowed) (hQ : x.Returns Q) (hf : ∀ a, Q a → (f a).Performs allowed) :
    (x >>= f).Performs allowed := by
  induction x with
  | done result =>
    cases result with
    | ok a => exact hf a hQ
    | error e => trivial
  | call op k ih => exact ⟨hx.1, fun b => ih b (hx.2 b) (hQ b)⟩

/-- Every error the program may end with satisfies `Q`. -/
def Raises (Q : ε → Prop) : Program Op ε α → Prop
  | .done (.ok _) => True
  | .done (.error e) => Q e
  | .call _ k => ∀ b, (k b).Raises Q

/-- A value raises nothing. -/
theorem Raises.pure {Q : ε → Prop} (a : α) : (pure a : Program Op ε α).Raises Q := trivial

/-- A computation without operations raises its error. -/
theorem Raises.attempt {Q : ε → Prop} {x : Except ε α} (h : ∀ e, x = .error e → Q e) :
    (attempt x : Program Op ε α).Raises Q := by
  cases x with
  | ok a => trivial
  | error e => exact h e rfl

/-- Two computations without operations, one after the other. -/
theorem Raises.attempt_bind {Q : ε → Prop} {x : Except ε α} {f : α → Except ε β}
    (hx : ∀ e, x = .error e → Q e)
    (hf : ∀ a, (Program.attempt (f a) : Program Op ε β).Raises Q) :
    (Program.attempt (x >>= f) : Program Op ε β).Raises Q := by
  cases x with
  | ok a => exact hf a
  | error e => exact hx e rfl

/-- Two programs, one after the other. -/
theorem Raises.bind {Q : ε → Prop} {x : Program Op ε α} {f : α → Program Op ε β}
    (hx : x.Raises Q) (hf : ∀ a, (f a).Raises Q) : (x >>= f).Raises Q := by
  induction x with
  | done result =>
    cases result with
    | ok a => exact hf a
    | error e => exact hx
  | call op k ih => exact fun b => ih b (hx b)

/-- An error of a run is one that the program raises. -/
theorem Raises.run {Q : ε → Prop} {x : Program Op ε α}
    (hx : x.Raises Q) {s : S} {e : ε} (h : (x.run exec s).1 = .error e) : Q e := by
  induction x generalizing s with
  | done result =>
    cases result with
    | ok a => cases h
    | error e' =>
      cases h
      exact hx
  | call op k ih => exact ih _ (hx _) h

/-! ## What holds when a program ends -/

section EndsIn

variable (exec : {β : Type} → Op β → S → β × S)

/-- Whatever the state, an operation that ends the program with a value leaves a state that
    satisfies `Q` with it. -/
def EndsIn (Q : α → S → Prop) : Program Op ε α → Prop
  | .done _ => True
  | .call op k => ∀ s, (∀ a, k (exec op s).1 = .done (.ok a) → Q a (exec op s).2) ∧
      (k (exec op s).1).EndsIn Q

variable {exec} {P : α → S → Prop} {Q : β → S → Prop}

/-- The last operation is one of the second program, or of the first one if the second has
    none. -/
theorem EndsIn.bind {x : Program Op ε α} {f : α → Program Op ε β} (hx : x.EndsIn exec P)
    (hlast : ∀ a s b, P a s → f a = .done (.ok b) → Q b s) (hf : ∀ a, (f a).EndsIn exec Q) :
    (x >>= f).EndsIn exec Q := by
  -- along the calls of the first program
  induction x with
  | done result =>
    cases result with
    | ok a => exact hf a
    | error e => trivial
  | call op k ih =>
    intro s
    obtain ⟨hP, hk⟩ := hx s
    refine ⟨fun b hb => ?_, ih _ hk⟩
    have hb : (k (exec op s).1).bind f = .done (.ok b) := hb
    -- the operation was the last one only if nothing is left before and behind the bind
    cases hnext : k (exec op s).1 with
    | done result =>
      rw [hnext] at hb
      cases result with
      | ok a => exact hlast a _ b (hP a hnext) hb
      | error e => cases hb
    | call op' k' =>
      rw [hnext] at hb
      cases hb

/-- A computation without operations comes before the last one. -/
theorem EndsIn.bind_attempt {e : Except ε α} {f : α → Program Op ε β}
    (hf : ∀ a, e = .ok a → (f a).EndsIn exec Q) : (attempt e >>= f).EndsIn exec Q := by
  cases e with
  | ok a => exact hf a rfl
  | error err => trivial

/-- A program is not over while what follows it is not. -/
theorem bind_ne_done {x : Program Op ε α} {f : α → Program Op ε β}
    (hcall : ∀ a b, f a ≠ .done (.ok b)) (b : β) : (x >>= f) ≠ .done (.ok b) := by
  intro h
  have h : x.bind f = .done (.ok b) := h
  match x with
  | .done (.ok a) => exact hcall a b h
  | .done (.error e) => cases h
  | .call op k => cases h

/-- After a program of which nothing is known comes one that performs an operation. -/
theorem EndsIn.bind_of_call {x : Program Op ε α} {f : α → Program Op ε β}
    (hcall : ∀ a b, f a ≠ .done (.ok b)) (hf : ∀ a, (f a).EndsIn exec Q) :
    (x >>= f).EndsIn exec Q := by
  have hx : x.EndsIn exec fun _ _ => True := by
    induction x with
    | done result => trivial
    | call op k ih => exact fun s => ⟨fun _ _ => trivial, ih _⟩
  exact hx.bind (fun a _ b _ h => absurd h (hcall a b)) hf

end EndsIn

/-! ## Traces -/

section Trace

variable (exec : {β : Type} → Op β → S → β × S) (note : {β : Type} → Op β → S → List γ)

/-- What `note` records of the operations of a run, in their order. -/
def trace : Program Op ε α → S → List γ
  | .done _, _ => []
  | .call op k, s => note op s ++ (k (exec op s).1).trace (exec op s).2

/-- The second program of a sequence adds to the trace, unless the first one failed. -/
theorem trace_bind (x : Program Op ε α) (f : α → Program Op ε β) (s : S) :
    (x >>= f).trace exec note s = x.trace exec note s ++
      match x.run exec s with
      | (.ok a, s') => (f a).trace exec note s'
      | (.error _, _) => [] := by
  induction x generalizing s with
  | done result => cases result <;> rfl
  | call op k ih =>
    have hk := ih (exec op s).1 (exec op s).2
    show note op s ++ (k (exec op s).1 >>= f).trace exec note (exec op s).2 = _
    rw [hk, ← List.append_assoc]
    rfl

end Trace

/-! ## Invariants -/

/-- What every allowed operation keeps, a run keeps. -/
theorem Performs.run {P : S → Prop}
    (hstep : ∀ {β : Type} (op : Op β) (s : S), allowed op → P s → P (exec op s).2)
    {x : Program Op ε α} (hx : x.Performs allowed) {s : S} (hs : P s) :
    P (x.run exec s).2 := by
  induction x generalizing s with
  | done result => exact hs
  | call op k ih => exact ih _ (hx.2 _) (hstep op s hx.1 hs)

end Program
