import Barqium.ForStd.Program

/-!
# Programs that run at the same time

A pool holds the programs that were started and the state they share. A step performs
the next operation of one program, so the steps of a pool, in any order, are an
interleaving of the operations of its programs.

What a program knows of the state may change between two of its operations. A relation
`R` says what the others may do meanwhile, an invariant `I` what they maintain, and
`Program.Keeps` that the program itself respects both, whatever the others do.

## Key results

- `Pool.step_cases`: what a step can do.
- `Pool.exists_steps_run`: a program that is not interrupted.
- `Pool.Performing.step`: the operations of the programs, over a step.
- `Pool.Each.step`: what holds of each program, over a step.
- `Pool.state_step_of_done`: the state when a program ends.
- `Program.Keeps.bind`: what the first program of a sequence learned, the second may use.
- `Program.Keeps.frame`: what the others keep true stays true.
- `Pool.Safe.step`: programs that respect `R` and `I` one by one keep `I` together.
-/

/-- Programs in progress, and the state they share. A program that has ended stays. -/
structure Pool (Op : Type → Type) (ε α S : Type) : Type 1 where
  state : S
  running : List (Program Op ε α)

namespace Pool

variable {Op : Type → Type} {ε α S : Type}

/-- A program is started; it has performed nothing yet. -/
def start (pool : Pool Op ε α S) (x : Program Op ε α) : Pool Op ε α S :=
  { pool with running := pool.running ++ [x] }

/-- The program at `i` performs its next operation. -/
def step (exec : {β : Type} → Op β → S → β × S) (pool : Pool Op ε α S) (i : Nat) :
    Pool Op ε α S :=
  match pool.running[i]? with
  | some (.call op k) =>
    ⟨(exec op pool.state).2, pool.running.set i (k (exec op pool.state).1)⟩
  -- the program has ended, or was never started
  | _ => pool

variable {exec : {β : Type} → Op β → S → β × S} {pool : Pool Op ε α S} {i : Nat}

/-- A program that has an operation to perform performs it, and goes on with its result. -/
theorem step_of_call {β : Type} {op : Op β} {k : β → Program Op ε α}
    (h : pool.running[i]? = some (.call op k)) :
    pool.step exec i =
      ⟨(exec op pool.state).2, pool.running.set i (k (exec op pool.state).1)⟩ := by
  simp only [step, h]

/-- A step does nothing, or performs the next operation of a program. -/
theorem step_cases (exec : {β : Type} → Op β → S → β × S) (pool : Pool Op ε α S) (i : Nat) :
    (pool.step exec i = pool ∧ ∀ (β : Type) (op : Op β) k, pool.running[i]? ≠ some (.call op k)) ∨
      ∃ (β : Type) (op : Op β) (k : β → Program Op ε α), pool.running[i]? = some (.call op k) ∧
        pool.step exec i =
          ⟨(exec op pool.state).2, pool.running.set i (k (exec op pool.state).1)⟩ := by
  cases hi : pool.running[i]? with
  | none =>
    left
    refine ⟨by simp only [step, hi], fun β op k h => ?_⟩
    exact nomatch h
  | some x =>
    cases x with
    | done result =>
      left
      refine ⟨by simp only [step, hi], fun β op k h => ?_⟩
      exact nomatch Option.some.inj h
    | call op k => exact .inr ⟨_, op, k, rfl, step_of_call hi⟩

/-- A program that no other one interrupts runs to its end. -/
theorem exists_steps_run (exec : {β : Type} → Op β → S → β × S) {pool : Pool Op ε α S} {i : Nat}
    {x : Program Op ε α} (hi : pool.running[i]? = some x) :
    ∃ n, ((List.replicate n i).foldl (fun p j => p.step exec j) pool).state =
      (x.run exec pool.state).2 := by
  induction x generalizing pool with
  | done result => exact ⟨0, rfl⟩
  | call op k ih =>
    have hlt : i < pool.running.length := (List.getElem?_eq_some_iff.mp hi).1
    have hnext : (pool.step exec i).running[i]? = some (k (exec op pool.state).1) := by
      rw [step_of_call hi]
      exact List.getElem?_set_self hlt
    -- one step for the operation, and then those of the rest
    obtain ⟨n, hn⟩ := ih (exec op pool.state).1 hnext
    refine ⟨n + 1, ?_⟩
    rw [List.replicate_succ, List.foldl_cons, hn, step_of_call hi]
    rfl

/-! ## The operations of the programs -/

/-- Every program of the pool performs allowed operations only. -/
def Performing (allowed : {β : Type} → Op β → Prop) (pool : Pool Op ε α S) : Prop :=
  ∀ x ∈ pool.running, x.Performs allowed

variable {allowed : {β : Type} → Op β → Prop}

/-- A program that performs only allowed operations may be started. -/
theorem Performing.start (h : pool.Performing allowed) {x : Program Op ε α}
    (hx : x.Performs allowed) : (pool.start x).Performing allowed := by
  intro y hy
  rcases List.mem_append.mp hy with hy | hy
  · exact h y hy
  · rw [List.mem_singleton.mp hy]
    exact hx

/-- The next operation of a program is allowed. -/
theorem Performing.next (h : pool.Performing allowed) {β : Type} {op : Op β}
    {k : β → Program Op ε α} (hi : pool.running[i]? = some (.call op k)) :
    allowed op ∧ ∀ b, (k b).Performs allowed :=
  h _ (List.mem_of_getElem? hi)

/-- A step leaves only allowed operations. -/
theorem Performing.step (h : pool.Performing allowed) (i : Nat) :
    (pool.step exec i).Performing allowed := by
  rcases step_cases exec pool i with ⟨hstep, -⟩ | ⟨β, op, k, hi, hstep⟩
  · rw [hstep]
    exact h
  · rw [hstep]
    intro y hy
    rcases List.mem_or_eq_of_mem_set hy with hy | rfl
    · exact h y hy
    · exact (h.next hi).2 _

/-! ## The programs one by one -/

/-- The program at each position satisfies what is asked of that position. -/
def Each (P : Nat → Program Op ε α → Prop) (pool : Pool Op ε α S) : Prop :=
  ∀ j x, pool.running[j]? = some x → P j x

variable {P : Nat → Program Op ε α → Prop}

/-- What holds of each program holds on if it holds of a new one. -/
theorem Each.start (h : pool.Each P) {x : Program Op ε α} (hx : P pool.running.length x) :
    (pool.start x).Each P := by
  intro j y hy
  unfold Pool.start at hy
  -- the new program stands behind the ones that ran before
  rcases Nat.lt_or_ge j pool.running.length with hlt | hle
  · rw [List.getElem?_append_left hlt] at hy
    exact h j y hy
  · rw [List.getElem?_append_right hle, List.getElem?_singleton] at hy
    split at hy
    · obtain rfl : j = pool.running.length := by omega
      rw [← Option.some.inj hy]
      exact hx
    · cases hy

/-- What holds of each program holds on if it holds of the rest of the one that steps. -/
theorem Each.step (h : pool.Each P)
    (hnext : ∀ {β : Type} (op : Op β) k, pool.running[i]? = some (.call op k) →
      P i (k (exec op pool.state).1)) : (pool.step exec i).Each P := by
  rcases step_cases exec pool i with ⟨hstep, -⟩ | ⟨β, op, k, hi, hstep⟩
  · rw [hstep]
    exact h
  · rw [hstep]
    intro j y hy
    -- only the program that made the step has changed
    by_cases hj : i = j
    · rw [← hj] at hy ⊢
      rw [List.getElem?_set_self (List.getElem?_eq_some_iff.mp hi).1] at hy
      rw [← Option.some.inj hy]
      exact hnext op k hi
    · rw [List.getElem?_set_ne hj] at hy
      exact h j y hy

/-- A step neither starts nor ends a program. -/
theorem length_step (exec : {β : Type} → Op β → S → β × S) (pool : Pool Op ε α S) (i : Nat) :
    (pool.step exec i).running.length = pool.running.length := by
  rcases step_cases exec pool i with ⟨hstep, -⟩ | ⟨β, op, k, -, hstep⟩
  · rw [hstep]
  · rw [hstep, List.length_set]

/-- An operation that ends a program with a value leaves a state in which that program may
    end. -/
theorem state_step_of_done {Q : α → S → Prop} {x : Program Op ε α} {a : α}
    (hx : pool.running[i]? = some x) (hends : x.EndsIn exec Q) (hrunning : x ≠ .done (.ok a))
    (hdone : (pool.step exec i).running[i]? = some (.done (.ok a))) :
    Q a (pool.step exec i).state := by
  rcases step_cases exec pool i with ⟨hstep, -⟩ | ⟨β, op, k, hi, hstep⟩
  · rw [hstep, hx] at hdone
    exact absurd (Option.some.inj hdone) hrunning
  · rw [hstep] at hdone ⊢
    rw [List.getElem?_set_self (List.getElem?_eq_some_iff.mp hi).1] at hdone
    rw [hi] at hx
    cases hx
    exact (hends pool.state).1 a (Option.some.inj hdone)

end Pool

/-! ## Rely and guarantee -/

namespace Program

variable {Op : Type → Type} {ε α β S : Type}

section

variable (exec : {β : Type} → Op β → S → β × S) (R : S → S → Prop) (I : S → Prop)

/-- From `s` on, while the state changes by `R` and satisfies `I`, every operation of the
    program does so as well, and `Q` holds of its value and the state it ends in. -/
def Keeps (Q : α → S → Prop) : Program Op ε α → S → Prop
  | .done (.ok a), s => ∀ s', R s s' → I s' → Q a s'
  | .done (.error _), _ => True
  | .call op k, s => ∀ s', R s s' → I s' →
      R s' (exec op s').2 ∧ I (exec op s').2 ∧ (k (exec op s').1).Keeps Q (exec op s').2

end

variable {exec : {β : Type} → Op β → S → β × S} {R : S → S → Prop} {I : S → Prop}
  {Q : α → S → Prop} {s s' : S}

/-- The others may go on before the program does. -/
theorem Keeps.of_rel (htrans : ∀ a b c : S, R a b → R b c → R a c) {x : Program Op ε α}
    (h : x.Keeps exec R I Q s) (hR : R s s') : x.Keeps exec R I Q s' := by
  match x with
  | .done (.ok a) => exact fun t ht hI => h t (htrans _ _ _ hR ht) hI
  | .done (.error e) => trivial
  | .call op k => exact fun t ht hI => h t (htrans _ _ _ hR ht) hI

/-- A program that returns at once. -/
theorem Keeps.pure {a : α} (h : ∀ s', R s s' → I s' → Q a s') :
    (pure a : Program Op ε α).Keeps exec R I Q s := h

/-- What the first program of a sequence learned, the second one may use. -/
theorem Keeps.bind {P : β → S → Prop} {x : Program Op ε β} {f : β → Program Op ε α}
    (hrefl : ∀ a : S, R a a) (hx : x.Keeps exec R I P s) (hI : I s)
    (hf : ∀ b s', I s' → P b s' → (f b).Keeps exec R I Q s') :
    (x >>= f).Keeps exec R I Q s := by
  -- on the first program: each of its operations hands on the state it leaves
  induction x generalizing s with
  | done result =>
    cases result with
    | ok b => exact hf b s hI (hx s (hrefl s) hI)
    | error e => trivial
  | call op k ih =>
    intro s' hR hI'
    obtain ⟨hR', hI'', hk⟩ := hx s' hR hI'
    exact ⟨hR', hI'', ih _ hk hI''⟩

/-- After a computation without operations only its own value counts. -/
theorem Keeps.bind_attempt {e : Except ε β} {f : β → Program Op ε α}
    (hf : ∀ b, e = .ok b → (f b).Keeps exec R I Q s) :
    (attempt e >>= f).Keeps exec R I Q s := by
  cases e with
  | ok b => exact hf b rfl
  | error err => trivial

/-- A weaker postcondition. -/
theorem Keeps.mono {Q' : α → S → Prop} {x : Program Op ε α} (h : x.Keeps exec R I Q s)
    (hQ : ∀ a s', Q a s' → Q' a s') : x.Keeps exec R I Q' s := by
  induction x generalizing s with
  | done result =>
    cases result with
    | ok a => exact fun s' hR hI => hQ a s' (h s' hR hI)
    | error e => trivial
  | call op k ih =>
    intro s' hR hI
    obtain ⟨hR', hI', hk⟩ := h s' hR hI
    exact ⟨hR', hI', ih _ hk⟩

/-- What `R` keeps true stays true while the program runs. -/
theorem Keeps.frame {F : S → Prop} (hstable : ∀ a b, R a b → F a → F b) {x : Program Op ε α}
    (h : x.Keeps exec R I Q s) (hF : F s) : x.Keeps exec R I (fun a t => Q a t ∧ F t) s := by
  induction x generalizing s with
  | done result =>
    cases result with
    | ok a => exact fun s' hR hI => ⟨h s' hR hI, hstable _ _ hR hF⟩
    | error e => trivial
  | call op k ih =>
    intro s' hR hI
    obtain ⟨hR', hI', hk⟩ := h s' hR hI
    exact ⟨hR', hI', ih _ hk (hstable _ _ hR' (hstable _ _ hR hF))⟩

/-- A program all of whose operations respect `R` and `I` in every state. -/
theorem Performs.keeps {allowed : {β : Type} → Op β → Prop}
    (hstep : ∀ {β : Type} (op : Op β) (s : S), allowed op → I s →
      R s (exec op s).2 ∧ I (exec op s).2)
    {x : Program Op ε α} (hx : x.Performs allowed) :
    x.Keeps exec R I (fun _ _ => True) s := by
  induction x generalizing s with
  | done result =>
    cases result with
    | ok a => exact fun _ _ _ => trivial
    | error e => trivial
  | call op k ih =>
    intro s' hR hI
    obtain ⟨hR', hI'⟩ := hstep op s' hx.1 hI
    exact ⟨hR', hI', ih _ (hx.2 _)⟩

end Program

namespace Pool

variable {Op : Type → Type} {ε α S : Type} {exec : {β : Type} → Op β → S → β × S}
  {R : S → S → Prop} {I : S → Prop} {pool : Pool Op ε α S}

/-- The state satisfies `I`, and every program respects `R` and `I` from it on. -/
def Safe (exec : {β : Type} → Op β → S → β × S) (R : S → S → Prop) (I : S → Prop)
    (pool : Pool Op ε α S) : Prop :=
  I pool.state ∧
    ∀ x ∈ pool.running, x.Keeps exec R I (fun _ _ => True) pool.state

/-- A program that keeps the invariant may be started. -/
theorem Safe.start (h : pool.Safe exec R I) {x : Program Op ε α}
    (hx : x.Keeps exec R I (fun _ _ => True) pool.state) : (pool.start x).Safe exec R I := by
  refine ⟨h.1, fun y hy => ?_⟩
  rcases List.mem_append.mp hy with hy | hy
  · exact h.2 y hy
  · rw [List.mem_singleton.mp hy]
    exact hx

/-- The operation of one program is what the others rely on. -/
theorem Safe.step (hrefl : ∀ a : S, R a a) (htrans : ∀ a b c : S, R a b → R b c → R a c)
    (h : pool.Safe exec R I) (i : Nat) : (pool.step exec i).Safe exec R I := by
  rcases step_cases exec pool i with ⟨hstep, -⟩ | ⟨β, op, k, hi, hstep⟩
  · rw [hstep]
    exact h
  · rw [hstep]
    obtain ⟨hR, hI, hk⟩ := h.2 _ (List.mem_of_getElem? hi) pool.state (hrefl _) h.1
    refine ⟨hI, fun y hy => ?_⟩
    rcases List.mem_or_eq_of_mem_set hy with hy | rfl
    · -- for the other programs the operation is a change that they rely on
      exact (h.2 y hy).of_rel htrans hR
    · exact hk

end Pool
