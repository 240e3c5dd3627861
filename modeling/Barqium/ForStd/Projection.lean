import Mathlib.Data.List.Basic
import Barqium.ForStd.Program

/-!
# Projections of the state of a program

A projection `f` forgets a part of the state. A program that commutes with it neither
reads nor writes what is forgotten: from the projected state it gives the same result, and
it leaves the projection of the state it would have left. Several users that share one
machine are isolated from each other when the requests of each commute with the projection
to its own part and those of the others leave that part alone: then what a user is
answered is what a machine of its own would have answered.

## Key results

- `Commutes.bind`, `Performs.commutes`: programs that commute with a projection.
- `observe_eq`: the answers to one user of a shared machine.
-/

namespace Program

variable {Op : Type → Type} {ε α β S : Type} {exec : {β : Type} → Op β → S → β × S} {f : S → S}

/-- From `s` on, the program does not depend on what `f` forgets, and keeps it. -/
def Commutes (exec : {β : Type} → Op β → S → β × S) (f : S → S) (x : Program Op ε α) (s : S) :
    Prop :=
  x.run exec (f s) = ((x.run exec s).1, f (x.run exec s).2)

/-- A program that is over commutes with every projection. -/
theorem Commutes.done (result : Except ε α) (s : S) :
    (Program.done result : Program Op ε α).Commutes exec f s := rfl

/-- An operation that reads and writes what is projected, before a program that commutes. -/
theorem Commutes.call {op : Op β} {k : β → Program Op ε α} {s : S}
    (h : exec op (f s) = ((exec op s).1, f (exec op s).2))
    (hk : (k (exec op s).1).Commutes exec f (exec op s).2) :
    (Program.call op k).Commutes exec f s := by
  show (k (exec op (f s)).1).run exec (exec op (f s)).2 = _
  rw [h]
  exact hk

/-- The second program of a sequence need commute only where the first one leads to. -/
theorem Commutes.bind {x : Program Op ε α} {k : α → Program Op ε β} {s : S}
    (hx : x.Commutes exec f s)
    (hk : ∀ a s', x.run exec s = (.ok a, s') → (k a).Commutes exec f s') :
    (x >>= k).Commutes exec f s := by
  unfold Commutes at hx hk ⊢
  rw [run_bind, run_bind, hx]
  cases hrun : x.run exec s with
  | mk result s' =>
    cases result with
    | ok a => exact hk a s' hrun
    | error e => rfl

/-- A computation without operations before a program that commutes. -/
theorem Commutes.bind_attempt {e : Except ε α} {k : α → Program Op ε β} {s : S}
    (hk : ∀ a, e = .ok a → (k a).Commutes exec f s) :
    (attempt e >>= k).Commutes exec f s :=
  Commutes.bind (.done e s) fun a s' h => by
    rw [run_attempt, Prod.mk.injEq] at h
    rw [← h.2]
    exact hk a h.1

/-- A program all of whose operations commute while they keep the invariant `P`. A run may
    be considered up to a limit `L` only, which no operation comes back from. -/
theorem Performs.commutes {allowed : {β : Type} → Op β → Prop} {P L : S → Prop}
    (hlimit : ∀ {β : Type} (op : Op β) (s : S), L (exec op s).2 → L s)
    (hstep : ∀ {β : Type} (op : Op β) (s : S), allowed op → P s → L (exec op s).2 →
      P (exec op s).2 ∧ exec op (f s) = ((exec op s).1, f (exec op s).2))
    {x : Program Op ε α} (hx : x.Performs allowed) {s : S} (hs : P s)
    (hL : L (x.run exec s).2) : x.Commutes exec f s := by
  induction x generalizing s with
  | done result => exact .done result s
  | call op k ih =>
    -- the end of the run is within the limit, so its first operation is
    have hfirst : ∀ (y : Program Op ε α) (t : S), L (y.run exec t).2 → L t := by
      intro y
      induction y with
      | done result => exact fun t ht => ht
      | call op' k' ih' => exact fun t ht => hlimit op' t (ih' _ _ ht)
    obtain ⟨hP, hop⟩ := hstep op s hx.1 hs (hfirst _ _ hL)
    exact .call hop (ih (exec op s).1 (hx.2 _) hP hL)

end Program

/-! ## Users of a shared machine -/

section Machine

variable {S S' A B O : Type*}

/-- What a user sees of a run of a shared machine: the answers to its own requests, each
    with the input that a machine of its own would get. -/
def observe (step : S → A → O × S) (mine : A → Bool) (input : S → A → B) :
    S → List A → List (B × O)
  | _, [] => []
  | s, a :: as =>
    if mine a then (input s a, (step s a).1) :: observe step mine input (step s a).2 as
    else observe step mine input (step s a).2 as

/-- The answers of a machine to a list of requests. -/
def answers (step : S → A → O × S) : S → List A → List O
  | _, [] => []
  | s, a :: as => (step s a).1 :: answers step (step s a).2 as

/-- If the requests of a user commute with the projection to its part of the state, and
    those of the others leave that part alone, then the user sees a machine of its own. -/
theorem observe_eq {step : S → A → O × S} {step' : S' → B → O × S'} {mine : A → Bool}
    {input : S → A → B} {f : S → S'} (as : List A) (s : S)
    (hmine : ∀ pre a post, as = pre ++ a :: post → mine a = true →
      let t := pre.foldl (fun s a => (step s a).2) s
      step' (f t) (input t a) = ((step t a).1, f (step t a).2))
    (hothers : ∀ pre a post, as = pre ++ a :: post → mine a = false →
      let t := pre.foldl (fun s a => (step s a).2) s
      f (step t a).2 = f t) :
    let seen := observe step mine input s as
    seen.map Prod.snd = answers step' (f s) (seen.map Prod.fst) ∧
      f (as.foldl (fun s a => (step s a).2) s) =
        (seen.map Prod.fst).foldl (fun s b => (step' s b).2) (f s) := by
  -- each own action answers as in the smaller system, the others leave its state
  induction as generalizing s with
  | nil => exact ⟨rfl, rfl⟩
  | cons a as ih =>
    -- the rest of the run, from the state after the first action
    obtain ⟨hanswers, hstate⟩ := ih (step s a).2
      (fun pre b post hsplit => hmine (a :: pre) b post (by rw [hsplit, List.cons_append]))
      (fun pre b post hsplit => hothers (a :: pre) b post (by rw [hsplit, List.cons_append]))
    dsimp only
    rw [List.foldl_cons]
    cases ha : mine a with
    | true =>
      -- an action that is observed does the same to the projection
      have hstep : step' (f s) (input s a) = ((step s a).1, f (step s a).2) :=
        hmine [] a as rfl ha
      simp only [observe, ha, if_true, List.map_cons, answers, List.foldl_cons, hstep]
      exact ⟨congrArg _ hanswers, hstate⟩
    | false =>
      -- any other leaves the projection as it is
      have hstep : f (step s a).2 = f s := hothers [] a as rfl ha
      rw [hstep] at hanswers hstate
      simp only [observe, ha, Bool.false_eq_true, if_false]
      exact ⟨hanswers, hstate⟩

end Machine
