import Mathlib.Data.List.Basic
import Mathlib.Data.List.Induction

/-!
# Runs of a step function

A run feeds a list of inputs to a step function with `List.foldl`. A point of
the run is a split `is = pre ++ i :: post` of the inputs: `pre.foldl step s` is
the state in which `i` is taken. The lemmas here relate what holds at the end
of a run to the points it passed through.
-/

namespace List

variable {S I : Type*} {step : S → I → S}

/-- A statement about every point of a run, one point at a time. -/
theorem forall_split_cons {P : List I → I → Prop} {i : I} {is : List I} :
    (∀ pre j post, i :: is = pre ++ j :: post → P pre j) ↔
      P [] i ∧ ∀ pre j post, is = pre ++ j :: post → P (i :: pre) j := by
  refine ⟨fun h => ⟨h [] i is rfl, fun pre j post hsplit => h (i :: pre) j post ?_⟩, ?_⟩
  · rw [hsplit, cons_append]
  · rintro ⟨hhead, htail⟩ pre j post hsplit
    cases pre with
    | nil =>
      cases hsplit
      exact hhead
    | cons k pre =>
      rw [cons_append, cons.injEq] at hsplit
      obtain ⟨rfl, hsplit⟩ := hsplit
      exact htail pre j post hsplit

/-- An empty run has no steps to ask about. -/
theorem forall_split_nil {P : List I → I → Prop} :
    (∀ pre j post, ([] : List I) = pre ++ j :: post → P pre j) ↔ True := by
  simp

/-- What holds at every point of a run holds at every point up to one of them. -/
theorem forall_split_left {P : List I → I → Prop} {is pre post : List I} {i : I}
    (h : ∀ pre j post, is = pre ++ j :: post → P pre j) (hsplit : is = pre ++ i :: post) :
    ∀ pre' j mid, pre = pre' ++ j :: mid → P pre' j := by
  rintro pre' j mid rfl
  exact h pre' j (mid ++ i :: post) (by rw [hsplit]; simp)

/-- A property that every input of the run keeps holds at its end. -/
theorem foldl_keeps {P : S → Prop} (is : List I) (s : S) (h : P s)
    (hstep : ∀ pre i post, is = pre ++ i :: post → P (pre.foldl step s) →
      P (step (pre.foldl step s) i)) :
    P (is.foldl step s) := by
  induction is using List.reverseRecOn with
  | nil => exact h
  | append_singleton is i ih =>
    rw [foldl_concat]
    refine hstep is i [] rfl (ih fun pre j post hsplit hpre => ?_)
    exact hstep pre j (post ++ [i]) (by rw [hsplit]; simp) hpre

/-- If a property holds at the start of a run, and an input keeps it exactly when it is
    good, then it holds at every point of the run exactly when every input is good. -/
theorem foldl_keeps_iff {P : S → Prop} {G : S → I → Prop} (is : List I) (s : S) (h : P s)
    (hstep : ∀ pre i post, is = pre ++ i :: post → P (pre.foldl step s) →
      (P (step (pre.foldl step s) i) ↔ G (pre.foldl step s) i)) :
    (∀ pre, pre <+: is → P (pre.foldl step s)) ↔
      ∀ pre i post, is = pre ++ i :: post → G (pre.foldl step s) i := by
  constructor
  · intro hall pre i post hsplit
    -- the property holds before the input and behind it
    have hpre := hall pre ⟨i :: post, hsplit.symm⟩
    have hnext := hall (pre ++ [i]) ⟨post, by rw [hsplit]; simp⟩
    rw [foldl_concat] at hnext
    exact (hstep pre i post hsplit hpre).mp hnext
  · rintro hgood pre ⟨post, rfl⟩
    refine foldl_keeps pre s h fun pre' i mid hsplit hpre => ?_
    have hsplit : pre ++ post = pre' ++ i :: (mid ++ post) := by rw [hsplit]; simp
    exact (hstep pre' i (mid ++ post) hsplit hpre).mpr (hgood pre' i (mid ++ post) hsplit)

/-- If a property fails at the start of a run and holds at its end, then some
    input established it for the last time: it failed just before that input
    and holds at every later point. -/
theorem exists_last_entry {P : S → Prop} (is : List I) (s : S) (h : ¬ P s)
    (hend : P (is.foldl step s)) :
    ∃ pre i post, is = pre ++ i :: post ∧ ¬ P (pre.foldl step s) ∧
      ∀ mid, mid <+: post → P ((pre ++ i :: mid).foldl step s) := by
  induction is using List.reverseRecOn with
  | nil => exact absurd hend h
  | append_singleton is i ih =>
    -- either the property held before the last input, or the last input is the entry
    by_cases hbefore : P (is.foldl step s)
    · obtain ⟨pre, j, post, hsplit, hnot, hall⟩ := ih hbefore
      refine ⟨pre, j, post ++ [i], by rw [hsplit]; simp, hnot, fun mid hmid => ?_⟩
      rcases List.prefix_concat_iff.mp hmid with rfl | hmid
      · rw [← List.cons_append, ← List.append_assoc, ← hsplit]
        exact hend
      · exact hall mid hmid
    · refine ⟨is, i, [], rfl, hbefore, fun mid hmid => ?_⟩
      rw [List.prefix_nil.mp hmid]
      exact hend

end List
