import Mathlib.Data.List.Basic
import Mathlib.Data.List.Infix

/-!
# Replacing a pattern in a text

`replace` is `str::replace`: every occurrence of the pattern, found from left to
right without overlaps. Patterns that begin with a marker they do not contain
otherwise cannot overlap each other, which decides where one of them can occur.

## Key results

- `replace_of_unique`: replacing a pattern that occurs once.
- `Marked.occurs_cases`: where a marked pattern can occur in a text around another one.
- `replaceAll_eq_flatMap`: passes over single elements that are one pass.
-/

namespace Replace

variable {α : Type}

/-! ## Marked patterns -/

/-- `t` is the marker followed by `n` elements that are not the marker. -/
def Marked (marker : α) (n : Nat) (t : List α) : Prop :=
  ∃ body, t = marker :: body ∧ marker ∉ body ∧ body.length = n

variable {marker : α} {n : Nat} {s t : List α}

/-- A text with markers is not empty. -/
theorem Marked.ne_nil (h : Marked marker n t) : t ≠ [] := by
  obtain ⟨body, rfl, -, -⟩ := h
  simp

/-- No marked pattern begins inside another. -/
theorem Marked.nil_of_append (hs : Marked marker n s) (ht : Marked marker n t)
    {a w x v : List α} (ha : a ≠ []) (heq : s = a ++ w) (hw : w ++ x = t ++ v) : w = [] := by
  obtain ⟨body, rfl, hbody, -⟩ := hs
  obtain ⟨body', rfl, -, -⟩ := ht
  obtain ⟨c, a, rfl⟩ := List.exists_cons_of_ne_nil ha
  cases w with
  | nil => rfl
  | cons d w =>
    simp only [List.cons_append, List.cons.injEq] at heq hw
    -- `w` begins with the marker of `t`, inside the body of `s`
    have hmem : marker ∈ body := by rw [heq.2, hw.1]; simp
    exact absurd hmem hbody

/-- In a text around the marked pattern `s`, a marked pattern `t` occurs on one of
    the sides, or `t` is `s` and occurs where it stands. -/
theorem Marked.occurs_cases (hs : Marked marker n s) (ht : Marked marker n t)
    {a b u v : List α} (h : a ++ s ++ b = u ++ t ++ v) :
    (u = a ∧ t = s) ∨ t <:+: a ∨ t <:+: b := by
  -- both are a marker around a body of one length
  have hlen : s.length = t.length := by
    obtain ⟨body, rfl, -, hn⟩ := hs
    obtain ⟨body', rfl, -, hn'⟩ := ht
    simp [hn, hn']
  rw [List.append_assoc, List.append_assoc] at h
  obtain ⟨w, rfl, hw⟩ | ⟨w, rfl, hw⟩ := List.append_eq_append_iff.mp h
  · -- `t` begins after `a`
    by_cases hnil : w = []
    · subst hnil
      exact Or.inl ⟨by simp, (List.append_inj_left (by simpa using hw) hlen).symm⟩
    · obtain ⟨x, hx, hb⟩ | ⟨x, hx, hb⟩ := List.append_eq_append_iff.mp hw
      · exact Or.inr (Or.inr ⟨x, v, by rw [hb, List.append_assoc]⟩)
      · have hxnil := hs.nil_of_append ht hnil hx hb.symm
        subst hxnil
        exact Or.inr (Or.inr ⟨[], v, by simpa using hb⟩)
  · -- `t` begins inside `a` or where it ends
    by_cases hnil : w = []
    · subst hnil
      exact Or.inl ⟨by simp, List.append_inj_left (by simpa using hw) hlen.symm⟩
    · obtain ⟨x, hx, hb⟩ | ⟨x, hx, hb⟩ := List.append_eq_append_iff.mp hw
      · exact Or.inr (Or.inl ⟨u, x, by rw [hx, List.append_assoc]⟩)
      · have hxnil := ht.nil_of_append hs hnil hx hb.symm
        subst hxnil
        exact Or.inr (Or.inl ⟨u, [], by simp_all⟩)

/-! ## Replacing -/

variable [DecidableEq α]

/-- Replacing with `skip` more elements of the last match to pass over. -/
def replaceFrom (pat rep : List α) : Nat → List α → List α
  | _, [] => []
  | skip + 1, _ :: t => replaceFrom pat rep skip t
  | 0, c :: t =>
    if pat <+: c :: t then rep ++ replaceFrom pat rep (pat.length - 1) t
    else c :: replaceFrom pat rep 0 t

/-- `str::replace`. The empty pattern matches around every character. -/
def replace (pat rep t : List α) : List α :=
  if pat = [] then rep ++ t.flatMap fun c => c :: rep else replaceFrom pat rep 0 t

/-- While characters are to be dropped, they are. -/
theorem replaceFrom_drop (pat rep : List α) (u v : List α) :
    replaceFrom pat rep u.length (u ++ v) = replaceFrom pat rep 0 v := by
  induction u with
  | nil => rfl
  | cons c u ih =>
    rw [List.cons_append, List.length_cons, replaceFrom]
    exact ih

/-- A text without the pattern stays. -/
theorem replaceFrom_of_not_infix {pat : List α} (rep : List α) {t : List α}
    (h : ¬ pat <:+: t) : replaceFrom pat rep 0 t = t := by
  induction t with
  | nil => rfl
  | cons c t ih =>
    have hpre : ¬ pat <+: c :: t := fun hp => h hp.isInfix
    have hrest : ¬ pat <:+: t := fun ht => h (ht.trans (List.suffix_cons c t).isInfix)
    rw [replaceFrom, if_neg hpre, ih hrest]

/-- A pattern that occurs once is replaced there. -/
theorem replace_of_unique {pat : List α} (hne : pat ≠ []) (rep : List α) {u v : List α}
    (h : ∀ u' v', u ++ pat ++ v = u' ++ pat ++ v' → u' = u) :
    replace pat rep (u ++ pat ++ v) = u ++ rep ++ v := by
  rw [replace, if_neg hne]
  induction u with
  | nil =>
    -- behind the pattern there is no other
    have hv : ¬ pat <:+: v := by
      rintro ⟨w, x, rfl⟩
      have hnil := h (pat ++ w) x (by simp)
      simp [hne] at hnil
    obtain ⟨c, p, rfl⟩ := List.exists_cons_of_ne_nil hne
    have hpre : c :: p <+: c :: (p ++ v) := ⟨v, rfl⟩
    rw [List.nil_append, List.nil_append, List.cons_append, replaceFrom, if_pos hpre,
      List.length_cons, Nat.add_sub_cancel, replaceFrom_drop, replaceFrom_of_not_infix rep hv]
  | cons c u ih =>
    -- a match here would be another occurrence
    have hpre : ¬ pat <+: c :: (u ++ pat ++ v) := by
      rintro ⟨w, hw⟩
      have hnil := h [] w (by simpa using hw.symm)
      simp at hnil
    have hrest : ∀ u' v', u ++ pat ++ v = u' ++ pat ++ v' → u' = u := by
      intro u' v' heq
      have hcons := h (c :: u') v' (by simpa using heq)
      simpa using hcons
    rw [List.cons_append, List.cons_append, replaceFrom, if_neg hpre, ih hrest]
    rfl

/-! ## Single elements -/

/-- A pattern of one element is replaced element by element. -/
theorem replaceFrom_singleton (a : α) (rep t : List α) :
    replaceFrom [a] rep 0 t = t.flatMap fun c => if c = a then rep else [c] := by
  induction t with
  | nil => rfl
  | cons c t ih =>
    rw [replaceFrom, List.flatMap_cons, List.length_singleton, Nat.sub_self, ih]
    by_cases hc : c = a
    · subst hc
      have hpre : [c] <+: c :: t := List.prefix_append [c] t
      rw [if_pos hpre, if_pos rfl]
    · have hpre : ¬ [a] <+: c :: t := fun hp => hc (List.cons_prefix_cons.mp hp).1.symm
      rw [if_neg hpre, if_neg hc, List.singleton_append]

/-- One element after the other is replaced, each by the text beside it. -/
def replaceAll (passes : List (α × List α)) (t : List α) : List α :=
  passes.foldl (fun t p => replace [p.1] p.2 t) t

/-- If no text that was put in has an element that is still to be replaced, the passes are
    one pass over the elements. -/
theorem replaceAll_eq_flatMap {passes : List (α × List α)}
    (h : passes.Pairwise fun p q => q.1 ∉ p.2) (t : List α) :
    replaceAll passes t = t.flatMap fun c => (passes.lookup c).getD [c] := by
  induction passes generalizing t with
  | nil => simp [replaceAll]
  | cons p passes ih =>
    obtain ⟨hp, hpasses⟩ := List.pairwise_cons.mp h
    -- the later passes leave the text of the first one alone
    have hkeep : p.2.flatMap (fun c => (passes.lookup c).getD [c]) = p.2 := by
      have hnone : ∀ c ∈ p.2, (passes.lookup c).getD [c] = [c] := by
        intro c hc
        have hc' : passes.lookup c = none := by
          rw [List.lookup_eq_none_iff]
          intro q hq
          rw [bne_iff_ne, ne_eq]
          rintro rfl
          exact hp q hq hc
        rw [hc', Option.getD_none]
      rw [List.flatMap_congr hnone, List.flatMap_singleton']
    have hrest := ih hpasses (replace [p.1] p.2 t)
    rw [replaceAll] at hrest ⊢
    rw [List.foldl_cons, hrest, replace, if_neg (List.cons_ne_nil _ _), replaceFrom_singleton,
      List.flatMap_assoc]
    apply List.flatMap_congr
    intro c _
    by_cases hc : c = p.1
    · rw [if_pos hc, hkeep, hc, List.lookup_cons_self, Option.getD_some]
    · rw [if_neg hc, List.flatMap_singleton, List.lookup_cons, beq_false_of_ne hc]

end Replace
