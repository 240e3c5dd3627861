import Mathlib.Data.List.Pairwise
import Mathlib.Data.Nat.Basic

/-!
# Choosing disjoint spans

Spans of positions are resolved from left to right: a span that begins before the
end of the last chosen one is passed over. `choose` is that loop, for any type of
values that have a span.

## Key results

- `exists_chosen_before`: a span is passed over for one that begins no later, reaches
  over its beginning and is no shorter when both begin together.
- `covered_of_nested`: where overlapping spans are nested, the chosen spans cover all.
-/

/-- The positions from `start` up to `stop`. -/
structure Span where
  start : Nat
  stop : Nat
  deriving Repr, DecidableEq

namespace Span

def Covers (s : Span) (b : Nat) : Prop := s.start ≤ b ∧ b < s.stop

instance (s : Span) (b : Nat) : Decidable (s.Covers b) :=
  inferInstanceAs (Decidable (_ ∧ _))

/-- `s` lies inside `t`. -/
def Inside (s t : Span) : Prop := t.start ≤ s.start ∧ s.stop ≤ t.stop

/-- `s` ends where `t` begins or before. -/
def Before (s t : Span) : Prop := s.stop ≤ t.start

/-- By start, the longer span first. -/
def Order (s t : Span) : Prop := s.start < t.start ∨ s.start = t.start ∧ t.stop ≤ s.stop

instance (s t : Span) : Decidable (s.Order t) := inferInstanceAs (Decidable (_ ∨ _))

/-- What a span covers, one around it covers too. -/
theorem Covers.of_inside {s t : Span} {b : Nat} (h : s.Covers b) (hin : s.Inside t) :
    t.Covers b :=
  ⟨Nat.le_trans hin.1 h.1, Nat.lt_of_lt_of_le h.2 hin.2⟩

/-- Spans that cover one position are not one before the other. -/
theorem Covers.not_before {s t : Span} {b : Nat} (hs : s.Covers b) (ht : t.Covers b) :
    ¬ s.Before t := by
  intro h
  have hle : s.stop ≤ t.start := h
  have := hs.2
  have := ht.1
  omega

variable {α : Type} (span : α → Span)

/-- Spans that share a position are nested. -/
def Nested (l : List α) : Prop :=
  ∀ a ∈ l, ∀ c ∈ l, ∀ b, (span a).Covers b → (span c).Covers b →
    (span a).Inside (span c) ∨ (span c).Inside (span a)

/-- Of spans in order, one that covers a position also covered by another is that
    other. -/
theorem eq_of_covers {l : List α} (hpair : l.Pairwise fun a c => (span a).Before (span c))
    {a c : α} (ha : a ∈ l) (hc : c ∈ l) {b : Nat} (hab : (span a).Covers b)
    (hcb : (span c).Covers b) : a = c := by
  -- the spans lie one before the other, so no two cover the same place
  induction l with
  | nil => cases ha
  | cons d l ih =>
    obtain ⟨hd, hl⟩ := List.pairwise_cons.mp hpair
    cases List.mem_cons.mp ha with
    | inl haeq =>
      cases List.mem_cons.mp hc with
      | inl hceq => rw [haeq, hceq]
      | inr hc' =>
        -- `c` comes after `a`, so they do not share a position
        subst haeq
        exact absurd (hd c hc') (hab.not_before hcb)
    | inr ha' =>
      cases List.mem_cons.mp hc with
      | inl hceq =>
        subst hceq
        exact absurd (hd a ha') (hcb.not_before hab)
      | inr hc' => exact ih hl ha' hc'

/-! ## The loop -/

def choose : Nat → List α → List α
  | _, [] => []
  | cursor, a :: l =>
    if (span a).start < cursor then choose cursor l else a :: choose (span a).stop l

/-- Chosen elements come from the list. -/
theorem mem_of_mem_choose {cursor : Nat} {l : List α} {a : α} (h : a ∈ choose span cursor l) :
    a ∈ l := by
  induction l generalizing cursor with
  | nil => cases h
  | cons c l ih =>
    rw [choose] at h
    split at h
    · exact List.mem_cons_of_mem c (ih h)
    · cases List.mem_cons.mp h with
      | inl heq => simp [heq]
      | inr h' => exact List.mem_cons_of_mem c (ih h')

/-- What the loop passes over begins before the cursor or inside a chosen span that
    comes before it in the order. -/
theorem exists_chosen_before {cursor : Nat} {l : List α}
    (hsorted : l.Pairwise fun a c => (span a).Order (span c)) {a : α} (ha : a ∈ l)
    (hnot : a ∉ choose span cursor l) :
    (span a).start < cursor ∨
      ∃ c ∈ choose span cursor l, (span c).Order (span a) ∧ (span a).start < (span c).stop := by
  induction l generalizing cursor with
  | nil => cases ha
  | cons d l ih =>
    obtain ⟨hd, hl⟩ := List.pairwise_cons.mp hsorted
    rw [choose] at hnot ⊢
    -- `d` is passed over as well
    by_cases hstart : (span d).start < cursor
    · rw [if_pos hstart] at hnot ⊢
      cases List.mem_cons.mp ha with
      | inl heq => subst heq; exact Or.inl hstart
      | inr ha' => exact ih hl ha' hnot
    · -- `d` is chosen, and `a` was passed over behind it
      rw [if_neg hstart] at hnot ⊢
      have hne : a ≠ d := fun heq => hnot (by simp [heq])
      have hmem : a ∈ l := (List.mem_cons.mp ha).resolve_left hne
      have hnot' : a ∉ choose span (span d).stop l :=
        fun h => hnot (List.mem_cons_of_mem d h)
      right
      cases ih hl hmem hnot' with
      | inl hlt => exact ⟨d, by simp, hd a hmem, hlt⟩
      | inr h =>
        obtain ⟨c, hc, horder, hlt⟩ := h
        exact ⟨c, List.mem_cons_of_mem d hc, horder, hlt⟩

/-- Nested spans are covered by the chosen ones. -/
theorem covered_of_nested {l : List α} (hsorted : l.Pairwise fun a c => (span a).Order (span c))
    (hnested : Nested span l) {a : α} (ha : a ∈ l) {b : Nat} (hb : (span a).Covers b) :
    ∃ c ∈ choose span 0 l, (span c).Covers b := by
  by_cases hin : a ∈ choose span 0 l
  · exact ⟨a, hin, hb⟩
  · obtain hlt | ⟨c, hc, horder, hlt⟩ := exists_chosen_before span hsorted ha hin
    · omega
    · have hpos : (span a).start < (span a).stop := Nat.lt_of_le_of_lt hb.1 hb.2
      have hle : (span c).start ≤ (span a).start := by
        cases horder with
        | inl h => omega
        | inr h => omega
      -- both cover the beginning of `a`
      have hshare : (span a).Covers (span a).start := ⟨Nat.le_refl _, hpos⟩
      refine ⟨c, hc, ?_⟩
      cases hnested a ha c (mem_of_mem_choose span hc) _ hshare ⟨hle, hlt⟩ with
      | inl hinside => exact hb.of_inside hinside
      | inr hinside =>
        -- both begin together, and then the longer one comes first
        have hstart : (span a).start ≤ (span c).start := hinside.1
        have hstop : (span a).stop ≤ (span c).stop := by
          cases horder with
          | inl h => omega
          | inr h => exact h.2
        exact hb.of_inside ⟨hle, hstop⟩

end Span
