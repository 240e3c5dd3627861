import Mathlib.Data.List.Basic
import Mathlib.Data.List.TakeWhile

/-!
# The first token of a GraphQL text

White space, line terminators, commas, byte order marks and comments are ignored between the
tokens of a GraphQL text. A token that begins with a letter or an underscore is a name.

## Key results

- `exists_ignored`: a text with a token is ignored tokens and the rest from that token on.
-/

namespace GraphQlText

/-- White space and line terminators. -/
def isSpace (c : Char) : Bool := c = ' ' || c = '\t' || c = '\n' || c = '\r'

def isLineTerminator (c : Char) : Bool := c = '\n' || c = '\r'

/-- The characters that are ignored outside of comments. -/
def isIgnored (c : Char) : Bool := isSpace c || c = ',' || c = '\ufeff'

/-- Sequences of ignored tokens, in which a comment ends with its line. -/
inductive Ignored : List Char → Prop where
  | nil : Ignored []
  | char {c : Char} {t : List Char} (hc : isIgnored c) (ht : Ignored t) : Ignored (c :: t)
  | comment {s t : List Char} {c : Char} (hs : ∀ d ∈ s, isLineTerminator d = false)
      (hc : isLineTerminator c) (ht : Ignored t) : Ignored ('#' :: (s ++ c :: t))

/-- The text from its first token on. The flag is set inside of a comment. -/
def skipIgnored : Bool → List Char → List Char
  | _, [] => []
  | true, c :: t => skipIgnored (!isLineTerminator c) t
  | false, c :: t =>
    if c = '#' then skipIgnored true t
    else if isIgnored c then skipIgnored false t
    else c :: t

def isNameStart (c : Char) : Bool := c.isAlpha || c = '_'

def isNameChar (c : Char) : Bool := c.isAlphanum || c = '_'

/-- The first token of a text, if it is a name. -/
def firstName (t : List Char) : Option (List Char) :=
  match skipIgnored false t with
  | [] => none
  | c :: rest => if isNameStart c then some (c :: rest.takeWhile isNameChar) else none

/-- A name behind a comment and a comma. -/
example : firstName "# a mutation\n, query Q { a }".toList = some "query".toList := by decide

/-! ## Skipping -/

/-- Ignored texts follow one another. -/
theorem Ignored.append {v w : List Char} (hv : Ignored v) (hw : Ignored w) : Ignored (v ++ w) := by
  induction hv with
  | nil => exact hw
  | char hc _ ih => exact .char hc ih
  | comment hs hc _ ih =>
    rw [List.cons_append, List.append_assoc, List.cons_append]
    exact .comment hs hc ih

/-- A text with a token is ignored tokens and the rest from that token on. Inside of a comment
    the rest of its line comes first. -/
theorem exists_ignored {t : List Char} :
    (skipIgnored false t ≠ [] → ∃ s, Ignored s ∧ t = s ++ skipIgnored false t) ∧
    (skipIgnored true t ≠ [] → ∃ s c u, (∀ d ∈ s, isLineTerminator d = false) ∧
      isLineTerminator c ∧ Ignored u ∧ t = s ++ c :: (u ++ skipIgnored true t)) := by
  -- outside and inside a comment at once, since each leads to the other
  induction t with
  | nil => simp [skipIgnored]
  | cons c t ih =>
    obtain ⟨ihout, ihin⟩ := ih
    constructor
    · intro h
      rw [skipIgnored] at h ⊢
      by_cases hhash : c = '#'
      · -- a comment begins, and ends at the next line terminator
        subst hhash
        rw [if_pos rfl] at h ⊢
        -- a comment goes on to the end of its line
        obtain ⟨s, d, u, hs, hd, hu, ht⟩ := ihin h
        refine ⟨'#' :: (s ++ d :: u), .comment hs hd hu, ?_⟩
        rw [List.cons_append, List.append_assoc, List.cons_append, ← ht]
      · rw [if_neg hhash] at h ⊢
        -- white space, a comma or the byte order mark
        by_cases hc : isIgnored c
        · rw [if_pos hc] at h ⊢
          obtain ⟨s, hs, ht⟩ := ihout h
          exact ⟨c :: s, .char hc hs, by rw [List.cons_append, ← ht]⟩
        · rw [if_neg hc]
          exact ⟨[], .nil, rfl⟩
    · intro h
      rw [skipIgnored] at h ⊢
      -- inside a comment, a line terminator ends it
      cases hc : isLineTerminator c with
      | true =>
        rw [hc, Bool.not_true] at h
        rw [Bool.not_true]
        obtain ⟨s, hs, ht⟩ := ihout h
        exact ⟨[], c, s, by simp, hc, hs, by rw [List.nil_append, ← ht]⟩
      | false =>
        rw [hc, Bool.not_false] at h
        rw [Bool.not_false]
        obtain ⟨s, d, u, hs, hd, hu, ht⟩ := ihin h
        exact ⟨c :: s, d, u, List.forall_mem_cons.mpr ⟨hc, hs⟩, hd, hu,
          by rw [List.cons_append, ← ht]⟩

/-- A sequence of ignored tokens is white space, or its first other character is a comma, a byte
    order mark or the beginning of a comment. -/
theorem Ignored.space_or {w : List Char} (h : Ignored w) :
    (∀ c ∈ w, isSpace c) ∨
      ∃ s c u, w = s ++ c :: u ∧ (∀ d ∈ s, isSpace d) ∧ c ∈ [',', '\ufeff', '#'] := by
  induction h with
  | nil => exact .inl (by simp)
  | @char c t hc _ ih =>
    -- white space goes on, a comma or a byte order mark is the character looked for
    by_cases hspace : isSpace c
    · rcases ih with hall | ⟨s, d, u, rfl, hs, hd⟩
      · exact .inl (List.forall_mem_cons.mpr ⟨hspace, hall⟩)
      · exact .inr ⟨c :: s, d, u, rfl, List.forall_mem_cons.mpr ⟨hspace, hs⟩, hd⟩
    · simp only [isIgnored, hspace, Bool.false_or, Bool.or_eq_true, decide_eq_true_eq] at hc
      refine .inr ⟨[], c, t, rfl, by simp, ?_⟩
      rcases hc with rfl | rfl
      · simp
      · simp
  | @comment s t c _ _ _ _ => exact .inr ⟨[], '#', s ++ c :: t, rfl, by simp, by simp⟩

end GraphQlText
