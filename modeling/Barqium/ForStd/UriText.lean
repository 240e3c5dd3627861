import Barqium.ForStd.List
import Mathlib.Data.List.DropRight

/-!
# The parts of a URI reference

A text splits into scheme, authority, path, query and fragment by its first `#`, `?`, `:` and
`/`. This is about what becomes of the parts when more text is appended.

## Key results

- `split_append_of_fragment`, `split_append_of_query`: text behind a fragment or a query
  belongs to it.
- `split_append_path`: a path with a query behind a text without either.
- `authorityOf_authority_append`, `authorityOf_authorityPath_append`: what an appended path
  does to the authority.
-/

namespace UriText

structure Parts where
  scheme : Option (List Char)
  authority : Option (List Char)
  path : List Char
  query : Option (List Char)
  fragment : Option (List Char)
  deriving Repr, DecidableEq

/-- The text before the first `c`, and the text behind it if there is one. -/
def cutAt (c : Char) : List Char → List Char × Option (List Char)
  | [] => ([], none)
  | x :: t => if x = c then ([], some t) else (x :: (cutAt c t).1, (cutAt c t).2)

/-- The scheme of a text without query and fragment, and the text behind it. -/
def schemeOf (t : List Char) : Option (List Char) × List Char :=
  match cutAt ':' t with
  | (scheme, some rest) =>
    if scheme = [] ∨ '/' ∈ scheme then (none, t) else (some scheme, rest)
  | (_, none) => (none, t)

/-- The authority of a text without scheme, and the path. -/
def authorityOf : List Char → Option (List Char) × List Char
  | '/' :: '/' :: t => (some (t.takeWhile (· ≠ '/')), t.dropWhile (· ≠ '/'))
  | t => (none, t)

def split (t : List Char) : Parts :=
  let (main, fragment) := cutAt '#' t
  let (front, query) := cutAt '?' main
  let (scheme, rest) := schemeOf front
  let (authority, path) := authorityOf rest
  ⟨scheme, authority, path, query, fragment⟩

example : split "http://example.com:8080/api?a=1#top".toList =
    ⟨some "http".toList, some "example.com:8080".toList, "/api".toList, some "a=1".toList,
      some "top".toList⟩ := by
  decide

/-! ## Cutting -/

variable {c : Char} {t u : List Char}

/-- A text without the character is not cut. -/
theorem cutAt_of_notMem (h : c ∉ t) : cutAt c t = (t, none) := by
  induction t with
  | nil => rfl
  | cons x t ih =>
    obtain ⟨hx, ht⟩ := not_or.mp (List.mem_cons.not.mp h)
    rw [cutAt, if_neg (Ne.symm hx), ih ht]

/-- A text is cut at the first such character. -/
theorem cutAt_append_cons (h : c ∉ t) (u : List Char) :
    cutAt c (t ++ c :: u) = (t, some u) := by
  induction t with
  | nil => simp [cutAt]
  | cons x t ih =>
    obtain ⟨hx, ht⟩ := not_or.mp (List.mem_cons.not.mp h)
    rw [List.cons_append, cutAt, if_neg (Ne.symm hx), ih ht]

/-- Text that is appended behind the first `c` stays behind it. -/
theorem cutAt_append_of_mem (h : c ∈ t) (u : List Char) :
    cutAt c (t ++ u) = ((cutAt c t).1, (cutAt c t).2.map (· ++ u)) := by
  obtain ⟨front, back, rfl, hfront⟩ := List.eq_append_cons_of_mem h
  rw [List.append_assoc, List.cons_append, cutAt_append_cons hfront, cutAt_append_cons hfront]
  rfl

/-! ## Scheme -/

/-- A text that can follow a scheme or a part of a path without making a scheme of it. -/
def NoColonFirst (u : List Char) : Prop := ':' ∈ u → u.head? = some '/'

/-- Without a colon there is no scheme. -/
theorem schemeOf_of_notMem (h : ':' ∉ t) : schemeOf t = (none, t) := by
  simp only [schemeOf, cutAt_of_notMem h]

/-- What stands before the first colon is the scheme, unless it is empty or has a slash. -/
theorem schemeOf_append_colon (h : ':' ∉ t) (u : List Char) :
    schemeOf (t ++ ':' :: u) =
      if t = [] ∨ '/' ∈ t then (none, t ++ ':' :: u) else (some t, u) := by
  simp only [schemeOf, cutAt_append_cons h]

/-- What follows leaves the scheme alone if no colon comes before a slash in it. -/
theorem schemeOf_append (hu : NoColonFirst u) (t : List Char) :
    schemeOf (t ++ u) = ((schemeOf t).1, (schemeOf t).2 ++ u) := by
  -- the first colon is in `t`, and decides for the whole text
  by_cases ht : ':' ∈ t
  · obtain ⟨scheme, rest, rfl, hscheme⟩ := List.eq_append_cons_of_mem ht
    rw [List.append_assoc, List.cons_append, schemeOf_append_colon hscheme,
      schemeOf_append_colon hscheme]
    split
    · simp
    · rfl
  · rw [schemeOf_of_notMem ht]
    by_cases hcolon : ':' ∈ u
    · -- the colon stands behind a slash
      obtain ⟨front, back, rfl, hfront⟩ := List.eq_append_cons_of_mem hcolon
      have hslash : '/' ∈ t ++ front := by
        cases front with
        | nil => exact absurd (hu hcolon) (by simp)
        | cons x front =>
          obtain rfl : x = '/' := Option.some.inj (hu hcolon)
          simp
      have hnone : ':' ∉ t ++ front := by simp [ht, hfront]
      rw [← List.append_assoc, schemeOf_append_colon hnone, if_pos (.inr hslash)]
    · rw [schemeOf_of_notMem (by simp [ht, hcolon])]

/-- What stands behind the scheme is the end of the text. -/
theorem schemeOf_snd_suffix (t : List Char) : (schemeOf t).2 <:+ t := by
  by_cases ht : ':' ∈ t
  · obtain ⟨scheme, rest, rfl, hscheme⟩ := List.eq_append_cons_of_mem ht
    rw [schemeOf_append_colon hscheme]
    split
    · exact List.suffix_rfl
    · exact (List.suffix_cons ':' rest).trans (List.suffix_append scheme _)
  · simp only [schemeOf_of_notMem ht, List.suffix_rfl]

/-! ## Authority -/

/-- An authority stands behind two slashes. -/
theorem authorityOf_of_oneSlash (h : ¬ ['/', '/'] <+: t) : authorityOf t = (none, t) := by
  unfold authorityOf
  split
  · exact absurd ⟨_, rfl⟩ h
  · rfl

/-- A text that does not end in a slash, by what an appended path does to its authority. -/
inductive Hier : List Char → Prop where
  | nil : Hier []
  /-- An authority and nothing behind it. -/
  | authority {a : List Char} (hne : a ≠ []) (ha : '/' ∉ a) : Hier ('/' :: '/' :: a)
  /-- An authority with a path. -/
  | authorityPath {a : List Char} (ha : '/' ∉ a) (p : List Char) :
      Hier ('/' :: '/' :: (a ++ '/' :: p))
  | path {p : List Char} (hne : p ≠ []) (hp : ∀ e, ¬ ['/', '/'] <+: p ++ e) : Hier p

/-- A text that does not end in a slash can be followed by a path. -/
theorem hier_of_getLast (h : t.getLast? ≠ some '/') : Hier t := by
  cases t with
  | nil => exact .nil
  | cons x t =>
    cases t with
    | nil =>
      -- one character, and no slash
      refine .path (List.cons_ne_nil _ _) fun e hpre => ?_
      obtain ⟨rfl, -⟩ := List.cons_prefix_cons.mp hpre
      exact h rfl
    | cons y a =>
      by_cases hxy : x = '/' ∧ y = '/'
      · obtain ⟨rfl, rfl⟩ := hxy
        by_cases ha : '/' ∈ a
        · obtain ⟨front, back, rfl, hfront⟩ := List.eq_append_cons_of_mem ha
          exact .authorityPath hfront back
        · refine .authority ?_ ha
          rintro rfl
          exact h rfl
      · refine .path (List.cons_ne_nil _ _) fun e hpre => hxy ?_
        obtain ⟨hx, hpre⟩ := List.cons_prefix_cons.mp hpre
        exact ⟨hx.symm, (List.cons_prefix_cons.mp hpre).1.symm⟩

/-- A text without slashes belongs to what comes before the first slash. -/
theorem takeWhile_append_of_noSlash (h : '/' ∉ t) (u : List Char) :
    (t ++ u).takeWhile (· ≠ '/') = t ++ u.takeWhile (· ≠ '/') := by
  refine List.takeWhile_append_of_pos fun x hx => ?_
  simpa using fun heq : x = '/' => h (heq ▸ hx)

/-- What stands behind the first slash does not depend on it. -/
theorem dropWhile_append_of_noSlash (h : '/' ∉ t) (u : List Char) :
    (t ++ u).dropWhile (· ≠ '/') = u.dropWhile (· ≠ '/') := by
  refine List.dropWhile_append_of_pos fun x hx => ?_
  simpa using fun heq : x = '/' => h (heq ▸ hx)

/-- Behind a bare authority only a path keeps it. -/
theorem authorityOf_authority_append (h : '/' ∉ t) (u : List Char) :
    authorityOf ('/' :: '/' :: t ++ u) =
      (some (t ++ u.takeWhile (· ≠ '/')), u.dropWhile (· ≠ '/')) := by
  rw [List.cons_append, List.cons_append, authorityOf, takeWhile_append_of_noSlash h,
    dropWhile_append_of_noSlash h]

/-- The authority ends where the path begins. -/
theorem authorityOf_authorityPath_append (h : '/' ∉ t) (p u : List Char) :
    authorityOf ('/' :: '/' :: (t ++ '/' :: p) ++ u) = (some t, '/' :: p ++ u) := by
  rw [List.cons_append, List.cons_append, authorityOf, List.append_assoc,
    takeWhile_append_of_noSlash h, dropWhile_append_of_noSlash h]
  simp

/-! ## Appending to a text -/

/-- Behind a fragment everything belongs to it. -/
theorem split_append_of_fragment (h : '#' ∈ t) (u : List Char) :
    split (t ++ u) = { split t with fragment := (split t).fragment.map (· ++ u) } := by
  simp only [split, cutAt_append_of_mem h]

/-- Behind a query everything up to a fragment belongs to it. -/
theorem split_append_of_query (ht : '#' ∉ t) (hquery : '?' ∈ t) (hu : '#' ∉ u) :
    split (t ++ u) = { split t with query := (split t).query.map (· ++ u) } := by
  have happend : '#' ∉ t ++ u := by simp [ht, hu]
  simp only [split, cutAt_of_notMem happend, cutAt_of_notMem ht, cutAt_append_of_mem hquery]

/-- A query as it stands behind a path. -/
def queryText : Option (List Char) → List Char
  | none => []
  | some q => '?' :: q

/-- A path with a query behind a text that has neither query nor fragment. -/
theorem split_append_path (ht : '#' ∉ t ∧ '?' ∉ t) (hu : '#' ∉ u ∧ '?' ∉ u)
    (hcolon : NoColonFirst u) {q : Option (List Char)} (hq : ∀ x ∈ q, '#' ∉ x) :
    split (t ++ u ++ queryText q) =
      { scheme := (schemeOf t).1
        authority := (authorityOf ((schemeOf t).2 ++ u)).1
        path := (authorityOf ((schemeOf t).2 ++ u)).2
        query := q
        fragment := none } := by
  -- neither part has a mark of its own, so the query is cut off where it begins
  have hfront : '?' ∉ t ++ u := by simp [ht.2, hu.2]
  -- there is no fragment, and the query begins at the first question mark
  have hmain : '#' ∉ t ++ u ++ queryText q := by
    cases q with
    | none => simp [queryText, ht.1, hu.1]
    | some x => simp [queryText, ht.1, hu.1, hq x rfl]
  have hcut : cutAt '?' (t ++ u ++ queryText q) = (t ++ u, q) := by
    cases q with
    | none =>
      rw [queryText, List.append_nil]
      exact cutAt_of_notMem hfront
    | some x => exact cutAt_append_cons hfront x
  simp only [split, cutAt_of_notMem hmain, hcut, schemeOf_append hcolon]

/-- Fragment and query of a text are there with their sign. -/
theorem fragment_split (t : List Char) : (split t).fragment = none ↔ '#' ∉ t := by
  by_cases h : '#' ∈ t
  · obtain ⟨front, back, rfl, hfront⟩ := List.eq_append_cons_of_mem h
    simp [split, cutAt_append_cons hfront]
  · simp [split, cutAt_of_notMem h, h]

/-- A text without a fragment has a query exactly if it has a question mark. -/
theorem query_split (h : '#' ∉ t) : (split t).query = none ↔ '?' ∉ t := by
  by_cases hquery : '?' ∈ t
  · obtain ⟨front, back, rfl, hfront⟩ := List.eq_append_cons_of_mem hquery
    simp [split, cutAt_of_notMem h, cutAt_append_cons hfront]
  · simp [split, cutAt_of_notMem h, cutAt_of_notMem hquery, hquery]

end UriText
