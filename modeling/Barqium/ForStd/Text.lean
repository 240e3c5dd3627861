import Mathlib.Data.List.Basic
import Mathlib.Data.List.TakeWhile

/-!
# Texts with byte offsets

A Rust `str` is addressed by the bytes of its UTF-8 form, and cutting it inside a
character panics. Texts here are lists of characters, offsets count bytes, and a cut
that would panic is `none`.

## Key results

- `splitAt_eq_some`: a cut at an offset is a split of the text.
- `exists_slice`: between two boundaries a text can be cut.
- `find_eq_some`, `rfind_eq_some`: what the searches return.
- `charAt_append`, `exists_charAt_mid`: the character a byte belongs to.
-/

namespace Text

/-- The length in bytes. -/
def byteLen : List Char → Nat
  | [] => 0
  | c :: t => c.utf8Size + byteLen t

/-- The two sides of a byte offset; none past the end or inside a character. -/
def splitAt : List Char → Nat → Option (List Char × List Char)
  | t, 0 => some ([], t)
  | [], _ + 1 => none
  | c :: t, n + 1 =>
    if c.utf8Size ≤ n + 1 then
      (splitAt t (n + 1 - c.utf8Size)).map fun (u, v) => (c :: u, v)
    else none

/-- `t[i..]`. -/
def sliceFrom (t : List Char) (i : Nat) : Option (List Char) := (splitAt t i).map Prod.snd

/-- `t[..i]`. -/
def sliceTo (t : List Char) (i : Nat) : Option (List Char) := (splitAt t i).map Prod.fst

/-- `t[i..j]`. -/
def slice (t : List Char) (i j : Nat) : Option (List Char) :=
  if i ≤ j then (sliceTo t j).bind fun u => sliceFrom u i else none

/-- `str::find` with a predicate: the offset of the first character it holds of. -/
def find (p : Char → Bool) : List Char → Option Nat
  | [] => none
  | c :: t => if p c then some 0 else (find p t).map (c.utf8Size + ·)

/-- `str::rfind` with a predicate: the offset of the last character it holds of. -/
def rfind (p : Char → Bool) : List Char → Option Nat
  | [] => none
  | c :: t =>
    match rfind p t with
    | some n => some (c.utf8Size + n)
    | none => if p c then some 0 else none

/-- The character that a byte is part of. -/
def charAt : List Char → Nat → Option Char
  | [], _ => none
  | c :: t, b => if b < c.utf8Size then some c else charAt t (b - c.utf8Size)

/-- `char::is_whitespace`: the Unicode property White_Space. -/
def isWhitespace (c : Char) : Bool :=
  (0x9 ≤ c.val && c.val ≤ 0xD) || c.val == 0x20 || c.val == 0x85 || c.val == 0xA0 ||
    c.val == 0x1680 || (0x2000 ≤ c.val && c.val ≤ 0x200A) || c.val == 0x2028 ||
    c.val == 0x2029 || c.val == 0x202F || c.val == 0x205F || c.val == 0x3000

/-- `str::trim`. -/
def trim (t : List Char) : List Char :=
  ((t.dropWhile isWhitespace).reverse.dropWhile isWhitespace).reverse

/-- `str::strip_prefix`. -/
def stripPrefix : List Char → List Char → Option (List Char)
  | [], t => some t
  | c :: p, d :: t => if c = d then stripPrefix p t else none
  | _ :: _, [] => none

@[simp] theorem byteLen_nil : byteLen [] = 0 := rfl

@[simp] theorem byteLen_cons (c : Char) (t : List Char) :
    byteLen (c :: t) = c.utf8Size + byteLen t := rfl

/-- The bytes of two texts, one after the other. -/
@[simp] theorem byteLen_append (u v : List Char) :
    byteLen (u ++ v) = byteLen u + byteLen v := by
  induction u with
  | nil => simp
  | cons c u ih =>
    simp only [List.cons_append, byteLen_cons, ih]
    omega

/-- A longer prefix has no fewer bytes. -/
theorem byteLen_take_le {m n : Nat} (h : m ≤ n) (t : List Char) :
    byteLen (t.take m) ≤ byteLen (t.take n) := by
  have htake : t.take m = (t.take n).take m := by rw [List.take_take, Nat.min_eq_left h]
  have hsplit := congrArg byteLen (List.take_append_drop m (t.take n))
  rw [byteLen_append] at hsplit
  rw [htake]
  omega

/-! ## Slices -/

/-- A text can be cut behind any of its prefixes. -/
theorem splitAt_byteLen (u v : List Char) : splitAt (u ++ v) (byteLen u) = some (u, v) := by
  induction u with
  | nil => simp [splitAt]
  | cons c u ih =>
    have hpos := c.utf8Size_pos
    -- the offset is positive, so the cut is behind `c`
    obtain ⟨n, hn⟩ : ∃ n, byteLen (c :: u) = n + 1 :=
      ⟨byteLen (c :: u) - 1, by rw [byteLen_cons]; omega⟩
    have hrest : n + 1 - c.utf8Size = byteLen u := by rw [← hn, byteLen_cons]; omega
    rw [hn, List.cons_append, splitAt, hrest, ih, if_pos (by rw [← hn, byteLen_cons]; omega)]
    rfl

/-- A text can be cut behind its prefixes only. -/
theorem splitAt_eq_some {t u v : List Char} {i : Nat} :
    splitAt t i = some (u, v) ↔ t = u ++ v ∧ byteLen u = i := by
  constructor
  · intro h
    -- the index runs down by the bytes of each character
    induction t generalizing i u with
    | nil =>
      cases i with
      | zero => simp_all [splitAt]
      | succ n => simp [splitAt] at h
    | cons c t ih =>
      cases i with
      | zero =>
        simp only [splitAt, Option.some.injEq, Prod.mk.injEq] at h
        obtain ⟨rfl, rfl⟩ := h
        exact ⟨rfl, rfl⟩
      | succ n =>
        -- the first character belongs to the first part whole
        rw [splitAt] at h
        split at h
        · obtain ⟨⟨u', v'⟩, hrest, heq⟩ := Option.map_eq_some_iff.mp h
          cases heq
          obtain ⟨rfl, hlen⟩ := ih hrest
          exact ⟨rfl, by rw [byteLen_cons]; omega⟩
        · cases h
  · rintro ⟨rfl, rfl⟩
    exact splitAt_byteLen u v

/-- What stands behind a position. -/
theorem sliceFrom_eq_some {t v : List Char} {i : Nat} :
    sliceFrom t i = some v ↔ ∃ u, t = u ++ v ∧ byteLen u = i := by
  unfold sliceFrom
  constructor
  · intro h
    obtain ⟨⟨u, v'⟩, hsplit, rfl⟩ := Option.map_eq_some_iff.mp h
    exact ⟨u, splitAt_eq_some.mp hsplit⟩
  · rintro ⟨u, hu⟩
    rw [splitAt_eq_some.mpr hu]
    rfl

/-- What stands before a position. -/
theorem sliceTo_eq_some {t u : List Char} {i : Nat} :
    sliceTo t i = some u ↔ ∃ v, t = u ++ v ∧ byteLen u = i := by
  unfold sliceTo
  constructor
  · intro h
    obtain ⟨⟨u', v⟩, hsplit, rfl⟩ := Option.map_eq_some_iff.mp h
    exact ⟨v, splitAt_eq_some.mp hsplit⟩
  · rintro ⟨v, hv⟩
    rw [splitAt_eq_some.mpr hv]
    rfl

/-- What stands between two positions. -/
theorem slice_eq_some {t m : List Char} {i j : Nat} :
    slice t i j = some m ↔ ∃ u v, t = u ++ m ++ v ∧ byteLen u = i ∧ byteLen (u ++ m) = j := by
  unfold slice
  constructor
  · intro h
    split at h
    · obtain ⟨w, hto, hfrom⟩ := Option.bind_eq_some_iff.mp h
      obtain ⟨v, rfl, hj⟩ := sliceTo_eq_some.mp hto
      obtain ⟨u, rfl, hi⟩ := sliceFrom_eq_some.mp hfrom
      exact ⟨u, v, rfl, hi, hj⟩
    · cases h
  · rintro ⟨u, v, rfl, rfl, rfl⟩
    -- cut off what stands behind, and then what stands before
    have hto : sliceTo (u ++ m ++ v) (byteLen (u ++ m)) = some (u ++ m) :=
      sliceTo_eq_some.mpr ⟨v, rfl, rfl⟩
    rw [if_pos (by rw [byteLen_append]; omega), hto]
    exact sliceFrom_eq_some.mpr ⟨u, rfl, rfl⟩

/-- Two splits at one offset are the same. -/
theorem append_inj_byteLen {u v u' v' : List Char} (h : u ++ v = u' ++ v')
    (hlen : byteLen u = byteLen u') : u = u' ∧ v = v' := by
  have hsplit := splitAt_byteLen u v
  rw [h, hlen, splitAt_byteLen] at hsplit
  cases hsplit
  exact ⟨rfl, rfl⟩

/-! ## Boundaries -/

/-- `str::is_char_boundary`: the offset lies between two characters or at an end. -/
def IsBoundary (t : List Char) (i : Nat) : Prop := ∃ u v, t = u ++ v ∧ byteLen u = i

/-- A boundary is not behind the text. -/
theorem IsBoundary.le {t : List Char} {i : Nat} (h : IsBoundary t i) : i ≤ byteLen t := by
  obtain ⟨u, v, rfl, rfl⟩ := h
  rw [byteLen_append]
  omega

/-- Every prefix ends at a boundary. -/
theorem isBoundary_take (t : List Char) (n : Nat) : IsBoundary t (byteLen (t.take n)) :=
  ⟨t.take n, t.drop n, (List.take_append_drop n t).symm, rfl⟩

/-- Between two boundaries a text can be cut. -/
theorem exists_slice {t : List Char} {i j : Nat} (hi : IsBoundary t i) (hj : IsBoundary t j)
    (h : i ≤ j) : ∃ m, slice t i j = some m := by
  obtain ⟨u, v, huv, rfl⟩ := hi
  obtain ⟨u', v', huv', rfl⟩ := hj
  rcases List.append_eq_append_iff.mp (huv.symm.trans huv') with ⟨m, rfl, rfl⟩ | ⟨m, rfl, rfl⟩
  · exact ⟨m, slice_eq_some.mpr ⟨u, v', huv', rfl, rfl⟩⟩
  · -- the second cut is not before the first, so they are the same
    rw [byteLen_append] at h
    have hm : byteLen m = 0 := by omega
    exact ⟨[], slice_eq_some.mpr ⟨u' ++ m, v, by simp [huv], rfl, by simp [hm]⟩⟩

/-- The second byte of a longer character is no boundary. -/
theorem not_isBoundary_inside (u : List Char) {d : Char} (w : List Char) (h : d.utf8Size ≠ 1) :
    ¬ IsBoundary (u ++ d :: w) (byteLen u + 1) := by
  rintro ⟨u', v', huv, hlen⟩
  have hpos := d.utf8Size_pos
  rcases List.append_eq_append_iff.mp huv with ⟨a, rfl, ha⟩ | ⟨b, rfl, -⟩
  · -- a boundary one byte into the character would split it
    cases a with
    | nil => simp at hlen
    | cons c a =>
      cases ha
      simp only [byteLen_append, byteLen_cons] at hlen
      omega
  · rw [byteLen_append] at hlen
    omega

/-! ## Searches -/

/-- Nothing is found in a text without such a character. -/
theorem find_eq_none {p : Char → Bool} {t : List Char} :
    find p t = none ↔ ∀ c ∈ t, p c = false := by
  induction t with
  | nil => simp [find]
  | cons c t ih =>
    cases hc : p c <;> simp [find, hc, ih]

/-- What is found is the position of the first such character. -/
theorem find_eq_some {p : Char → Bool} {t : List Char} {n : Nat} (h : find p t = some n) :
    ∃ u c v, t = u ++ c :: v ∧ byteLen u = n ∧ p c = true ∧ ∀ d ∈ u, p d = false := by
  induction t generalizing n with
  | nil => cases h
  | cons c t ih =>
    rw [find] at h
    split at h
    · rename_i hc
      cases h
      exact ⟨[], c, t, rfl, rfl, hc, by simp⟩
    · rename_i hc
      obtain ⟨m, hm, rfl⟩ := Option.map_eq_some_iff.mp h
      obtain ⟨u, d, v, rfl, rfl, hd, hu⟩ := ih hm
      refine ⟨c :: u, d, v, rfl, rfl, hd, ?_⟩
      simpa [hc] using hu

/-- The search for the first character without a property passes over those with it. -/
theorem find_not (p : Char → Bool) (t : List Char) :
    (find (fun c => !p c) t).getD (byteLen t) = byteLen (t.takeWhile p) := by
  induction t with
  | nil => rfl
  | cons c t ih =>
    rw [find, List.takeWhile_cons]
    cases hc : p c with
    | false => simp
    | true =>
      simp only [Bool.not_true, Bool.false_eq_true, if_false, if_true, byteLen_cons, ← ih]
      cases find (fun c => !p c) t <;> rfl

/-- From the right nothing is found in a text without such a character. -/
theorem rfind_eq_none {p : Char → Bool} {t : List Char} :
    rfind p t = none ↔ ∀ c ∈ t, p c = false := by
  induction t with
  | nil => simp [rfind]
  | cons c t ih =>
    rw [rfind]
    cases hr : rfind p t with
    | none =>
      have ht := ih.mp hr
      cases hc : p c with
      | false => simpa [hc] using ht
      | true => simp [hc]
    | some n =>
      have ht : ¬ ∀ c ∈ t, p c = false := by simp [← ih, hr]
      simp [ht]

/-- From the right the position of the last such character is found. -/
theorem rfind_eq_some {p : Char → Bool} {t : List Char} {n : Nat} (h : rfind p t = some n) :
    ∃ u c v, t = u ++ c :: v ∧ byteLen u = n ∧ p c = true ∧ ∀ d ∈ v, p d = false := by
  induction t generalizing n with
  | nil => cases h
  | cons c t ih =>
    rw [rfind] at h
    -- a match in the rest comes after one at `c`
    cases hr : rfind p t with
    | none =>
      rw [hr] at h
      by_cases hc : p c = true
      · simp only [if_pos hc] at h
        cases h
        exact ⟨[], c, t, rfl, rfl, hc, rfind_eq_none.mp hr⟩
      · simp [if_neg hc] at h
    | some m =>
      rw [hr] at h
      cases h
      obtain ⟨u, d, v, rfl, rfl, hd, hv⟩ := ih hr
      exact ⟨c :: u, d, v, rfl, rfl, hd, hv⟩

/-- The last character that satisfies the test is found wherever it stands. -/
theorem rfind_of_last {p : Char → Bool} (u : List Char) {c : Char} {v : List Char} (hc : p c = true)
    (hv : ∀ d ∈ v, p d = false) : rfind p (u ++ c :: v) = some (byteLen u) := by
  induction u with
  | nil =>
    rw [List.nil_append, rfind, rfind_eq_none.mpr hv]
    exact if_pos hc
  | cons d u ih => rw [List.cons_append, rfind, ih, byteLen_cons]

/-! ## The character at a byte -/

/-- A byte belongs to a character of the first text or of the second. -/
theorem charAt_append (u v : List Char) (b : Nat) :
    charAt (u ++ v) b = if b < byteLen u then charAt u b else charAt v (b - byteLen u) := by
  induction u generalizing b with
  | nil => simp
  | cons c u ih =>
    rw [List.cons_append, charAt, charAt, byteLen_cons, ih]
    -- in `c`, in the rest of `u`, or behind it
    by_cases hc : b < c.utf8Size
    · rw [if_pos hc, if_pos (by omega), if_pos hc]
    · have hsub : b - c.utf8Size - byteLen u = b - (c.utf8Size + byteLen u) := by omega
      rw [if_neg hc, if_neg hc, hsub]
      by_cases hb : b - c.utf8Size < byteLen u
      · rw [if_pos hb, if_pos (by omega)]
      · rw [if_neg hb, if_neg (by omega)]

/-- Bytes before the end of the first text. -/
theorem charAt_of_lt {u : List Char} {b : Nat} (h : b < byteLen u) (v : List Char) :
    charAt (u ++ v) b = charAt u b := by
  rw [charAt_append, if_pos h]

/-- Bytes behind the end of the first text. -/
theorem charAt_of_le {u : List Char} {b : Nat} (h : byteLen u ≤ b) (v : List Char) :
    charAt (u ++ v) b = charAt v (b - byteLen u) := by
  rw [charAt_append, if_neg (by omega)]

/-- Every byte of a text belongs to a character. -/
theorem exists_charAt {t : List Char} {b : Nat} (h : b < byteLen t) :
    ∃ c ∈ t, charAt t b = some c := by
  induction t generalizing b with
  | nil => simp at h
  | cons c t ih =>
    rw [charAt]
    by_cases hc : b < c.utf8Size
    · exact ⟨c, by simp, if_pos hc⟩
    · obtain ⟨d, hd, hat⟩ := ih (show b - c.utf8Size < byteLen t by rw [byteLen_cons] at h; omega)
      exact ⟨d, List.mem_cons_of_mem c hd, by rw [if_neg hc, hat]⟩

/-- The bytes of a part of a text belong to its characters. -/
theorem exists_charAt_mid {u m : List Char} {b : Nat} (hle : byteLen u ≤ b)
    (hlt : b < byteLen u + byteLen m) (v : List Char) :
    ∃ c ∈ m, charAt (u ++ (m ++ v)) b = some c := by
  have hlt' : b - byteLen u < byteLen m := by omega
  obtain ⟨c, hc, hat⟩ := exists_charAt hlt'
  exact ⟨c, hc, by rw [charAt_of_le hle, charAt_of_lt hlt', hat]⟩

/-- A byte that belongs to a character is one of the text. -/
theorem lt_byteLen_of_charAt {t : List Char} {b : Nat} {c : Char} (h : charAt t b = some c) :
    b < byteLen t := by
  induction t generalizing b with
  | nil => cases h
  | cons d t ih =>
    rw [charAt] at h
    rw [byteLen_cons]
    split at h
    · omega
    · have := ih h
      omega

/-! ## Trimming -/

/-- Trimming keeps what begins and ends with a character that is no white space. -/
theorem trim_eq {s x u v y : List Char} {c d : Char} (hs : ∀ c ∈ s, isWhitespace c)
    (hfirst : x = c :: u) (hc : isWhitespace c = false) (hlast : x = v ++ [d])
    (hd : isWhitespace d = false) (hy : ∀ c ∈ y, isWhitespace c) : trim (s ++ (x ++ y)) = x := by
  have hleft : (x ++ y).dropWhile isWhitespace = x ++ y := by
    rw [hfirst, List.cons_append, List.dropWhile_cons_of_neg (by simp [hc])]
  have hright : x.reverse.dropWhile isWhitespace = x.reverse := by
    rw [hlast, List.reverse_concat, List.dropWhile_cons_of_neg (by simp [hd])]
  have hbehind : ∀ c ∈ y.reverse, isWhitespace c := fun c hc => hy c (List.mem_reverse.mp hc)
  rw [trim, List.dropWhile_append_of_pos hs, hleft, List.reverse_append,
    List.dropWhile_append_of_pos hbehind, hright, List.reverse_reverse]

/-- Trimming adds no character. -/
theorem mem_of_mem_trim {t : List Char} {c : Char} (h : c ∈ trim t) : c ∈ t :=
  (List.dropWhile_sublist _).subset
    (List.mem_reverse.mp ((List.dropWhile_sublist _).subset (List.mem_reverse.mp h)))

/-- A prefix is stripped if the text begins with it. -/
theorem stripPrefix_eq_some {pat t rest : List Char} :
    stripPrefix pat t = some rest ↔ t = pat ++ rest := by
  induction pat generalizing t with
  | nil => simp [stripPrefix, eq_comm]
  | cons c pat ih =>
    cases t with
    | nil => simp [stripPrefix]
    | cons d t =>
      rw [stripPrefix, List.cons_append, List.cons.injEq]
      by_cases hc : c = d
      · rw [if_pos hc, ih, and_iff_right hc.symm]
      · rw [if_neg hc]
        simp [Ne.symm hc]

/-- The bytes of a text are read as the text. -/
theorem fromUTF8?_toUTF8 (s : String) : String.fromUTF8? s.toUTF8 = some s := by
  unfold String.fromUTF8?
  have hvalid : s.toUTF8.IsValidUTF8 := s.isValidUTF8
  rw [dif_pos hvalid]
  rfl

end Text
