import Barqium.ForStd.List
import Mathlib.Algebra.Group.Nat.Defs

/-!
# Decimal numbers of a fixed width

A number of a fixed width is read digit by digit: the value so far is multiplied by ten and the
digit is added, and each of the two steps fails when it leaves the width.

## Key results

- `parse_eq_some_iff`: what is read, and as which number
- `parseUnsigned_isSome_iff`: a plus sign may stand before the digits.
- `zeroPadded_append_before_iff`: padded numbers are ordered as the numbers are.
-/

namespace Digits

/-- A number below a bound, with any number of zeros in front. -/
structure IsNumber (bound : Nat) (digits : List Char) : Prop where
  nonempty : digits ≠ []
  allDigits : ∀ c ∈ digits, c.isDigit = true
  inRange : Nat.ofDigitChars 10 digits 0 < bound

instance (bound : Nat) (digits : List Char) : Decidable (IsNumber bound digits) :=
  decidable_of_iff (digits ≠ [] ∧ digits.all Char.isDigit = true ∧
    Nat.ofDigitChars 10 digits 0 < bound)
    ⟨fun ⟨h₁, h₂, h₃⟩ => ⟨h₁, List.all_eq_true.mp h₂, h₃⟩,
      fun h => ⟨h.nonempty, List.all_eq_true.mpr h.allDigits, h.inRange⟩⟩

variable {bound : Nat}

/-- The result of a checked operation. -/
def checked (bound n : Nat) : Option Nat := if n < bound then some n else none

/-- One more digit. -/
def step (bound n : Nat) (c : Char) : Option Nat :=
  (checked bound (10 * n)).bind fun m =>
    if c.isDigit then checked bound (m + (c.toNat - '0'.toNat)) else none

/-- The number that digits stand for, if there are any and it is below the bound. -/
def parse (bound : Nat) (digits : List Char) : Option Nat :=
  if digits = [] then none else digits.foldlM (step bound) 0

/-- `parse` behind an optional plus sign. -/
def parseUnsigned (bound : Nat) : List Char → Option Nat
  | '+' :: digits => parse bound digits
  | digits => parse bound digits

/-- One step accepts a digit, as long as the number stays below the bound. -/
theorem step_eq_some_iff {n m : Nat} {c : Char} :
    step bound n c = some m ↔
      c.isDigit = true ∧ 10 * n + (c.toNat - '0'.toNat) < bound ∧
        m = 10 * n + (c.toNat - '0'.toNat) := by
  unfold step checked
  constructor
  · intro h
    split at h
    · rw [Option.bind_some] at h
      split at h
      · rename_i hdigit
        split at h
        · rename_i hlt
          cases h
          exact ⟨hdigit, hlt, rfl⟩
        · cases h
      · cases h
    · cases h
  · rintro ⟨hdigit, hlt, rfl⟩
    -- the product is not larger than the sum
    rw [if_pos (Nat.lt_of_le_of_lt (Nat.le_add_right _ _) hlt), Option.bind_some, if_pos hdigit,
      if_pos hlt]

/-- More digits do not make a number smaller. -/
theorem le_ofDigitChars (digits : List Char) (n : Nat) : n ≤ Nat.ofDigitChars 10 digits n := by
  induction digits generalizing n with
  | nil => simp only [Nat.ofDigitChars_nil, Nat.le_refl]
  | cons c digits ih =>
    rw [Nat.ofDigitChars_cons]
    have h := ih (10 * n + (c.toNat - '0'.toNat))
    omega

/-- All steps together accept digits, as long as the number stays below the bound. -/
theorem foldlM_step_eq_some_iff {digits : List Char} {n m : Nat} (hn : n < bound) :
    digits.foldlM (step bound) n = some m ↔
      (∀ c ∈ digits, c.isDigit = true) ∧ Nat.ofDigitChars 10 digits n < bound ∧
        m = Nat.ofDigitChars 10 digits n := by
  induction digits generalizing n with
  | nil =>
    rw [List.foldlM_nil, Nat.ofDigitChars_nil]
    constructor
    · intro h
      cases h
      exact ⟨fun c hc => (by cases hc), hn, rfl⟩
    · rintro ⟨-, -, rfl⟩
      rfl
  | cons c digits ih =>
    rw [List.foldlM_cons, Nat.ofDigitChars_cons, List.forall_mem_cons]
    show (step bound n c).bind _ = some m ↔ _
    rw [Option.bind_eq_some_iff]
    constructor
    · rintro ⟨k, hstep, hrest⟩
      obtain ⟨hdigit, hlt, rfl⟩ := step_eq_some_iff.mp hstep
      obtain ⟨hdigits, hvalue⟩ := (ih hlt).mp hrest
      exact ⟨⟨hdigit, hdigits⟩, hvalue⟩
    · rintro ⟨⟨hdigit, hdigits⟩, hvalue⟩
      -- if all of the number fits, so does what was read of it so far
      have hlt := Nat.lt_of_le_of_lt (le_ofDigitChars digits _) hvalue.1
      exact ⟨_, step_eq_some_iff.mpr ⟨hdigit, hlt, rfl⟩, (ih hlt).mpr ⟨hdigits, hvalue⟩⟩

/-- What is parsed is a number, and its value. -/
theorem parse_eq_some_iff {digits : List Char} {n : Nat} :
    parse bound digits = some n ↔
      IsNumber bound digits ∧ n = Nat.ofDigitChars 10 digits 0 := by
  unfold parse
  split
  · rename_i hnil
    exact ⟨fun h => (by cases h), fun h => absurd hnil h.1.nonempty⟩
  · rename_i hne
    constructor
    · intro h
      have hbound : 0 < bound := by
        -- the first step already needs room for its result
        obtain ⟨c, rest, rfl⟩ := List.exists_cons_of_ne_nil hne
        rw [List.foldlM_cons] at h
        obtain ⟨k, hstep, -⟩ := Option.bind_eq_some_iff.mp h
        exact Nat.lt_of_le_of_lt (Nat.zero_le _) (step_eq_some_iff.mp hstep).2.1
      obtain ⟨hdigits, hlt, rfl⟩ := (foldlM_step_eq_some_iff hbound).mp h
      exact ⟨⟨hne, hdigits, hlt⟩, rfl⟩
    · rintro ⟨h, rfl⟩
      have hbound : 0 < bound := Nat.lt_of_le_of_lt (Nat.zero_le _) h.inRange
      exact (foldlM_step_eq_some_iff hbound).mpr ⟨h.allDigits, h.inRange, rfl⟩

/-- Exactly the numbers are parsed. -/
theorem parse_isSome_iff {digits : List Char} :
    (parse bound digits).isSome ↔ IsNumber bound digits := by
  rw [Option.isSome_iff_exists]
  constructor
  · rintro ⟨n, h⟩
    exact (parse_eq_some_iff.mp h).1
  · intro h
    exact ⟨_, parse_eq_some_iff.mpr ⟨h, rfl⟩⟩

/-- A number does not begin with a sign. -/
theorem not_isNumber_plus {digits : List Char} : ¬ IsNumber bound ('+' :: digits) := by
  intro h
  have hplus := h.allDigits '+' List.mem_cons_self
  exact absurd hplus (by decide)

/-- A number is read with and without a plus sign. -/
theorem parseUnsigned_isSome_iff {text : List Char} :
    (parseUnsigned bound text).isSome ↔
      IsNumber bound text ∨ ∃ digits, text = '+' :: digits ∧ IsNumber bound digits := by
  unfold parseUnsigned
  split
  · -- a leading plus: the rest is a number, and the text itself is none
    rename_i digits
    rw [parse_isSome_iff]
    constructor
    · intro h
      exact .inr ⟨digits, rfl, h⟩
    · rintro (h | ⟨digits', heq, h⟩)
      · exact absurd h not_isNumber_plus
      · cases heq
        exact h
  · -- without a sign the text itself has to be the number
    rename_i hsign
    rw [parse_isSome_iff]
    constructor
    · exact .inl
    · rintro (h | ⟨digits, rfl, -⟩)
      · exact h
      · exact absurd rfl (hsign digits)

/-! ## Padding with zeros -/

/-- The digits of a number, with zeros in front up to a width. -/
def zeroPadded (width n : Nat) : List Char := (Nat.toDigits 10 n).leftpad width '0'

/-- The lexicographic order of texts. -/
def Before (text text' : List Char) : Prop :=
  List.Lex (fun c d : Char => c.toNat < d.toNat) text text'

/-- A text does not come before itself. -/
theorem not_before_self (text : List Char) : ¬ Before text text :=
  List.lex_irrefl (fun c : Char => Nat.lt_irrefl c.toNat) text

/-- A character in front of both texts does not count. -/
theorem cons_before_cons_iff {c : Char} {text text' : List Char} :
    Before (c :: text) (c :: text') ↔ Before text text' := by
  unfold Before
  rw [List.cons_lex_cons_iff]
  constructor
  · rintro (h | ⟨-, h⟩)
    · exact absurd h (Nat.lt_irrefl _)
    · exact h
  · exact fun h => .inr ⟨rfl, h⟩

/-- Padding with zeros leaves digits. -/
theorem isDigit_zeroPadded {width n : Nat} {c : Char} (h : c ∈ zeroPadded width n) :
    c.isDigit = true := by
  rcases List.mem_append.mp h with hzero | hdigit
  · rw [List.eq_of_mem_replicate hzero]
    rfl
  · exact Nat.isDigit_of_mem_toDigits (by decide) (by decide) hdigit

/-- The zeros do not change the number. -/
theorem ofDigitChars_zeroPadded (width n : Nat) :
    Nat.ofDigitChars 10 (zeroPadded width n) 0 = n := by
  show Nat.ofDigitChars 10 (List.replicate _ '0' ++ Nat.toDigits 10 n) 0 = n
  rw [Nat.ofDigitChars_append, Nat.ofDigitChars_replicate_zero, Nat.mul_zero,
    Nat.ofDigitChars_ten_toDigits]

variable {width : Nat}

/-- A number that fits is padded to the width. -/
theorem length_zeroPadded {n : Nat} (hwidth : 0 < width) (h : n < 10 ^ width) :
    (zeroPadded width n).length = width := by
  have hdigits := (Nat.length_toDigits_le_iff (by decide) hwidth).mpr h
  unfold zeroPadded
  rw [List.length_leftpad, Nat.max_eq_left hdigits]

/-- A padded number is a number. -/
theorem isNumber_zeroPadded {n : Nat} (hwidth : 0 < width) (h : n < 10 ^ width)
    (hbound : n < bound) : IsNumber bound (zeroPadded width n) where
  nonempty := by
    intro hnil
    have hlength := length_zeroPadded hwidth h
    rw [hnil, List.length_nil] at hlength
    omega
  allDigits := fun _ hc => isDigit_zeroPadded hc
  inRange := by rw [ofDigitChars_zeroPadded]; exact hbound

/-- A padded number is read back. -/
theorem parse_zeroPadded {n : Nat} (hwidth : 0 < width) (h : n < 10 ^ width)
    (hbound : n < bound) : parse bound (zeroPadded width n) = some n :=
  parse_eq_some_iff.mpr
    ⟨isNumber_zeroPadded hwidth h hbound, (ofDigitChars_zeroPadded width n).symm⟩

/-- A number that is written without zeros in front is read back. -/
theorem parse_toDigits {n : Nat} (h : n < bound) : parse bound (Nat.toDigits 10 n) = some n := by
  rw [parse_eq_some_iff, Nat.ofDigitChars_ten_toDigits]
  refine ⟨⟨?_, fun c hc => Nat.isDigit_of_mem_toDigits (by decide) (by decide) hc, ?_⟩, rfl⟩
  · exact List.ne_nil_of_length_pos Nat.length_toDigits_pos
  · rwa [Nat.ofDigitChars_ten_toDigits]

/-- The digits behind the first one add less than one to it. -/
theorem ofDigitChars_cons_eq (c : Char) (digits : List Char) :
    Nat.ofDigitChars 10 (c :: digits) 0 =
      10 ^ digits.length * (c.toNat - '0'.toNat) + Nat.ofDigitChars 10 digits 0 := by
  rw [Nat.ofDigitChars_cons, Nat.ofDigitChars_eq_ofDigitChars_zero, Nat.mul_zero, Nat.zero_add]

/-- Digits give less than the power of ten with their length. -/
theorem ofDigitChars_lt {digits : List Char} (h : ∀ c ∈ digits, c.isDigit = true) :
    Nat.ofDigitChars 10 digits 0 < 10 ^ digits.length := by
  induction digits with
  | nil => decide
  | cons c digits ih =>
    obtain ⟨hc, hdigits⟩ := List.forall_mem_cons.mp h
    have hdigit : c.toNat - '0'.toNat ≤ 9 := by
      have hle : c.toNat ≤ 57 := (Char.isDigit_iff_toNat.mp hc).2
      show c.toNat - 48 ≤ 9
      omega
    have hrest := ih hdigits
    -- the first digit counts at most nine times the power of ten
    have hmul := Nat.mul_le_mul_left (10 ^ digits.length) hdigit
    rw [ofDigitChars_cons_eq, List.length_cons, Nat.pow_succ]
    omega

/-- The quotient counts first. -/
theorem mul_add_lt_iff {k a b x y : Nat} (hx : x < k) (hy : y < k) :
    k * a + x < k * b + y ↔ a < b ∨ a = b ∧ x < y := by
  rcases Nat.lt_trichotomy a b with hlt | rfl | hgt
  · -- the higher part decides unless it is the same
    have hmul := Nat.mul_le_mul_left k (Nat.succ_le_of_lt hlt)
    rw [Nat.mul_succ] at hmul
    exact ⟨fun _ => .inl hlt, fun _ => by omega⟩
  · constructor
    · intro h
      exact .inr ⟨rfl, Nat.lt_of_add_lt_add_left h⟩
    · rintro (h | ⟨-, h⟩)
      · exact absurd h (Nat.lt_irrefl a)
      · exact Nat.add_lt_add_left h _
  · have hmul := Nat.mul_le_mul_left k (Nat.succ_le_of_lt hgt)
    rw [Nat.mul_succ] at hmul
    constructor
    · intro h
      omega
    · rintro (h | ⟨h, -⟩) <;> omega

/-- Digits of one length are ordered as the numbers are. -/
theorem before_iff {l m : List Char} (hl : ∀ c ∈ l, c.isDigit = true)
    (hm : ∀ c ∈ m, c.isDigit = true) (hlength : l.length = m.length) :
    Before l m ↔ Nat.ofDigitChars 10 l 0 < Nat.ofDigitChars 10 m 0 := by
  induction l generalizing m with
  | nil =>
    obtain rfl := List.eq_nil_of_length_eq_zero hlength.symm
    exact ⟨fun h => (by cases h), fun h => absurd h (Nat.lt_irrefl _)⟩
  | cons c l ih =>
    obtain ⟨d, m, rfl⟩ := List.exists_cons_of_length_eq_add_one hlength.symm
    obtain ⟨hc, hl⟩ := List.forall_mem_cons.mp hl
    obtain ⟨hd, hm⟩ := List.forall_mem_cons.mp hm
    have hlength := Nat.succ_inj.mp hlength
    have hrest := ih hl hm hlength
    have hx := ofDigitChars_lt hl
    have hy := ofDigitChars_lt hm
    have hc : 48 ≤ c.toNat := (Char.isDigit_iff_toNat.mp hc).1
    have hd : 48 ≤ d.toNat := (Char.isDigit_iff_toNat.mp hd).1
    rw [← hlength] at hy
    rw [ofDigitChars_cons_eq, ofDigitChars_cons_eq, ← hlength, mul_add_lt_iff hx hy, ← hrest]
    -- the first characters are ordered as their digits
    have hlt : c.toNat < d.toNat ↔ c.toNat - '0'.toNat < d.toNat - '0'.toNat := by
      show _ ↔ c.toNat - 48 < d.toNat - 48
      omega
    have heq : c = d ↔ c.toNat - '0'.toNat = d.toNat - '0'.toNat := by
      rw [← Char.toNat_inj]
      show _ ↔ c.toNat - 48 = d.toNat - 48
      omega
    rw [← hlt, ← heq]
    exact List.cons_lex_cons_iff

/-- Padded numbers in front of texts are compared first. -/
theorem zeroPadded_append_before_iff {n m : Nat} {text text' : List Char} (hwidth : 0 < width)
    (hn : n < 10 ^ width) (hm : m < 10 ^ width) :
    Before (zeroPadded width n ++ text) (zeroPadded width m ++ text') ↔
      n < m ∨ n = m ∧ Before text text' := by
  have hlength : (zeroPadded width n).length = (zeroPadded width m).length := by
    rw [length_zeroPadded hwidth hn, length_zeroPadded hwidth hm]
  have hlt : Before (zeroPadded width n) (zeroPadded width m) ↔ n < m := by
    rw [before_iff (fun _ => isDigit_zeroPadded) (fun _ => isDigit_zeroPadded) hlength,
      ofDigitChars_zeroPadded, ofDigitChars_zeroPadded]
  have heq : zeroPadded width n = zeroPadded width m ↔ n = m := by
    constructor
    · intro h
      rw [← ofDigitChars_zeroPadded width n, h, ofDigitChars_zeroPadded]
    · intro h
      rw [h]
  -- texts of one length are compared first, and what follows decides between equal ones
  rw [← hlt, ← heq]
  exact List.lex_append_iff hlength

end Digits
