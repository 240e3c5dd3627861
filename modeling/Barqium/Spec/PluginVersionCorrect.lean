import Barqium.Native.PluginVersion
import Mathlib.Data.String.Basic

/-!
# The grammar of plugin versions

A version has three components of ASCII digits. The standard parser of numbers takes a plus sign
in front as well.

## Key results

- `parseU32_eq_none_iff`: what is no number for the parser
- `versionFromStr_iff`: the parser follows the grammar unless the first component outside it is a
  number with a plus sign.
-/

namespace Barqium.Native.PluginVersion

/-! ## The grammar -/

/-- ASCII digits of a number below 2^32. -/
def Component (part : List Char) : Prop := Digits.IsNumber (2 ^ 32) part

instance (part : List Char) : Decidable (Component part) :=
  inferInstanceAs (Decidable (Digits.IsNumber (2 ^ 32) part))

/-- A plus sign before a component. -/
def Signed (part : List Char) : Prop := ∃ digits, part = '+' :: digits ∧ Component digits

/-- What the grammar makes of a text: the version, or the error for the first thing that is
wrong with it. -/
def grammar (s : String) : Except VersionParseError String :=
  if s = "" then .error .empty
  else
    let parts := s.toList.splitOn '.'
    if parts.length ≠ 3 then .error (.invalidFormat s)
    else
      match parts.find? fun part => !decide (Component part) with
      | some part => .error (.nonNumericComponent (String.ofList part) s)
      | none => .ok s

/-- Of the three components of a text, the first that is not of digits is not a signed one. -/
def Unsigned (s : String) : Prop :=
  ∀ before part after, s.toList.splitOn '.' = before ++ part :: after →
    (before ++ part :: after).length = 3 → (∀ p ∈ before, Component p) → ¬ Signed part

/-! ## The parser -/

/-- What is refused is no component, with or without a sign. -/
theorem parseU32_eq_none_iff {part : List Char} :
    parseU32 part = none ↔ ¬ Component part ∧ ¬ Signed part := by
  unfold parseU32
  rw [← Option.not_isSome_iff_eq_none, Digits.parseUnsigned_isSome_iff, not_or]
  rfl

/-- A text with a sign is no component. -/
private theorem not_component_of_signed {part : List Char} (h : Signed part) :
    ¬ Component part := by
  obtain ⟨digits, rfl, -⟩ := h
  exact Digits.not_isNumber_plus

/-- The loop stops at the first part that the parser of numbers rejects. -/
private theorem checkParts_eq (raw : String) (parts : List (List Char)) :
    checkParts raw parts =
      match parts.find? fun part => (parseU32 part).isNone with
      | some part => .error (.nonNumericComponent (String.ofList part) raw)
      | none => .ok () := by
  induction parts with
  | nil => rfl
  | cons part parts ih =>
    unfold checkParts
    rw [List.find?_cons, ih]
    cases parseU32 part <;> rfl

/-- A text by the number of its components. -/
private theorem versionFromStr_eq (s : String) :
    versionFromStr s =
      if s = "" then .error .empty
      else if (s.toList.splitOn '.').length ≠ 3 then .error (.invalidFormat s)
      else
        match (s.toList.splitOn '.').find? fun part => (parseU32 part).isNone with
        | some part => .error (.nonNumericComponent (String.ofList part) s)
        | none => .ok s := by
  obtain ⟨hlength, hsame⟩ := List.splitn_eq_splitOn (a := '.') 3 s.toList
  unfold versionFromStr
  simp only [String.isEmpty_iff, hlength]
  by_cases hempty : s = ""
  · rw [if_pos hempty, if_pos hempty]
  · rw [if_neg hempty, if_neg hempty]
    -- with room for four pieces, three are three
    by_cases hthree : (s.toList.splitOn '.').length = 3
    · rw [if_neg (by omega), if_neg (by omega), hsame (by omega), checkParts_eq]
      cases (s.toList.splitOn '.').find? fun part => (parseU32 part).isNone <;> rfl
    · rw [if_pos (by omega), if_pos hthree]

/-- The error names the part, so the outcome tells what was found. -/
private theorem outcome_inj {s : String} {found found' : Option (List Char)} :
    (match found with
      | some part => Except.error (VersionParseError.nonNumericComponent (String.ofList part) s)
      | none => .ok s) =
      (match found' with
        | some part => Except.error (VersionParseError.nonNumericComponent (String.ofList part) s)
        | none => .ok s) ↔ found = found' := by
  constructor
  · intro h
    -- the error names the part, so it tells the parts apart
    cases found with
    | none =>
      cases found' with
      | none => rfl
      | some part => cases h
    | some part =>
      cases found' with
      | none => cases h
      | some part' =>
        simp only [Except.error.injEq, VersionParseError.nonNumericComponent.injEq,
          String.ofList_inj, and_true] at h
        rw [h]
  · rintro rfl
    rfl

/-- The parser follows the grammar exactly on the texts of which the first component that is
not of digits is not a number with a plus sign. -/
theorem versionFromStr_iff (s : String) : versionFromStr s = grammar s ↔ Unsigned s := by
  rw [versionFromStr_eq]
  unfold grammar
  by_cases hempty : s = ""
  · -- one component, which is empty
    subst hempty
    rw [if_pos rfl, if_pos rfl]
    refine ⟨fun _ before part after hsplit hlength => ?_, fun _ => rfl⟩
    rw [← hsplit] at hlength
    exact absurd hlength (by decide)
  · rw [if_neg hempty, if_neg hempty]
    by_cases hthree : (s.toList.splitOn '.').length = 3
    · rw [if_neg (not_not.mpr hthree)]
      simp only [if_neg (not_not.mpr hthree)]
      -- what the grammar accepts the code accepts too
      have hweaker : ∀ part, (parseU32 part).isNone = true → (!decide (Component part)) = true := by
        intro part h
        simpa using (parseU32_eq_none_iff.mp (Option.isNone_iff_eq_none.mp h)).1
      rw [outcome_inj, List.find?_eq_find?_iff hweaker]
      constructor
      · intro h before part after hsplit _ hbefore hsigned
        have hnot := not_component_of_signed hsigned
        have hnone := h before part after hsplit (fun p hp => by simpa using hbefore p hp)
          (by simpa using hnot)
        exact (parseU32_eq_none_iff.mp (Option.isNone_iff_eq_none.mp hnone)).2 hsigned
      · intro h before part after hsplit hbefore hpart
        have hsigned := h before part after hsplit (hsplit ▸ hthree)
          fun p hp => by simpa using hbefore p hp
        exact Option.isNone_iff_eq_none.mpr
          (parseU32_eq_none_iff.mpr ⟨by simpa using hpart, hsigned⟩)
    · rw [if_pos hthree]
      simp only [if_pos hthree]
      refine ⟨fun _ before part after hsplit hlength => ?_, fun _ => trivial⟩
      rw [← hsplit] at hlength
      exact absurd hlength hthree

/-- A version with a plus sign is accepted. -/
theorem versionFromStr_plus :
    versionFromStr "+1.2.3" = .ok "+1.2.3" ∧
      grammar "+1.2.3" = .error (.nonNumericComponent "+1" "+1.2.3") ∧
      versionFromStr "+1.2.3" ≠ grammar "+1.2.3" := by
  have hgrammar : grammar "+1.2.3" = .error (.nonNumericComponent "+1" "+1.2.3") := by
    have hparts : "+1.2.3".toList.splitOn '.' = [['+', '1'], ['2'], ['3']] := by decide
    -- the sign makes the first component no number of the grammar
    have hsign : decide (Component ['+', '1']) = false :=
      decide_eq_false Digits.not_isNumber_plus
    have hlength : [['+', '1'], ['2'], ['3']].length = 3 := rfl
    have hfind : [['+', '1'], ['2'], ['3']].find? (fun part => !decide (Component part)) =
        some ['+', '1'] := List.find?_cons_of_pos (by rw [hsign]; rfl)
    unfold grammar
    rw [if_neg (by decide)]
    simp only [hparts, hlength, hfind, ne_eq, not_true, if_false]
  refine ⟨rfl, hgrammar, fun h => ?_⟩
  rw [hgrammar] at h
  cases h

end Barqium.Native.PluginVersion
