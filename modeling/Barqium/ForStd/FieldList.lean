import Barqium.ForStd.List
import Mathlib.Data.List.DropRight

/-!
# Comma-separated lists in field values

A list in the value of a header field: its elements stand between commas, with optional
white space around them. Empty elements do not count.

## Key results

- `elements_of_plain`: a value without commas and white space is one element.
-/

namespace FieldList

/-- Optional white space. -/
def isSpace (c : Char) : Bool := c = ' ' || c = '\t'

def trim (t : List Char) : List Char := (t.dropWhile isSpace).rdropWhile isSpace

def elements (t : List Char) : List (List Char) :=
  ((t.splitOn ',').map trim).filter (· ≠ [])

example : elements "keep-alive, ,\tUpgrade ".toList = ["keep-alive".toList, "Upgrade".toList] := by
  decide

/-- A text without white space has nothing to trim. -/
theorem trim_of_plain {t : List Char} (h : ∀ c ∈ t, isSpace c = false) : trim t = t := by
  have hfront : t.dropWhile isSpace = t := by
    rw [List.dropWhile_eq_self_iff]
    intro hne
    rw [h _ (List.getElem_mem hne)]
    exact Bool.false_ne_true
  rw [trim, hfront, List.rdropWhile_eq_self_iff]
  intro hne
  rw [h _ (List.getLast_mem hne)]
  exact Bool.false_ne_true

/-- A text without commas and white space is one element. -/
theorem elements_of_plain {t : List Char} (hne : t ≠ []) (hcomma : ',' ∉ t)
    (hspace : ∀ c ∈ t, isSpace c = false) : elements t = [t] := by
  rw [elements, List.splitOn_eq_singleton hcomma, List.map_singleton, trim_of_plain hspace]
  simp [hne]

end FieldList
