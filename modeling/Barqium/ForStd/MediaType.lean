import Barqium.ForStd.List
import Barqium.ForStd.Text

/-!
# Parameters of a media type

A media type is followed by parameters, each behind a semicolon with optional white space
around it. A value is a token or a quoted string, and a quoted string may have semicolons
in it.

## Key results

- `Parameter.trim_content`: trimming leaves a parameter without the white space around it.
-/

namespace MediaType

/-- The characters of a token. -/
def tokenChars : List Char :=
  ("!#$%&'*+-.^_`|~0123456789ABCDEFGHIJKLMNOPQRSTUVWXYZ" ++ "abcdefghijklmnopqrstuvwxyz").toList

structure IsToken (t : List Char) : Prop where
  ne_nil : t ≠ []
  chars : ∀ c ∈ t, c ∈ tokenChars

/-- Optional white space. -/
def Spaces (t : List Char) : Prop := ∀ c ∈ t, c = ' ' ∨ c = '\t'

/-- The characters that stand for themselves in a quoted string. -/
def isQdText (c : Char) : Bool :=
  c = '\t' || c = ' ' || c = '!' || (0x23 ≤ c.val && c.val ≤ 0x5B) ||
    (0x5D ≤ c.val && c.val ≤ 0x7E) || 0x80 ≤ c.val

/-- The characters that may stand behind a backslash. -/
def isPairText (c : Char) : Bool := c = '\t' || (0x20 ≤ c.val && c.val ≠ 0x7F)

/-- What may stand between the quotes of a quoted string. -/
inductive Quoted : List Char → Prop where
  | nil : Quoted []
  | text {c : Char} {t : List Char} (hc : isQdText c) (ht : Quoted t) : Quoted (c :: t)
  | pair {c : Char} {t : List Char} (hc : isPairText c) (ht : Quoted t) : Quoted ('\\' :: c :: t)

inductive IsValue : List Char → Prop where
  | token {t : List Char} (h : IsToken t) : IsValue t
  | quoted {t : List Char} (h : Quoted t) : IsValue ('"' :: (t ++ ['"']))

/-- A parameter with the white space around the semicolon in front of it. -/
structure Parameter where
  before : List Char
  behind : List Char
  name : List Char
  value : List Char
  spaces : Spaces before ∧ Spaces behind
  isToken : IsToken name
  isValue : IsValue value

namespace Parameter

variable (p : Parameter)

/-- Name and value. -/
def content : List Char := p.name ++ '=' :: p.value

def text : List Char := p.before ++ ';' :: (p.behind ++ p.content)

end Parameter

/-! ## White space -/

/-- Spaces and tabs are white space. -/
theorem Spaces.isWhitespace {t : List Char} (h : Spaces t) : ∀ c ∈ t, Text.isWhitespace c := by
  intro c hc
  rcases h c hc with rfl | rfl
  · decide
  · decide

/-- A token has no white space. -/
theorem isWhitespace_of_mem_tokenChars : ∀ c ∈ tokenChars, Text.isWhitespace c = false :=
  List.forall_iff_forall_mem.mp (by decide)

/-- A value ends with a character that is no white space. -/
theorem IsValue.exists_last {t : List Char} (h : IsValue t) :
    ∃ u c, t = u ++ [c] ∧ Text.isWhitespace c = false := by
  cases h with
  | token h =>
    refine ⟨t.dropLast, t.getLast h.ne_nil, (List.dropLast_concat_getLast h.ne_nil).symm, ?_⟩
    exact isWhitespace_of_mem_tokenChars _ (h.chars _ (List.getLast_mem h.ne_nil))
  | @quoted t => exact ⟨'"' :: t, '"', rfl, by decide⟩

/-- Trimming leaves a parameter without the white space around it. -/
theorem Parameter.trim_content (p : Parameter) {s s' : List Char}
    (hs : Spaces s) (hs' : Spaces s') : Text.trim (s ++ (p.content ++ s')) = p.content := by
  obtain ⟨c, u, hname⟩ := List.exists_cons_of_ne_nil p.isToken.ne_nil
  obtain ⟨v, d, hvalue, hd⟩ := p.isValue.exists_last
  have hc : Text.isWhitespace c = false := by
    apply isWhitespace_of_mem_tokenChars
    apply p.isToken.chars
    rw [hname]
    exact List.mem_cons_self
  have hfirst : p.content = c :: (u ++ '=' :: p.value) := by
    rw [content, hname, List.cons_append]
  have hlast : p.content = p.name ++ '=' :: v ++ [d] := by
    rw [content, hvalue, List.append_assoc, List.cons_append]
  exact Text.trim_eq hs.isWhitespace hfirst hc hlast hd hs'.isWhitespace

end MediaType
