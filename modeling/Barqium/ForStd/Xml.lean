import Barqium.ForStd.List
import Mathlib.Data.List.Basic
import Mathlib.Data.List.Infix

/-!
# Character data and markup of XML

Characters that could be taken for markup are written as the predefined entities. A text
with markup is cut at its tags: what stands between the brackets of each, and the character
data up to the next one. Names, start tags and end tags have the shapes of the grammar,
where a name is one without colons and may stand behind a prefix.

## Key results

- `escape_isEscaped`: escaped text has no markup, and decoding it gives the text back.
- `pieces_render`: a text put together from tags and character data is cut at these tags.
- `StartTag.exists_tail`: what follows the name of a start tag.
-/

namespace Xml

/-! ## Entities -/

/-- The predefined entities with the characters they stand for. -/
def entities : List (Char × List Char) :=
  [('&', "&amp;".toList), ('<', "&lt;".toList), ('>', "&gt;".toList), ('"', "&quot;".toList),
    ('\'', "&apos;".toList)]

def escapeChar (c : Char) : List Char := (entities.lookup c).getD [c]

/-- Each character that has an entity is replaced by it. -/
def escape (t : List Char) : List Char := t.flatMap escapeChar

/-- Each entity is replaced by its character. -/
def unescape : List Char → List Char
  | '&' :: 'a' :: 'm' :: 'p' :: ';' :: t => '&' :: unescape t
  | '&' :: 'l' :: 't' :: ';' :: t => '<' :: unescape t
  | '&' :: 'g' :: 't' :: ';' :: t => '>' :: unescape t
  | '&' :: 'q' :: 'u' :: 'o' :: 't' :: ';' :: t => '"' :: unescape t
  | '&' :: 'a' :: 'p' :: 'o' :: 's' :: ';' :: t => '\'' :: unescape t
  | c :: t => c :: unescape t
  | [] => []

/-- `e` is the text `t` with nothing in it that could be markup, and can be read back. -/
structure IsEscaped (t e : List Char) : Prop where
  onePass : e = t.flatMap escapeChar
  plain : ∀ c ∈ ['<', '>', '"', '\''], c ∉ e
  entity : ∀ u v, e = u ++ '&' :: v → ∃ p ∈ entities, p.2 <+: '&' :: v
  decodes : unescape e = t

/-- A character has an entity or stands for itself. -/
theorem escapeChar_cases (c : Char) :
    (c, escapeChar c) ∈ entities ∨ (c ∉ ['&', '<', '>', '"', '\''] ∧ escapeChar c = [c]) := by
  by_cases hc : c ∈ ['&', '<', '>', '"', '\'']
  · have hall : ∀ c ∈ ['&', '<', '>', '"', '\''], (c, escapeChar c) ∈ entities :=
      List.forall_iff_forall_mem.mp (by decide)
    exact .inl (hall c hc)
  · refine .inr ⟨hc, ?_⟩
    -- the table of entities has no other character
    have hkeys : ∀ p ∈ entities, p.1 ∈ ['&', '<', '>', '"', '\''] := by decide
    have hnone : entities.lookup c = none := by
      rw [List.lookup_eq_none_iff]
      intro p hp
      rw [bne_iff_ne]
      rintro rfl
      exact hc (hkeys p hp)
    rw [escapeChar, hnone, Option.getD_none]

/-- A character that begins no entity is read as it is. -/
theorem unescape_cons {c : Char} (h : c ≠ '&') (t : List Char) :
    unescape (c :: t) = c :: unescape t := by
  conv_lhs => unfold unescape
  split <;> simp_all

/-- Decoding an entity gives its character. -/
theorem unescape_entity {p : Char × List Char} (h : p ∈ entities) (t : List Char) :
    unescape (p.2 ++ t) = p.1 :: unescape t := by
  simp only [entities, List.mem_cons, List.not_mem_nil, or_false] at h
  rcases h with rfl | rfl | rfl | rfl | rfl <;> rfl

/-- Escaped text is read as it was. -/
theorem unescape_escape (t : List Char) : unescape (escape t) = t := by
  induction t with
  | nil => rfl
  | cons c t ih =>
    rw [escape, List.flatMap_cons]
    rcases escapeChar_cases c with hentity | ⟨hc, hself⟩
    · exact (unescape_entity hentity _).trans (by rw [← escape, ih])
    · have hamp : c ≠ '&' := fun heq => hc (heq ▸ List.mem_cons_self)
      rw [hself, List.singleton_append, unescape_cons hamp, ← escape, ih]

/-- Of an entity the ampersand is the only character that is escaped itself. -/
theorem entity_plain : ∀ p ∈ entities, ∀ c ∈ ['<', '>', '"', '\''], c ∉ p.2 := by
  simp [entities]

/-- Escaping leaves none of the characters of markup. -/
theorem notMem_escape {c : Char} (hc : c ∈ ['<', '>', '"', '\'']) (t : List Char) :
    c ∉ escape t := by
  intro hmem
  obtain ⟨d, -, hd⟩ := List.mem_flatMap.mp hmem
  rcases escapeChar_cases d with hentity | ⟨hplain, hself⟩
  · exact entity_plain _ hentity c hc hd
  · rw [hself, List.mem_singleton] at hd
    subst hd
    exact hplain (List.mem_cons_of_mem _ hc)

/-- An entity has its ampersand in front and no other. -/
theorem entity_tails : ∀ p ∈ entities, ∀ z ∈ p.2.tails, z.head? = some '&' → z = p.2 := by
  decide

/-- Every ampersand of escaped text begins an entity. -/
theorem exists_entity {t u v : List Char} (h : escape t = u ++ '&' :: v) :
    ∃ p ∈ entities, p.2 <+: '&' :: v := by
  induction t generalizing u with
  | nil => simp [escape] at h
  | cons c t ih =>
    rw [escape, List.flatMap_cons, ← escape] at h
    obtain ⟨w, rfl, hw⟩ | ⟨w, hw, hrest⟩ := List.append_eq_append_iff.mp h
    · exact ih hw
    · rcases escapeChar_cases c with hentity | ⟨hplain, hself⟩
      · cases w with
        | nil => exact ih (u := []) hrest.symm
        | cons d w =>
          rw [List.cons_append] at hrest
          obtain ⟨rfl, rfl⟩ := List.cons.inj hrest
          -- the ampersand is the one of this entity
          have htail : '&' :: w = escapeChar c := entity_tails _ hentity _
            (List.mem_tails _ _ |>.mpr ⟨u, hw.symm⟩) rfl
          exact ⟨_, hentity, escape t, by rw [← htail]; rfl⟩
      · -- a character that stands for itself is no ampersand
        rw [hself] at hw
        cases w with
        | nil => exact ih (u := []) hrest.symm
        | cons d w =>
          rw [List.cons_append] at hrest
          obtain ⟨rfl, -⟩ := List.cons.inj hrest
          have hmem : '&' ∈ [c] := hw ▸ List.mem_append_right u List.mem_cons_self
          obtain rfl := List.mem_singleton.mp hmem
          exact absurd List.mem_cons_self hplain

/-- Escaping gives escaped text. -/
theorem escape_isEscaped (t : List Char) : IsEscaped t (escape t) where
  onePass := rfl
  plain _ hc := notMem_escape hc t
  entity _ _ := exists_entity
  decodes := unescape_escape t

/-! ## Tags -/

/-- Tags, each with the character data behind it. -/
def pieces (t : List Char) : List (List Char × List Char) :=
  (t.splitOn '<').tail.map fun piece =>
    (piece.takeWhile (· ≠ '>'), (piece.dropWhile (· ≠ '>')).tail)

/-- The markup of a text: its tags. -/
def markup (t : List Char) : List (List Char) := (pieces t).map Prod.fst

/-- The character data behind a tag. -/
def textOf (tag t : List Char) : Option (List Char) := (pieces t).lookup tag

def render (ps : List (List Char × List Char)) : List Char :=
  ps.flatMap fun p => '<' :: (p.1 ++ '>' :: p.2)

/-- The text with these tags and character data. -/
def renderText (ps : List (String × String)) : String :=
  ps.foldr (fun p s => "<" ++ p.1 ++ ">" ++ p.2 ++ s) ""

/-- Rendering of strings is that of their characters. -/
theorem toList_renderText (ps : List (String × String)) :
    (renderText ps).toList = render (ps.map fun p => (p.1.toList, p.2.toList)) := by
  induction ps with
  | nil => rfl
  | cons p ps ih =>
    rw [renderText, List.foldr_cons, ← renderText, String.toList_append, ih, render, render,
      List.map_cons, List.flatMap_cons]
    simp [String.toList_append]

/-- A tag without brackets inside, and character data without a tag. -/
def IsPiece (p : List Char × List Char) : Prop := '<' ∉ p.1 ∧ '>' ∉ p.1 ∧ '<' ∉ p.2

/-- Rendered pieces are cut apart at their opening brackets. -/
theorem splitOn_render {ps : List (List Char × List Char)} (h : ∀ p ∈ ps, IsPiece p) :
    (render ps).splitOn '<' = [] :: ps.map fun p => p.1 ++ '>' :: p.2 := by
  induction ps with
  | nil => rfl
  | cons p ps ih =>
    obtain ⟨⟨htag, -, htext⟩, hps⟩ := List.forall_mem_cons.mp h
    have hpiece : '<' ∉ p.1 ++ '>' :: p.2 := by
      simp [htag, htext]
    rw [render, List.flatMap_cons, ← render, List.cons_append,
      List.splitOn_cons_eq_if_modifyHead, if_pos (beq_self_eq_true '<'),
      List.splitOn_append_of_not_mem hpiece, ih hps, List.modifyHead_cons, List.append_nil,
      List.map_cons]

/-- Rendered pieces are read back. -/
theorem pieces_render {ps : List (List Char × List Char)} (h : ∀ p ∈ ps, IsPiece p) :
    pieces (render ps) = ps := by
  rw [pieces, splitOn_render h, List.tail_cons, List.map_map]
  conv_rhs => rw [← List.map_id ps]
  apply List.map_congr_left
  intro p hp
  obtain ⟨-, htag, -⟩ := h p hp
  -- the name of a tag ends at the first closing bracket
  have hstop : ∀ c ∈ p.1, decide (c ≠ '>') = true := by
    intro c hc
    rw [decide_eq_true_eq]
    rintro rfl
    exact htag hc
  rw [Function.comp_apply, List.takeWhile_append_of_pos hstop,
    List.dropWhile_append_of_pos hstop, List.takeWhile_cons_of_neg (by simp),
    List.dropWhile_cons_of_neg (by simp), List.append_nil, List.tail_cons]
  rfl

/-! ## Names -/

/-- The characters a name can begin with, without the colon. -/
def isNameStart (c : Char) : Bool :=
  c.isAlpha || c = '_' || (0xC0 ≤ c.val && c.val ≤ 0xD6) || (0xD8 ≤ c.val && c.val ≤ 0xF6) ||
    (0xF8 ≤ c.val && c.val ≤ 0x2FF) || (0x370 ≤ c.val && c.val ≤ 0x37D) ||
    (0x37F ≤ c.val && c.val ≤ 0x1FFF) || (0x200C ≤ c.val && c.val ≤ 0x200D) ||
    (0x2070 ≤ c.val && c.val ≤ 0x218F) || (0x2C00 ≤ c.val && c.val ≤ 0x2FEF) ||
    (0x3001 ≤ c.val && c.val ≤ 0xD7FF) || (0xF900 ≤ c.val && c.val ≤ 0xFDCF) ||
    (0xFDF0 ≤ c.val && c.val ≤ 0xFFFD) || (0x10000 ≤ c.val && c.val ≤ 0xEFFFF)

def isNameChar (c : Char) : Bool :=
  isNameStart c || c = '-' || c = '.' || c.isDigit || c.val == 0xB7 ||
    (0x300 ≤ c.val && c.val ≤ 0x36F) || (0x203F ≤ c.val && c.val ≤ 0x2040)

/-- A name without colons. -/
structure IsName (t : List Char) : Prop where
  start : ∃ c u, t = c :: u ∧ isNameStart c
  chars : ∀ c ∈ t, isNameChar c

/-- Nothing, or a name with a colon behind it. -/
def IsPrefix (t : List Char) : Prop := t = [] ∨ ∃ p, IsName p ∧ t = p ++ [':']

/-- The name `q` has the local part `n`. -/
def QName (q n : List Char) : Prop := ∃ p, IsPrefix p ∧ IsName n ∧ q = p ++ n

/-! ## Start tags and end tags -/

/-- The white space of the grammar. -/
def isSpace (c : Char) : Bool := c = ' ' || c = '\t' || c = '\r' || c = '\n'

def Spaces (t : List Char) : Prop := ∀ c ∈ t, isSpace c

/-- Attributes, each with white space in front and its value in quotes. -/
inductive Attributes : List Char → Prop where
  | nil : Attributes []
  | cons {s name n before behind value rest : List Char} {quote : Char} (hne : s ≠ [])
      (hs : Spaces s) (hname : QName name n) (hbefore : Spaces before) (hbehind : Spaces behind)
      (hquote : quote = '"' ∨ quote = '\'') (hvalue : quote ∉ value ∧ '<' ∉ value)
      (hrest : Attributes rest) :
      Attributes (s ++ name ++ before ++ '=' :: behind ++ quote :: value ++ quote :: rest)

/-- A start tag, or the tag of an empty element, with the name `q`. -/
def StartTag (q t : List Char) : Prop :=
  ∃ attributes s close, Attributes attributes ∧ Spaces s ∧
    (close = ['>'] ∨ close = ['/', '>']) ∧ t = '<' :: (q ++ (attributes ++ (s ++ close)))

/-- The text begins with a start tag of local name `n`. -/
def StartsElement (n t : List Char) : Prop :=
  ∃ q tag rest, QName q n ∧ StartTag q tag ∧ t = tag ++ rest

/-- The text begins with the end tag of the name `q`. -/
def StartsEndTag (q t : List Char) : Prop :=
  ∃ s rest, Spaces s ∧ t = '<' :: '/' :: (q ++ (s ++ '>' :: rest))

/-- A character of a name is none that is not. -/
theorem isNameChar_ne {c d : Char} (hc : isNameChar c) (hd : isNameChar d = false) : c ≠ d := by
  rintro rfl
  rw [hc] at hd
  cases hd

/-- A name has no colon in it. -/
theorem IsName.colon_notMem {t : List Char} (h : IsName t) : ':' ∉ t := fun hmem =>
  isNameChar_ne (h.chars _ hmem) (by decide) rfl

/-- A qualified name has name characters and a colon. -/
theorem QName.mem {q n : List Char} (h : QName q n) {c : Char} (hc : c ∈ q) :
    isNameChar c ∨ c = ':' := by
  obtain ⟨p, hp, hn, rfl⟩ := h
  rcases List.mem_append.mp hc with hc | hc
  · rcases hp with rfl | ⟨p, hp, rfl⟩
    · cases hc
    · rcases List.mem_append.mp hc with hc | hc
      · exact .inl (hp.chars c hc)
      · exact .inr (List.mem_singleton.mp hc)
  · exact .inl (hn.chars c hc)

/-- Attributes begin with white space. -/
theorem Attributes.exists_cons {t : List Char} (h : Attributes t) :
    t = [] ∨ ∃ c u, t = c :: u ∧ isSpace c := by
  cases h with
  | nil => exact .inl rfl
  | @cons s name n before behind value rest quote hne hs =>
    obtain ⟨c, s, rfl⟩ := List.exists_cons_of_ne_nil hne
    exact .inr ⟨c, _, rfl, hs c List.mem_cons_self⟩

/-- Behind the name of a start tag comes white space or the end of the tag. -/
theorem StartTag.exists_tail {q t : List Char} (h : StartTag q t) :
    (∃ c u, t = '<' :: (q ++ c :: u) ∧ (isSpace c ∨ c = '>')) ∨
      t = '<' :: (q ++ ['/', '>']) := by
  obtain ⟨attributes, s, close, hattributes, hs, hclose, rfl⟩ := h
  rcases hattributes.exists_cons with rfl | ⟨c, u, rfl, hc⟩
  · cases s with
    | nil =>
      rcases hclose with rfl | rfl
      · exact .inl ⟨'>', [], rfl, .inr rfl⟩
      · exact .inr rfl
    | cons c s => exact .inl ⟨c, s ++ close, rfl, .inl (hs c List.mem_cons_self)⟩
  · exact .inl ⟨c, u ++ (s ++ close), rfl, .inl hc⟩

end Xml
