import Barqium.ForStd.Xml
import Barqium.Native.Protocols

/-!
# The first child of a SOAP body

`extract_body_element` looks for the text `:Body>`, else for `<Body>`, and takes the name
behind the next `<` up to white space or `>`. It is the local name of the first child
only where that text ends the opening tag of the body, the name of the child ends so too,
and the body is not empty.

## Key results

- `extractBodyElement_eq_some_iff`: the texts for which a name is extracted
- `extractsChild_iff`: the envelopes whose first child is named right
-/

namespace Barqium.Native.Soap

/-! ## The scanner -/

/-- `rest` is what follows the first occurrence of `pat` in `t`. -/
def FollowsFirst (pat t rest : List Char) : Prop :=
  ∃ u, t = u ++ pat ++ rest ∧ ∀ v w, t = v ++ pat ++ w → u.length ≤ v.length

/-- A text with something behind the first `pat` contains `pat`. -/
theorem FollowsFirst.infix {pat t rest : List Char} (h : FollowsFirst pat t rest) : pat <:+: t := by
  obtain ⟨u, rfl, -⟩ := h
  exact ⟨u, rest, rfl⟩

/-- A pattern that does not stand in front occurs first where it does in the tail. -/
private theorem followsFirst_cons {pat rest : List Char} {c : Char} {t : List Char}
    (hpre : ¬ pat <+: c :: t) : FollowsFirst pat (c :: t) rest ↔ FollowsFirst pat t rest := by
  constructor
  · rintro ⟨u, hu, hfirst⟩
    -- the first occurrence is not at the start
    cases u with
    | nil => exact absurd ⟨rest, hu.symm⟩ hpre
    | cons d u =>
      obtain ⟨rfl, rfl⟩ := List.cons.inj hu
      refine ⟨u, rfl, fun v w hv => ?_⟩
      have hle := hfirst (c :: v) w (by rw [hv]; rfl)
      simpa using hle
  · rintro ⟨u, rfl, hfirst⟩
    refine ⟨c :: u, rfl, fun v w hv => ?_⟩
    cases v with
    | nil => exact absurd ⟨w, hv.symm⟩ hpre
    | cons d v =>
      have hle := hfirst v w (List.cons.inj hv).2
      simpa using hle

/-- A `pat` at the start of the text is the first one. -/
private theorem followsFirst_of_isPrefix {pat t rest : List Char} (h : pat <+: t) :
    FollowsFirst pat t rest ↔ t = pat ++ rest := by
  constructor
  · rintro ⟨u, hu, hfirst⟩
    obtain ⟨w, hw⟩ := h
    -- no occurrence is before the one in front
    have hle := hfirst [] w hw.symm
    obtain rfl := List.length_eq_zero_iff.mp (Nat.le_zero.mp hle)
    exact hu
  · intro ht
    exact ⟨[], ht, fun _ _ _ => Nat.zero_le _⟩

/-- The search returns what stands behind the first `pat`. -/
private theorem afterFirst_eq_some {pat t rest : List Char} :
    afterFirst pat t = some rest ↔ FollowsFirst pat t rest := by
  -- at the start, or further on
  induction t with
  | nil =>
    rw [afterFirst, Text.stripPrefix_eq_some]
    constructor
    · intro h
      exact ⟨[], h, fun _ _ _ => Nat.zero_le _⟩
    · rintro ⟨u, hu, -⟩
      obtain ⟨rfl, -⟩ := List.append_eq_nil_iff.mp (List.append_eq_nil_iff.mp hu.symm).1
      exact hu
  | cons c t ih =>
    by_cases hpre : pat <+: c :: t
    · obtain ⟨w, hw⟩ := hpre
      rw [followsFirst_of_isPrefix ⟨w, hw⟩, afterFirst, Text.stripPrefix_eq_some.mpr hw.symm, ← hw]
      simp
    · have hnone : Text.stripPrefix pat (c :: t) = none := by
        rw [Option.eq_none_iff_forall_ne_some]
        intro w hw
        exact hpre ⟨w, (Text.stripPrefix_eq_some.mp hw).symm⟩
      rw [followsFirst_cons hpre, ← ih, afterFirst, hnone]

/-- A text that contains `pat` has a first one. -/
private theorem exists_followsFirst {pat t : List Char} (h : pat <:+: t) :
    ∃ rest, FollowsFirst pat t rest := by
  induction t with
  | nil =>
    obtain rfl := List.infix_nil.mp h
    exact ⟨[], (followsFirst_of_isPrefix List.prefix_rfl).mpr rfl⟩
  | cons c t ih =>
    -- it occurs here, or further behind
    by_cases hpre : pat <+: c :: t
    · obtain ⟨w, hw⟩ := hpre
      exact ⟨w, (followsFirst_of_isPrefix ⟨w, hw⟩).mpr hw.symm⟩
    · obtain ⟨rest, hrest⟩ := ih ((List.infix_cons_iff.mp h).resolve_left hpre)
      exact ⟨rest, (followsFirst_cons hpre).mpr hrest⟩

/-- The search fails exactly on a text without `pat`. -/
private theorem afterFirst_eq_none {pat t : List Char} :
    afterFirst pat t = none ↔ ¬ pat <:+: t := by
  rw [Option.eq_none_iff_forall_ne_some]
  simp only [ne_eq, afterFirst_eq_some]
  exact ⟨fun h hinfix => (exists_followsFirst hinfix).elim h, fun h _ hrest => h hrest.infix⟩

/-- The scanner goes on with `after`. -/
def Scans (t after : List Char) : Prop :=
  FollowsFirst ":Body>".toList t after ∨
    (¬ ":Body>".toList <:+: t ∧ FollowsFirst "<Body>".toList t after)

/-- The characters that end a name for the scanner. -/
def endsName (c : Char) : Bool := c = '>' || isAsciiWhitespace c

/-- Behind white space `after` begins with `<` and a name of local part `n`, and the name ends
    with white space or `>`. -/
def ReadsName (n after : List Char) : Prop :=
  ∃ s p c tail, (∀ d ∈ s, Text.isWhitespace d) ∧ after = s ++ '<' :: (p ++ n ++ c :: tail) ∧
    endsName c ∧ (∀ d ∈ p ++ n, ¬ endsName d) ∧ (p = [] ∨ ∃ u, p = u ++ [':']) ∧ ':' ∉ n

/-- Cutting at the first character with `p` keeps the longest run without such characters. -/
private theorem findIdx?_take {p : Char → Bool} {t full : List Char} :
    (t.findIdx? p).map t.take = some full ↔
      ∃ c tail, t = full ++ c :: tail ∧ p c ∧ ∀ d ∈ full, ¬ p d := by
  -- by the first character
  induction t generalizing full with
  | nil => simp
  | cons e t ih =>
    rw [List.findIdx?_cons]
    by_cases he : p e
    · rw [if_pos he]
      constructor
      · intro h
        obtain rfl := Option.some.inj h
        exact ⟨e, t, rfl, he, by simp⟩
      · rintro ⟨c, tail, ht, -, hfull⟩
        cases full with
        | nil => rfl
        | cons d full =>
          obtain ⟨rfl, -⟩ := List.cons.inj ht
          exact absurd he (hfull e List.mem_cons_self)
    · rw [if_neg he, Option.map_map]
      have hmap : (t.findIdx? p).map ((e :: t).take ∘ (· + 1)) =
          ((t.findIdx? p).map t.take).map (e :: ·) := by
        rw [Option.map_map]
        rfl
      rw [hmap, Option.map_eq_some_iff]
      constructor
      · rintro ⟨u, hu, rfl⟩
        obtain ⟨c, tail, rfl, hc, hall⟩ := ih.mp hu
        exact ⟨c, tail, rfl, hc, List.forall_mem_cons.mpr ⟨he, hall⟩⟩
      · rintro ⟨c, tail, ht, hc, hall⟩
        cases full with
        | nil =>
          obtain ⟨rfl, -⟩ := List.cons.inj ht
          exact absurd hc he
        | cons d full =>
          obtain ⟨rfl, htail⟩ := List.cons.inj ht
          exact ⟨full, ih.mpr ⟨c, tail, htail, hc, (List.forall_mem_cons.mp hall).2⟩, rfl⟩

/-- The last part between colons. -/
theorem localPart_eq_iff {full n : List Char} :
    (full.reverse.takeWhile (· ≠ ':')).reverse = n ↔
      ∃ p, full = p ++ n ∧ (p = [] ∨ ∃ u, p = u ++ [':']) ∧ ':' ∉ n := by
  constructor
  · rintro rfl
    refine ⟨(full.reverse.dropWhile (· ≠ ':')).reverse, ?_, ?_, ?_⟩
    · rw [← List.reverse_append, List.takeWhile_append_dropWhile, List.reverse_reverse]
    · cases hdrop : full.reverse.dropWhile (· ≠ ':') with
      | nil => exact .inl rfl
      | cons c u =>
        have hc := List.head?_dropWhile_not (fun c => decide (c ≠ ':')) full.reverse
        rw [hdrop] at hc
        refine .inr ⟨u.reverse, ?_⟩
        simp at hc
        rw [hc, List.reverse_cons]
    · intro hmem
      have hne := List.mem_takeWhile_imp (List.mem_reverse.mp hmem)
      simp at hne
  · rintro ⟨p, rfl, hp, hn⟩
    -- behind the last colon nothing is a colon
    have hkeep : ∀ c ∈ n.reverse, decide (c ≠ ':') = true := by
      intro c hc
      rw [decide_eq_true_eq]
      rintro rfl
      exact hn (List.mem_reverse.mp hc)
    rw [List.reverse_append, List.takeWhile_append_of_pos hkeep]
    rcases hp with rfl | ⟨u, rfl⟩
    · simp
    · simp

/-- The name that the scanner takes from what follows the opening tag. -/
def scanName (afterBody : List Char) : Option (List Char) := do
  let tagStart ← Text.stripPrefix ['<'] (afterBody.dropWhile Text.isWhitespace)
  let fullTag ← (tagStart.findIdx? endsName).map tagStart.take
  return (fullTag.reverse.takeWhile (· ≠ ':')).reverse

/-- The name scan of `first_body_child_name` reads a name as `ReadsName` says. -/
private theorem scanName_eq_some {after n : List Char} :
    scanName after = some n ↔ ReadsName n after := by
  -- white space is skipped up to the bracket
  have hopen (x : List Char) : Text.stripPrefix ['<'] (after.dropWhile Text.isWhitespace) = some x ↔
      ∃ s, (∀ d ∈ s, Text.isWhitespace d) ∧ after = s ++ '<' :: x := by
    rw [Text.stripPrefix_eq_some, List.singleton_append, List.dropWhile_eq_cons_iff (by decide)]
  simp only [scanName, Option.bind_eq_bind, Option.bind_eq_some_iff, hopen, findIdx?_take,
    Option.pure_def, Option.some.injEq, localPart_eq_iff]
  constructor
  · rintro ⟨x, ⟨s, hs, rfl⟩, full, ⟨c, tail, rfl, hc, hall⟩, p, rfl, hp, hn⟩
    exact ⟨s, p, c, tail, hs, rfl, hc, hall, hp, hn⟩
  · rintro ⟨s, p, c, tail, hs, rfl, hc, hall, hp, hn⟩
    exact ⟨_, ⟨s, hs, rfl⟩, p ++ n, ⟨c, tail, rfl, hc, hall⟩, p, rfl, hp, hn⟩

/-- The two searches for the body tag, the prefixed one first, are `Scans`. -/
private theorem or_afterFirst_eq_some {t after : List Char} :
    (afterFirst ":Body>".toList t).or (afterFirst "<Body>".toList t) = some after ↔
      Scans t after := by
  rw [Option.or_eq_some_iff, afterFirst_eq_some, afterFirst_eq_none, afterFirst_eq_some, Scans]

/-- A name is extracted from the place that the scanner goes on with. -/
theorem extractBodyElement_eq_some_iff {text : String} {n : List Char} :
    extractBodyElement text.toUTF8 = some (String.ofList n) ↔
      ∃ after, Scans text.toList after ∧ ReadsName n after := by
  -- the code, as one search and one scan
  have hscan : extractBodyElement text.toUTF8 =
      ((afterFirst ":Body>".toList text.toList).or (afterFirst "<Body>".toList text.toList)).bind
        fun after => (scanName after).map String.ofList := by
    unfold extractBodyElement
    rw [Text.fromUTF8?_toUTF8, Option.bind_eq_bind, Option.bind_some]
    apply Option.bind_congr
    intro after _
    unfold scanName
    cases Text.stripPrefix ['<'] (after.dropWhile Text.isWhitespace) with
    | none => rfl
    | some tagStart =>
      change (tagStart.findIdx? endsName).bind _ =
        (((tagStart.findIdx? endsName).map tagStart.take).bind _).map String.ofList
      cases tagStart.findIdx? endsName <;> rfl
  rw [hscan, Option.bind_eq_some_iff]
  simp only [or_afterFirst_eq_some, Option.map_eq_some_iff, scanName_eq_some,
    String.ofList_inj, exists_eq_right]

/-! ## Envelopes -/

private theorem isName_body : Xml.IsName "Body".toList :=
  ⟨⟨'B', "ody".toList, rfl, by decide⟩, List.forall_iff_forall_mem.mp (by decide)⟩

/-- The text begins with a start tag or an end tag of the body. -/
def StartsBodyTag (t : List Char) : Prop :=
  Xml.StartsElement "Body".toList t ∨
    ∃ q, Xml.QName q "Body".toList ∧ Xml.StartsEndTag q t

/-- An envelope cut at the opening tag of its body: no other tag of a body is in front of it,
    and white space may follow. -/
structure EnvelopeText where
  pre : List Char
  pfx : List Char
  ws : List Char
  rest : List Char
  isPrefix : Xml.IsPrefix pfx
  noBodyTag : ∀ t, t <:+ pre → ¬ StartsBodyTag t
  isWhitespace : ∀ c ∈ ws, Text.isWhitespace c

namespace EnvelopeText

variable (e : EnvelopeText)

/-- The name of the body element. -/
def bodyName : List Char := e.pfx ++ "Body".toList

def text : String :=
  String.ofList (e.pre ++ '<' :: (e.bodyName ++ '>' :: (e.ws ++ e.rest)))

/-- The local name of the first child is extracted, and nothing from an empty body. -/
def ExtractsChild : Prop :=
  (∀ n, Xml.StartsElement n e.rest →
    extractBodyElement e.text.toUTF8 = some (String.ofList n)) ∧
  (Xml.StartsEndTag e.bodyName e.rest → extractBodyElement e.text.toUTF8 = none)

/-- The text begins with the tag of an empty element that is closed right behind the name. -/
def ClosesAtName (t : List Char) : Prop :=
  ∃ q n u, Xml.QName q n ∧ t = '<' :: (q ++ '/' :: '>' :: u)

/-- The place behind the first `:Body>`, or else the first `<Body>`, gives the child away. If it
    is the end of the opening tag, the body is not empty and the child is not closed right
    behind its name. If it is another place, what stands there is read as the same name, and
    as no name if the body is empty. -/
def ScansRight : Prop :=
  ∃ after, Scans e.text.toList after ∧
    (after = e.ws ++ e.rest →
      ¬ ClosesAtName e.rest ∧ ¬ Xml.StartsEndTag e.bodyName e.rest) ∧
    (after ≠ e.ws ++ e.rest →
      (∀ n, Xml.StartsElement n e.rest → ReadsName n after) ∧
      (Xml.StartsEndTag e.bodyName e.rest → ∀ n, ¬ ReadsName n after))

variable {e}

/-- The scanner finds the opening tag or a text in front of it. -/
private theorem exists_scans (e : EnvelopeText) : ∃ after, Scans e.text.toList after := by
  by_cases hcolon : ":Body>".toList <:+: e.text.toList
  · obtain ⟨after, hafter⟩ := exists_followsFirst hcolon
    exact ⟨after, .inl hafter⟩
  · have hopen : "<Body>".toList <:+: e.text.toList := by
      rw [text, String.toList_ofList, bodyName] at hcolon ⊢
      rcases e.isPrefix with hp | ⟨p, -, hp⟩
      · rw [hp]
        exact ⟨e.pre, e.ws ++ e.rest, by simp⟩
      · -- a prefix would bring a colon
        rw [hp] at hcolon
        exact absurd ⟨e.pre ++ '<' :: p, e.ws ++ e.rest, by simp⟩ hcolon
    obtain ⟨after, hafter⟩ := exists_followsFirst hopen
    exact ⟨after, .inr ⟨hcolon, hafter⟩⟩

/-- A text is read as one name only. -/
private theorem readsName_unique {after m n : List Char} (hm : ReadsName m after)
    (hn : ReadsName n after) : m = n :=
  Option.some.inj ((scanName_eq_some.mpr hm).symm.trans (scanName_eq_some.mpr hn))

/-- The scan starts at one place. -/
private theorem scans_unique {t after after' : List Char} (h : Scans t after)
    (h' : Scans t after') :
    after = after' :=
  Option.some.inj ((or_afterFirst_eq_some.mpr h).symm.trans (or_afterFirst_eq_some.mpr h'))

/-! ## What the scanner reads -/

/-- White space ends a name. -/
private theorem endsName_of_isSpace {c : Char} (h : Xml.isSpace c) : endsName c := by
  simp only [Xml.isSpace, Bool.or_eq_true, decide_eq_true_eq] at h
  rcases h with ((rfl | rfl) | rfl) | rfl <;> rfl

/-- Neither a name character nor a colon ends a name. -/
private theorem not_endsName {c : Char} (h : Xml.isNameChar c ∨ c = ':') : ¬ endsName c := by
  rcases h with h | rfl
  · intro hends
    -- none of the characters that end a name belongs to one
    have hne (d : Char) (hd : Xml.isNameChar d = false) : c ≠ d := Xml.isNameChar_ne h hd
    simp only [endsName, isAsciiWhitespace, Bool.or_eq_true, decide_eq_true_eq, beq_iff_eq] at hends
    rcases hends with rfl | (((rfl | rfl) | rfl) | rfl) | hfeed
    · exact hne '>' (by decide) rfl
    · exact hne ' ' (by decide) rfl
    · exact hne '\t' (by decide) rfl
    · exact hne '\n' (by decide) rfl
    · exact hne '\r' (by decide) rfl
    · exact hne (Char.ofNat 0xC) (by decide) (Char.ext hfeed)
  · decide

/-- A prefix is empty or ends in a colon. -/
private theorem exists_append_colon {p : List Char} (hp : Xml.IsPrefix p) :
    p = [] ∨ ∃ u, p = u ++ [':'] :=
  hp.imp_right fun ⟨u, _, hu⟩ => ⟨u, hu⟩

/-- A name that ends as the scanner expects is read. -/
private theorem readsName_of_qname {s q n tail : List Char} {c : Char}
    (hs : ∀ d ∈ s, Text.isWhitespace d)
    (hq : Xml.QName q n) (hc : endsName c) : ReadsName n (s ++ '<' :: (q ++ c :: tail)) := by
  have hall : ∀ d ∈ q, ¬ endsName d := fun d hd => not_endsName (hq.mem hd)
  obtain ⟨p, hp, hn, rfl⟩ := hq
  exact ⟨s, p, c, tail, hs, rfl, hc, hall, exists_append_colon hp, hn.colon_notMem⟩

/-- The slash that closes an element right behind its name is read as part of the name. -/
private theorem readsName_of_slash {s q n u : List Char} (hs : ∀ d ∈ s, Text.isWhitespace d)
    (hq : Xml.QName q n) : ReadsName (n ++ ['/']) (s ++ '<' :: (q ++ '/' :: '>' :: u)) := by
  -- the slash does not end the name, so it is read as part of it
  have hall : ∀ d ∈ q ++ ['/'], ¬ endsName d := by
    intro d hd
    rcases List.mem_append.mp hd with hd | hd
    · exact not_endsName (hq.mem hd)
    · rw [List.mem_singleton.mp hd]
      decide
  obtain ⟨p, hp, hn, rfl⟩ := hq
  refine ⟨s, p, '>', u, hs, by simp, rfl, ?_, exists_append_colon hp, ?_⟩
  · rwa [← List.append_assoc]
  · simp [hn.colon_notMem]

/-- The end tag of the body is read as a name. -/
private theorem exists_readsName_of_endTag {e : EnvelopeText}
    (h : Xml.StartsEndTag e.bodyName e.rest) :
    ∃ n, ReadsName n (e.ws ++ e.rest) := by
  obtain ⟨s, r, hs, hrest⟩ := h
  obtain ⟨c, tail, hc, htail⟩ : ∃ c tail, endsName c ∧ s ++ '>' :: r = c :: tail := by
    cases s with
    | nil => exact ⟨'>', r, rfl, rfl⟩
    | cons c s => exact ⟨c, s ++ '>' :: r, endsName_of_isSpace (hs c List.mem_cons_self), rfl⟩
  -- neither the slash nor the name ends a name
  have hall : ∀ d ∈ '/' :: e.bodyName, ¬ endsName d := by
    have hname : Xml.QName e.bodyName "Body".toList := ⟨e.pfx, e.isPrefix, isName_body, rfl⟩
    refine List.forall_mem_cons.mpr ⟨by decide, fun d hd => not_endsName (hname.mem hd)⟩
  rw [hrest, htail]
  rcases e.isPrefix with hp | ⟨p, -, hp⟩
  · rw [bodyName, hp] at hall
    exact ⟨"/Body".toList, e.ws, [], c, tail, e.isWhitespace, by rw [bodyName, hp]; rfl, hc,
      hall, .inl rfl, by decide⟩
  · -- the slash is in front of the prefix
    refine ⟨"Body".toList, e.ws, '/' :: e.pfx, c, tail, e.isWhitespace, rfl, hc, hall, ?_,
      by decide⟩
    exact .inr ⟨'/' :: p, by rw [hp]; rfl⟩

/-- Behind the opening tag the scanner is right about a child whose name ends with white space
    or `>`, and about no other child and no empty body. -/
theorem reads_rest_iff :
    ((∀ n, Xml.StartsElement n e.rest → ReadsName n (e.ws ++ e.rest)) ∧
      (Xml.StartsEndTag e.bodyName e.rest → ∀ n, ¬ ReadsName n (e.ws ++ e.rest))) ↔
    ¬ ClosesAtName e.rest ∧ ¬ Xml.StartsEndTag e.bodyName e.rest := by
  constructor
  · rintro ⟨helement, hempty⟩
    constructor
    · rintro ⟨q, n, u, hq, hrest⟩
      have htag : Xml.StartTag q ('<' :: (q ++ ['/', '>'])) :=
        ⟨[], [], ['/', '>'], .nil, by simp [Xml.Spaces], .inr rfl, rfl⟩
      have hread := helement n ⟨q, _, u, hq, htag, by rw [hrest]; simp⟩
      -- the name that is read has the slash behind it
      rw [hrest] at hread
      have hlen := congrArg List.length
        (readsName_unique hread (readsName_of_slash e.isWhitespace hq))
      simp at hlen
    · intro hend
      obtain ⟨n, hn⟩ := exists_readsName_of_endTag hend
      exact hempty hend n hn
  · rintro ⟨hopen, hchild⟩
    refine ⟨?_, fun hend => absurd hend hchild⟩
    rintro n ⟨q, tag, r, hq, htag, hrest⟩
    rcases htag.exists_tail with ⟨c, u, rfl, hc⟩ | rfl
    · have hends : endsName c := by
        rcases hc with hc | rfl
        · exact endsName_of_isSpace hc
        · rfl
      have hread : ReadsName n (_ ++ '<' :: (q ++ c :: (u ++ r))) :=
        readsName_of_qname e.isWhitespace hq hends
      rw [hrest]
      simpa using hread
    · exact absurd ⟨q, n, r, hq, by rw [hrest]; simp⟩ hopen

/-! ## Envelopes that are scanned right -/

/-- The first child is extracted exactly from the envelopes that are scanned right. -/
theorem extractsChild_iff (e : EnvelopeText) : e.ExtractsChild ↔ e.ScansRight := by
  obtain ⟨after, hafter⟩ := exists_scans e
  -- the code reads a name from where the scan ends
  have hsome (n : List Char) :
      extractBodyElement e.text.toUTF8 = some (String.ofList n) ↔ ReadsName n after := by
    rw [extractBodyElement_eq_some_iff]
    constructor
    · rintro ⟨after', hafter', hn⟩
      rwa [scans_unique hafter hafter']
    · exact fun hn => ⟨after, hafter, hn⟩
  have hnone : extractBodyElement e.text.toUTF8 = none ↔ ∀ n, ¬ ReadsName n after := by
    rw [Option.eq_none_iff_forall_ne_some]
    constructor
    · exact fun h n hn => h _ ((hsome n).mpr hn)
    · intro h x hx
      rw [← String.ofList_toList (s := x), hsome] at hx
      exact h _ hx
  -- what is to be shown, said of that place
  have hreads : e.ExtractsChild ↔
      (∀ n, Xml.StartsElement n e.rest → ReadsName n after) ∧
      (Xml.StartsEndTag e.bodyName e.rest → ∀ n, ¬ ReadsName n after) := by
    simp only [ExtractsChild, hsome, hnone]
  rw [hreads]
  constructor
  · intro h
    refine ⟨after, hafter, fun haligned => ?_, fun _ => h⟩
    rw [haligned] at h
    exact reads_rest_iff.mp h
  · rintro ⟨after', hafter', hright, hother⟩
    obtain rfl := scans_unique hafter hafter'
    by_cases haligned : after = e.ws ++ e.rest
    · rw [haligned]
      exact reads_rest_iff.mpr (hright haligned)
    · exact hother haligned

/-- The start of a body tag contains its name. -/
private theorem infix_of_startsBodyTag {t : List Char} (h : StartsBodyTag t) :
    "Body".toList <:+: t := by
  rcases h with ⟨q, tag, r, ⟨p, -, -, rfl⟩, ⟨attributes, s, close, -, -, -, rfl⟩, rfl⟩ |
    ⟨q, ⟨p, -, -, rfl⟩, s, r, -, rfl⟩
  · exact ⟨'<' :: p, attributes ++ (s ++ close) ++ r, by simp⟩
  · exact ⟨'<' :: '/' :: p, s ++ '>' :: r, by simp⟩

/-- A body with one empty element. -/
def selfClosed : EnvelopeText where
  pre := "<soap:Envelope>".toList
  pfx := "soap:".toList
  ws := "\n".toList
  rest := "<Ping/></soap:Body></soap:Envelope>".toList
  isPrefix := .inr ⟨"soap".toList, ⟨⟨'s', "oap".toList, rfl, by decide⟩,
    List.forall_iff_forall_mem.mp (by decide)⟩, rfl⟩
  noBodyTag t ht hbody :=
    absurd ((infix_of_startsBodyTag hbody).trans ht.isInfix) (by decide)
  isWhitespace := List.forall_iff_forall_mem.mp (by decide)

/-- The slash of an empty element becomes part of its name. -/
theorem selfClosed_name : ¬ selfClosed.ExtractsChild := by
  intro h
  have hname : Xml.IsName "Ping".toList :=
    ⟨⟨'P', "ing".toList, rfl, by decide⟩, List.forall_iff_forall_mem.mp (by decide)⟩
  have htag : Xml.StartTag "Ping".toList "<Ping/>".toList :=
    ⟨[], [], ['/', '>'], .nil, by simp [Xml.Spaces], .inr rfl, rfl⟩
  -- the child is `Ping`
  have hchild : extractBodyElement selfClosed.text.toUTF8 = some (String.ofList "Ping".toList) :=
    h.1 _ ⟨"Ping".toList, _, "</soap:Body></soap:Envelope>".toList, ⟨[], .inl rfl, hname, rfl⟩,
      htag, rfl⟩
  -- but the slash is read as part of the name
  have hread : extractBodyElement selfClosed.text.toUTF8 = some "Ping/" := by
    unfold extractBodyElement
    rw [Text.fromUTF8?_toUTF8]
    decide
  rw [hread] at hchild
  exact absurd hchild (by decide)

end EnvelopeText

end Barqium.Native.Soap
