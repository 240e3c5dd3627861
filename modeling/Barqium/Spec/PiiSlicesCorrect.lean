import Barqium.Spec.PiiCorrect

/-!
# Where the PII redaction cuts a text

`redact` cuts the text at the ends of the spans the detectors report, and a cut inside
a character panics. Every end is a boundary but one: the start of an e-mail is taken
to be one byte behind the beginning of the character before it.

## Key results

- `neverPanics_iff`: the spans are well cut and `redact` returns, if and only if the
  character before every reported local part has one byte.
-/

namespace Barqium.Native.Pii

open Text (byteLen charAt IsBoundary)

variable {unicode : Unicode} {text : List Char}

/-- The span is in range and begins and ends between two characters. -/
structure WellCut (text : List Char) (s : Span) : Prop where
  le : s.start ≤ s.stop
  stop_le : s.stop ≤ byteLen text
  start : IsBoundary text s.start
  stop : IsBoundary text s.stop

/-- The detectors report well cut spans only, and `redact` returns whatever UUIDs it
    draws. -/
structure NeverPanics (unicode : Unicode) (text : List Char) : Prop where
  emails : ∃ spans, detectEmail unicode text = some spans ∧ ∀ s ∈ spans, WellCut text s
  phones : ∃ spans, detectPhone text = some spans ∧ ∀ s ∈ spans, WellCut text s
  returns : ∀ uuids, (redact unicode text uuids).isSome

/-- Before every `@` whose domain has two bytes or more, the last character that cannot be
    part of the local part, if there is one, has one byte. -/
def ShortDelimiters (unicode : Unicode) (text : List Char) : Prop :=
  ∀ u d v right, text = u ++ d :: v ++ '@' :: right → isLocalChar unicode d = false →
    (∀ c ∈ v, isLocalChar unicode c = true) →
    2 ≤ byteLen (right.takeWhile (isDomainChar unicode)) → d.utf8Size = 1

/-! ## The span around an at sign -/

/-- The start of the local part as `detect_email` computes it. -/
def localStart (unicode : Unicode) (left : List Char) : Nat :=
  ((Text.rfind (fun c => !isLocalChar unicode c) left).map (· + 1)).getD 0

private theorem utf8Size_atSign : Char.utf8Size '@' = 1 := by decide

/-- The span around an `@` reaches from the computed start to the end of the domain. -/
private theorem emailAround_eq {left right : List Char} (htext : text = left ++ '@' :: right) :
    emailAround unicode text (byteLen left) = some ⟨localStart unicode left,
      byteLen left + 1 + byteLen (right.takeWhile (isDomainChar unicode))⟩ := by
  -- the two slices at the sign are on boundaries
  have hleft : Text.sliceTo text (byteLen left) = some left :=
    Text.sliceTo_eq_some.mpr ⟨'@' :: right, htext, rfl⟩
  have hright : Text.sliceFrom text (byteLen left + 1) = some right :=
    Text.sliceFrom_eq_some.mpr ⟨left ++ ['@'], by simp [htext], by simp [utf8Size_atSign]⟩
  have hlen : byteLen text = byteLen left + 1 + byteLen right := by
    rw [htext, Text.byteLen_append, Text.byteLen_cons, utf8Size_atSign]
    omega
  -- the domain ends before the first character that cannot be in one
  have hstop : ((Text.find (fun c => !isDomainChar unicode c) right).map
      (byteLen left + 1 + ·)).getD (byteLen text) =
        byteLen left + 1 + byteLen (right.takeWhile (isDomainChar unicode)) := by
    rw [← Text.find_not, hlen]
    cases Text.find (fun c => !isDomainChar unicode c) right <;> rfl
  unfold emailAround
  rw [hleft, hright]
  simp only [Option.bind_eq_bind, Option.bind_some, hstop]
  rfl

/-- A reported e-mail has an `@` in the text, and a domain of two bytes or more. -/
theorem EmailAt.exists_split {atSign : Nat} {s : Span} (h : EmailAt unicode text atSign s) :
    ∃ left right, text = left ++ '@' :: right ∧ s = ⟨localStart unicode left,
      byteLen left + 1 + byteLen (right.takeWhile (isDomainChar unicode))⟩ ∧
      2 ≤ byteLen (right.takeWhile (isDomainChar unicode)) := by
  -- the text up to the `@`, as the detector cuts it
  have heq := h.eq
  unfold emailAround at heq
  obtain ⟨left, hleft, -⟩ := Option.bind_eq_some_iff.mp heq
  obtain ⟨rest, htext, rfl⟩ := Text.sliceTo_eq_some.mp hleft
  have hchar := h.around.char
  rw [htext, Text.charAt_of_le (Nat.le_refl _), Nat.sub_self] at hchar
  cases rest with
  | nil => cases hchar
  | cons c right =>
    rw [charAt, if_pos c.utf8Size_pos] at hchar
    cases hchar
    have hspan := h.eq
    rw [emailAround_eq htext] at hspan
    cases hspan
    have hlt := h.lt_stop
    refine ⟨left, right, htext, rfl, ?_⟩
    simp only at hlt
    omega

variable (unicode) in
/-- An `@` at or behind offset `i` is the one that the search from `i` finds, or comes behind
    the end of its domain. -/
private theorem find_atSign {u rest : List Char} (hsplit : text = u ++ rest) {atSign : Nat}
    (hchar : charAt text atSign = some '@') (hle : byteLen u ≤ atSign) :
    ∃ found s, Text.find (· == '@') rest = some found ∧
      emailAround unicode text (byteLen u + found) = some s ∧
      (atSign = byteLen u + found ∨ s.stop ≤ atSign) := by
  have hlt := Text.lt_byteLen_of_charAt hchar
  rw [hsplit, Text.byteLen_append] at hlt
  -- the sign lies in the rest, so the search succeeds
  cases hfind : Text.find (· == '@') rest with
  | none =>
    obtain ⟨c, hc, hat⟩ := Text.exists_charAt_mid hle hlt []
    rw [List.append_nil, ← hsplit, hchar] at hat
    cases hat
    have hnone := Text.find_eq_none.mp hfind '@' hc
    cases hnone
  | some found =>
    obtain ⟨x, c, y, rfl, rfl, hc, hx⟩ := Text.find_eq_some hfind
    obtain rfl : c = '@' := by simpa using hc
    have htext : text = (u ++ x) ++ '@' :: y := by rw [hsplit, List.append_assoc]
    obtain ⟨s, hs, haround⟩ := exists_emailAround unicode htext
    rw [Text.byteLen_append] at hs haround
    refine ⟨byteLen x, s, rfl, hs, ?_⟩
    obtain hbefore | heq | hbehind := Nat.lt_trichotomy atSign (byteLen u + byteLen x)
    · -- before the `@` that is found there is none
      obtain ⟨c, hcx, hat⟩ := Text.exists_charAt_mid hle hbefore ('@' :: y)
      rw [← hsplit, hchar] at hat
      cases hat
      have hno := hx '@' hcx
      cases hno
    · exact Or.inl heq
    · right
      by_contra hin
      obtain ⟨c, hat, hdomain⟩ := haround.right atSign hbehind (by omega)
      rw [hchar] at hat
      cases hat
      exact ne_atSign_of_isDomainChar hdomain rfl

/-- Every `@` from offset `i` on is looked at, and its span is reported if it is long
    enough. -/
private theorem mem_emailsFrom {fuel i : Nat} {spans : List Span} {atSign : Nat} {s : Span}
    (h : emailsFrom unicode text fuel i = some spans) (hchar : charAt text atSign = some '@')
    (hi : i ≤ atSign) (hs : emailAround unicode text atSign = some s)
    (hlong : s.stop > atSign + 2 ∧ atSign > s.start) : s ∈ spans := by
  induction fuel generalizing i spans with
  | zero => cases h
  | succ fuel ih =>
    have hlt := Text.lt_byteLen_of_charAt hchar
    rw [emailsFrom, if_pos (by omega)] at h
    obtain ⟨rest, hrest, h⟩ := Option.bind_eq_some_iff.mp h
    obtain ⟨u, hsplit, rfl⟩ := Text.sliceFrom_eq_some.mp hrest
    obtain ⟨found, t, hfind, ht, hwhere⟩ := find_atSign unicode hsplit hchar hi
    rw [hfind] at h
    simp only [ht, Option.bind_eq_bind, Option.bind_some] at h
    obtain ⟨later, hlater, h⟩ := Option.bind_eq_some_iff.mp h
    -- the search finds this `@` now, or goes on before it
    rcases hwhere with rfl | hbehind
    · rw [ht] at hs
      cases hs
      rw [if_pos hlong] at h
      cases h
      exact List.mem_cons_self
    · have hmem := ih hlater hbehind
      split at h
      · cases h
        exact List.mem_cons_of_mem _ hmem
      · cases h
        exact hmem

/-! ## Spans that are well cut -/

/-- The computed start is a boundary unless the character before the local part is
    longer than one byte. -/
private theorem isBoundary_localStart {left rest : List Char} (htext : text = left ++ rest)
    (h : ∀ u d v, left = u ++ d :: v → isLocalChar unicode d = false →
      (∀ c ∈ v, isLocalChar unicode c = true) → d.utf8Size = 1) :
    IsBoundary text (localStart unicode left) := by
  unfold localStart
  cases hfind : Text.rfind (fun c => !isLocalChar unicode c) left with
  | none => exact ⟨[], text, rfl, rfl⟩
  | some n =>
    obtain ⟨u, d, v, rfl, rfl, hd, hv⟩ := Text.rfind_eq_some hfind
    have hone := h u d v rfl (by simpa using hd) fun c hc => by simpa using hv c hc
    exact ⟨u ++ [d], v ++ rest, by simp [htext], by simp [hone]⟩

/-- An address between delimiters of one byte is cut where characters begin and end. -/
theorem EmailAt.wellCut {atSign : Nat} {s : Span} (h : EmailAt unicode text atSign s)
    (hshort : ShortDelimiters unicode text) : WellCut text s := by
  have hstart := h.start_lt
  have hstop := h.lt_stop
  have hboundary : IsBoundary text s.stop := h.around.boundary
  refine ⟨by omega, hboundary.le, ?_, hboundary⟩
  obtain ⟨left, right, htext, rfl, hdomain⟩ := h.exists_split
  refine isBoundary_localStart htext fun u d v hleft hd hv => ?_
  exact hshort u d v right (by rw [htext, hleft]) hd hv hdomain

/-- The phone detector counts the bytes of the characters before an index. -/
private theorem mem_phonesFrom {fuel i : Nat} {spans : List Span}
    (h : phonesFrom text fuel i = some spans) {s : Span} (hs : s ∈ spans) :
    ∃ m n, m ≤ n ∧ s = ⟨byteLen (text.take m), byteLen (text.take n)⟩ := by
  -- both ends of a number are counted in whole characters
  induction fuel generalizing i spans with
  | zero => cases h
  | succ fuel ih =>
    rw [phonesFrom] at h
    split at h
    · cases h
      cases hs
    · split at h
      · obtain ⟨later, hlater, h⟩ := Option.bind_eq_some_iff.mp h
        split at h
        · cases h
          cases hs with
          | head => exact ⟨_, _, Nat.le_add_right _ _, rfl⟩
          | tail _ hs => exact ih hlater hs
        · cases h
          exact ih hlater hs
      · exact ih h hs

/-- A text is well cut between any two of its prefixes. -/
private theorem wellCut_take {m n : Nat} (h : m ≤ n) :
    WellCut text ⟨byteLen (text.take m), byteLen (text.take n)⟩ :=
  ⟨Text.byteLen_take_le h text, (Text.isBoundary_take text n).le, Text.isBoundary_take text m,
    Text.isBoundary_take text n⟩

/-- Well cut spans are redacted without a panic. -/
private theorem exists_pushesFrom (uuids : Nat → BitVec 128) {spans : List PiiSpan}
    (h : ∀ s ∈ spans, WellCut text s.span) (n : Nat) {cursor : Nat}
    (hcursor : IsBoundary text cursor) :
    ∃ pushed, pushesFrom text uuids n cursor spans = some pushed := by
  induction spans generalizing n cursor with
  | nil =>
    obtain ⟨u, rest, htext, hu⟩ := hcursor
    have hrest : Text.sliceFrom text cursor = some rest :=
      Text.sliceFrom_eq_some.mpr ⟨u, htext, hu⟩
    exact ⟨_, by rw [pushesFrom, hrest]; rfl⟩
  | cons s spans ih =>
    have hlater : ∀ t ∈ spans, WellCut text t.span := fun t ht => h t (List.mem_cons_of_mem s ht)
    have hspan := h s List.mem_cons_self
    rw [pushesFrom]
    split
    · exact ih hlater n hcursor
    · rename_i hstart
      -- the gap, the span and what comes behind it are cut at boundaries
      obtain ⟨before, hbefore⟩ := Text.exists_slice hcursor hspan.start (by omega)
      obtain ⟨original, horiginal⟩ := Text.exists_slice hspan.start hspan.stop hspan.le
      obtain ⟨rest, hrest⟩ := ih hlater (n + 1) hspan.stop
      exact ⟨_, by rw [hbefore, horiginal, hrest]; rfl⟩

/-- A longer character right before a reported local part makes the span begin inside it. -/
private theorem shortDelimiters_of_wellCut {spans : List Span}
    (hspans : detectEmail unicode text = some spans) (hcut : ∀ s ∈ spans, WellCut text s) :
    ShortDelimiters unicode text := by
  intro u d v right htext hd hv hdomain
  by_contra hlong
  have hpos := d.utf8Size_pos
  have hat : charAt text (byteLen (u ++ d :: v)) = some '@' := by
    rw [htext, Text.charAt_of_le (Nat.le_refl _), Nat.sub_self, charAt,
      if_pos (Char.utf8Size_pos _)]
  have hstart : localStart unicode (u ++ d :: v) = byteLen u + 1 := by
    have hlast : Text.rfind (fun c => !isLocalChar unicode c) (u ++ d :: v) = some (byteLen u) :=
      Text.rfind_of_last u (by simp [hd]) fun c hc => by simp [hv c hc]
    rw [localStart, hlast]
    rfl
  have hmem := mem_emailsFrom hspans hat (Nat.zero_le _) (emailAround_eq htext) (by
    simp only [hstart, Text.byteLen_append, Text.byteLen_cons]
    omega)
  -- the start is the second byte of `d`
  have hbound := (hcut _ hmem).start
  rw [hstart, htext, List.append_assoc] at hbound
  exact Text.not_isBoundary_inside u _ hlong hbound

/-- Where the detectors report well cut spans, the text is redacted. -/
private theorem redact_isSome {emails phones : List Span}
    (hemails : detectEmail unicode text = some emails)
    (hphones : detectPhone text = some phones) (hemailCut : ∀ s ∈ emails, WellCut text s)
    (hphoneCut : ∀ s ∈ phones, WellCut text s) (uuids : Nat → BitVec 128) :
    (redact unicode text uuids).isSome := by
  -- sorting changes nothing about the cuts
  have hall : ∀ s ∈ sortSpans (emails.map (PiiSpan.mk "EMAIL".toList) ++
      phones.map (PiiSpan.mk "PHONE".toList)), WellCut text s.span := by
    intro s hs
    rw [sortSpans, List.mem_insertionSort, List.mem_append, List.mem_map, List.mem_map] at hs
    rcases hs with ⟨span, hspan, rfl⟩ | ⟨span, hspan, rfl⟩
    · exact hemailCut span hspan
    · exact hphoneCut span hspan
  have hzero : IsBoundary text 0 := ⟨[], text, rfl, rfl⟩
  obtain ⟨pushed, hpushed⟩ := exists_pushesFrom uuids hall 0 hzero
  simp only [redact, pushes, allSpans, hemails, hphones, Option.bind_eq_bind, Option.bind_some,
    hpushed, Option.isSome_some]

/-- For every text: all spans of both detectors are in range and end between characters,
    and `redact` returns, if and only if no `@` with a domain of two bytes or more has
    a longer character right before the local part. -/
theorem neverPanics_iff (unicode : Unicode) (text : List Char) :
    NeverPanics unicode text ↔ ShortDelimiters unicode text := by
  constructor
  · rintro ⟨⟨spans, hspans, hcut⟩, -, -⟩
    exact shortDelimiters_of_wellCut hspans hcut
  · intro hshort
    obtain ⟨emails, hemails, hemail⟩ := exists_detectEmail unicode text
    obtain ⟨phones, hphones, -, -⟩ := exists_detectPhone text
    -- short delimiters keep the ends of an e-mail on boundaries
    have hemailCut : ∀ s ∈ emails, WellCut text s := by
      intro s hs
      obtain ⟨atSign, hat⟩ := hemail s hs
      exact hat.wellCut hshort
    have hphoneCut : ∀ s ∈ phones, WellCut text s := by
      intro s hs
      obtain ⟨m, n, hle, rfl⟩ := mem_phonesFrom hphones hs
      exact wellCut_take hle
    exact ⟨⟨emails, hemails, hemailCut⟩, ⟨phones, hphones, hphoneCut⟩,
      redact_isSome hemails hphones hemailCut hphoneCut⟩

/-- An address behind an opening quotation mark of three bytes is cut in its middle. -/
theorem quoted_address_panics :
    ¬ NeverPanics ascii "“a@b.co".toList ∧ redact ascii "“a@b.co".toList (fun _ => 0) = none := by
  have hnone : redact ascii "“a@b.co".toList (fun _ => 0) = none := by decide
  refine ⟨fun h => ?_, hnone⟩
  have hsome := h.returns fun _ => 0
  rw [hnone] at hsome
  cases hsome

end Barqium.Native.Pii
