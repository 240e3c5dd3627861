import Barqium.Spec.PiiDetectorsCorrect

/-!
# Correctness of the PII redaction

The text that `redact` returns is the given text with tokens in the place of some spans and
all else copied. `redact` is looked at as the pieces it pushes to that text: what it copies are
the gaps between the spans that the loop chooses, and restoring is a replacement of one token
after the other, in a text that holds tokens and values already put back.

## Key results

- `replaced_redact`: the returned text, by the spans that the loop chooses.
- `noLeak_iff_nested`: when no byte of a reported span is copied to the returned text.
- `restore_redact`: restoring gives back the text.
-/

namespace Barqium.Native.Pii

open Text (byteLen charAt)

variable {unicode : Unicode} {text : List Char}

/-! ## The returned text -/

/-- `out` is the text from the byte `cursor` on with a token in the place of each of the spans
    and all else copied. The tokens are made of the UUIDs from the `n`-th on. -/
inductive Replaced (text : List Char) (uuids : Nat → BitVec 128) :
    Nat → Nat → List PiiSpan → List Char → Prop
  | rest {n cursor : Nat} {rest : List Char} (hrest : Text.sliceFrom text cursor = some rest) :
      Replaced text uuids n cursor [] rest
  | token {n cursor : Nat} {s : PiiSpan} {spans : List PiiSpan} {before out : List Char}
      (hbefore : Text.slice text cursor s.span.start = some before)
      (hout : Replaced text uuids (n + 1) s.span.stop spans out) :
      Replaced text uuids n cursor (s :: spans) (before ++ makeToken s.label (uuids n) ++ out)

/-- The spans of both detectors. -/
def reported (unicode : Unicode) (text : List Char) : List Span :=
  (detectEmail unicode text).getD [] ++ (detectPhone text).getD []

/-- The returned text is the given one with tokens in the place of reported spans, and every
    byte of a reported span lies in one of these. -/
def NoLeak (unicode : Unicode) (text : List Char) (uuids : Nat → BitVec 128)
    (r : RedactedText) : Prop :=
  ∃ kept, (∀ k ∈ kept, k ∈ (allSpans unicode text).getD []) ∧
    Replaced text uuids 0 0 kept r.redacted ∧
    ∀ s ∈ reported unicode text, ∀ b, s.Covers b → ∃ k ∈ kept, k.span.Covers b

/-- Behind the last span the rest of the text is copied. -/
private theorem pushesFrom_nil {uuids : Nat → BitVec 128} {n cursor : Nat} {pushed : List Push}
    (h : pushesFrom text uuids n cursor [] = some pushed) :
    ∃ u rest, text = u ++ rest ∧ byteLen u = cursor ∧ pushed = [.copied cursor rest] := by
  rw [pushesFrom] at h
  obtain ⟨rest, hrest, heq⟩ := Option.bind_eq_some_iff.mp h
  cases heq
  obtain ⟨u, htext, hu⟩ := Text.sliceFrom_eq_some.mp hrest
  exact ⟨u, rest, htext, hu, rfl⟩

/-- One pass of the loop: the span is passed over, or what is before it is copied and
    a token takes its place. -/
private theorem pushesFrom_cons {uuids : Nat → BitVec 128} {n cursor : Nat} {s : PiiSpan}
    {spans : List PiiSpan} {pushed : List Push}
    (h : pushesFrom text uuids n cursor (s :: spans) = some pushed) :
    (s.span.start < cursor ∧ pushesFrom text uuids n cursor spans = some pushed) ∨
    (cursor ≤ s.span.start ∧ ∃ u before original v rest,
      text = u ++ before ++ original ++ v ∧ byteLen u = cursor ∧
      byteLen (u ++ before) = s.span.start ∧ byteLen (u ++ before ++ original) = s.span.stop ∧
      pushesFrom text uuids (n + 1) s.span.stop spans = some rest ∧
      pushed =
        .copied cursor before :: .token (makeToken s.label (uuids n)) original :: rest) := by
  rw [pushesFrom] at h
  by_cases hskip : s.span.start < cursor
  · rw [if_pos hskip] at h
    exact Or.inl ⟨hskip, h⟩
  · rw [if_neg hskip] at h
    obtain ⟨before, hbefore, h⟩ := Option.bind_eq_some_iff.mp h
    obtain ⟨original, horiginal, h⟩ := Option.bind_eq_some_iff.mp h
    obtain ⟨rest, hrest, heq⟩ := Option.bind_eq_some_iff.mp h
    cases heq
    obtain ⟨u, v, huv, hu, hlen⟩ := Text.slice_eq_some.mp hbefore
    obtain ⟨u', v', huv', hu', hlen'⟩ := Text.slice_eq_some.mp horiginal
    -- both slices are cut at the start of the span
    have hsplit : u' ++ (original ++ v') = (u ++ before) ++ v := by
      rw [← List.append_assoc, ← huv', huv]
    obtain ⟨rfl, -⟩ := Text.append_inj_byteLen hsplit (hu'.trans hlen.symm)
    exact Or.inr ⟨by omega, u, before, original, v', rest, huv', hu, hlen, hlen', hrest, rfl⟩

/-- What the loop pushes is the text behind the cursor with tokens in the place of the spans
    it chooses. -/
private theorem replaced_pushesFrom {uuids : Nat → BitVec 128} {n cursor : Nat}
    {spans : List PiiSpan}
    {pushed : List Push} (h : pushesFrom text uuids n cursor spans = some pushed) :
    Replaced text uuids n cursor (Span.choose PiiSpan.span cursor spans)
      (pushed.flatMap Push.chars) := by
  -- span by span, with the cursor behind the last one replaced
  induction spans generalizing n cursor pushed with
  | nil =>
    obtain ⟨u, rest, htext, hu, rfl⟩ := pushesFrom_nil h
    rw [List.flatMap_cons, List.flatMap_nil, List.append_nil]
    exact .rest (Text.sliceFrom_eq_some.mpr ⟨u, htext, hu⟩)
  | cons s spans ih =>
    rw [Span.choose]
    obtain ⟨hskip, hrest⟩ |
      ⟨hle, u, before, original, v, rest, htext, hu, hstart, -, hrest, rfl⟩ := pushesFrom_cons h
    · -- a span that is passed over leaves no trace
      rw [if_pos hskip]
      exact ih hrest
    · rw [if_neg (Nat.not_lt.mpr hle), List.flatMap_cons, List.flatMap_cons, ← List.append_assoc]
      refine .token (Text.slice_eq_some.mpr ⟨u, original ++ v, ?_, hu, hstart⟩) (ih hrest)
      rw [htext, List.append_assoc]
      rfl

/-- What stands in the place of spans are tokens of disjoint ones, in their order. -/
theorem Replaced.pairwise {uuids : Nat → BitVec 128} {n cursor : Nat} {spans : List PiiSpan}
    {out : List Char} (h : Replaced text uuids n cursor spans out)
    (hpos : ∀ s ∈ spans, s.span.start ≤ s.span.stop) :
    (spans.Pairwise fun a c => a.span.Before c.span) ∧ ∀ s ∈ spans, cursor ≤ s.span.start := by
  induction h with
  | rest hrest => exact ⟨List.Pairwise.nil, by simp⟩
  | @token n cursor s spans before out hbefore hout ih =>
    obtain ⟨hpair, hlater⟩ := ih fun t ht => hpos t (List.mem_cons_of_mem s ht)
    -- the text between cursor and span puts the span behind the cursor
    obtain ⟨u, v, -, hu, hlen⟩ := Text.slice_eq_some.mp hbefore
    rw [Text.byteLen_append] at hlen
    have hspan := hpos s List.mem_cons_self
    refine ⟨List.pairwise_cons.mpr ⟨hlater, hpair⟩, fun t ht => ?_⟩
    cases List.mem_cons.mp ht with
    | inl heq => subst heq; omega
    | inr ht' =>
      have := hlater t ht'
      omega

/-! ## Leaks -/

variable {l kept : List PiiSpan} {s t : PiiSpan}

def IsEmail (unicode : Unicode) (text : List Char) (s : PiiSpan) : Prop :=
  s.label = "EMAIL".toList ∧ ∃ atSign, EmailAt unicode text atSign s.span

def IsPhone (text : List Char) (s : PiiSpan) : Prop :=
  s.label = "PHONE".toList ∧ PhoneSpan text s.span

/-- A span is not both an address and a number. -/
theorem IsEmail.not_isPhone (h : IsEmail unicode text s) : ¬ IsPhone text s := by
  intro hphone
  have heq := h.1.symm.trans hphone.1
  revert heq
  decide

/-- An address that covers the at sign of another one is that one. -/
theorem IsEmail.eq_of_covers {atSign : Nat} (hs : s.label = "EMAIL".toList)
    (hat : EmailAt unicode text atSign s.span) (ht : IsEmail unicode text t)
    (hcov : t.span.Covers atSign) : t = s := by
  obtain ⟨hlabel, q, hq⟩ := ht
  -- an address has one at sign, and the at sign determines the address
  have hpq := hq.atSign_unique hcov hat.around.char
  subst hpq
  have hspan := hq.eq.symm.trans hat.eq
  obtain ⟨label, span⟩ := s
  obtain ⟨label', span'⟩ := t
  cases hspan
  cases hs
  cases hlabel
  rfl

/-- A number has no at sign. -/
theorem PhoneSpan.not_covers_atSign {span : Span} (h : PhoneSpan text span) {b : Nat}
    (hchar : charAt text b = some '@') : ¬ span.Covers b := by
  intro hcov
  obtain ⟨c, hc, hphone⟩ := h.chars b hcov
  rw [hchar] at hc
  cases hc
  revert hphone
  decide

/-- What is known of the spans the detectors report together. -/
structure Detected (unicode : Unicode) (text : List Char) (l : List PiiSpan) : Prop where
  kind : ∀ s ∈ l, IsEmail unicode text s ∨ IsPhone text s
  phone_eq : ∀ s ∈ l, ∀ t ∈ l, IsPhone text s → IsPhone text t → ∀ b, s.span.Covers b →
    t.span.Covers b → s = t

/-- A detected span covers something. -/
theorem Detected.start_lt (h : Detected unicode text l) (hs : s ∈ l) :
    s.span.start < s.span.stop := by
  cases h.kind s hs with
  | inl hemail =>
    obtain ⟨_, p, hp⟩ := hemail
    have := hp.start_lt
    have := hp.lt_stop
    omega
  | inr hphone => exact hphone.2.start_lt

/-- Disjoint spans of `l` that cover every span of it. -/
structure Covering (l kept : List PiiSpan) : Prop where
  mem : ∀ k ∈ kept, k ∈ l
  disjoint : kept.Pairwise fun a c => a.span.Before c.span
  covers : ∀ s ∈ l, ∀ b, s.span.Covers b → ∃ k ∈ kept, k.span.Covers b

/-- Every e-mail is kept: nothing else has its `@`. -/
theorem Covering.email_mem (hcov : Covering l kept) (hdet : Detected unicode text l) (hs : s ∈ l)
    (hemail : IsEmail unicode text s) : s ∈ kept := by
  obtain ⟨hlabel, p, hp⟩ := hemail
  have hlt := hp.lt_stop
  have hcovers : s.span.Covers p := ⟨Nat.le_of_lt hp.start_lt, by omega⟩
  obtain ⟨k, hk, hkp⟩ := hcov.covers s hs p hcovers
  cases hdet.kind k (hcov.mem k hk) with
  | inl hkemail =>
    have heq := IsEmail.eq_of_covers hlabel hp hkemail hkp
    exact heq ▸ hk
  | inr hkphone => exact absurd hkp (hkphone.2.not_covers_atSign hp.around.char)

/-- A phone number that shares a byte with a kept e-mail is inside it. The bytes of
    the number would otherwise go on into another kept e-mail next to it. -/
theorem Covering.phone_inside (hcov : Covering l kept) (hdet : Detected unicode text l)
    (hs : s ∈ l) (hemail : IsEmail unicode text s) (ht : t ∈ l) (hphone : IsPhone text t) {x : Nat}
    (hsx : s.span.Covers x) (htx : t.span.Covers x) : t.span.Inside s.span := by
  -- the e-mail is kept, and the number, which shares a byte, is not
  have hskept := hcov.email_mem hdet hs hemail
  have hnot : t ∉ kept := by
    intro htkept
    have heq := Span.eq_of_covers PiiSpan.span hcov.disjoint hskept htkept hsx htx
    exact hemail.not_isPhone (heq ▸ hphone)
  obtain ⟨-, p, hp⟩ := hemail
  -- every byte of the number is in a kept e-mail, since no other number has it
  have hneighbour : ∀ b, t.span.Covers b →
      ∃ k ∈ kept, k.span.Covers b ∧ ∃ q, EmailAt unicode text q k.span := by
    intro b hb
    obtain ⟨k, hk, hkb⟩ := hcov.covers t ht b hb
    cases hdet.kind k (hcov.mem k hk) with
    | inl hkemail => exact ⟨k, hk, hkb, hkemail.2⟩
    | inr hkphone =>
      have heq := hdet.phone_eq k (hcov.mem k hk) t ht hkphone hphone b hkb hb
      exact absurd (heq ▸ hk) hnot
  have hsx1 := hsx.1
  have hsx2 := hsx.2
  have htx1 := htx.1
  have htx2 := htx.2
  refine ⟨?_, ?_⟩
  · -- the e-mail of the byte before `s` is `s` itself or ends where `s` begins
    by_contra hlt
    obtain ⟨k, hk, ⟨hk1, hk2⟩, q, hq⟩ :=
      hneighbour (s.span.start - 1) ⟨by omega, by omega⟩
    by_cases hshare : s.span.start < k.span.stop
    · have heq := Span.eq_of_covers PiiSpan.span hcov.disjoint hk hskept
        (b := s.span.start) ⟨by omega, hshare⟩ ⟨Nat.le_refl _, by omega⟩
      subst heq
      omega
    · exact hq.not_adjacent hp (by omega)
  · -- and likewise for the byte behind it
    by_contra hlt
    obtain ⟨k, hk, ⟨hk1, hk2⟩, q, hq⟩ := hneighbour s.span.stop ⟨by omega, by omega⟩
    by_cases hshare : k.span.start < s.span.stop
    · have heq := Span.eq_of_covers PiiSpan.span hcov.disjoint hk hskept
        (b := s.span.stop - 1) ⟨by omega, by omega⟩ ⟨by omega, by omega⟩
      subst heq
      omega
    · exact hp.not_adjacent hq (by omega)

/-- Where the chosen spans cover all others, overlapping spans are nested. -/
theorem Covering.nested (hcov : Covering l kept) (hdet : Detected unicode text l) :
    Span.Nested PiiSpan.span l := by
  intro s hs t ht b hsb htb
  -- two e-mails or two numbers that share a byte are one
  cases hdet.kind s hs with
  | inl hsemail =>
    cases hdet.kind t ht with
    | inl htemail =>
      have heq := Span.eq_of_covers PiiSpan.span hcov.disjoint (hcov.email_mem hdet hs hsemail)
        (hcov.email_mem hdet ht htemail) hsb htb
      exact Or.inl (heq ▸ ⟨Nat.le_refl _, Nat.le_refl _⟩)
    | inr htphone => exact Or.inr (hcov.phone_inside hdet hs hsemail ht htphone hsb htb)
  | inr hsphone =>
    cases hdet.kind t ht with
    | inl htemail => exact Or.inl (hcov.phone_inside hdet ht htemail hs hsphone htb hsb)
    | inr htphone =>
      have heq := hdet.phone_eq s hs t ht hsphone htphone b hsb htb
      exact Or.inl (heq ▸ ⟨Nat.le_refl _, Nat.le_refl _⟩)

instance : Std.Total fun a b : PiiSpan => a.span.Order b.span where
  total a b := by
    unfold Span.Order
    omega

instance : IsTrans PiiSpan fun a b => a.span.Order b.span where
  trans a b c hab hbc := by
    unfold Span.Order at *
    omega

/-- The detectors return, and what is known of their spans. -/
private theorem exists_allSpans (unicode : Unicode) (text : List Char) :
    ∃ l, allSpans unicode text = some l ∧ Detected unicode text l ∧
      reported unicode text = l.map PiiSpan.span := by
  obtain ⟨emails, hemails, hemail⟩ := exists_detectEmail unicode text
  obtain ⟨phones, hphones, hphone, hpair⟩ := exists_detectPhone text
  refine ⟨emails.map (PiiSpan.mk "EMAIL".toList) ++ phones.map (PiiSpan.mk "PHONE".toList),
    by simp only [allSpans, hemails, hphones]; rfl, ⟨?_, ?_⟩, ?_⟩
  · intro s hs
    cases List.mem_append.mp hs with
    | inl h =>
      obtain ⟨span, hspan, rfl⟩ := List.mem_map.mp h
      exact Or.inl ⟨rfl, hemail span hspan⟩
    | inr h =>
      obtain ⟨span, hspan, rfl⟩ := List.mem_map.mp h
      exact Or.inr ⟨rfl, hphone span hspan⟩
  · -- a span with the label `PHONE` comes from the second detector
    have hmem : ∀ s ∈ emails.map (PiiSpan.mk "EMAIL".toList) ++
        phones.map (PiiSpan.mk "PHONE".toList), IsPhone text s →
        ∃ span ∈ phones, s = ⟨"PHONE".toList, span⟩ := by
      intro s hs hlabel
      cases List.mem_append.mp hs with
      | inl h =>
        obtain ⟨span, hspan, rfl⟩ := List.mem_map.mp h
        exact absurd hlabel (IsEmail.not_isPhone ⟨rfl, hemail span hspan⟩)
      | inr h =>
        obtain ⟨span, hspan, rfl⟩ := List.mem_map.mp h
        exact ⟨span, hspan, rfl⟩
    intro s hs t ht hsp htp b hsb htb
    obtain ⟨span, hspan, rfl⟩ := hmem s hs hsp
    obtain ⟨span', hspan', rfl⟩ := hmem t ht htp
    -- numbers do not overlap
    have heq := Span.eq_of_covers id hpair hspan hspan' hsb htb
    rw [heq]
  · simp [reported, hemails, hphones, Function.comp_def]

/-- Of the spans that `redact` sorts, those that the loop chooses have tokens in the returned
    text. -/
theorem replaced_redact {uuids : Nat → BitVec 128} {r : RedactedText}
    (h : redact unicode text uuids = some r) (hl : allSpans unicode text = some l) :
    Replaced text uuids 0 0 (Span.choose PiiSpan.span 0 (sortSpans l)) r.redacted := by
  obtain ⟨pushed, hpushed, heq⟩ := Option.bind_eq_some_iff.mp h
  cases heq
  have hfrom : pushesFrom text uuids 0 0 (sortSpans l) = some pushed := by
    simpa [pushes, hl] using hpushed
  exact replaced_pushesFrom hfrom

/-- Without a leak the spans with tokens cover all the others. -/
theorem NoLeak.covering {uuids : Nat → BitVec 128} {r : RedactedText}
    (h : NoLeak unicode text uuids r) (hl : allSpans unicode text = some l)
    (hdet : Detected unicode text l) (hrep : reported unicode text = l.map PiiSpan.span) :
    ∃ kept, Covering l kept := by
  obtain ⟨kept, hmem, hreplaced, hcovers⟩ := h
  rw [hl, Option.getD_some] at hmem
  refine ⟨kept, hmem, (hreplaced.pairwise fun s hs => ?_).1, fun s hs => ?_⟩
  · exact Nat.le_of_lt (hdet.start_lt (hmem s hs))
  · exact hcovers s.span (hrep ▸ List.mem_map_of_mem hs)

/-- Where `redact` returns, no detected byte leaks exactly when reported spans that
    share a byte are nested: the loop passes over a span that begins inside the last
    chosen one, also where it ends behind it. -/
theorem noLeak_iff_nested {uuids : Nat → BitVec 128} {r : RedactedText}
    (h : redact unicode text uuids = some r) :
    NoLeak unicode text uuids r ↔ Span.Nested id (reported unicode text) := by
  obtain ⟨l, hl, hdet, hrep⟩ := exists_allSpans unicode text
  have hnested : Span.Nested id (reported unicode text) ↔ Span.Nested PiiSpan.span l := by
    rw [hrep]
    simp [Span.Nested]
  have hmem : ∀ s, s ∈ sortSpans l ↔ s ∈ l := fun s => List.mem_insertionSort _
  rw [hnested]
  constructor
  · intro hno
    obtain ⟨kept, hcovering⟩ := hno.covering hl hdet hrep
    exact hcovering.nested hdet
  · intro hn
    -- the spans that the loop chooses cover the ones it passes over
    refine ⟨_, fun k hk => ?_, replaced_redact h hl, fun span hspan b hb => ?_⟩
    · rw [hl, Option.getD_some]
      exact (hmem k).mp (Span.mem_of_mem_choose PiiSpan.span hk)
    · rw [hrep] at hspan
      obtain ⟨s, hs, rfl⟩ := List.mem_map.mp hspan
      have hsorted : (sortSpans l).Pairwise fun a c => a.span.Order c.span :=
        List.pairwise_insertionSort _ l
      have hn' : Span.Nested PiiSpan.span (sortSpans l) := fun a ha c hc =>
        hn a ((hmem a).mp ha) c ((hmem c).mp hc)
      exact Span.covered_of_nested PiiSpan.span hsorted hn' ((hmem s).mpr hs) hb

/-- `is_alphanumeric` of ASCII text. -/
def ascii : Unicode := ⟨Char.isAlphanum, fun _ _ => rfl⟩

/-- A number inside an address goes with it. -/
theorem noLeak_iff_nested_number_in_address :
    ∃ r, redact ascii "5551234567@x.com".toList (fun _ => 0) = some r ∧
      r.redacted = "[EMAIL:00000000]".toList ∧
      NoLeak ascii "5551234567@x.com".toList (fun _ => 0) r := by
  have hreturns : (redact ascii "5551234567@x.com".toList fun _ => 0).map
      RedactedText.redacted = some "[EMAIL:00000000]".toList := by decide
  obtain ⟨r, hr, hredacted⟩ := Option.map_eq_some_iff.mp hreturns
  refine ⟨r, hr, hredacted, (noLeak_iff_nested hr).mpr ?_⟩
  have hreported : reported ascii "5551234567@x.com".toList = [⟨0, 16⟩, ⟨0, 10⟩] := by decide
  rw [hreported]
  intro s hs t ht b _ _
  simp only [List.mem_cons, List.not_mem_nil, or_false] at hs ht
  rcases hs with rfl | rfl <;> rcases ht with rfl | rfl <;> simp [Span.Inside]

/-- The domain behind a phone number leaks. -/
theorem domain_after_phone_leaks :
    ∃ r, redact ascii "+1 (555) 123-4567@acme.io".toList (fun _ => 0) = some r ∧
      r.redacted = "[PHONE:00000000]@acme.io".toList ∧
      ¬ NoLeak ascii "+1 (555) 123-4567@acme.io".toList (fun _ => 0) r := by
  have hreturns : (redact ascii "+1 (555) 123-4567@acme.io".toList fun _ => 0).map
      RedactedText.redacted = some "[PHONE:00000000]@acme.io".toList := by decide
  obtain ⟨r, hr, hredacted⟩ := Option.map_eq_some_iff.mp hreturns
  refine ⟨r, hr, hredacted, fun h => ?_⟩
  obtain ⟨l, hl, hdet, hrep⟩ := exists_allSpans ascii "+1 (555) 123-4567@acme.io".toList
  obtain ⟨kept, hcovering⟩ := h.covering hl hdet hrep
  have hnested : Span.Nested id (l.map PiiSpan.span) := by
    simpa [Span.Nested] using hcovering.nested hdet
  rw [← hrep] at hnested
  -- the address begins in the number and ends behind it
  have hinside := hnested ⟨9, 25⟩ (by decide) ⟨0, 17⟩ (by decide) 9
    ⟨by decide, by decide⟩ ⟨by decide, by decide⟩
  rcases hinside with hinside | hinside
  · exact absurd hinside.2 (by decide)
  · exact absurd hinside.1 (by decide)

/-! ## Restoring the text -/

/-- The tokens of the pieces, in their order. -/
def tokens (pushed : List Push) : List (List Char) :=
  (pushed.filterMap Push.entry?).map Prod.fst

/-- The tokens `redact` generates. -/
def generated (unicode : Unicode) (text : List Char) (uuids : Nat → BitVec 128) :
    List (List Char) :=
  tokens ((pushes unicode text uuids).getD [])

/-- A piece with the tokens of `restored` put back. -/
def Push.render (restored : List (List Char)) : Push → List Char
  | .copied _ chars => chars
  | .token name original => if name ∈ restored then original else name

/-- What a piece stands for. -/
def Push.original : Push → List Char
  | .copied _ chars => chars
  | .token _ original => original

/-- The pieces stand for the text behind the cursor. -/
private theorem original_pushesFrom {uuids : Nat → BitVec 128} {n cursor : Nat}
    {spans : List PiiSpan}
    {pushed : List Push} (h : pushesFrom text uuids n cursor spans = some pushed) :
    ∃ u, text = u ++ pushed.flatMap Push.original ∧ byteLen u = cursor := by
  induction spans generalizing n cursor pushed with
  | nil =>
    obtain ⟨u, rest, htext, hu, rfl⟩ := pushesFrom_nil h
    exact ⟨u, by simpa [Push.original] using htext, hu⟩
  | cons s spans ih =>
    obtain ⟨-, hrest⟩ | ⟨-, u, before, original, v, rest, htext, hu, -, hstop, hrest, rfl⟩ :=
      pushesFrom_cons h
    · exact ih hrest
    · -- what follows starts where the span stops
      obtain ⟨w, hw, hwlen⟩ := ih hrest
      obtain ⟨rfl, -⟩ := Text.append_inj_byteLen (htext.symm.trans hw) (hstop.trans hwlen.symm)
      refine ⟨u, ?_, hu⟩
      rw [hw]
      simp [Push.original]

/-- A UUID begins with 8 hexadecimal digits. -/
private theorem take_uuidToString (uuid : BitVec 128) :
    ((uuidToString uuid).take 8).length = 8 ∧ '[' ∉ (uuidToString uuid).take 8 := by
  -- hexadecimal digits are no brackets
  have hdigit : ∀ n, Nat.digitChar (n % 16) ≠ '[' := by
    have hlow : ∀ m < 16, Nat.digitChar m ≠ '[' := by decide
    exact fun n => hlow (n % 16) (Nat.mod_lt n (by decide))
  have htake : (uuidToString uuid).take 8 =
      ((List.range 32).map fun i => Nat.digitChar (uuid.toNat / 16 ^ (31 - i) % 16)).take 8 := by
    unfold uuidToString
    simp only [List.append_assoc]
    exact List.take_left' (by simp)
  rw [htake]
  refine ⟨by simp, ?_⟩
  intro hmem
  obtain ⟨i, -, heq⟩ := List.mem_map.mp (List.mem_of_mem_take hmem)
  exact hdigit _ heq

/-- A token begins with a bracket and has no other. -/
private theorem marked_makeToken {label : List Char} (hlabel : label.length = 5)
    (hopen : '[' ∉ label) (uuid : BitVec 128) : Replace.Marked '[' 15 (makeToken label uuid) := by
  obtain ⟨hlen, hnot⟩ := take_uuidToString uuid
  refine ⟨label ++ ':' :: (uuidToString uuid).take 8 ++ [']'], rfl, ?_, ?_⟩
  · simp [hopen, hnot]
  · simp only [List.length_append, List.length_cons, List.length_nil, hlabel, hlen]

/-- Every token is an opening bracket and 15 characters that are none. -/
private theorem marked_of_token {uuids : Nat → BitVec 128} {n cursor : Nat} {spans : List PiiSpan}
    {pushed : List Push} (h : pushesFrom text uuids n cursor spans = some pushed)
    (hlabel : ∀ s ∈ spans, s.label = "EMAIL".toList ∨ s.label = "PHONE".toList)
    {name original : List Char} (hmem : Push.token name original ∈ pushed) :
    Replace.Marked '[' 15 name := by
  -- a token is made for each span that is replaced
  induction spans generalizing n cursor pushed with
  | nil =>
    obtain ⟨u, rest, -, -, rfl⟩ := pushesFrom_nil h
    simp at hmem
  | cons s spans ih =>
    have hlabel' : ∀ s ∈ spans, s.label = "EMAIL".toList ∨ s.label = "PHONE".toList :=
      fun t ht => hlabel t (List.mem_cons_of_mem s ht)
    obtain ⟨-, hrest⟩ | ⟨-, u, before, original', v, rest, -, -, -, -, hrest, rfl⟩ :=
      pushesFrom_cons h
    · exact ih hrest hlabel' hmem
    · simp only [List.mem_cons, reduceCtorEq, Push.token.injEq, false_or] at hmem
      cases hmem with
      | inl hhead =>
        rw [hhead.1]
        cases hlabel s (by simp) with
        | inl hemail => exact marked_makeToken (by rw [hemail]; rfl) (by rw [hemail]; decide) _
        | inr hphone => exact marked_makeToken (by rw [hphone]; rfl) (by rw [hphone]; decide) _
      | inr htail => exact ih hrest hlabel' htail

section Restore

variable {pushed : List Push} {restored : List (List Char)} {name original : List Char}

/-- A token that is not in the text does not occur between the others: what is put
    back already is a part of the text together with what is around it. -/
private theorem not_infix_render (hname : Replace.Marked '[' 15 name) (hfresh : ¬ name <:+: text)
    (htokens : ∀ name' original', Push.token name' original' ∈ pushed →
      Replace.Marked '[' 15 name' ∧ name' ≠ name)
    (run : List Char) (hrun : run ++ pushed.flatMap Push.original <:+: text) :
    ¬ name <:+: run ++ pushed.flatMap (Push.render restored) := by
  -- the run in front of the next push grows until a token ends it
  induction pushed generalizing run with
  | nil =>
    intro hin
    exact hfresh (hin.trans (by simpa using hrun))
  | cons p pushed ih =>
    have htokens' : ∀ name' original', Push.token name' original' ∈ pushed →
        Replace.Marked '[' 15 name' ∧ name' ≠ name :=
      fun name' original' hmem => htokens name' original' (List.mem_cons_of_mem p hmem)
    rw [List.flatMap_cons, ← List.append_assoc] at hrun ⊢
    have hplain : p.render restored = p.original → ¬ name <:+:
        run ++ p.render restored ++ pushed.flatMap (Push.render restored) := by
      intro heq
      rw [heq]
      exact ih htokens' _ hrun
    cases p with
    | copied start chars => exact hplain rfl
    | token name' original' =>
      by_cases hdone : name' ∈ restored
      · exact hplain (if_pos hdone)
      · obtain ⟨hmarked, hne⟩ := htokens name' original' (by simp)
        have hrender : (Push.token name' original').render restored = name' := if_neg hdone
        rw [hrender]
        rintro ⟨u, v, heq⟩
        -- an occurrence is on one side of this token
        obtain ⟨-, hsame⟩ | hleft | hright := hmarked.occurs_cases hname heq.symm
        · exact hne hsame.symm
        · have hrun' : run <:+: text :=
            (List.infix_append' [] run _ |>.trans (by simpa using hrun))
          exact hfresh (hleft.trans hrun')
        · have hrest : [] ++ pushed.flatMap Push.original <:+: text :=
            (List.suffix_append _ _).isInfix.trans hrun
          exact ih htokens' [] hrest hright

/-- The tokens are those that were pushed. -/
private theorem mem_tokens :
    name ∈ tokens pushed ↔ ∃ original, Push.token name original ∈ pushed := by
  unfold tokens
  rw [List.mem_map]
  constructor
  · rintro ⟨e, he, rfl⟩
    obtain ⟨p, hp, heq⟩ := List.mem_filterMap.mp he
    cases p with
    | copied start chars => cases heq
    -- only a push of a token has an entry
    | token name original => cases heq; exact ⟨original, hp⟩
  · rintro ⟨original, hmem⟩
    exact ⟨(name, original), List.mem_filterMap.mpr ⟨_, hmem, rfl⟩, rfl⟩

/-- Putting back one more token does not change pieces without it. -/
private theorem flatMap_render_cons (h : name ∉ tokens pushed) :
    pushed.flatMap (Push.render (name :: restored)) = pushed.flatMap (Push.render restored) := by
  apply List.flatMap_congr
  intro p hp
  cases p with
  | copied start chars => rfl
  | token name' original' =>
    have hne : name' ≠ name := by
      rintro rfl
      exact h (mem_tokens.mpr ⟨original', hp⟩)
    simp [Push.render, hne]

/-- Replacing a token puts back its value and changes nothing else. -/
private theorem replace_render (hmem : Push.token name original ∈ pushed)
    (hmarked : ∀ name' ∈ tokens pushed, Replace.Marked '[' 15 name')
    (hnodup : (tokens pushed).Nodup) (hfresh : ¬ name <:+: text)
    (htext : pushed.flatMap Push.original = text) (hnew : name ∉ restored) :
    Replace.replace name original (pushed.flatMap (Push.render restored)) =
      pushed.flatMap (Push.render (name :: restored)) := by
  have hname := hmarked name (mem_tokens.mpr ⟨original, hmem⟩)
  obtain ⟨l, r, rfl⟩ := List.append_of_mem hmem
  -- the token stands at one place
  have htokens : tokens (l ++ .token name original :: r) = tokens l ++ name :: tokens r := by
    simp [tokens, Push.entry?]
  rw [htokens] at hnodup hmarked
  obtain ⟨hl, hr⟩ : name ∉ tokens l ∧ name ∉ tokens r := by
    have hnot := (List.nodup_middle.mp hnodup)
    rw [List.nodup_cons, List.mem_append] at hnot
    tauto
  -- on neither side the token occurs once more
  have hside : ∀ side, (∀ name' ∈ tokens side, Replace.Marked '[' 15 name') →
      name ∉ tokens side → side.flatMap Push.original <:+: text →
      ¬ name <:+: side.flatMap (Push.render restored) := by
    intro side hside hnot hin
    refine not_infix_render hname hfresh ?_ [] hin
    intro name' original' hmem'
    have hin' := mem_tokens.mpr ⟨original', hmem'⟩
    exact ⟨hside name' hin', fun heq => hnot (heq ▸ hin')⟩
  rw [List.flatMap_append, List.flatMap_cons, ← List.append_assoc] at htext
  have hleft := hside l (fun n hn => hmarked n (by simp [hn])) hl ⟨[], _, by simpa using htext⟩
  have hright := hside r (fun n hn => hmarked n (by simp [hn])) hr
    ⟨_, [], by rw [List.append_nil]; exact htext⟩
  -- there it is put back, and elsewhere nothing changes
  have hbefore : (Push.token name original).render restored = name := if_neg hnew
  have hafter : (Push.token name original).render (name :: restored) = original :=
    if_pos List.mem_cons_self
  rw [List.flatMap_append, List.flatMap_cons, List.flatMap_append, List.flatMap_cons,
    flatMap_render_cons hl, flatMap_render_cons hr, hbefore, hafter,
    ← List.append_assoc, ← List.append_assoc]
  apply Replace.replace_of_unique hname.ne_nil
  intro u v heq
  obtain ⟨hu, -⟩ | hin | hin := hname.occurs_cases hname heq
  · exact hu
  · exact absurd hin hleft
  · exact absurd hin hright

/-- The loop of `restore` puts back the tokens it visits. -/
private theorem foldl_replace_render {es : List (List Char × List Char)}
    (hes : ∀ e ∈ es, Push.token e.1 e.2 ∈ pushed)
    (hmarked : ∀ name' ∈ tokens pushed, Replace.Marked '[' 15 name')
    (hnodup : (tokens pushed).Nodup) (hfresh : ∀ name ∈ tokens pushed, ¬ name <:+: text)
    (htext : pushed.flatMap Push.original = text)
    (hnew : (es.map Prod.fst).Nodup ∧ ∀ e ∈ es, e.1 ∉ restored) :
    es.foldl (fun text e => Replace.replace e.1 e.2 text)
        (pushed.flatMap (Push.render restored)) =
      pushed.flatMap (Push.render ((es.map Prod.fst).reverse ++ restored)) := by
  -- entry by entry, each token once
  induction es generalizing restored with
  | nil => rfl
  | cons e es ih =>
    obtain ⟨name, original⟩ := e
    have hmem : Push.token name original ∈ pushed := hes (name, original) (by simp)
    have hin : name ∈ tokens pushed := mem_tokens.mpr ⟨original, hmem⟩
    obtain ⟨hkeys, hrest⟩ := hnew
    rw [List.map_cons, List.nodup_cons] at hkeys
    -- the rest has other tokens than the one just restored
    have hnext : (es.map Prod.fst).Nodup ∧ ∀ e ∈ es, e.1 ∉ name :: restored := by
      refine ⟨hkeys.2, ?_⟩
      intro e he hmem'
      cases List.mem_cons.mp hmem' with
      | inl heq => exact hkeys.1 (List.mem_map.mpr ⟨e, he, heq⟩)
      | inr hdone => exact hrest e (List.mem_cons_of_mem _ he) hdone
    rw [List.foldl_cons, replace_render hmem hmarked hnodup (hfresh name hin) htext
        (hrest (name, original) (by simp)),
      ih (fun e he => hes e (List.mem_cons_of_mem _ he)) hnext]
    simp

/-- The token map holds the tokens of the pieces with what they stand for. -/
private theorem mem_walk_tokenMap
    (walk : Finmap.Walk ((pushed.filterMap Push.entry?).foldl (fun m e => m.insert e.1 e.2)
      (∅ : Finmap fun _ : List Char => List Char))) :
    (∀ e ∈ walk.val, Push.token e.1 e.2 ∈ pushed) ∧
      ∀ name ∈ tokens pushed, name ∈ walk.val.map Prod.fst := by
  refine ⟨?_, ?_⟩
  · rintro ⟨name, original⟩ he
    have hlookup := (Finmap.mem_walk walk).mp he
    -- hnone :=
    obtain hmem | hnone := Finmap.mem_of_lookup_foldl_insert hlookup
    · obtain ⟨p, hp, heq⟩ := List.mem_filterMap.mp hmem
      cases p with
      | copied start chars => cases heq
      | token name' original' => cases heq; exact hp
    · simp at hnone
  · intro name hname
    have hmem := Finmap.mem_foldl_insert (m := ∅) |>.mpr (Or.inl hname)
    obtain ⟨original, hlookup⟩ := Finmap.mem_iff.mp hmem
    exact List.mem_map.mpr ⟨(name, original), (Finmap.mem_walk walk).mpr hlookup, rfl⟩

/-- Without a restored token the output is what was pushed. -/
private theorem flatMap_render_nil :
    pushed.flatMap (Push.render []) = pushed.flatMap Push.chars := by
  apply List.flatMap_congr
  intro p _
  cases p with
  | copied start chars => rfl
  | token name original => simp [Push.render, Push.chars]

/-- With all of them restored it is the text. -/
private theorem flatMap_render_all (h : ∀ name ∈ tokens pushed, name ∈ restored) :
    pushed.flatMap (Push.render restored) = pushed.flatMap Push.original := by
  apply List.flatMap_congr
  intro p hp
  cases p with
  | copied start chars => rfl
  | token name original => exact if_pos (h name (mem_tokens.mpr ⟨original, hp⟩))

/-- Restoring a redacted text gives back the text, in whatever order the token map is
    visited, where the tokens are distinct and none of them occurs in the text. -/
theorem restore_redact {uuids : Nat → BitVec 128} {r : RedactedText}
    (h : redact unicode text uuids = some r) (hnodup : (generated unicode text uuids).Nodup)
    (hfresh : ∀ name ∈ generated unicode text uuids, ¬ name <:+: text)
    (walk : Finmap.Walk r.tokenMap) : r.restore walk = text := by
  obtain ⟨pushed, hpushed, heq⟩ := Option.bind_eq_some_iff.mp h
  cases heq
  obtain ⟨l, hl, hdet, -⟩ := exists_allSpans unicode text
  have hfrom : pushesFrom text uuids 0 0 (sortSpans l) = some pushed := by
    simpa [pushes, hl] using hpushed
  have htext : pushed.flatMap Push.original = text := by
    obtain ⟨u, hu, hlen⟩ := original_pushesFrom hfrom
    have hsplit : u ++ pushed.flatMap Push.original = [] ++ text := hu.symm
    exact (Text.append_inj_byteLen hsplit hlen).2
  have hmarked : ∀ name ∈ tokens pushed, Replace.Marked '[' 15 name := by
    intro name hname
    obtain ⟨original, hmem⟩ := mem_tokens.mp hname
    refine marked_of_token hfrom ?_ hmem
    intro s hs
    exact (hdet.kind s ((List.mem_insertionSort _).mp hs)).imp And.left And.left
  have hgenerated : generated unicode text uuids = tokens pushed := by
    rw [generated, hpushed, Option.getD_some]
  rw [hgenerated] at hnodup hfresh
  -- the walk visits every token once, with the value it stands for
  obtain ⟨hes, hall⟩ := mem_walk_tokenMap walk
  unfold RedactedText.restore
  rw [← flatMap_render_nil, foldl_replace_render hes hmarked hnodup hfresh htext
    ⟨Finmap.nodup_walk walk, by simp⟩, flatMap_render_all, htext]
  intro name hname
  simpa using hall name hname

end Restore

/-- An address and a number are restored, in either order. -/
theorem restore_redact_two_tokens :
    ∃ r, redact ascii "a@b.co or 555-123-4567".toList (fun n => BitVec.ofNat 128 (n * 2 ^ 96)) =
      some r ∧ ∀ walk, r.restore walk = "a@b.co or 555-123-4567".toList := by
  have hreturns : (redact ascii "a@b.co or 555-123-4567".toList
      (fun n => BitVec.ofNat 128 (n * 2 ^ 96))).isSome = true := by decide
  refine ⟨_, (Option.some_get hreturns).symm, ?_⟩
  exact restore_redact (Option.some_get hreturns).symm (by decide) (by decide)

end Barqium.Native.Pii
