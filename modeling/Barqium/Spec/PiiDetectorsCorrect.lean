import Mathlib.Data.List.TakeWhile
import Barqium.Native.Pii

/-!
# What the PII detectors report

Both detectors return on every text. What they report is described by the character
that each byte of the text belongs to: an e-mail has one `@` and ends with a
character of a domain, a phone number has no `@`.

## Key results

- `exists_detectEmail`, `exists_detectPhone`: the detectors return, and what is known
  of the spans.
- `EmailAt.not_adjacent`: no e-mail begins where another ends.
-/

namespace Barqium.Native.Pii

open Text (byteLen charAt)

variable {unicode : Unicode} {text : List Char}

/-! ## What the e-mail detector reports -/

/-- The characters of a domain may stand in a local part. -/
private theorem isLocalChar_of_isDomainChar {c : Char} (h : isDomainChar unicode c = true) :
    isLocalChar unicode c = true := by
  simp only [isDomainChar, isLocalChar, Bool.or_eq_true] at h ⊢
  tauto

/-- The at sign may not. -/
private theorem isLocalChar_atSign : isLocalChar unicode '@' = false := by
  have h := unicode.isAlphanumeric_ascii '@' (by decide)
  simp [isLocalChar, h]

/-- A character of a domain is not the at sign. -/
theorem ne_atSign_of_isDomainChar {c : Char} (h : isDomainChar unicode c = true) : c ≠ '@' := by
  rintro rfl
  have hlocal := isLocalChar_of_isDomainChar h
  rw [isLocalChar_atSign] at hlocal
  cases hlocal

/-- What stands around an `@` that gives the span `s`. -/
structure Around (unicode : Unicode) (text : List Char) (atSign : Nat) (s : Span) : Prop where
  char : charAt text atSign = some '@'
  start_le : s.start ≤ atSign
  lt_stop : atSign < s.stop
  boundary : ∃ u v, text = u ++ v ∧ byteLen u = s.stop
  left : ∀ b, s.start ≤ b → b < atSign → ∃ c, charAt text b = some c ∧ c ≠ '@'
  right : ∀ b, atSign < b → b < s.stop → ∃ c, charAt text b = some c ∧ isDomainChar unicode c = true
  before : 0 < s.start → ∃ c, charAt text (s.start - 1) = some c ∧ isLocalChar unicode c = false

variable (unicode) in
/-- The local part goes back to the beginning of the text, or to the first byte after
    the beginning of a character that cannot be part of it. -/
theorem localPart_spec {left right : List Char} (htext : text = left ++ '@' :: right) {start : Nat}
    (hstart : start =
      ((Text.rfind (fun c => !isLocalChar unicode c) left).map (· + 1)).getD 0) :
    start ≤ byteLen left ∧
    (∀ b, start ≤ b → b < byteLen left → ∃ c, charAt text b = some c ∧ c ≠ '@') ∧
    (0 < start → ∃ c, charAt text (start - 1) = some c ∧ isLocalChar unicode c = false) := by
  have hne : ∀ {c : Char}, (!isLocalChar unicode c) = false → c ≠ '@' := by
    rintro c hc rfl
    simp [isLocalChar_atSign] at hc
  -- the local part goes back to the last character that cannot be in one
  cases hfind : Text.rfind (fun c => !isLocalChar unicode c) left with
  | none =>
    simp only [hfind, Option.map_none, Option.getD_none] at hstart
    subst hstart
    refine ⟨Nat.zero_le _, ?_, by omega⟩
    intro b hle hlt
    obtain ⟨c, hc, hat⟩ :=
      Text.exists_charAt_mid (u := []) hle (by simpa using hlt) ('@' :: right)
    exact ⟨c, htext ▸ hat, hne (Text.rfind_eq_none.mp hfind c hc)⟩
  | some n =>
    simp only [hfind, Option.map_some, Option.getD_some] at hstart
    obtain ⟨u, d, v, rfl, rfl, hd, hv⟩ := Text.rfind_eq_some hfind
    subst hstart
    have hpos := d.utf8Size_pos
    -- the character before the local part, and what is behind it
    have hbefore : ∀ b, byteLen u ≤ b → b < byteLen u + d.utf8Size → charAt text b = some d := by
      intro b hle hlt
      obtain ⟨c, hc, hat⟩ := Text.exists_charAt_mid (m := [d]) hle hlt (v ++ '@' :: right)
      rw [List.mem_singleton.mp hc] at hat
      simpa [htext] using hat
    have hbehind : ∀ b, byteLen u + d.utf8Size ≤ b → b < byteLen u + d.utf8Size + byteLen v →
        ∃ c ∈ v, charAt text b = some c := by
      intro b hle hlt
      have hsplit : text = (u ++ [d]) ++ (v ++ '@' :: right) := by simp [htext]
      have hlen : byteLen (u ++ [d]) = byteLen u + d.utf8Size := by simp
      rw [hsplit]
      exact Text.exists_charAt_mid (by omega) (by omega) ('@' :: right)
    rw [Text.byteLen_append, Text.byteLen_cons]
    refine ⟨by omega, ?_, ?_⟩
    · intro b hle hlt
      by_cases hin : b < byteLen u + d.utf8Size
      · -- a byte behind the first one of `d`, which is then longer than an `@`
        refine ⟨d, hbefore b (by omega) hin, ?_⟩
        rintro rfl
        have hone : Char.utf8Size '@' = 1 := by decide
        omega
      · obtain ⟨c, hc, hat⟩ := hbehind b (by omega) (by omega)
        exact ⟨c, hat, hne (hv c hc)⟩
    · intro _
      rw [Nat.add_sub_cancel]
      exact ⟨d, hbefore _ (Nat.le_refl _) (by omega), by simpa using hd⟩

variable (unicode) in
/-- The domain goes on to the first character that cannot be part of it. -/
theorem domain_spec {left right : List Char} (htext : text = left ++ '@' :: right) {stop : Nat}
    (hstop : stop = ((Text.find (fun c => !isDomainChar unicode c) right).map
      (byteLen left + 1 + ·)).getD (byteLen text)) :
    byteLen left < stop ∧ (∃ u v, text = u ++ v ∧ byteLen u = stop) ∧
    ∀ b, byteLen left < b → b < stop →
      ∃ c, charAt text b = some c ∧ isDomainChar unicode c = true := by
  have hone : Char.utf8Size '@' = 1 := by decide
  -- the domain as a part of the text
  obtain ⟨x, y, rfl, hx, rfl⟩ : ∃ x y, right = x ++ y ∧
      (∀ c ∈ x, isDomainChar unicode c = true) ∧ stop = byteLen left + 1 + byteLen x := by
    cases hfind : Text.find (fun c => !isDomainChar unicode c) right with
    | none =>
      refine ⟨right, [], by simp, fun c hc => by simpa using Text.find_eq_none.mp hfind c hc, ?_⟩
      rw [hstop, hfind, htext]
      simp [hone]
      omega
    | some n =>
      obtain ⟨u, d, v, rfl, rfl, -, hu⟩ := Text.find_eq_some hfind
      refine ⟨u, d :: v, rfl, fun c hc => by simpa using hu c hc, ?_⟩
      rw [hstop, hfind]
      rfl
  have hlen : byteLen (left ++ ['@']) = byteLen left + 1 := by simp [hone]
  have hsplit : text = (left ++ ['@']) ++ (x ++ y) := by simp [htext]
  refine ⟨by omega, ⟨left ++ ['@'] ++ x, y, by simp [hsplit],
    by rw [Text.byteLen_append, hlen]⟩, ?_⟩
  intro b hlo hhi
  rw [hsplit]
  obtain ⟨c, hc, hat⟩ :=
    Text.exists_charAt_mid (u := left ++ ['@']) (m := x) (b := b) (by omega) (by omega) y
  exact ⟨c, hat, hx c hc⟩

variable (unicode) in
/-- Around every at sign the two parts are cut without a panic. -/
theorem exists_emailAround {left right : List Char} (htext : text = left ++ '@' :: right) :
    ∃ s, emailAround unicode text (byteLen left) = some s ∧
      Around unicode text (byteLen left) s := by
  have hone : Char.utf8Size '@' = 1 := by decide
  have hleft : Text.sliceTo text (byteLen left) = some left :=
    Text.sliceTo_eq_some.mpr ⟨'@' :: right, htext, rfl⟩
  have hright : Text.sliceFrom text (byteLen left + 1) = some right :=
    Text.sliceFrom_eq_some.mpr ⟨left ++ ['@'], by simp [htext], by simp [hone]⟩
  -- the local part is searched backwards, the domain forwards
  obtain ⟨hstart, hlocal, hbefore⟩ := localPart_spec unicode htext rfl
  obtain ⟨hstop, hbound, hdomain⟩ := domain_spec unicode htext rfl
  refine ⟨_, by unfold emailAround; rw [hleft, hright]; rfl, ?_⟩
  refine ⟨?_, hstart, hstop, hbound, hlocal, hdomain, hbefore⟩
  rw [htext, Text.charAt_of_le (Nat.le_refl _), Nat.sub_self, charAt, if_pos (by omega)]

/-- A reported e-mail and its `@`. -/
structure EmailAt (unicode : Unicode) (text : List Char) (atSign : Nat) (s : Span) : Prop where
  around : Around unicode text atSign s
  eq : emailAround unicode text atSign = some s
  start_lt : s.start < atSign
  lt_stop : atSign + 2 < s.stop

/-- The loop of the e-mail detector returns from every offset between two characters,
    and what it reports are e-mails. -/
private theorem exists_emailsFrom {fuel i : Nat} (hfuel : byteLen text < fuel + i)
    (hbound : ∃ u v, text = u ++ v ∧ byteLen u = i) :
    ∃ spans, emailsFrom unicode text fuel i = some spans ∧
      ∀ s ∈ spans, ∃ atSign, EmailAt unicode text atSign s := by
  induction fuel generalizing i with
  | zero =>
    obtain ⟨u, v, huv, hu⟩ := hbound
    have hlen := congrArg byteLen huv
    rw [Text.byteLen_append] at hlen
    omega
  | succ fuel ih =>
    rw [emailsFrom]
    by_cases hi : i < byteLen text
    · obtain ⟨u, v, huv, hu⟩ := hbound
      have hrest : Text.sliceFrom text i = some v := Text.sliceFrom_eq_some.mpr ⟨u, huv, hu⟩
      rw [if_pos hi, hrest]
      cases hfind : Text.find (· == '@') v with
      | none => exact ⟨[], by simp [hfind], by simp⟩
      | some found =>
        -- the text around the `@` that was found
        obtain ⟨w, c, right, rfl, rfl, hc, -⟩ := Text.find_eq_some hfind
        obtain rfl : c = '@' := by simpa using hc
        have htext : text = (u ++ w) ++ '@' :: right := by rw [huv, List.append_assoc]
        obtain ⟨s, hs, haround⟩ := exists_emailAround unicode htext
        have hat : byteLen (u ++ w) = i + byteLen w := by rw [Text.byteLen_append, hu]
        rw [hat] at hs haround
        -- the next pass begins behind this `@`, so the fuel is enough for it
        have hlt := haround.lt_stop
        obtain ⟨spans, hspans, hall⟩ := @ih s.stop (by omega) haround.boundary
        by_cases hpush : s.stop > i + byteLen w + 2 ∧ i + byteLen w > s.start
        · refine ⟨s :: spans, by simp [hfind, hs, hspans, hpush], ?_⟩
          intro t ht
          cases List.mem_cons.mp ht with
          | inl heq => subst heq; exact ⟨_, haround, hs, hpush.2, hpush.1⟩
          | inr ht' => exact hall t ht'
        · refine ⟨spans, ?_, hall⟩
          simp only [Option.bind_eq_bind, Option.bind_some, hfind, hs, hspans, if_neg hpush]
    · exact ⟨[], by rw [if_neg hi], by simp⟩

/-- `detect_email` returns on every text. -/
theorem exists_detectEmail (unicode : Unicode) (text : List Char) :
    ∃ spans, detectEmail unicode text = some spans ∧
      ∀ s ∈ spans, ∃ atSign, EmailAt unicode text atSign s :=
  exists_emailsFrom (by omega) ⟨[], text, rfl, rfl⟩

/-- The `@` of an e-mail is the only one in its span. -/
theorem EmailAt.atSign_unique {atSign b : Nat} {s : Span} (h : EmailAt unicode text atSign s)
    (hb : s.Covers b) (hchar : charAt text b = some '@') : b = atSign := by
  obtain hlt | heq | hgt := Nat.lt_trichotomy b atSign
  · -- neither the local part nor the domain has another at sign
    obtain ⟨c, hc, hne⟩ := h.around.left b hb.1 hlt
    rw [hchar] at hc
    cases hc
    exact absurd rfl hne
  · exact heq
  · obtain ⟨c, hc, hdomain⟩ := h.around.right b hgt hb.2
    rw [hchar] at hc
    cases hc
    exact absurd rfl (ne_atSign_of_isDomainChar hdomain)

/-- E-mails are never adjacent: an e-mail ends with a character of a domain, which
    could be part of the local part of the next. -/
theorem EmailAt.not_adjacent {p q : Nat} {s t : Span} (hs : EmailAt unicode text p s)
    (ht : EmailAt unicode text q t) : s.stop ≠ t.start := by
  intro heq
  have hlt := hs.lt_stop
  -- the byte before `t` is the last one of `s`
  obtain ⟨c, hc, hlocal⟩ := ht.around.before (by omega)
  obtain ⟨d, hd, hdomain⟩ := hs.around.right (s.stop - 1) (by omega) (by omega)
  rw [← heq, hd] at hc
  cases hc
  rw [isLocalChar_of_isDomainChar hdomain] at hlocal
  cases hlocal

/-! ## What the phone detector reports -/

structure PhoneSpan (text : List Char) (s : Span) : Prop where
  start_lt : s.start < s.stop
  chars : ∀ b, s.Covers b → ∃ c, charAt text b = some c ∧ isPhoneChar c = true

/-- A run of phone characters is cut where characters begin and end. -/
private theorem phoneSpan_takeWhile {i : Nat} {c : Char} {rest : List Char}
    (hdrop : text.drop i = c :: rest) (hc : isPhoneChar c = true) :
    PhoneSpan text ⟨byteLen (text.take i),
      byteLen (text.take (i + ((c :: rest).takeWhile isPhoneChar).length))⟩ := by
  -- the run of phone characters from `i` on
  have hrun : text.take (i + ((c :: rest).takeWhile isPhoneChar).length)
      = text.take i ++ (c :: rest).takeWhile isPhoneChar := by
    rw [List.take_add, hdrop]
    exact congrArg (text.take i ++ ·)
      (List.prefix_iff_eq_take.mp (List.takeWhile_prefix isPhoneChar)).symm
  have hsplit : text = text.take i ++ ((c :: rest).takeWhile isPhoneChar ++
      (c :: rest).dropWhile isPhoneChar) := by
    rw [List.takeWhile_append_dropWhile, ← hdrop, List.take_append_drop]
  have hpos := c.utf8Size_pos
  rw [hrun, Text.byteLen_append]
  refine ⟨?_, ?_⟩
  · show byteLen (text.take i) < byteLen (text.take i) + _
    rw [List.takeWhile_cons, if_pos hc, Text.byteLen_cons]
    omega
  · intro b hb
    obtain ⟨d, hd, hat⟩ := Text.exists_charAt_mid hb.1 hb.2 ((c :: rest).dropWhile isPhoneChar)
    rw [← hsplit] at hat
    exact ⟨d, hat, List.mem_takeWhile_imp hd⟩

/-- From every position the scan ends, with numbers one behind the other. -/
private theorem exists_phonesFrom {fuel i : Nat} (hfuel : text.length < fuel + i)
    (hi : i ≤ text.length) :
    ∃ spans, phonesFrom text fuel i = some spans ∧
      (∀ s ∈ spans, byteLen (text.take i) ≤ s.start ∧ PhoneSpan text s) ∧
      spans.Pairwise Span.Before := by
  -- the fuel is longer than the rest of the text
  induction fuel generalizing i with
  | zero => omega
  | succ fuel ih =>
    rw [phonesFrom]
    cases hdrop : text.drop i with
    | nil => exact ⟨[], by simp, by simp, List.Pairwise.nil⟩
    | cons c rest =>
      have hlen := congrArg List.length hdrop
      rw [List.length_drop, List.length_cons] at hlen
      simp only
      by_cases hc : (c.isDigit || c == '+') = true
      · have hphone : isPhoneChar c = true := by
          simp only [isPhoneChar, Bool.or_eq_true] at hc ⊢
          tauto
        have hspan := phoneSpan_takeWhile hdrop hphone
        have hle := (List.takeWhile_prefix isPhoneChar (l := c :: rest)).length_le
        rw [List.length_cons] at hle
        have hpos : 0 < ((c :: rest).takeWhile isPhoneChar).length := by
          rw [List.takeWhile_cons, if_pos hphone, List.length_cons]; omega
        rw [if_pos hc]
        -- from here on the run is only known by its length and its span
        generalize (c :: rest).takeWhile isPhoneChar = number at hspan hle hpos ⊢
        rw [if_pos (by omega)]
        obtain ⟨spans, hspans, hall, hpair⟩ := ih (i := i + number.length) (by omega) (by omega)
        have hmono := Text.byteLen_take_le (Nat.le_add_right i number.length) text
        have hall' : ∀ s ∈ spans, byteLen (text.take i) ≤ s.start ∧ PhoneSpan text s :=
          fun s hs => ⟨Nat.le_trans hmono (hall s hs).1, (hall s hs).2⟩
        -- a run counts with ten to fifteen digits
        by_cases hcount : 10 ≤ number.countP Char.isDigit ∧ number.countP Char.isDigit ≤ 15
        · refine ⟨⟨byteLen (text.take i), byteLen (text.take (i + number.length))⟩ :: spans,
            by rw [hspans]; simp [hcount], ?_, ?_⟩
          · intro s hs
            cases List.mem_cons.mp hs with
            | inl heq => subst heq; exact ⟨Nat.le_refl _, hspan⟩
            | inr hs' => exact hall' s hs'
          · exact List.pairwise_cons.mpr ⟨fun s hs => (hall s hs).1, hpair⟩
        · refine ⟨spans, ?_, hall', hpair⟩
          rw [hspans]
          simp only [Option.bind_eq_bind, Option.bind_some, if_neg hcount]
      · obtain ⟨spans, hspans, hall, hpair⟩ := ih (i := i + 1) (by omega) (by omega)
        have hmono := Text.byteLen_take_le (Nat.le_add_right i 1) text
        exact ⟨spans, by rw [if_neg hc, hspans],
          fun s hs => ⟨Nat.le_trans hmono (hall s hs).1, (hall s hs).2⟩, hpair⟩

/-- `detect_phone` returns on every text, and the spans it reports are in order. -/
theorem exists_detectPhone (text : List Char) :
    ∃ spans, detectPhone text = some spans ∧ (∀ s ∈ spans, PhoneSpan text s) ∧
      spans.Pairwise Span.Before := by
  obtain ⟨spans, hspans, hall, hpair⟩ :=
    @exists_phonesFrom text (text.length + 1) 0 (Nat.lt_succ_self _) (Nat.zero_le _)
  exact ⟨spans, hspans, fun s hs => (hall s hs).2, hpair⟩

end Barqium.Native.Pii
