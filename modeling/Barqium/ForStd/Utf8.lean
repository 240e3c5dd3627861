import Mathlib.Data.List.Basic

/-!
# Lossy UTF-8 decoding and lines of text

`fromLossy` decodes bytes to characters one byte at a time and puts U+FFFD for
every maximal part that is not the beginning of a character, as
`String::from_utf8_lossy` of Rust does. `lines` is `str::lines`. Both work on
lists of characters.

## Key results

- `fromLossy_append_ascii`: the text can be cut at every ASCII byte.
- `exists_cut`: a cut between two decoded characters is a cut between two bytes.
- `exists_infix_of_mem_lines`: a line of a decoded text is the text of some part of
  the bytes.
- `lines_append`: lines of a text that is cut after a line feed.
-/

namespace Utf8

/-! ## The decoder -/

/-- The character U+FFFD. -/
def replacement : Char := Char.ofNat 0xFFFD

/-- The length of the sequence a byte begins, 0 for a byte that begins none. -/
def width (b : UInt8) : Nat :=
  if b < 0x80 then 1
  else if 0xC2 ≤ b ∧ b ≤ 0xDF then 2
  else if 0xE0 ≤ b ∧ b ≤ 0xEF then 3
  else if 0xF0 ≤ b ∧ b ≤ 0xF4 then 4
  else 0

/-- Whether `b` may be the second byte after `first`: overlong forms, surrogates and
    numbers past U+10FFFF are excluded here. -/
def isSecond (first b : UInt8) : Bool :=
  if first = 0xE0 then 0xA0 ≤ b ∧ b ≤ 0xBF
  else if first = 0xED then 0x80 ≤ b ∧ b ≤ 0x9F
  else if first = 0xF0 then 0x90 ≤ b ∧ b ≤ 0xBF
  else if first = 0xF4 then 0x80 ≤ b ∧ b ≤ 0x8F
  else 0x80 ≤ b ∧ b ≤ 0xBF

/-- Whether `b` may follow the unfinished sequence `pending`. -/
def continues : List UInt8 → UInt8 → Bool
  | [], _ => false
  | [first], b => isSecond first b
  | _, b => 0x80 ≤ b ∧ b ≤ 0xBF

/-- The character of a finished sequence. -/
def charOf : List UInt8 → Char
  | [a] => Char.ofNat a.toNat
  | [a, b] => Char.ofNat (a.toNat % 32 * 64 + b.toNat % 64)
  | [a, b, c] => Char.ofNat ((a.toNat % 16 * 64 + b.toNat % 64) * 64 + c.toNat % 64)
  | [a, b, c, d] =>
    Char.ofNat (((a.toNat % 8 * 64 + b.toNat % 64) * 64 + c.toNat % 64) * 64 + d.toNat % 64)
  | _ => replacement

/-- What an unfinished sequence becomes when it cannot go on. -/
def giveUp (pending : List UInt8) : List Char :=
  if pending = [] then [] else [replacement]

/-- The characters finished by a byte, and the sequence it leaves unfinished. -/
def feed (pending : List UInt8) (b : UInt8) : List Char × List UInt8 :=
  if continues pending b then
    let seq := pending ++ [b]
    if seq.length = width (seq.headD 0) then ([charOf seq], []) else ([], seq)
  else
    match width b with
    | 0 => (giveUp pending ++ [replacement], [])
    | 1 => (giveUp pending ++ [charOf [b]], [])
    | _ => (giveUp pending, [b])

def decode : List UInt8 → List UInt8 → List Char
  | pending, [] => giveUp pending
  | pending, b :: rest => (feed pending b).1 ++ decode (feed pending b).2 rest

/-- Decoding with every invalid part replaced. -/
def fromLossy (bytes : List UInt8) : List Char := decode [] bytes

/-! ## Cuts of the text -/

/-- An ASCII byte goes on with no sequence. -/
theorem continues_ascii {b : UInt8} (h : b < 0x80) (pending : List UInt8) :
    continues pending b = false := by
  have hnot : ¬ 0x80 ≤ b := UInt8.not_le.mpr h
  -- every byte that continues a character is at least 0x80
  have hlow : ∀ low : UInt8, 0x80 ≤ low → ¬ low ≤ b :=
    fun low hl hb => hnot (UInt8.le_trans hl hb)
  match pending with
  | [] => rfl
  | [first] =>
    unfold continues isSecond
    have ha : ¬ 0xA0 ≤ b := hlow 0xA0 (by decide)
    have h9 : ¬ 0x90 ≤ b := hlow 0x90 (by decide)
    simp [hnot, ha, h9]
  | _ :: _ :: _ => simp [continues, hnot]

/-- An ASCII byte is a character of its own and ends what was pending. -/
theorem feed_ascii {b : UInt8} (h : b < 0x80) (pending : List UInt8) :
    feed pending b = (giveUp pending ++ [charOf [b]], []) := by
  have hwidth : width b = 1 := if_pos h
  unfold feed
  rw [continues_ascii h, hwidth]
  rfl

/-- An ASCII byte ends whatever comes before it. -/
theorem decode_append_ascii {b : UInt8} (h : b < 0x80) (pending l r : List UInt8) :
    decode pending (l ++ b :: r) = decode pending l ++ charOf [b] :: fromLossy r := by
  induction l generalizing pending with
  | nil =>
    rw [List.nil_append]
    simp only [decode]
    rw [feed_ascii h]
    simp [fromLossy]
  | cons a l ih =>
    rw [List.cons_append]
    simp only [decode]
    rw [ih, List.append_assoc]

/-- Text can be cut at an ASCII byte. -/
theorem fromLossy_append_ascii {b : UInt8} (h : b < 0x80) (l r : List UInt8) :
    fromLossy (l ++ b :: r) = fromLossy l ++ charOf [b] :: fromLossy r :=
  decode_append_ascii h [] l r

/-- Without a continuation an unfinished sequence is given up and the byte starts
    anew. -/
theorem decode_cons_of_not_continues {pending : List UInt8} {b : UInt8}
    (h : continues pending b = false) (rest : List UInt8) :
    decode pending (b :: rest) = giveUp pending ++ decode [] (b :: rest) := by
  have hnil : continues [] b = false := rfl
  have hgive : giveUp [] = [] := rfl
  simp only [decode, feed, h, hnil, Bool.false_eq_true, if_false, hgive, List.nil_append]
  split <;> simp

/-- One byte is one character, perhaps a replaced one. -/
theorem length_fromLossy_singleton (b : UInt8) : (fromLossy [b]).length = 1 := by
  have hnil : continues [] b = false := rfl
  have hgive : giveUp [] = [] := rfl
  simp only [fromLossy, decode, feed, hnil, Bool.false_eq_true, if_false, hgive, List.nil_append]
  split <;> simp [giveUp]

/-- A byte that goes on with a sequence, or comes when none is unfinished, finishes
    at most one character. -/
theorem feed_cases {pending : List UInt8} {b : UInt8}
    (h : continues pending b = true ∨ pending = []) :
    (∃ c, feed pending b = ([c], [])) ∨ ∃ seq, feed pending b = ([], seq) := by
  unfold feed
  -- a byte that goes on with a sequence completes it or not; a first byte is a character, a
  -- replaced one, or the beginning of a sequence
  rcases h with hcont | rfl
  · rw [if_pos hcont]
    dsimp only
    split
    · exact .inl ⟨_, rfl⟩
    · exact .inr ⟨_, rfl⟩
  · have hnil : continues [] b = false := rfl
    rw [hnil]
    simp only [Bool.false_eq_true, if_false]
    split
    · exact .inl ⟨_, rfl⟩
    · exact .inl ⟨_, rfl⟩
    · exact .inr ⟨_, rfl⟩

/-- A cut between two decoded characters is a cut between two bytes. -/
theorem exists_decode_cut (pending bytes : List UInt8) {x y : List Char} (hx : x ≠ [])
    (h : decode pending bytes = x ++ y) :
    ∃ l r, bytes = l ++ r ∧ decode pending l = x ∧ fromLossy r = y := by
  induction bytes generalizing pending x with
  | nil =>
    -- at the end at most the replacement of an unfinished sequence is left
    have hlen : (x ++ y).length ≤ 1 := by
      rw [← h]
      simp only [decode, giveUp]
      split <;> simp
    have hy : y = [] := by
      have hpos := List.length_pos_iff.mpr hx
      rw [List.length_append] at hlen
      exact List.length_eq_zero_iff.mp (by omega)
    rw [hy, List.append_nil] at h
    exact ⟨[], [], rfl, h, hy.symm⟩
  | cons b rest ih =>
    -- when the byte finishes at most one character, the cut is after it or in the rest
    have hstep : ∀ {pending : List UInt8} {x : List Char}, x ≠ [] →
        decode pending (b :: rest) = x ++ y → continues pending b = true ∨ pending = [] →
        ∃ l r, b :: rest = l ++ r ∧ decode pending l = x ∧ fromLossy r = y := by
      intro pending x hx h hcases
      simp only [decode] at h
      rcases feed_cases hcases with ⟨c, hfeed⟩ | ⟨seq, hfeed⟩
      · rw [hfeed] at h
        obtain ⟨c', x, rfl⟩ := List.exists_cons_of_ne_nil hx
        simp only [List.cons_append, List.nil_append, List.cons.injEq] at h
        obtain ⟨rfl, h⟩ := h
        by_cases hx' : x = []
        · subst hx'
          exact ⟨[b], rest, rfl, by simp [decode, hfeed, giveUp], h⟩
        · obtain ⟨l, r, rfl, hl, hr⟩ := ih [] hx' h
          exact ⟨b :: l, r, rfl, by simp [decode, hfeed, hl], hr⟩
      · rw [hfeed] at h
        obtain ⟨l, r, rfl, hl, hr⟩ := ih seq hx h
        exact ⟨b :: l, r, rfl, by simp [decode, hfeed, hl], hr⟩
    by_cases hcases : continues pending b = true ∨ pending = []
    · exact hstep hx h hcases
    · -- the unfinished sequence is one replaced character of its own
      rw [not_or, Bool.not_eq_true] at hcases
      obtain ⟨hcont, hne⟩ := hcases
      have hgive : giveUp pending = [replacement] := if_neg hne
      rw [decode_cons_of_not_continues hcont, hgive] at h
      obtain ⟨c', x, rfl⟩ := List.exists_cons_of_ne_nil hx
      simp only [List.cons_append, List.nil_append, List.cons.injEq] at h
      obtain ⟨rfl, h⟩ := h
      by_cases hx' : x = []
      · subst hx'
        exact ⟨[], b :: rest, rfl, hgive, h⟩
      · obtain ⟨l, r, hsplit, hl, hr⟩ := hstep hx' h (.inr rfl)
        cases l with
        | nil => exact absurd hl.symm hx'
        | cons b' l =>
          obtain ⟨rfl, -⟩ := List.cons.inj hsplit
          refine ⟨b :: l, r, hsplit, ?_, hr⟩
          rw [decode_cons_of_not_continues hcont, hgive, hl]
          rfl

/-- A cut of the decoded text is one of the bytes. -/
theorem exists_cut {bytes : List UInt8} {x y : List Char} (h : fromLossy bytes = x ++ y) :
    ∃ l r, bytes = l ++ r ∧ fromLossy l = x ∧ fromLossy r = y := by
  by_cases hx : x = []
  · subst hx
    exact ⟨[], bytes, rfl, rfl, h⟩
  · exact exists_decode_cut [] bytes hx h

/-! ## Lines -/

/-- A line without the carriage return of its line ending. -/
def stripCr (line : List Char) : List Char :=
  if line.getLast? = some '\r' then line.dropLast else line

def linesFrom : List Char → List Char → List (List Char)
  | current, [] => if current = [] then [] else [current]
  | current, c :: rest =>
    if c = '\n' then stripCr current :: linesFrom [] rest else linesFrom (current ++ [c]) rest

/-- The lines of a text: each ends with a line feed, with a carriage return and a
    line feed, or with the text. -/
def lines (text : List Char) : List (List Char) := linesFrom [] text

/-- A line without its carriage return is a prefix of it. -/
theorem isPrefix_stripCr (line : List Char) : stripCr line <+: line := by
  unfold stripCr
  split
  · exact List.dropLast_prefix line
  · exact List.prefix_refl line

/-- A line has no line feed and stands in the text. -/
theorem mem_linesFrom {current text line : List Char} (hcur : '\n' ∉ current)
    (h : line ∈ linesFrom current text) : '\n' ∉ line ∧ line <:+: current ++ text := by
  -- the current line holds no line feed
  induction text generalizing current with
  | nil =>
    simp only [linesFrom] at h
    split at h
    · cases h
    · rw [List.mem_singleton.mp h, List.append_nil]
      exact ⟨hcur, List.infix_refl _⟩
  | cons c rest ih =>
    simp only [linesFrom] at h
    split at h
    · rcases List.mem_cons.mp h with rfl | h
      · -- a line ends here, without its carriage return
        have hpre := isPrefix_stripCr current
        refine ⟨fun hmem => hcur (hpre.subset hmem), ?_⟩
        exact hpre.isInfix.trans (List.prefix_append _ _).isInfix
      · obtain ⟨hline, hinfix⟩ := ih (by simp) h
        rw [List.nil_append] at hinfix
        exact ⟨hline, hinfix.trans ((List.suffix_cons c rest).trans
          (List.suffix_append current (c :: rest))).isInfix⟩
    · -- the character belongs to the current line
      rename_i hc
      -- the current line grows by one character
      have hcur' : '\n' ∉ current ++ [c] := by
        simp only [List.mem_append, List.mem_singleton, not_or]
        exact ⟨hcur, fun heq => hc heq.symm⟩
      have := ih hcur' h
      rwa [List.append_assoc, List.singleton_append] at this

/-- A line of a decoded text is the text of some part of the bytes. -/
theorem exists_infix_of_mem_lines {bytes : List UInt8} {line : List Char}
    (h : line ∈ lines (fromLossy bytes)) :
    '\n' ∉ line ∧ ∃ seg, seg <:+: bytes ∧ fromLossy seg = line := by
  obtain ⟨hline, u, v, huv⟩ := mem_linesFrom (by simp) h
  rw [List.nil_append, List.append_assoc] at huv
  obtain ⟨l, r, rfl, -, hr⟩ := exists_cut huv.symm
  obtain ⟨seg, r', rfl, hseg, -⟩ := exists_cut hr
  exact ⟨hline, seg, ⟨l, r', by simp⟩, hseg⟩

/-- `part` stands at the beginning of `text` or right behind a line feed or a carriage
    return. -/
def AtLineStart (part text : List Char) : Prop :=
  part <+: text ∨ ∃ u c v, text = u ++ c :: v ∧ (c = '\n' ∨ c = '\r') ∧ part <+: v

/-- What a part begins with stands where the part stands. -/
theorem AtLineStart.of_isPrefix {part part' text : List Char} (h : AtLineStart part text)
    (hpre : part' <+: part) : AtLineStart part' text := by
  rcases h with h | ⟨u, c, v, htext, hc, h⟩
  · exact .inl (hpre.trans h)
  · exact .inr ⟨u, c, v, htext, hc, hpre.trans h⟩

/-- What stands at the beginning of a line of the rest stands so in the whole text. -/
theorem AtLineStart.behind {part rest : List Char} (h : AtLineStart part rest) (u : List Char)
    {c : Char} (hc : c = '\n' ∨ c = '\r') : AtLineStart part (u ++ c :: rest) := by
  rcases h with h | ⟨u', c', v, rfl, hc', h⟩
  · exact .inr ⟨u, c, rest, rfl, hc, h⟩
  · exact .inr ⟨u ++ c :: u', c', v, by simp, hc', h⟩

/-- A line stands at the start of a line. -/
theorem atLineStart_of_mem_linesFrom {current text line : List Char}
    (h : line ∈ linesFrom current text) : AtLineStart line (current ++ text) := by
  -- the current line begins where the last one ended
  induction text generalizing current with
  | nil =>
    simp only [linesFrom] at h
    split at h
    · cases h
    · rw [List.mem_singleton.mp h, List.append_nil]
      exact .inl (List.prefix_refl _)
  | cons c rest ih =>
    simp only [linesFrom] at h
    split at h
    · -- a later line stands behind the line feed
      rename_i hc
      rcases List.mem_cons.mp h with rfl | h
      · exact .inl ((isPrefix_stripCr current).trans (List.prefix_append _ _))
      · exact (ih h).behind current (.inl hc)
    · have := ih h
      rwa [List.append_assoc, List.singleton_append] at this

/-- A line stands at the beginning of a line. -/
theorem atLineStart_of_mem_lines {text line : List Char} (h : line ∈ lines text) :
    AtLineStart line text :=
  atLineStart_of_mem_linesFrom h

/-- A text without a line feed is one line, or none if it is empty. -/
theorem linesFrom_eq_single {current text : List Char} (h : '\n' ∉ text) :
    linesFrom current text = if current ++ text = [] then [] else [current ++ text] := by
  induction text generalizing current with
  | nil => simp [linesFrom]
  | cons c rest ih =>
    simp only [List.mem_cons, not_or] at h
    simp only [linesFrom]
    rw [if_neg (Ne.symm h.1), ih h.2, List.append_assoc, List.singleton_append]

/-- A text without line feed is one line, unless it is empty. -/
theorem lines_eq_single {text : List Char} (h : '\n' ∉ text) (hne : text ≠ []) :
    lines text = [text] := by
  unfold lines
  rw [linesFrom_eq_single h, List.nil_append, if_neg hne]

/-- A text can be cut behind a line feed. -/
theorem linesFrom_append (current text rest : List Char) :
    linesFrom current (text ++ '\n' :: rest) =
      linesFrom current (text ++ ['\n']) ++ lines rest := by
  induction text generalizing current with
  | nil => simp [linesFrom, lines]
  | cons c text ih =>
    simp only [List.cons_append, linesFrom]
    split
    · rw [ih, List.cons_append]
    · exact ih _

/-- The lines of a text that is cut after a line feed. -/
theorem lines_append (text rest : List Char) :
    lines (text ++ '\n' :: rest) = lines (text ++ ['\n']) ++ lines rest :=
  linesFrom_append [] text rest

end Utf8
