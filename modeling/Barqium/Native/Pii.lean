import Mathlib.Data.List.Sort
import Barqium.ForStd.Replace
import Barqium.ForStd.Spans
import Barqium.ForStd.Text
import Barqium.ForStd.Walk

/-!
# PII redaction

Model of `crates/barqium-policy/src/pii.rs`: the two detectors, the redaction that
puts a token in place of the spans they report, and the restoration of the
original text.

Texts are lists of characters and offsets count UTF-8 bytes. A slice that cuts a
character panics in the source and is `none` here, so `none` stands for a panic
throughout.
-/

namespace Barqium.Native.Pii

/-- `char::is_alphanumeric`, of which only the ASCII part is fixed here. -/
structure Unicode where
  isAlphanumeric : Char → Bool
  isAlphanumeric_ascii : ∀ c : Char, c.val < 0x80 → isAlphanumeric c = c.isAlphanum

/-- Detected PII span: byte offsets in the original text. -/
structure PiiSpan where
  label : List Char
  span : Span
  deriving Repr, DecidableEq

/-! ## Detectors -/

variable (unicode : Unicode)

def isLocalChar (c : Char) : Bool :=
  unicode.isAlphanumeric c || c == '.' || c == '_' || c == '-' || c == '+'

def isDomainChar (c : Char) : Bool :=
  unicode.isAlphanumeric c || c == '.' || c == '-'

/-- Where the local part and the domain around an `@` begin and end. The source adds
    1 to the offset of the character before the local part, whatever its length. -/
def emailAround (text : List Char) (atSign : Nat) : Option Span := do
  let left ← Text.sliceTo text atSign
  -- inside the character found, if that has more than one byte
  let start := ((Text.rfind (fun c => !isLocalChar unicode c) left).map (· + 1)).getD 0
  let right ← Text.sliceFrom text (atSign + 1)
  let stop := ((Text.find (fun c => !isDomainChar unicode c) right).map (atSign + 1 + ·)).getD
    (Text.byteLen text)
  some ⟨start, stop⟩

/-- The loop of `detectEmail` from offset `i` on; none when the fuel is used up. -/
def emailsFrom (text : List Char) : Nat → Nat → Option (List Span)
  | 0, _ => none
  | fuel + 1, i =>
    if i < Text.byteLen text then do
      let rest ← Text.sliceFrom text i
      match Text.find (· == '@') rest with
      | some found =>
        let atSign := i + found
        let span ← emailAround unicode text atSign
        -- the search goes on behind the domain, reported or not
        let spans ← emailsFrom text fuel span.stop
        if span.stop > atSign + 2 ∧ atSign > span.start then some (span :: spans) else some spans
      | none => some []
    else some []

def detectEmail (text : List Char) : Option (List Span) :=
  emailsFrom unicode text (Text.byteLen text + 1) 0

def isPhoneChar (c : Char) : Bool :=
  c.isDigit || c == ' ' || c == '-' || c == '(' || c == ')' || c == '+' || c == '.'

/-- The loop of `detectPhone` from the character with index `i` on; none when the
    fuel is used up. -/
def phonesFrom (chars : List Char) : Nat → Nat → Option (List Span)
  | 0, _ => none
  | fuel + 1, i =>
    match chars.drop i with
    | [] => some []
    | c :: rest =>
      if c.isDigit || c == '+' then do
        let number := (c :: rest).takeWhile isPhoneChar
        let digitCount := number.countP Char.isDigit
        let j := i + number.length
        -- a run is never looked at again, also when it has too few or too many digits
        let spans ← phonesFrom chars fuel (if j > i then j else i + 1)
        if 10 ≤ digitCount ∧ digitCount ≤ 15 then
          some (⟨Text.byteLen (chars.take i), Text.byteLen (chars.take j)⟩ :: spans)
        else some spans
      else phonesFrom chars fuel (i + 1)

def detectPhone (text : List Char) : Option (List Span) :=
  phonesFrom text (text.length + 1) 0

/-! ## Redaction -/

/-- `Uuid::to_string`: 32 hexadecimal digits in groups of 8, 4, 4, 4 and 12. -/
def uuidToString (uuid : BitVec 128) : List Char :=
  let digits := (List.range 32).map fun i => Nat.digitChar (uuid.toNat / 16 ^ (31 - i) % 16)
  digits.take 8 ++ '-' :: (digits.drop 8).take 4 ++ '-' :: (digits.drop 12).take 4 ++
    '-' :: (digits.drop 16).take 4 ++ '-' :: digits.drop 20

/-- A string pushed to the result of `redact`: a copy of the text from offset `start`
    on, or a token with what it stands for. -/
inductive Push where
  | copied (start : Nat) (chars : List Char)
  | token (name original : List Char)
  deriving Repr, DecidableEq

namespace Push

def chars : Push → List Char
  | copied _ chars => chars
  | token name _ => name

/-- The token and the value it stands for. -/
def entry? : Push → Option (List Char × List Char)
  | copied _ _ => none
  | token name original => some (name, original)

end Push

/-- The spans of both detectors. -/
def allSpans (text : List Char) : Option (List PiiSpan) := do
  let emails ← detectEmail unicode text
  let phones ← detectPhone text
  some (emails.map (PiiSpan.mk "EMAIL".toList) ++ phones.map (PiiSpan.mk "PHONE".toList))

/-- By start offset, then the longest span first. The sort is stable. -/
def sortSpans (spans : List PiiSpan) : List PiiSpan :=
  spans.insertionSort fun a b => a.span.Order b.span

/-- The token of a label; the digits of a UUID are ASCII, so 8 bytes are 8 characters. -/
def makeToken (label : List Char) (uuid : BitVec 128) : List Char :=
  '[' :: label ++ ':' :: (uuidToString uuid).take 8 ++ [']']

/-- The loop of `redact` over the sorted spans. `uuids n` is the `n`-th UUID that is
    drawn. -/
def pushesFrom (text : List Char) (uuids : Nat → BitVec 128) :
    Nat → Nat → List PiiSpan → Option (List Push)
  | _, cursor, [] => do
    let rest ← Text.sliceFrom text cursor
    some [.copied cursor rest]
  | n, cursor, s :: spans =>
    -- a span that begins inside the last one is dropped as a whole
    if s.span.start < cursor then pushesFrom text uuids n cursor spans
    else do
      let before ← Text.slice text cursor s.span.start
      let original ← Text.slice text s.span.start s.span.stop
      let rest ← pushesFrom text uuids (n + 1) s.span.stop spans
      some (.copied cursor before :: .token (makeToken s.label (uuids n)) original :: rest)

/-- Everything `redact` pushes to its result. -/
def pushes (text : List Char) (uuids : Nat → BitVec 128) : Option (List Push) := do
  let spans ← allSpans unicode text
  pushesFrom text uuids 0 0 (sortSpans spans)

/-- The result of a redaction pass. -/
structure RedactedText where
  /-- The text with PII replaced by opaque tokens. -/
  redacted : List Char
  /-- Map from opaque token back to the original value. -/
  tokenMap : Finmap fun _ : List Char => List Char

def redact (text : List Char) (uuids : Nat → BitVec 128) : Option RedactedText := do
  let pushed ← pushes unicode text uuids
  some {
    redacted := pushed.flatMap Push.chars
    tokenMap := (pushed.filterMap Push.entry?).foldl (fun m e => m.insert e.1 e.2) ∅ }

/-- Restore original PII values by reversing the token map, in the order of `walk`. -/
def RedactedText.restore (r : RedactedText) (walk : Finmap.Walk r.tokenMap) : List Char :=
  walk.val.foldl (fun text e => Replace.replace e.1 e.2 text) r.redacted

end Barqium.Native.Pii
