import Barqium.Native.Json

/-!
# Deserialising JSON

What the Rust crates use of serde_json. Parsing a text is foreign code and stays a
parameter. Making a struct out of a value is what `derive(Deserialize)` generates:
an object gives the fields by name, an array gives them by position.
-/

namespace Barqium.Native

/-- serde_json: an object takes at least its two braces. -/
structure SerdeJson where
  Error : Type
  /-- `serde_json::from_str` for a `Value`. -/
  fromStr : List Char → Except Error Json
  two_le_of_fromStr_obj : ∀ text members, fromStr text = .ok (.obj members) → 2 ≤ text.length
  /-- The error of `serde_json::from_value` for a value that does not fit. -/
  valueError : Json → Error

namespace Serde

/-! ## The tokens of a JSON text -/

/-- Characters of a JSON text outside its strings: white space, the structural
    characters, and those of numbers and of `true`, `false` and `null`. -/
def isPlain (c : Char) : Bool :=
  " \t\n\r\x7b\x7d[]:,+-.0123456789eEtruefalsn".toList.contains c

/-- A character that has to be escaped in a string. -/
def isControl (c : Char) : Bool := c.val < 0x20

/-- Where the reader of a text stands. -/
inductive LexState where
  | plain
  | inString
  | escaped
  deriving Repr, DecidableEq

def LexState.step : LexState → Char → Option LexState
  | .plain, c => if c = '"' then some .inString else if isPlain c then some .plain else none
  | .inString, c =>
    if isControl c then none
    else if c = '"' then some .plain
    else if c = '\\' then some .escaped
    else some .inString
  | .escaped, c => if isControl c then none else some .inString

/-- The text reads as a sequence of JSON tokens, with every string closed. -/
def isTokens (text : List Char) : Bool :=
  text.foldlM LexState.step .plain = some .plain

/-! ## Structs -/

/-- The values of the fields of a struct, none for a field that is missing. -/
def structFields (names : List String) : Json → Option (List (Option Json))
  | .obj members => some (names.map fun name => members.lookup name)
  -- also a field of type `Option` needs its element
  | .arr elems => if elems.length = names.length then some (elems.map some) else none
  | _ => none

/-- The fields of a struct that is read off a text: a field must not be there twice. -/
def textFields (names : List String) (v : Json) : Option (List (Option Json)) :=
  match v with
  | .obj members =>
    if ((members.map Prod.fst).filter (· ∈ names)).Nodup then structFields names v else none
  | _ => structFields names v

/-- A field that has to be there. -/
def required {α : Type} (decode : Json → Option α) (field : Option Json) : Option α :=
  field.bind decode

/-- A field of type `Option`: missing or null is none. -/
def optional {α : Type} (decode : Json → Option α) : Option Json → Option (Option α)
  | none => some none
  | some .null => some none
  | some value => (decode value).map some

def string : Json → Option String := Json.asStr

def vec {α : Type} (decode : Json → Option α) : Json → Option (List α)
  | .arr elems => elems.mapM decode
  | _ => none

/-- A `u32`: a literal of digits, without sign, fraction or exponent. -/
def u32 : Json → Option UInt32
  | .num literal =>
    let digits := literal.toList
    let value := digits.foldl (fun n c => 10 * n + (c.toNat - '0'.toNat)) 0
    if digits ≠ [] ∧ digits.all Char.isDigit ∧ value < UInt32.size then some (UInt32.ofNat value)
    else none
  | _ => none

end Serde

end Barqium.Native
