/-!
# JSON values

The JSON trees the gateway and the control API exchange. A number is kept as its
literal, since the decoders differ in the numbers they accept. An object is the
list of its members.
-/

namespace Barqium.Native

inductive Json where
  | null
  | bool (b : Bool)
  | num (literal : String)
  | str (s : String)
  | arr (elems : List Json)
  | obj (members : List (String × Json))
  deriving Repr, BEq

namespace Json

/-- `value[key]` of serde_json: null for a missing member and for a value that is
    not an object. -/
def index (value : Json) (key : String) : Json :=
  match value with
  | .obj members => (members.lookup key).getD .null
  | _ => .null

/-- `Value::as_str`. -/
def asStr : Json → Option String
  | .str s => some s
  | _ => none

end Json

end Barqium.Native
