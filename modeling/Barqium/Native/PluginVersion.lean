import Barqium.ForStd.Digits
import Barqium.ForStd.List

/-!
# Plugin versions

Model of `crates/barqium-wasm/src/version.rs`.
-/

namespace Barqium.Native.PluginVersion

/-- Errors returned by `versionFromStr`. -/
inductive VersionParseError where
  /-- The string was empty. -/
  | empty
  /-- The string did not match the `MAJOR.MINOR.PATCH` pattern. -/
  | invalidFormat (s : String)
  /-- One of the numeric components could not be parsed as a `u32`. -/
  | nonNumericComponent (component raw : String)
  deriving Repr, DecidableEq

/-- `Display` of an error. -/
def VersionParseError.display : VersionParseError → String
  | .empty => "version string is empty"
  | .invalidFormat s => "expected MAJOR.MINOR.PATCH format, got: " ++ s
  | .nonNumericComponent component raw =>
    "component '" ++ component ++ "' in '" ++ raw ++ "' is not a number"

/-- `u32::from_str`: a plus sign may stand before the digits. -/
def parseU32 (part : List Char) : Option Nat := Digits.parseUnsigned (2 ^ 32) part

/-- The loop over the parts. -/
def checkParts (raw : String) : List (List Char) → Except VersionParseError Unit
  | [] => .ok ()
  | part :: parts =>
    match parseU32 part with
    | none => .error (.nonNumericComponent (String.ofList part) raw)
    | some _ => checkParts raw parts

/-- Parses a version string of the form `MAJOR.MINOR.PATCH`. -/
def versionFromStr (s : String) : Except VersionParseError String :=
  if s.isEmpty then .error .empty
  else
    let parts := s.toList.splitn '.' 4
    if parts.length ≠ 3 then .error (.invalidFormat s)
    else (checkParts s parts).map fun _ => s

end Barqium.Native.PluginVersion
