import Barqium.ForStd.UriText
import Barqium.Native.ProxyService

/-!
# Upstream URIs

`build_upstream_uri` in `crates/barqium-core/src/forwarder.rs` with all parts of the URI that it
makes, and the forms of a request target that it is given. Scheme and authority of a target in
absolute form are not read.
-/

namespace Barqium.Native

/-- A parsed URI with the parts that the connection of the client reads. -/
structure FullUri extends Uri where
  scheme : Option String
  authority : Option String
  query : Option String
  deriving Repr, DecidableEq

/-- An absolute path, up to its query. -/
structure TargetPath where
  text : List Char
  head : text.head? = some '/'
  plain : '#' ∉ text ∧ '?' ∉ text

abbrev QueryText := { text : List Char // '#' ∉ text }

/-- The target of a request. -/
inductive RequestTarget where
  | originForm (path : TargetPath) (query : Option QueryText)
  | absoluteForm (path : Option TargetPath) (query : Option QueryText)
  | asteriskForm

/-- `Uri::path`: an empty path reads as `/`. -/
def nonemptyPath (path : List Char) : List Char := if path = [] then ['/'] else path

namespace RequestTarget

/-- The path as the target has it. -/
def rawPath : RequestTarget → List Char
  | originForm path _ => path.text
  | absoluteForm path _ => (path.map TargetPath.text).getD []
  | asteriskForm => ['*']

def query : RequestTarget → Option (List Char)
  | originForm _ query => query.map Subtype.val
  | absoluteForm _ query => query.map Subtype.val
  | asteriskForm => none

def path (target : RequestTarget) : List Char := nonemptyPath target.rawPath

/-- `PathAndQuery::as_str`: an empty text reads as `/`. -/
def pathAndQuery (target : RequestTarget) : List Char :=
  nonemptyPath (target.rawPath ++ UriText.queryText target.query)

/-- The URI of a request with this target. -/
def uri (target : RequestTarget) (host : Option String) (port : Option UInt16) : Uri where
  host := host
  port := port
  path := String.ofList target.path
  pathAndQuery := some (String.ofList target.pathAndQuery)

end RequestTarget

/-- `build_upstream_uri` with all parts of the result. -/
def buildUpstreamFullUri (parse : String → Except String FullUri) (upstreamUrl : String)
    (original : Uri) : Except ProxyError FullUri :=
  let base := String.ofList (upstreamUrl.toList.reverse.dropWhile (· = '/')).reverse
  let pq := original.pathAndQuery.getD "/"
  (parse (base ++ pq)).mapError fun e => .snapshot ("invalid upstream URI: " ++ e)

/-- The forwarder reads some of the parts. -/
theorem buildUpstreamUri_eq_map {http : Http} {R : Type} (net : Net http R)
    (parse : String → Except String FullUri)
    (hparse : ∀ text, net.parseUri text = (parse text).map FullUri.toUri)
    (upstreamUrl : String) (original : Uri) :
    buildUpstreamUri net upstreamUrl original =
      (buildUpstreamFullUri parse upstreamUrl original).map FullUri.toUri := by
  simp only [buildUpstreamUri, buildUpstreamFullUri, hparse]
  generalize parse _ = parsed
  cases parsed with
  | error e => rfl
  | ok uri => rfl

end Barqium.Native
