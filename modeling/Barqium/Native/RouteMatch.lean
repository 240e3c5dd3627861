import Barqium.Native.Config

/-!
# Route matching in the data plane

Model of `find_route` in `crates/barqium-core/src/snapshot.rs` and of
`UpstreamHealth::is_healthy` in `upstream_health.rs`.
-/

namespace Barqium.Native

/-- `str::eq_ignore_ascii_case`. -/
def eqIgnoreAsciiCase (a b : String) : Bool :=
  a.toList.map Char.toLower = b.toList.map Char.toLower

/-- `str::starts_with` with a string pattern. -/
def startsWith (s pat : String) : Bool :=
  pat.toList.isPrefixOf s.toList

/-- Shared upstream health state, by upstream id. -/
structure UpstreamHealth where
  healthy : HashMap Bool

namespace UpstreamHealth

/-- True if the upstream is healthy or has not been probed yet. -/
def isHealthy (h : UpstreamHealth) (upstreamId : String) : Bool :=
  (h.healthy.lookup upstreamId).getD true

end UpstreamHealth

/-- Minimal data extracted from a route match. -/
structure RouteMatch where
  routeId : String
  upstreamId : String
  upstreamUrl : String
  timeoutMs : UInt32
  policyIds : List String
  deriving Repr, DecidableEq

/-- What a request is matched by. -/
structure MatchRequest where
  method : String
  path : String
  host : String
  deriving Repr, DecidableEq

/-- `best` and `best_prefix_len`. -/
structure BestMatch where
  best : Option RouteMatch
  bestPrefixLen : Nat
  deriving Repr, DecidableEq

/-- The match reported for a route served by `upstream`. -/
def routeMatch (route : RouteEntry) (upstream : UpstreamEntry) : RouteMatch where
  routeId := route.id
  upstreamId := route.upstreamId
  upstreamUrl := upstream.url
  timeoutMs := upstream.timeoutMs
  policyIds := route.policyIds

/-- The body of the loop of `find_route`, for one route. -/
def considerRoute (snapshot : RouteSnapshot) (req : MatchRequest) (health : Option UpstreamHealth)
    (acc : BestMatch) (route : RouteEntry) : BestMatch :=
  if !route.enabled then acc
  else if route.method ≠ "*" && !eqIgnoreAsciiCase route.method req.method then acc
  else if !startsWith req.path route.pathPrefix then acc
  else if route.host ≠ "" && route.host ≠ req.host then acc
  -- only a longer prefix replaces the best match so far
  else if route.pathPrefix.utf8ByteSize ≤ acc.bestPrefixLen then acc
  else if health.any fun h => !h.isHealthy route.upstreamId then acc
  else
    match snapshot.upstreamById route.upstreamId with
    | some upstream =>
      { best := some (routeMatch route upstream)
        bestPrefixLen := route.pathPrefix.utf8ByteSize }
    | none => acc

/-- The enabled route that matches method, path and host and has the longest path
    prefix, skipping upstreams marked unhealthy. -/
def findRoute (snapshot : RouteSnapshot) (req : MatchRequest)
    (health : Option UpstreamHealth) : Option RouteMatch :=
  (snapshot.routes.foldl (considerRoute snapshot req health) ⟨none, 0⟩).best

end Barqium.Native
