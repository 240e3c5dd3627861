import Barqium.Native.ProxyService
import Barqium.Spec.RouteMatchCorrect
import Barqium.Spec.WasmPluginCorrect

/-!
# The proxy service and the health of upstreams

`find_route` skips unhealthy upstreams when it is given the health state, but
`ProxyService::call` gives it none. The route of a request is therefore the same
whatever the health checker has found. What goes out to an upstream depends on more
than the route: the URL must be one that a request can be sent to.

## Key results

- `ProxyService.forwarded_iff`: what a call sends, by the route it matches
- `ProxyService.bypassesUnhealthy_iff`: when requests are kept from unhealthy upstreams
-/

namespace Barqium.Native.ProxyService

variable {http : Http} {R : Type}

/-! ## What goes out -/

/-- What can go out to the upstream of a match: for an upgrade the request as it is, over
    a connection to the host of the URL; else the request with the URL before its target,
    when the client gets a connection. -/
inductive SentTo (net : Net http R) (req : HttpRequest http) (m : RouteMatch) : Sent http → Prop
  | connection {uri : Uri} {host : String} (hupgrade : isWebsocketUpgrade req.headers = true)
      (huri : net.parseUri m.upstreamUrl = .ok uri) (hhost : uri.host = some host)
      (hconnect : net.connect host (uri.port.getD 80) m.timeoutMs = .ok ()) :
      SentTo net req m (.connection host (uri.port.getD 80) req)
  | client {uri : Uri} {upstreamReq : HttpRequest http}
      (hplain : isWebsocketUpgrade req.headers = false)
      (huri : buildUpstreamUri net m.upstreamUrl req.uri = .ok uri)
      (hreq : upstreamReq =
        { req with
          uri
          version := if isGrpc req.headers then .http2 else req.version
          headers := stripHopByHop req.headers })
      (hconnected : (net.request upstreamReq m.timeoutMs).connected = true) :
      SentTo net req m (.client upstreamReq)

/-- No request gets out to the upstream of the match. -/
def Unsendable (net : Net http R) (req : HttpRequest http) (m : RouteMatch) : Prop :=
  ∀ s, ¬ SentTo net req m s

/-- What `proxy_websocket` sends. -/
private theorem proxyWebsocket_sent {net : Net http R} {req : HttpRequest http} {m : RouteMatch}
    (h : isWebsocketUpgrade req.headers = true) (s : Sent http) :
    (proxyWebsocket net req m.upstreamUrl m.timeoutMs).sent = some s ↔ SentTo net req m s := by
  constructor
  · intro hsent
    unfold proxyWebsocket at hsent
    -- each way to fail leaves nothing sent
    cases huri : net.parseUri m.upstreamUrl with
    | error e => simp [huri] at hsent
    | ok uri =>
      cases hhost : uri.host with
      | none => simp [huri, hhost] at hsent
      | some host =>
        cases hconnect : net.connect host (uri.port.getD 80) m.timeoutMs with
        | error e => simp [huri, hhost, hconnect] at hsent
        | ok _ =>
          obtain rfl : .connection host (uri.port.getD 80) req = s := by
            simpa [huri, hhost, hconnect] using hsent
          exact .connection h huri hhost hconnect
  · rintro (⟨-, huri, hhost, hconnect⟩ | ⟨hplain, -, -, -⟩)
    · simp [proxyWebsocket, huri, hhost, hconnect]
    · rw [h] at hplain
      cases hplain

/-- What the forwarder sends. -/
private theorem forward_sent {net : Net http R} {req : HttpRequest http} {m : RouteMatch}
    (h : isWebsocketUpgrade req.headers = false) (s : Sent http) :
    (forward net req m).sent = some s ↔ SentTo net req m s := by
  constructor
  · intro hsent
    unfold forward at hsent
    cases huri : buildUpstreamUri net m.upstreamUrl req.uri with
    | error e => simp [huri] at hsent
    | ok uri =>
      simp only [huri, Option.ite_none_right_eq_some, Option.some.injEq] at hsent
      -- the URI was built, and the client got through
      obtain ⟨hconnected, rfl⟩ := hsent
      exact .client h huri rfl hconnected
  · rintro (⟨hupgrade, -, -, -⟩ | ⟨-, huri, rfl, hconnected⟩)
    · rw [h] at hupgrade
      cases hupgrade
    · simp [forward, huri, hconnected]

variable (net : Net http R) (snapshot : RouteSnapshot) (health : UpstreamHealth)
  (req : HttpRequest http)

/-- On every branch the call matches the route that is found without the health
    state. -/
theorem matched_eq :
    (call net (.ok snapshot) req).matched = findRoute snapshot (matchRequest req) none := by
  have hmatch : matchRoute (.ok snapshot) (matchRequest req) none =
      .ok (findRoute snapshot (matchRequest req) none) := rfl
  unfold call
  rw [hmatch]
  cases findRoute snapshot (matchRequest req) none with
  | none => rfl
  | some m =>
    dsimp only
    split <;> rfl

/-- A call sends what can go out to the upstream of the route that it matches. -/
theorem forwarded_iff (s : Sent http) :
    (∃ branch, (call net (.ok snapshot) req).forwarded = some (branch, s)) ↔
      ∃ m, (call net (.ok snapshot) req).matched = some m ∧ SentTo net req m s := by
  have hmatch : matchRoute (.ok snapshot) (matchRequest req) none =
      .ok (findRoute snapshot (matchRequest req) none) := rfl
  rw [matched_eq]
  unfold call
  rw [hmatch]
  cases findRoute snapshot (matchRequest req) none with
  | none => simp
  | some m =>
    -- an upgrade goes to the tunnel, everything else to the client
    by_cases hupgrade : isWebsocketUpgrade req.headers = true
    · simp [hupgrade, ← proxyWebsocket_sent hupgrade]
    · rw [Bool.not_eq_true] at hupgrade
      simp [hupgrade, ← forward_sent hupgrade]

/-- Something goes out for a match if something can. -/
theorem forwarded_isSome_iff {m : RouteMatch}
    (h : (call net (.ok snapshot) req).matched = some m) :
    (call net (.ok snapshot) req).forwarded ≠ none ↔ ¬ Unsendable net req m := by
  simp only [Unsendable, not_forall, not_not]
  constructor
  · intro hforward
    obtain ⟨⟨branch, s⟩, hs⟩ := Option.ne_none_iff_exists'.mp hforward
    obtain ⟨m', hm', hsent⟩ := (forwarded_iff net snapshot req s).mp ⟨branch, hs⟩
    -- only the route that was matched is sent to
    obtain rfl : m = m' := Option.some.inj (h.symm.trans hm')
    exact ⟨s, hsent⟩
  · rintro ⟨s, hsent⟩
    obtain ⟨branch, hs⟩ := (forwarded_iff net snapshot req s).mpr ⟨m, h, hsent⟩
    exact Option.ne_none_iff_exists'.mpr ⟨_, hs⟩

/-! ## The health of upstreams -/

/-- The call forwards only to a healthy upstream; and if a route with a healthy
    upstream is eligible, it matches a longest one of these and forwards what can go
    out to its upstream. A route with an empty prefix is never matched. -/
def BypassesUnhealthy : Prop :=
  (∀ m, (call net (.ok snapshot) req).matched = some m →
    (call net (.ok snapshot) req).forwarded ≠ none → health.isHealthy m.upstreamId = true) ∧
  ((∃ r ∈ snapshot.routes, Eligible snapshot (matchRequest req) (some health) r ∧
      r.pathPrefix ≠ "") →
    ∃ r u, Longest snapshot (matchRequest req) (some health) r ∧
      snapshot.upstreamById r.upstreamId = some u ∧
      (call net (.ok snapshot) req).matched = some (routeMatch r u) ∧
      ∀ s, SentTo net req (routeMatch r u) s →
        ∃ branch, (call net (.ok snapshot) req).forwarded = some (branch, s))

/-- The first listed of the routes with the longest prefix that may serve the
    request, whatever the health of their upstreams. -/
def firstLongest : Option RouteEntry :=
  (candidates snapshot (matchRequest req) none snapshot.routes).argmax RouteEntry.prefixLen

variable {net snapshot health req}

/-- The first longest route is matched. -/
private theorem matched_of_firstLongest {r : RouteEntry} (h : firstLongest snapshot req = some r) :
    ∃ u, snapshot.upstreamById r.upstreamId = some u ∧
      (call net (.ok snapshot) req).matched = some (routeMatch r u) := by
  have hcand := mem_candidates.mp (List.argmax_mem h)
  obtain ⟨u, hu⟩ := Option.isSome_iff_exists.mp (eligible_iff.mp hcand.2.1).2.2.2.2.2
  refine ⟨u, hu, ?_⟩
  rw [matched_eq, findRoute_eq_argmax, show List.argmax _ _ = some r from h, Option.bind_some, hu,
    Option.map_some]

/-- What is matched comes from the first longest route. -/
private theorem firstLongest_of_matched {m : RouteMatch}
    (h : (call net (.ok snapshot) req).matched = some m) :
    ∃ r u, firstLongest snapshot req = some r ∧ snapshot.upstreamById r.upstreamId = some u ∧
      m = routeMatch r u := by
  rw [matched_eq, findRoute_eq_argmax] at h
  obtain ⟨r, hr, hm⟩ := Option.bind_eq_some_iff.mp h
  obtain ⟨u, hu, rfl⟩ := Option.map_eq_some_iff.mp hm
  exact ⟨r, u, hr, hu, rfl⟩

/-- The health state only takes routes out of the choice. -/
theorem eligible_some_iff {snapshot : RouteSnapshot} {req : MatchRequest}
    {health : UpstreamHealth} {r : RouteEntry} :
    Eligible snapshot req (some health) r ↔
      Eligible snapshot req none r ∧ health.isHealthy r.upstreamId = true := by
  rw [isHealthy_iff]
  simp only [Eligible, Option.mem_def, Option.some.injEq, forall_eq', reduceCtorEq, false_imp_iff,
    implies_true, true_and]
  tauto

/-- If the first longest route has a healthy upstream, it is a longest one among
    the routes with healthy upstreams. -/
private theorem longest_of_firstLongest {r : RouteEntry} (h : firstLongest snapshot req = some r)
    (hr : health.isHealthy r.upstreamId = true) :
    Longest snapshot (matchRequest req) (some health) r := by
  obtain ⟨hmem, heligible, hne⟩ := mem_candidates.mp (List.argmax_mem h)
  refine ⟨hmem, eligible_some_iff.mpr ⟨heligible, hr⟩, hne, fun r' hr' he' => ?_⟩
  by_cases hne' : r'.pathPrefix = ""
  · simp [RouteEntry.prefixLen, hne']
  · have he := (eligible_some_iff.mp he').1
    exact List.le_of_mem_argmax (mem_candidates.mpr ⟨hr', he, hne'⟩) h

/-- The condition is on the first of the longest routes that may serve the request, found
    without regard to health: its upstream is healthy; or nothing can go out to it, and no
    route with a healthy upstream may serve the request. -/
theorem bypassesUnhealthy_iff (net : Net http R) (snapshot : RouteSnapshot)
    (health : UpstreamHealth) (req : HttpRequest http) :
    BypassesUnhealthy net snapshot health req ↔
      ∀ r u, firstLongest snapshot req = some r → snapshot.upstreamById r.upstreamId = some u →
        health.isHealthy r.upstreamId = true ∨
          Unsendable net req (routeMatch r u) ∧
            ∀ r' ∈ snapshot.routes, Eligible snapshot (matchRequest req) (some health) r' →
              r'.pathPrefix = "" := by
  constructor
  · -- the match ignores health, so what it finds has to be healthy or not sendable
    rintro ⟨honly, hfallback⟩ r u hr hu
    obtain ⟨u', hu', hmatched⟩ := @matched_of_firstLongest http R net snapshot req r hr
    obtain rfl : u = u' := Option.some.inj (hu.symm.trans hu')
    by_cases hhealthy : health.isHealthy r.upstreamId = true
    · exact .inl hhealthy
    · refine .inr ⟨?_, fun r' hr' he' => ?_⟩
      · by_contra hsendable
        exact hhealthy
          (honly _ hmatched ((forwarded_isSome_iff net snapshot req hmatched).mpr hsendable))
      · -- a route with a healthy upstream would have been matched
        by_contra hne'
        obtain ⟨r₁, u₁, hlongest, -, hmatched₁, -⟩ := hfallback ⟨r', hr', he', hne'⟩
        have hid : r.upstreamId = r₁.upstreamId :=
          congrArg RouteMatch.upstreamId (Option.some.inj (hmatched.symm.trans hmatched₁))
        rw [hid] at hhealthy
        exact hhealthy (eligible_some_iff.mp hlongest.eligible).2
  · intro h
    refine ⟨fun m hm hforward => ?_, fun hexists => ?_⟩
    · obtain ⟨r, u, hr, hu, rfl⟩ := firstLongest_of_matched hm
      rcases h r u hr hu with hhealthy | ⟨hunsendable, -⟩
      · exact hhealthy
      · exact absurd hunsendable ((forwarded_isSome_iff net snapshot req hm).mp hforward)
    · -- some route matches, so there is a first longest one, and it is healthy
      obtain ⟨r', hr', he', hne'⟩ := hexists
      have hcand := mem_candidates.mpr ⟨hr', (eligible_some_iff.mp he').1, hne'⟩
      cases hr : firstLongest snapshot req with
      | none =>
        rw [firstLongest, List.argmax_eq_none] at hr
        rw [hr] at hcand
        cases hcand
      | some r =>
        obtain ⟨u, hu, hmatched⟩ := @matched_of_firstLongest http R net snapshot req r hr
        rcases h r u hr hu with hhealthy | ⟨-, hempty⟩
        · refine ⟨r, u, longest_of_firstLongest hr hhealthy, hu, hmatched, fun s hs => ?_⟩
          exact (forwarded_iff net snapshot req s).mpr ⟨_, hmatched, hs⟩
        · exact absurd (hempty r' hr' he') hne'

/-- A network in which every text is the URL of one host, and every connection stands. -/
def reachableNet : Net WasmPlugin.asciiHttp String where
  parseUri _ := .ok ⟨some "one", none, "/api/users", some "/api/users"⟩
  request _ _ := ⟨true, .ok "response"⟩
  connect _ _ _ := .ok ()
  sendRequest _ _ _ := .ok "response"

/-- The only upstream failed its last probe, and a GET request is forwarded to it. -/
theorem unhealthy_upstream_receives_request :
    let snapshot : RouteSnapshot :=
      { tenantId := "t", sequence := 1, snapshotAt := 0
        routes := [⟨"r1", "t", "*", "/api", "", "u1", [], true⟩]
        upstreams := [⟨"u1", "one", "http://one", 5000, true⟩] }
    let health := HealthChecker.pass .new [("u1", false)]
    let req : HttpRequest WasmPlugin.asciiHttp :=
      ⟨"GET", ⟨none, none, "/api/users", some "/api/users"⟩, .http11, ∅⟩
    ¬ BypassesUnhealthy reachableNet snapshot health req := by
  intro snapshot health req h
  -- the only route is matched
  have hfirst : firstLongest snapshot req =
      some ⟨"r1", "t", "*", "/api", "", "u1", [], true⟩ := by decide
  obtain ⟨u, -, hmatched⟩ :=
    @matched_of_firstLongest _ String reachableNet snapshot req _ hfirst
  -- and the request is sent, so its upstream should be healthy
  have hhealthy : health.isHealthy "u1" = true :=
    h.1 _ hmatched ((forwarded_isSome_iff reachableNet snapshot req hmatched).mpr
      fun hunsendable => hunsendable _ (.client rfl rfl rfl rfl))
  exact absurd hhealthy (by decide)

end Barqium.Native.ProxyService
