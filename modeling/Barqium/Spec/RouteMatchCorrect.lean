import Barqium.ForStd.Run
import Barqium.Native.RouteMatch
import Barqium.Native.TenantState
import Mathlib.Data.List.MinMax

/-!
# Route matching picks a longest eligible prefix

The loop of `find_route` is an argmax: it keeps the first of the eligible routes
with the longest path prefix. From this follow what it returns and how far the
result depends on the order in which the snapshot lists its routes.

## Key results

- `findRoute_eq_argmax`: the loop refines `List.argmax` over the eligible routes.
- `findRoute_longest`: the returned match comes from a longest eligible route.
- `findRoute_order`: what two snapshots of one tenant state can disagree on.
-/

namespace Barqium.Native

/-- A route that may serve the request: enabled, matching method, path and host, its
    upstream healthy or unprobed, and an enabled upstream with that id listed. -/
def Eligible (snapshot : RouteSnapshot) (req : MatchRequest) (health : Option UpstreamHealth)
    (route : RouteEntry) : Prop :=
  route.enabled = true ∧
  (route.method = "*" ∨ eqIgnoreAsciiCase route.method req.method = true) ∧
  route.pathPrefix.toList <+: req.path.toList ∧
  (route.host = "" ∨ route.host = req.host) ∧
  (∀ h ∈ health, h.healthy.lookup route.upstreamId ≠ some false) ∧
  ∃ u ∈ snapshot.upstreams, u.id = route.upstreamId ∧ u.enabled = true

instance (snapshot : RouteSnapshot) (req : MatchRequest) (health : Option UpstreamHealth) :
    DecidablePred (Eligible snapshot req health) :=
  fun _ => inferInstanceAs (Decidable (_ ∧ _))

/-- The length `find_route` compares routes by. -/
def RouteEntry.prefixLen (route : RouteEntry) : Nat := route.pathPrefix.utf8ByteSize

/-- The eligible routes that can win against the initial length 0. -/
def candidates (snapshot : RouteSnapshot) (req : MatchRequest) (health : Option UpstreamHealth)
    (routes : List RouteEntry) : List RouteEntry :=
  routes.filter fun r => Eligible snapshot req health r ∧ 0 < r.prefixLen

/-- The loop's accumulator when `route` is the best route so far. -/
def bestMatch (snapshot : RouteSnapshot) : Option RouteEntry → BestMatch
  | none => ⟨none, 0⟩
  | some route =>
    ⟨(snapshot.upstreamById route.upstreamId).map (routeMatch route), route.prefixLen⟩

section

variable {snapshot : RouteSnapshot} {req : MatchRequest} {health : Option UpstreamHealth}

/-! ## The loop -/

/-- An upstream is found if it is in the snapshot and enabled. -/
theorem upstreamById_isSome_iff {id : String} :
    (snapshot.upstreamById id).isSome ↔
      ∃ u ∈ snapshot.upstreams, u.id = id ∧ u.enabled = true := by
  unfold RouteSnapshot.upstreamById
  rw [List.find?_isSome]
  simp

/-- An upstream is healthy unless it is recorded otherwise. -/
theorem isHealthy_iff {h : UpstreamHealth} {id : String} :
    h.isHealthy id = true ↔ h.healthy.lookup id ≠ some false := by
  unfold UpstreamHealth.isHealthy
  cases h.healthy.lookup id with
  | none => simp
  | some b => cases b <;> simp

/-- The filters of the loop, read as one condition. -/
theorem eligible_iff {route : RouteEntry} :
    Eligible snapshot req health route ↔
      ¬ (!route.enabled) = true ∧
      ¬ (route.method ≠ "*" && !eqIgnoreAsciiCase route.method req.method) = true ∧
      ¬ (!startsWith req.path route.pathPrefix) = true ∧
      ¬ (route.host ≠ "" && route.host ≠ req.host) = true ∧
      ¬ (health.any fun h => !h.isHealthy route.upstreamId) = true ∧
      (snapshot.upstreamById route.upstreamId).isSome := by
  unfold Eligible
  rw [upstreamById_isSome_iff]
  -- one conjunct for each `continue` of the loop
  refine and_congr ?_ (and_congr ?_ (and_congr ?_ (and_congr ?_ (and_congr_left' ?_))))
  · simp
  · simp only [Bool.and_eq_true, decide_eq_true_eq, Bool.not_eq_eq_eq_not, Bool.not_true]
    grind
  · simp [startsWith]
  · simp only [Bool.and_eq_true, decide_eq_true_eq]
    grind
  · cases health with
    | none => simp
    | some h => simp [isHealthy_iff]

/-- One pass of the loop: the filters apply whatever the best length so far, and
    the accumulator changes only for an eligible route with a longer prefix. -/
private theorem considerRoute_eq (acc : BestMatch) (route : RouteEntry) :
    considerRoute snapshot req health acc route =
      if Eligible snapshot req health route ∧ acc.bestPrefixLen < route.prefixLen then
        bestMatch snapshot (some route)
      else acc := by
  by_cases he : Eligible snapshot req health route ∧ acc.bestPrefixLen < route.prefixLen
  · obtain ⟨henabled, hmethod, hpath, hhost, hhealth, hup⟩ := eligible_iff.mp he.1
    obtain ⟨u, hu⟩ := Option.isSome_iff_exists.mp hup
    have hlen : ¬ route.pathPrefix.utf8ByteSize ≤ acc.bestPrefixLen := Nat.not_le.mpr he.2
    -- no filter applies, and the route becomes the best match
    rw [if_pos he]
    unfold considerRoute
    rw [if_neg henabled, if_neg hmethod, if_neg hpath, if_neg hhost, if_neg hlen, if_neg hhealth]
    simp only [hu, bestMatch, Option.map_some]
    rfl
  · rw [if_neg he]
    unfold considerRoute
    split_ifs with henabled hmethod hpath hhost hlen hhealth
    iterate 6 rfl
    -- every filter passed, so it is the upstream that is missing
    cases hu : snapshot.upstreamById route.upstreamId with
    | none => rfl
    | some u =>
      refine absurd ⟨eligible_iff.mpr ⟨henabled, hmethod, hpath, hhost, hhealth, ?_⟩, ?_⟩ he
      · rw [hu]; rfl
      · exact Nat.not_le.mp hlen

/-- The loop computes an argmax over the candidates. -/
private theorem foldl_considerRoute (routes : List RouteEntry) :
    routes.foldl (considerRoute snapshot req health) ⟨none, 0⟩ =
      bestMatch snapshot ((candidates snapshot req health routes).argmax RouteEntry.prefixLen) := by
  -- by the last route considered
  induction routes using List.reverseRecOn with
  | nil => rfl
  | append_singleton routes r ih =>
    rw [List.foldl_append, ih, List.foldl_cons, List.foldl_nil, considerRoute_eq]
    unfold candidates
    rw [List.filter_append, List.filter_singleton]
    by_cases hr : Eligible snapshot req health r ∧ 0 < r.prefixLen
    · -- a strictly longer prefix replaces the best one, as `argmax` keeps the first of equals
      simp only [hr, and_self, decide_true, cond_true, true_and, List.argmax_concat]
      cases (routes.filter _).argmax RouteEntry.prefixLen with
      | none => exact if_pos hr.2
      | some c => exact (apply_ite (bestMatch snapshot) _ _ _).symm
    · -- the initial length 0 keeps out a route with an empty prefix
      rw [if_neg (fun h => hr ⟨h.1, Nat.zero_lt_of_lt h.2⟩)]
      simp [hr]

/-- `find_route` is the first longest candidate, with its enabled upstream. -/
theorem findRoute_eq_argmax (snapshot : RouteSnapshot) (req : MatchRequest)
    (health : Option UpstreamHealth) :
    findRoute snapshot req health =
      ((candidates snapshot req health snapshot.routes).argmax RouteEntry.prefixLen).bind
        fun r => (snapshot.upstreamById r.upstreamId).map (routeMatch r) := by
  unfold findRoute
  rw [foldl_considerRoute]
  cases (candidates snapshot req health snapshot.routes).argmax RouteEntry.prefixLen <;> rfl

/-- `r` is a candidate, and no eligible route has a longer prefix. -/
structure Longest (snapshot : RouteSnapshot) (req : MatchRequest) (health : Option UpstreamHealth)
    (r : RouteEntry) : Prop where
  mem : r ∈ snapshot.routes
  eligible : Eligible snapshot req health r
  nonempty : r.pathPrefix ≠ ""
  longest : ∀ r' ∈ snapshot.routes, Eligible snapshot req health r' → r'.prefixLen ≤ r.prefixLen

/-- Every prefix but the empty one has a length. -/
theorem prefixLen_pos_iff {r : RouteEntry} : 0 < r.prefixLen ↔ r.pathPrefix ≠ "" := by
  unfold RouteEntry.prefixLen
  rw [Nat.pos_iff_ne_zero, Ne, String.utf8ByteSize_eq_zero_iff]

/-- The candidates are the eligible routes with a prefix. -/
theorem mem_candidates {r : RouteEntry} :
    r ∈ candidates snapshot req health snapshot.routes ↔
      r ∈ snapshot.routes ∧ Eligible snapshot req health r ∧ r.pathPrefix ≠ "" := by
  simp [candidates, prefixLen_pos_iff]

/-- What `find_route` returns comes from a longest eligible route. -/
theorem findRoute_eq_some {m : RouteMatch} (h : findRoute snapshot req health = some m) :
    ∃ r u, Longest snapshot req health r ∧ snapshot.upstreamById r.upstreamId = some u ∧
      m = routeMatch r u := by
  rw [findRoute_eq_argmax] at h
  obtain ⟨r, hr, hm⟩ := Option.bind_eq_some_iff.mp h
  obtain ⟨u, hu, rfl⟩ := Option.map_eq_some_iff.mp hm
  obtain ⟨hmem, heligible, hne⟩ := mem_candidates.mp (List.argmax_mem hr)
  refine ⟨r, u, ⟨hmem, heligible, hne, fun r' hr' he' => ?_⟩, hu, rfl⟩
  by_cases hne' : r'.pathPrefix = ""
  · -- an empty prefix is never longer
    simp [RouteEntry.prefixLen, hne']
  · exact List.le_of_mem_argmax (mem_candidates.mpr ⟨hr', he', hne'⟩) hr

/-- Something is found if there is a candidate. -/
theorem findRoute_isSome_iff :
    (findRoute snapshot req health).isSome ↔
      ∃ r ∈ snapshot.routes, Eligible snapshot req health r ∧ r.pathPrefix ≠ "" := by
  constructor
  · intro h
    obtain ⟨m, hm⟩ := Option.isSome_iff_exists.mp h
    obtain ⟨r, -, hr, -⟩ := findRoute_eq_some hm
    exact ⟨r, hr.mem, hr.eligible, hr.nonempty⟩
  · rintro ⟨r, hr⟩
    rw [findRoute_eq_argmax]
    -- a candidate exists, so one of them is the best
    cases hmax : (candidates snapshot req health snapshot.routes).argmax RouteEntry.prefixLen with
    | none =>
      rw [List.argmax_eq_none] at hmax
      have := mem_candidates.mpr hr
      rw [hmax] at this
      cases this
    | some c =>
      have hc := (mem_candidates.mp (List.argmax_mem hmax)).2.1
      have hup := upstreamById_isSome_iff.mpr hc.2.2.2.2.2
      rw [Option.bind_some, Option.isSome_map]
      exact hup

end

/-- With non-empty prefixes, `find_route` finds a route exactly when one is eligible,
    and it returns the match of an eligible route whose prefix is longest, with the
    URL and the timeout of an enabled upstream of that id. -/
theorem findRoute_longest (snapshot : RouteSnapshot)
    (hnonempty : ∀ r ∈ snapshot.routes, r.pathPrefix ≠ "") (req : MatchRequest)
    (health : Option UpstreamHealth) :
    ((findRoute snapshot req health).isSome ↔
      ∃ r ∈ snapshot.routes, Eligible snapshot req health r) ∧
    ∀ m, findRoute snapshot req health = some m →
      ∃ r ∈ snapshot.routes, Eligible snapshot req health r ∧
        (∀ r' ∈ snapshot.routes, Eligible snapshot req health r' → r'.prefixLen ≤ r.prefixLen) ∧
        ∃ u ∈ snapshot.upstreams, u.id = r.upstreamId ∧ u.enabled = true ∧
          m = ⟨r.id, r.upstreamId, u.url, u.timeoutMs, r.policyIds⟩ := by
  constructor
  · rw [findRoute_isSome_iff]
    constructor
    · rintro ⟨r, hr, he, -⟩
      exact ⟨r, hr, he⟩
    · rintro ⟨r, hr, he⟩
      exact ⟨r, hr, he, hnonempty r hr⟩
  · intro m hm
    obtain ⟨r, u, hr, hu, rfl⟩ := findRoute_eq_some hm
    -- the upstream was found by id, and enabled
    have hfound := List.find?_some hu
    simp only [Bool.and_eq_true, decide_eq_true_eq] at hfound
    exact ⟨r, hr.mem, hr.eligible, hr.longest, u, List.mem_of_find?_eq_some hu, hfound.1,
      hfound.2, rfl⟩

/-- A disabled upstream takes the longer prefix out of the choice. -/
theorem findRoute_longest_skips_disabled :
    let snapshot : RouteSnapshot :=
      { tenantId := "t", sequence := 2, snapshotAt := 0
        routes := [⟨"r1", "t", "*", "/api", "", "u1", [], true⟩,
          ⟨"r2", "t", "get", "/api/v1", "", "u2", [], true⟩]
        upstreams := [⟨"u1", "one", "http://one", 5000, true⟩,
          ⟨"u2", "two", "http://two", 5000, false⟩] }
    let req : MatchRequest := ⟨"GET", "/api/v1/users", "example.com"⟩
    (∀ r ∈ snapshot.routes, r.pathPrefix ≠ "") ∧ ∃ m, findRoute snapshot req none = some m ∧
      ∃ r ∈ snapshot.routes, Eligible snapshot req none r ∧ m.routeId = r.id := by
  intro snapshot req
  have hnonempty : ∀ r ∈ snapshot.routes, r.pathPrefix ≠ "" := by decide
  obtain ⟨hsome, hmatch⟩ := findRoute_longest snapshot hnonempty req none
  -- the first route is eligible, the second leads to a disabled upstream
  have heligible : ∃ r ∈ snapshot.routes, Eligible snapshot req none r := by decide
  obtain ⟨m, hm⟩ := Option.isSome_iff_exists.mp (hsome.mpr heligible)
  obtain ⟨r, hr, he, -, u, -, -, -, rfl⟩ := hmatch m hm
  exact ⟨hnonempty, _, hm, r, hr, he, rfl⟩

/-! ## The order of the routes -/

/-- The constraint of the `routes` table: no two routes of a tenant have the same
    method, path prefix and host. -/
def UniqueRoutes (s : TenantState) : Prop :=
  ∀ id id' r r', s.routes.lookup id = some r → s.routes.lookup id' = some r' →
    r.method = r'.method → r.pathPrefix = r'.pathPrefix → r.host = r'.host → id = id'

section

variable {s : TenantState} {req : MatchRequest} {health : Option UpstreamHealth}
  {nowMs nowMs' : Int64} {rs rs' : HashMap.Values s.routes} {us us' : HashMap.Values s.upstreams}

/-- The routes of a snapshot are those of the state. -/
theorem mem_routes_iff {r : RouteEntry} :
    r ∈ (s.toSnapshot nowMs rs us).routes ↔ s.routes.lookup r.id = some r :=
  HashMap.mem_values_keyed s.routes_keyed rs

/-- The ids of a snapshot's upstreams are distinct, so the lookup by id does not
    depend on their order. -/
private theorem upstreamById_toSnapshot (id : String) :
    (s.toSnapshot nowMs rs us).upstreamById id =
      (s.upstreams.lookup id).filter UpstreamEntry.enabled := by
  -- the snapshot lists the upstreams of the map, each once
  have hmem : ∀ u, u ∈ us.val ↔ s.upstreams.lookup u.id = some u :=
    fun u => HashMap.mem_values_keyed s.upstreams_keyed us
  show us.val.find? _ = _
  apply Option.ext
  intro u
  rw [Option.filter_eq_some_iff]
  constructor
  · intro h
    have hu := (hmem u).mp (List.mem_of_find?_eq_some h)
    have hfound := List.find?_some h
    simp only [Bool.and_eq_true, decide_eq_true_eq] at hfound
    rw [← hfound.1]
    exact ⟨hu, hfound.2⟩
  · rintro ⟨hu, henabled⟩
    have hid : u.id = id := s.upstreams_keyed id u hu
    cases hf : us.val.find? fun u => decide (u.id = id) && u.enabled with
    | none =>
      have := List.find?_eq_none.mp hf u ((hmem u).mpr (by rw [hid]; exact hu))
      simp [hid, henabled] at this
    | some v =>
      have hv := (hmem v).mp (List.mem_of_find?_eq_some hf)
      have hvid := List.find?_some hf
      simp only [Bool.and_eq_true, decide_eq_true_eq] at hvid
      rw [hvid.1, hu] at hv
      rw [Option.some.inj hv]

/-- Whether a route is eligible does not depend on the order. -/
theorem eligible_toSnapshot_iff {r : RouteEntry} :
    Eligible (s.toSnapshot nowMs rs us) req health r ↔
      Eligible (s.toSnapshot nowMs' rs' us') req health r := by
  rw [eligible_iff, eligible_iff, upstreamById_toSnapshot, upstreamById_toSnapshot]

/-- Whether a route is a longest one does not depend on the order. -/
theorem longest_toSnapshot_iff {r : RouteEntry} :
    Longest (s.toSnapshot nowMs rs us) req health r ↔
      Longest (s.toSnapshot nowMs' rs' us') req health r := by
  have key : ∀ {nowMs nowMs' rs rs' us us'}, Longest (s.toSnapshot nowMs rs us) req health r →
      Longest (s.toSnapshot nowMs' rs' us') req health r := by
    intro nowMs nowMs' rs rs' us us' h
    refine ⟨?_, eligible_toSnapshot_iff.mp h.eligible, h.nonempty, fun r' hr' he' => ?_⟩
    · exact mem_routes_iff.mpr (mem_routes_iff.mp h.mem)
    · exact h.longest r' (mem_routes_iff.mpr (mem_routes_iff.mp hr'))
        (eligible_toSnapshot_iff.mp he')
  exact ⟨key, key⟩

/-- Two prefixes of one path with the same length in bytes are equal. -/
private theorem eq_of_isPrefix_of_size_eq {a b path : String} (ha : a.toList <+: path.toList)
    (hb : b.toList <+: path.toList) (hsize : a.utf8ByteSize = b.utf8ByteSize) : a = b := by
  have key : ∀ {a b : String}, a.toList <+: b.toList → a.utf8ByteSize = b.utf8ByteSize → a = b := by
    rintro a b ⟨rest, hrest⟩ hsize
    have hb : b = a ++ String.ofList rest := by
      rw [← String.toList_inj, String.toList_append, String.toList_ofList, hrest]
    rw [hb, String.utf8ByteSize_append] at hsize
    -- what the longer one has in addition takes no bytes
    have hzero : (String.ofList rest).utf8ByteSize = 0 := by omega
    rw [hb, String.utf8ByteSize_eq_zero_iff.mp hzero, String.append_empty]
  rcases List.prefix_or_prefix_of_prefix ha hb with h | h
  · exact key h hsize
  · exact (key h hsize.symm).symm

/-- Longest routes have the same path prefix. -/
theorem Longest.pathPrefix_eq {snapshot : RouteSnapshot} {r r' : RouteEntry}
    (h : Longest snapshot req health r) (h' : Longest snapshot req health r') :
    r.pathPrefix = r'.pathPrefix := by
  have hle := h'.longest r h.mem h.eligible
  have hge := h.longest r' h'.mem h'.eligible
  exact eq_of_isPrefix_of_size_eq h.eligible.2.2.1 h'.eligible.2.2.1 (Nat.le_antisymm hle hge)

/-- A longest route that is listed first is the one returned. -/
private theorem findRoute_first {snapshot : RouteSnapshot} {r : RouteEntry} {rest : List RouteEntry}
    (hr : Longest snapshot req health r) (hfirst : snapshot.routes = r :: rest) :
    ∃ m, findRoute snapshot req health = some m ∧ m.routeId = r.id := by
  have hup := upstreamById_isSome_iff.mpr hr.eligible.2.2.2.2.2
  obtain ⟨u, hu⟩ := Option.isSome_iff_exists.mp hup
  have hmax : (candidates snapshot req health snapshot.routes).argmax RouteEntry.prefixLen =
      some r := by
    have hcons : candidates snapshot req health (r :: rest) =
        r :: candidates snapshot req health rest := by
      simp [candidates, hr.eligible, prefixLen_pos_iff.mpr hr.nonempty]
    rw [hfirst, hcons, List.argmax_cons]
    cases hc : (candidates snapshot req health rest).argmax RouteEntry.prefixLen with
    | none => rfl
    | some c =>
      -- a later candidate is not longer
      have hmem : c ∈ candidates snapshot req health snapshot.routes := by
        rw [hfirst, hcons]
        exact List.mem_cons_of_mem _ (List.argmax_mem hc)
      obtain ⟨hcmem, hcel, -⟩ := mem_candidates.mp hmem
      exact if_neg (Nat.not_lt.mpr (hr.longest c hcmem hcel))
  refine ⟨routeMatch r u, ?_, rfl⟩
  rw [findRoute_eq_argmax, hmax, Option.bind_some, hu, Option.map_some]

/-- Whether something is found does not depend on the order. -/
theorem findRoute_isSome_toSnapshot_iff :
    (findRoute (s.toSnapshot nowMs rs us) req health).isSome ↔
      (findRoute (s.toSnapshot nowMs' rs' us') req health).isSome := by
  rw [findRoute_isSome_iff, findRoute_isSome_iff]
  apply exists_congr
  intro r
  rw [mem_routes_iff, mem_routes_iff]
  exact and_congr_right fun _ => and_congr_left fun _ => eligible_toSnapshot_iff

/-- Two walks of the maps end with longest routes of the same path prefix. Routes that
    agree in method and host as well are one route, by the constraint. -/
private theorem findRoute_two_walks (hunique : UniqueRoutes s) {m m' : RouteMatch}
    (hm : findRoute (s.toSnapshot nowMs rs us) req health = some m)
    (hm' : findRoute (s.toSnapshot nowMs' rs' us') req health = some m') :
    ∃ r r', Longest (s.toSnapshot nowMs rs us) req health r ∧
      Longest (s.toSnapshot nowMs' rs' us') req health r' ∧
      m.routeId = r.id ∧ m'.routeId = r'.id ∧ r.pathPrefix = r'.pathPrefix ∧
      (r.method = r'.method → r.host = r'.host → m = m') := by
  obtain ⟨r, u, hr, hu, rfl⟩ := findRoute_eq_some hm
  obtain ⟨r', u', hr', hu', rfl⟩ := findRoute_eq_some hm'
  have hpath := hr.pathPrefix_eq (longest_toSnapshot_iff.mp hr')
  refine ⟨r, r', hr, hr', rfl, rfl, hpath, fun hmethod hhost => ?_⟩
  -- same method, prefix and host: the constraint leaves one route
  have hlookup := mem_routes_iff.mp hr.mem
  have hlookup' := mem_routes_iff.mp hr'.mem
  have hid := hunique _ _ r r' hlookup hlookup' hmethod hpath hhost
  rw [hid, hlookup'] at hlookup
  cases hlookup
  rw [upstreamById_toSnapshot] at hu hu'
  rw [Option.some.inj (hu.symm.trans hu')]

/-- If all walks lead to one match, there is one longest route. -/
private theorem longest_unique_of_same_walks {r r' : RouteEntry}
    (hsame : ∀ nowMs nowMs' rs rs' us us', findRoute (s.toSnapshot nowMs rs us) req health =
      findRoute (s.toSnapshot nowMs' rs' us') req health)
    (hr : Longest (s.toSnapshot nowMs rs us) req health r)
    (hr' : Longest (s.toSnapshot nowMs rs us) req health r') : r = r' := by
  -- walk the routes once with `r` first and once with `r'` first
  obtain ⟨rs₁, rest₁, hrs₁⟩ := HashMap.exists_values_first (mem_routes_iff.mp hr.mem)
  obtain ⟨rs₂, rest₂, hrs₂⟩ := HashMap.exists_values_first (mem_routes_iff.mp hr'.mem)
  obtain ⟨m₁, hm₁, hid₁⟩ :=
    findRoute_first (longest_toSnapshot_iff.mp hr : Longest (s.toSnapshot nowMs rs₁ us) _ _ _) hrs₁
  obtain ⟨m₂, hm₂, hid₂⟩ :=
    findRoute_first (longest_toSnapshot_iff.mp hr' : Longest (s.toSnapshot nowMs rs₂ us) _ _ _) hrs₂
  rw [hsame nowMs nowMs rs₁ rs₂ us us, hm₂] at hm₁
  cases hm₁
  have hlookup := mem_routes_iff.mp hr.mem
  rw [← hid₁, hid₂, mem_routes_iff.mp hr'.mem] at hlookup
  cases hlookup
  rfl

end

/-- Two walks of the maps of one tenant lead to a match for the same requests, and to
    longest eligible routes with the same path prefix. The match itself does not
    depend on the walk exactly when no two longest eligible routes differ in method
    or host. -/
theorem findRoute_order (s : TenantState) (hunique : UniqueRoutes s) (req : MatchRequest)
    (health : Option UpstreamHealth) :
    (∀ nowMs nowMs' rs rs' us us',
      let snapshot := s.toSnapshot nowMs rs us
      let snapshot' := s.toSnapshot nowMs' rs' us'
      ((findRoute snapshot req health).isSome ↔ (findRoute snapshot' req health).isSome) ∧
      ∀ m m', findRoute snapshot req health = some m → findRoute snapshot' req health = some m' →
        ∃ r r', Longest snapshot req health r ∧ Longest snapshot' req health r' ∧
          m.routeId = r.id ∧ m'.routeId = r'.id ∧ r.pathPrefix = r'.pathPrefix ∧
          (r.method = r'.method → r.host = r'.host → m = m')) ∧
    ((∀ nowMs nowMs' rs rs' us us',
      findRoute (s.toSnapshot nowMs rs us) req health =
        findRoute (s.toSnapshot nowMs' rs' us') req health) ↔
      ∀ nowMs rs us r r', Longest (s.toSnapshot nowMs rs us) req health r →
        Longest (s.toSnapshot nowMs rs us) req health r' →
        r.method = r'.method ∧ r.host = r'.host) := by
  refine ⟨fun nowMs nowMs' rs rs' us us' => ⟨findRoute_isSome_toSnapshot_iff, ?_⟩, ?_, ?_⟩
  · intro m m' hm hm'
    exact findRoute_two_walks hunique hm hm'
  · intro hsame nowMs rs us r r' hr hr'
    rw [longest_unique_of_same_walks hsame hr hr']
    exact ⟨rfl, rfl⟩
  · intro hlongest nowMs nowMs' rs rs' us us'
    -- whether a route is found does not depend on the order
    have hsome : (findRoute (s.toSnapshot nowMs rs us) req health).isSome ↔
        (findRoute (s.toSnapshot nowMs' rs' us') req health).isSome :=
      findRoute_isSome_toSnapshot_iff
    cases hm : findRoute (s.toSnapshot nowMs rs us) req health with
    | none =>
      rw [hm] at hsome
      exact (Option.not_isSome_iff_eq_none.mp fun h => by cases hsome.mpr h).symm
    | some m =>
      rw [hm] at hsome
      obtain ⟨m', hm'⟩ := Option.isSome_iff_exists.mp (hsome.mp rfl)
      obtain ⟨r, r', hr, hr', -, -, -, heq⟩ := findRoute_two_walks hunique hm hm'
      obtain ⟨hmethod, hhost⟩ := hlongest _ _ _ r r' hr (longest_toSnapshot_iff.mp hr')
      rw [hm', heq hmethod hhost]

/-- Routes for any method and for GET under the same prefix, in one state. -/
def tiedRoutes : TenantState :=
  (((TenantState.new "t").insertUpstream ⟨"u", "backend", "http://backend", 5000, true⟩).insertRoute
    ⟨"any", "t", "*", "/a", "", "u", [], true⟩).insertRoute
    ⟨"get", "t", "GET", "/a", "", "u", [], true⟩

/-- The two routes differ in their methods. -/
private theorem tiedRoutes_lookup {id : String} {r : RouteEntry}
    (h : tiedRoutes.routes.lookup id = some r) :
    id = "get" ∧ r.method = "GET" ∨ id = "any" ∧ r.method = "*" := by
  change (Finmap.insert "get" _ (Finmap.insert "any" _ ∅) : HashMap RouteEntry).lookup id =
    some r at h
  -- the map has two entries
  by_cases hget : id = "get"
  · subst hget
    rw [Finmap.lookup_insert] at h
    cases h
    exact Or.inl ⟨rfl, rfl⟩
  · by_cases hany : id = "any"
    · subst hany
      rw [Finmap.lookup_insert_of_ne _ hget, Finmap.lookup_insert] at h
      cases h
      exact Or.inr ⟨rfl, rfl⟩
    · rw [Finmap.lookup_insert_of_ne _ hget, Finmap.lookup_insert_of_ne _ hany,
        Finmap.lookup_empty] at h
      cases h

/-- The two routes have different ids. -/
private theorem tiedRoutes_unique : UniqueRoutes tiedRoutes := by
  intro id id' r r' h h' hmethod _ _
  rcases tiedRoutes_lookup h with ⟨rfl, hr⟩ | ⟨rfl, hr⟩ <;>
    rcases tiedRoutes_lookup h' with ⟨rfl, hr'⟩ | ⟨rfl, hr'⟩ <;>
    first | rfl | (rw [hr, hr'] at hmethod; exact absurd hmethod (by decide))

/-- In both orders something is found. -/
theorem findRoute_order_tiedRoutes :
    UniqueRoutes tiedRoutes ∧ ∀ nowMs nowMs' rs rs' us us',
      (findRoute (tiedRoutes.toSnapshot nowMs rs us) ⟨"GET", "/a/b", "h"⟩ none).isSome ↔
        (findRoute (tiedRoutes.toSnapshot nowMs' rs' us') ⟨"GET", "/a/b", "h"⟩ none).isSome :=
  ⟨tiedRoutes_unique, fun nowMs nowMs' rs rs' us us' =>
    ((findRoute_order tiedRoutes tiedRoutes_unique _ none).1 nowMs nowMs' rs rs' us us').1⟩

/-- The two walks of the tied routes give different matches for one GET request. -/
theorem tied_routes_depend_on_order :
    UniqueRoutes tiedRoutes ∧ ∃ rs rs' us,
      findRoute (tiedRoutes.toSnapshot 0 rs us) ⟨"GET", "/a/b", "h"⟩ none ≠
        findRoute (tiedRoutes.toSnapshot 0 rs' us) ⟨"GET", "/a/b", "h"⟩ none := by
  refine ⟨tiedRoutes_unique, ⟨[⟨"any", "t", "*", "/a", "", "u", [], true⟩,
    ⟨"get", "t", "GET", "/a", "", "u", [], true⟩], by decide⟩,
    ⟨[⟨"get", "t", "GET", "/a", "", "u", [], true⟩,
    ⟨"any", "t", "*", "/a", "", "u", [], true⟩], by decide⟩,
    ⟨[⟨"u", "backend", "http://backend", 5000, true⟩], by decide⟩, ?_⟩
  decide

end Barqium.Native
