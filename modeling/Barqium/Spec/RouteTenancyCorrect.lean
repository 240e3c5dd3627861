import Barqium.Spec.ConcurrentCorrect

/-!
# Tenants of routes and upstreams

The schema lets a route reference any upstream. That the two have the same tenant rests
on `checkUpstreamInTenant`, which runs before the write and in a statement of its own.
What the check found stays true until the write, whatever other requests do meanwhile: an
upstream keeps its tenant, and its id is not given out again.

## Key results

- `Known`: what a request may rely on once it has seen an upstream.
- `Postgres.exec_sound`: every statement keeps the invariant, and what others know.
- `Deployment.routesInTenant_interleave`: in every interleaving, every route references an
  upstream of its tenant.
-/

namespace Barqium.Native.ControlApi

open Program

/-- Every route references an upstream of its own tenant. -/
def Db.RoutesInTenant (db : Db) : Prop :=
  ∀ r : Route, r ∈ db.rows .routes →
    ∃ u : Upstream, u ∈ db.rows .upstreams ∧ u.id = r.upstreamId ∧ u.tenantId = r.tenantId

/-- The upstreams that the routes reference, with the tenants of the routes. -/
def Db.routeRefs (db : Db) : List (UUID × Option UUID) :=
  (db.rows .routes).map fun r : Route => (r.upstreamId, some r.tenantId)

/-- Routes whose references are keys are in their tenants. -/
theorem Db.routesInTenant_of_subset {db : Db} (h : db.routeRefs ⊆ db.keys .upstreams) :
    db.RoutesInTenant := by
  intro r hr
  have hkey := h (List.mem_map.mpr ⟨r, hr, rfl⟩)
  obtain ⟨u, hu, hid, htenant⟩ := Db.mem_keys.mp hkey
  exact ⟨u, hu, hid, Option.some.inj htenant⟩

/-! ## The invariant -/

section Invariant

variable (server : Postgres.Server)

/-- The id was given out, and an upstream that has it is of the tenant. -/
def Known (upstreamId tenantId : UUID) (s : Postgres) : Prop :=
  (∃ m < s.executed, (server.env m).newId = upstreamId) ∧
    ∀ k ∈ s.db.keys .upstreams, k.1 = upstreamId → k.2 = some tenantId

/-- What holds of the database between two statements. -/
structure Tenancy (s : Postgres) : Prop where
  routes : s.db.routeRefs ⊆ s.db.keys .upstreams
  ids : s.db.IdsNodup
  issued : ∀ k ∈ s.db.keys .upstreams, ∃ m < s.executed, (server.env m).newId = k.1

/-- The invariant, for the first `bound` statements. -/
def Sound (bound : Nat) (s : Postgres) : Prop := s.executed ≤ bound → Tenancy server s

/-- What other requests may do: what is known of an upstream stays so. -/
def Rely (bound : Nat) (s s' : Postgres) : Prop :=
  s.executed ≤ s'.executed ∧ (s'.executed ≤ bound → ∀ upstreamId tenantId,
    Known server upstreamId tenantId s → Known server upstreamId tenantId s')

/-- The same, for the first `bound` statements. -/
def Knows (bound : Nat) (upstreamId tenantId : UUID) (s : Postgres) : Prop :=
  s.executed ≤ bound → Known server upstreamId tenantId s

/-- A route is written with an upstream that is known to be of the route's tenant. -/
def Query.RouteKnown (s : Postgres) : {β : Type} → Query β → Prop
  | _, .insertOne .routes row => ∃ upstreamId tenantId,
      (∀ id now, Route.upstreamId (row id now) = upstreamId ∧
        Route.tenantId (row id now) = tenantId) ∧
      Known server upstreamId tenantId s
  | _, .updateOne .routes p set => ∃ upstreamId tenantId,
      (∀ now r, p r = true → Route.upstreamId (set now r) = upstreamId ∧
        Route.tenantId (set now r) = tenantId) ∧
      Known server upstreamId tenantId s
  | _, _ => True

end Invariant

variable {server : Postgres.Server} {bound : Nat} {s s' : Postgres}

theorem Rely.refl (s : Postgres) : Rely server bound s s :=
  ⟨le_rfl, fun _ _ _ h => h⟩

/-- One change after another. -/
theorem Rely.trans (a b c : Postgres) (hab : Rely server bound a b) (hbc : Rely server bound b c) :
    Rely server bound a c := by
  refine ⟨hab.1.trans hbc.1, fun hbound upstreamId tenantId h => ?_⟩
  exact hbc.2 hbound _ _ (hab.2 (hbc.1.trans hbound) _ _ h)

/-- What a handler knows of an upstream, the others leave true. -/
theorem Knows.of_rely {upstreamId tenantId : UUID} (hR : Rely server bound s s')
    (h : Knows server bound upstreamId tenantId s) : Knows server bound upstreamId tenantId s' :=
  fun hbound => hR.2 hbound _ _ (h (hR.1.trans hbound))

/-- An upstream that is there is known. -/
theorem Tenancy.known (h : Tenancy server s) {upstreamId tenantId : UUID}
    (hk : (upstreamId, some tenantId) ∈ s.db.keys .upstreams) :
    Known server upstreamId tenantId s := by
  refine ⟨h.issued _ hk, fun k hk' hid => ?_⟩
  exact h.ids.tenant_eq hk' hk hid

/-- A row that passed the foreign key check references an upstream, and it is the one
    that is known. -/
theorem Known.mem_keys {upstreamId tenantId : UUID} (h : Known server upstreamId tenantId s)
    {types : ColumnTypes} {others : List Route} {row r : Route}
    (hstored : s.db.stored types .routes others row = .ok r) (hrow : r.upstreamId = upstreamId) :
    (upstreamId, some tenantId) ∈ s.db.keys .upstreams := by
  have hrefs := (Db.violation_eq_none.mp (Db.stored_eq_ok.mp hstored).2.2).2.2
  obtain ⟨u, hu, hid⟩ := hrefs ⟨"routes_upstream_id_fkey", .upstreams, Route.upstreamId⟩
    (by simp [Table.references])
  have hid : Upstream.id u = upstreamId := hid.trans hrow
  have hkey : (Upstream.id u, some (Upstream.tenantId u)) ∈ s.db.keys .upstreams :=
    List.mem_map.mpr ⟨u, hu, rfl⟩
  have htenant : some (Upstream.tenantId u) = some tenantId := h.2 _ hkey hid
  rwa [hid, htenant] at hkey

/-! ## Statements -/

namespace Postgres

/-- The reference of a route that was there before, or whose upstream is known. -/
private theorem routeRefs_insertOne {t : Table} {row : UUID → Time → t.Row}
    (hroute : (Query.insertOne t row).RouteKnown server s) {r : Route}
    (hr : r ∈ (exec server (.insertOne t row) s).2.db.rows .routes) :
    r ∈ s.db.rows .routes ∨ (r.upstreamId, some r.tenantId) ∈ s.db.keys .upstreams := by
  by_cases ht : t = .routes
  · subst ht
    rcases mem_rows_insertOne hr with hr | ⟨-, hstored⟩
    · exact .inl hr
    · right
      obtain ⟨upstreamId, tenantId, hrow, hknown⟩ := hroute
      -- the columns of a route are stored as they are
      obtain rfl : row _ _ = r := Except.ok.inj (Db.stored_eq_ok.mp hstored).2.1
      obtain ⟨hupstream, htenant⟩ := hrow _ _
      rw [hupstream, htenant]
      exact hknown.mem_keys hstored hupstream
  · rw [rows_insertOne_of_ne row (Ne.symm ht)] at hr
    exact .inl hr

/-- An update leaves routes that were there, or refers to an upstream of the tenant. -/
private theorem routeRefs_updateOne {t : Table} {p : t.Row → Bool} {set : Time → t.Row → t.Row}
    (hroute : (Query.updateOne t p set).RouteKnown server s) {r : Route}
    (hr : r ∈ (exec server (.updateOne t p set) s).2.db.rows .routes) :
    r ∈ s.db.rows .routes ∨ (r.upstreamId, some r.tenantId) ∈ s.db.keys .upstreams := by
  by_cases ht : t = .routes
  · subst ht
    rcases mem_rows_updateOne hr with hr | ⟨old, -, hold, hstored⟩
    · exact .inl hr
    · right
      obtain ⟨upstreamId, tenantId, hset, hknown⟩ := hroute
      -- the row as it was set; its upstream was known
      obtain rfl : set _ old = r := Except.ok.inj (Db.stored_eq_ok.mp hstored).2.1
      obtain ⟨hupstream, htenant⟩ := hset _ old hold
      rw [hupstream, htenant]
      exact hknown.mem_keys hstored hupstream
  · rw [rows_updateOne_of_ne p set (Ne.symm ht)] at hr
    exact .inl hr

/-- The references of the routes after a statement that may write them. -/
private theorem routeRefs_exec {β : Type} {q : Query β} (hroute : q.RouteKnown server s)
    {k : UUID × Option UUID} (hk : k ∈ (exec server q s).2.db.routeRefs) :
    k ∈ s.db.routeRefs ∨ k ∈ s.db.keys .upstreams := by
  obtain ⟨r, hr, rfl⟩ := List.mem_map.mp hk
  -- a route of the new database is an old one or refers to a stored upstream
  have hor : r ∈ s.db.rows .routes ∨
      (Route.upstreamId r, some (Route.tenantId r)) ∈ s.db.keys .upstreams := by
    cases q with
    | insertOne t row => exact routeRefs_insertOne hroute hr
    | updateOne t p set => exact routeRefs_updateOne hroute hr
    | selectOne t p =>
      rw [exec_selectOne_db] at hr
      exact .inl hr
    | selectMany t p le limit offset =>
      rw [exec_selectMany_db] at hr
      exact .inl hr
    | deleteAll t p => exact .inl ((rows_deleteAll_sublist p .routes).subset hr)
  exact hor.imp_left fun hr => List.mem_map.mpr ⟨r, hr, rfl⟩

/-- The upstream of a route is not deleted before the route. -/
private theorem mem_keys_of_mem_routeRefs {t : Table} {p : t.Row → Bool} {k : UUID × Option UUID}
    (hk : k ∈ (exec server (.deleteAll t p) s).2.db.routeRefs) (hkey : k ∈ s.db.keys .upstreams) :
    k ∈ (exec server (.deleteAll t p) s).2.db.keys .upstreams := by
  rcases exec_deleteAll_cases server s p with hdb | hdelete
  · rwa [hdb]
  · obtain ⟨r, hr, rfl⟩ := List.mem_map.mp hk
    obtain ⟨u, hu, hid, htenant⟩ := Db.mem_keys.mp hkey
    exact Db.mem_keys.mpr ⟨u, Db.delete_keeps_upstream hdelete hr hu hid, hid, htenant⟩

/-- A statement that knows the upstream of a route keeps the tenancy. -/
theorem tenancy_exec {β : Type} {q : Query β} (hkeyed : q.Keyed) (htenant : q.KeepsTenant)
    (hroute : q.RouteKnown server s) (h : Tenancy server s) :
    Tenancy server (exec server q s).2 where
  ids := (exec_effect server q s).nodup_ids hkeyed h.ids
  issued k hk := by
    rw [exec_executed]
    rcases mem_keys_exec hkeyed htenant hk with hk | hk
    · obtain ⟨m, hm, hid⟩ := h.issued k hk
      exact ⟨m, by omega, hid⟩
    · exact ⟨s.executed, by omega, hk.symm⟩
  routes k hk := by
    -- before the statement the upstream was there
    have hkey : k ∈ s.db.keys .upstreams :=
      (routeRefs_exec hroute hk).elim (fun hk => h.routes hk) id
    cases q with
    | insertOne t row => exact keys_subset_insertOne row .upstreams hkey
    | updateOne t p set => rwa [keys_updateOne hkeyed htenant]
    | selectOne t p => rwa [exec_selectOne_db]
    | selectMany t p le limit offset => rwa [exec_selectMany_db]
    | deleteAll t p => exact mem_keys_of_mem_routeRefs hk hkey

/-- What is known of an upstream stays so: the id of a new one is another. -/
private theorem known_exec {β : Type} {q : Query β} (hkeyed : q.Keyed) (htenant : q.KeepsTenant)
    (hfresh : ∀ m < s.executed, (server.env m).newId ≠ (server.env s.executed).newId)
    {upstreamId tenantId : UUID} (h : Known server upstreamId tenantId s) :
    Known server upstreamId tenantId (exec server q s).2 := by
  obtain ⟨⟨m, hm, hid⟩, hkeys⟩ := h
  refine ⟨⟨m, by rw [exec_executed]; omega, hid⟩, fun k hk hkid => ?_⟩
  rcases mem_keys_exec hkeyed htenant hk with hk | hnew
  · exact hkeys k hk hkid
  · exact absurd (hid.trans (hkid.symm.trans hnew)) (hfresh m hm)

/-- A statement that knows the upstream of a route is a step that the others rely on. -/
theorem exec_sound
    (hfresh : ∀ m n, m < n → n < bound → (server.env m).newId ≠ (server.env n).newId)
    {β : Type} {q : Query β} (hkeyed : q.Keyed) (htenant : q.KeepsTenant)
    (hroute : s.executed ≤ bound → q.RouteKnown server s) (h : Sound server bound s) :
    Rely server bound s (exec server q s).2 ∧ Sound server bound (exec server q s).2 := by
  have hexecuted := exec_executed server s q
  refine ⟨⟨by omega, fun hbound upstreamId tenantId hknown => ?_⟩, fun hbound => ?_⟩
  · exact known_exec hkeyed htenant (fun m hm => hfresh m s.executed hm (by omega)) hknown
  · exact tenancy_exec hkeyed htenant (hroute (by omega)) (h (by omega))

end Postgres

/-! ## Handlers -/

/-- A statement that writes no route. -/
theorem Query.Writes.routeKnown {write : Option Write} {β : Type} {q : Query β}
    (h : q.Writes write) (hinsert : write ≠ some (.insert .routes))
    (hupdate : write ≠ some (.update .routes)) : q.RouteKnown server s := by
  cases q with
  | insertOne t row =>
    cases t with
    -- only rows of this table refer to upstreams
    | routes => exact absurd h hinsert
    | _ => trivial
  | updateOne t p set =>
    cases t with
    | routes => exact absurd h hupdate
    | _ => trivial
  | _ => trivial

section Handlers

variable (hfresh : ∀ m n, m < n → n < bound → (server.env m).newId ≠ (server.env n).newId)
include hfresh

/-- A handler that writes no route. -/
private theorem keeps_of_no_route {x : Handler} {write : Option Write}
    (hkeyed : x.Performs Query.Keyed) (htenant : x.Performs Query.KeepsTenant)
    (hwrites : x.Performs (Query.Writes write)) (hinsert : write ≠ some (.insert .routes))
    (hupdate : write ≠ some (.update .routes)) :
    x.Keeps (Postgres.exec server) (Rely server bound) (Sound server bound)
      (fun _ _ => True) s := by
  refine Performs.keeps ?_ ((hkeyed.and htenant).and hwrites)
  rintro β q s' ⟨⟨hkeyed, htenant⟩, hwrites⟩ hsound
  exact Postgres.exec_sound hfresh hkeyed htenant
    (fun _ => hwrites.routeKnown hinsert hupdate) hsound

/-- A row that a request reads is in the table at that time. -/
private theorem selectOne_keeps {t : Table} {p : t.Row → Bool} {onError : DbError → Response}
    {Q : t.Row → Postgres → Prop} (hQ : ∀ row s', Sound server bound s' → row ∈ s'.db.rows t →
      p row = true → Q row s')
    (hstable : ∀ row a b, Rely server bound a b → Q row a → Q row b) :
    (orFail (.selectOne t p) onError).Keeps (Postgres.exec server) (Rely server bound)
      (Sound server bound) Q s := by
  apply orFail_keeps
  intro s' _ hsound
  have hstep := Postgres.exec_sound hfresh (q := .selectOne t p) trivial trivial
    (fun _ => trivial) hsound
  refine ⟨hstep, fun row hrow after hR _ => ?_⟩
  have hfind := Postgres.find?_of_exec_selectOne server s' hrow
  have hread := hQ row s' hsound (List.mem_of_find?_eq_some hfind) (List.find?_some hfind)
  exact hstable row _ _ hR (hstable row _ _ hstep.1 hread)

/-- A request that has read an upstream of the tenant knows it from then on. -/
private theorem checkUpstreamInTenant_keeps (upstreamId tenantId : UUID)
    (hs : Sound server bound s) :
    (checkUpstreamInTenant upstreamId tenantId).Keeps (Postgres.exec server) (Rely server bound)
      (Sound server bound) (fun _ => Knows server bound upstreamId tenantId) s := by
  refine Keeps.bind (P := fun _ => Knows server bound upstreamId tenantId) Rely.refl
    (selectOne_keeps hfresh ?_ fun _ _ _ hR => Knows.of_rely hR) hs ?_
  · intro u s' hsound hu hrow hbound
    -- the lookup names the tenant of the URL, so the upstream found is the tenant's
    obtain ⟨hid, htenant⟩ := rowIn_eq_true.mp hrow
    exact (hsound hbound).known (Db.mem_keys.mpr ⟨u, hu, hid, htenant⟩)
  · intro _ s' _ hknows
    exact Keeps.pure fun _ hR _ => hknows.of_rely hR

/-- The upstream that the patch of a route names, if any, is checked. -/
private theorem checkOptional_keeps (upstreamId : Option UUID) (tenantId : UUID)
    (hs : Sound server bound s) :
    (upstreamId.forM fun id => checkUpstreamInTenant id tenantId).Keeps (Postgres.exec server)
      (Rely server bound) (Sound server bound)
      (fun _ s' => ∀ id, upstreamId = some id → Knows server bound id tenantId s') s := by
  cases upstreamId with
  | none => exact Keeps.pure fun _ _ _ _ h => nomatch h
  | some id =>
    refine (checkUpstreamInTenant_keeps hfresh id tenantId hs).mono fun _ s' hknows id' hid => ?_
    cases hid
    exact hknows

/-- The last statement of a handler that writes a route. -/
private theorem writeRoute_keeps {q : Query (Except DbError Route)} {onError : DbError → Response}
    {status : Nat} (hkeyed : q.Keyed) (htenant : q.KeepsTenant)
    (hroute : ∀ s', Rely server bound s s' → s'.executed ≤ bound → q.RouteKnown server s')
    (hs : Sound server bound s) :
    (do let row ← orFail q onError; return ⟨status, .row .routes row⟩ : Handler).Keeps
      (Postgres.exec server) (Rely server bound) (Sound server bound) (fun _ _ => True) s := by
  refine Keeps.bind (P := fun _ _ => True) Rely.refl (orFail_keeps fun s' hR hsound => ?_) hs ?_
  · exact ⟨Postgres.exec_sound hfresh hkeyed htenant (hroute s' hR) hsound,
      fun _ _ _ _ _ => trivial⟩
  · intro row s' _ _
    exact Keeps.pure fun _ _ _ => trivial

/-- The route is inserted with the upstream that was checked. -/
private theorem createRoute_keeps {ext : Ext} {r : Request} {tenant : String}
    (hs : Sound server bound s) :
    (createRoute ext r tenant).Keeps (Postgres.exec server) (Rely server bound)
      (Sound server bound) (fun _ _ => True) s := by
  -- what the check learns of the upstream holds until the insertion
  apply Keeps.bind_attempt
  intro tenantId _
  refine Keeps.bind (P := fun (row : UUID → Time → Route) s' => ∃ upstreamId,
    (∀ id now, (row id now).id = id ∧ (row id now).upstreamId = upstreamId ∧
      (row id now).tenantId = tenantId) ∧
    Knows server bound upstreamId tenantId s') Rely.refl ?_ hs ?_
  · apply Keeps.bind_attempt
    intro req _
    refine Keeps.bind Rely.refl (checkUpstreamInTenant_keeps hfresh req.upstreamId tenantId hs) hs
      fun _ s' _ hknows => Keeps.pure fun t hR _ => ?_
    exact ⟨req.upstreamId, fun id now => ⟨rfl, rfl, rfl⟩, hknows.of_rely hR⟩
  · rintro row s' hsound ⟨upstreamId, hrow, hknows⟩
    refine writeRoute_keeps hfresh (fun id now => (hrow id now).1) trivial
      (fun t hR hbound => ?_) hsound
    exact ⟨upstreamId, tenantId, fun id now => (hrow id now).2, hknows.of_rely hR hbound⟩

/-- The upstream of the patched route is the one that was checked, or the one that the
    row had when it was read. -/
private theorem updateRoute_keeps {ext : Ext} {r : Request} {tenant idParam : String}
    (hs : Sound server bound s) :
    (updateRoute ext r tenant idParam).Keeps (Postgres.exec server) (Rely server bound)
      (Sound server bound) (fun _ _ => True) s := by
  apply Keeps.bind_attempt
  intro tenantId _
  apply Keeps.bind_attempt
  intro id _
  refine Keeps.bind (P := fun (existing : Route) => Knows server bound existing.upstreamId tenantId)
    Rely.refl (selectOne_keeps hfresh ?_ fun _ _ _ hR => Knows.of_rely hR) hs ?_
  · intro existing s' hsound hmem hrow hbound
    -- by the invariant, the upstream of the row that was read is of the row's tenant
    have htenant : some (Route.tenantId existing) = some tenantId := (rowIn_eq_true.mp hrow).2
    have hkey : (Route.upstreamId existing, some (Route.tenantId existing)) ∈
        s'.db.keys .upstreams :=
      (hsound hbound).routes (List.mem_map.mpr ⟨existing, hmem, rfl⟩)
    rw [htenant] at hkey
    exact (hsound hbound).known hkey
  · intro existing s' hsound hexisting
    refine Keeps.bind (P := fun (set : Time → Route → Route) t => ∃ upstreamId,
      (∀ now row, (set now row).id = row.id ∧ (set now row).upstreamId = upstreamId ∧
        (set now row).tenantId = row.tenantId) ∧
      Knows server bound upstreamId tenantId t) Rely.refl ?_ hsound ?_
    · apply Keeps.bind_attempt
      intro req _
      -- while the patch's upstream is looked up, that of the row stays known
      have hcheck := (checkOptional_keeps hfresh req.upstreamId tenantId hsound).frame
        (fun _ _ hR => Knows.of_rely hR) hexisting
      refine Keeps.bind Rely.refl hcheck hsound fun _ t _ hknows => Keeps.pure fun after hR _ => ?_
      refine ⟨req.upstreamId.getD existing.upstreamId, fun now row => ⟨rfl, rfl, rfl⟩, ?_⟩
      cases hupstream : req.upstreamId with
      | none => exact hknows.2.of_rely hR
      | some upstreamId => exact (hknows.1 upstreamId hupstream).of_rely hR
    · rintro set t hsound ⟨upstreamId, hset, hknows⟩
      refine writeRoute_keeps hfresh ⟨⟨id, fun row hrow => (rowIn_eq_true.mp hrow).1⟩,
        fun now row => (hset now row).1⟩ ⟨some tenantId, fun row now hrow => ?_⟩
        (fun after hR hbound => ?_) hsound
      · have htenant : some (Route.tenantId row) = some tenantId := (rowIn_eq_true.mp hrow).2
        exact ⟨htenant, (congrArg some (hset now row).2.2).trans htenant⟩
      · refine ⟨upstreamId, tenantId, fun now row hrow => ⟨(hset now row).2.1, ?_⟩,
          hknows.of_rely hR hbound⟩
        have htenant : some (Route.tenantId row) = some tenantId := (rowIn_eq_true.mp hrow).2
        exact (hset now row).2.2.trans (Option.some.inj htenant)

/-- Whatever the endpoint. -/
theorem Endpoint.handler_keeps (endpoint : Endpoint) (ext : Ext) (r : Request)
    (hs : Sound server bound s) :
    (endpoint.handler ext r).Keeps (Postgres.exec server) (Rely server bound)
      (Sound server bound) (fun _ _ => True) s := by
  -- endpoints that write no route
  have hother : ∀ endpoint : Endpoint, endpoint.write ≠ some (.insert .routes) →
      endpoint.write ≠ some (.update .routes) →
      (endpoint.handler ext r).Keeps (Postgres.exec server) (Rely server bound)
        (Sound server bound) (fun _ _ => True) s := fun endpoint hinsert hupdate =>
    keeps_of_no_route hfresh (endpoint.handler_keyed ext r) (endpoint.handler_keepsTenant ext r)
      (endpoint.handler_performs ext r) hinsert hupdate
  cases endpoint with
  | inTenant tenant endpoint =>
    cases endpoint with
    | createRoute => exact createRoute_keeps hfresh hs
    | updateRoute id => exact updateRoute_keeps hfresh hs
    | _ => exact hother _ nofun nofun
  | _ => exact hother _ nofun nofun

end Handlers

/-! ## Interleavings -/

namespace Deployment

/-- The tenancy holds in every interleaving. -/
theorem safe_interleave (api : Deployment) (actions : List Action)
    (hfresh : ∀ m n, m < n → n < bound → (api.server.env m).newId ≠ (api.server.env n).newId) :
    (api.interleave actions).Safe (Postgres.exec api.server) (Rely api.server bound)
      (Sound api.server bound) := by
  apply List.foldl_keeps (P := fun serving : Serving => serving.Safe (Postgres.exec api.server)
    (Rely api.server bound) (Sound api.server bound))
  · refine ⟨fun _ => ⟨?_, fun _ => List.nodup_nil, ?_⟩, fun x hx => nomatch hx⟩
    · exact fun _ hk => nomatch hk
    · exact fun _ hk => nomatch hk
  · intro pre a post _ hpre
    -- a request starts a program that relies on the others, a statement is a step of one
    cases a with
    | request endpoint r =>
      exact hpre.start (Keeps.bind_attempt fun _ _ =>
        endpoint.handler_keeps hfresh api.ext r hpre.1)
    | statement i => exact hpre.step Rely.refl Rely.trans i

/-- In every state that an interleaving of requests reaches, every route references an
    upstream of its tenant, if the server gave no id out twice. -/
theorem routesInTenant_interleave (api : Deployment) (actions : List Action)
    (hfresh : ∀ m n, m < n → n < (api.interleave actions).state.executed →
      (api.server.env m).newId ≠ (api.server.env n).newId) :
    (api.interleave actions).state.db.RoutesInTenant := by
  have hsafe := safe_interleave api actions hfresh
  exact Db.routesInTenant_of_subset (hsafe.1 le_rfl).routes

/-- While a route is created, its upstream is to be deleted. -/
def routeUnderDeletion : List Action :=
  [.request .createTenant (jsonRequest [("name", .str "Acme"), ("slug", .str "acme")]),
    .statement 0,
    .request (.inTenant "1" .createUpstream)
      (jsonRequest [("name", .str "api"), ("url", .str "https://example.com")]),
    .statement 1,
    .request (.inTenant "1" .createRoute)
      (jsonRequest [("path_prefix", .str "/"), ("upstream_id", .str "2")]),
    .request (.inTenant "1" (.deleteUpstream "2")) (jsonRequest []),
    -- the upstream is checked, the route is inserted, and the deletion finds it
    .statement 2, .statement 2, .statement 3]

/-- A route that is created while an upstream is deleted. -/
theorem routeUnderDeletion_inTenant :
    (counting.interleave routeUnderDeletion).state.db.RoutesInTenant ∧
      ((counting.interleave routeUnderDeletion).state.db.rows .routes).length = 1 := by
  have hexecuted : (counting.interleave routeUnderDeletion).state.executed = 5 := by decide
  have hids : ∀ n < 5, ∀ m < n, (counting.server.env m).newId ≠ (counting.server.env n).newId := by
    decide
  refine ⟨routesInTenant_interleave counting routeUnderDeletion fun m n hmn hn => ?_, by decide⟩
  rw [hexecuted] at hn
  exact hids n hn m hmn

end Deployment

end Barqium.Native.ControlApi
