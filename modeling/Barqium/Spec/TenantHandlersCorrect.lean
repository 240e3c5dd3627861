import Barqium.Spec.TenantViewCorrect

/-!
# The requests of a tenant on its own rows

Every statement of an endpoint below a tenant names the tenant, so a request of the tenant
does the same on the tenant's rows as on all rows, as long as what it stores references
nothing of another tenant. A route is stored with an upstream that was looked up in the
tenant; a policy is stored with the provider that the URL names.

## Key results

- `TenantEndpoint.handler_readsOwn`: what the handlers of a tenant read.
- `Apart`: what holds between two statements while no reference leaves its tenant.
- `TenantEndpoint.handler_commutes`: a request of a tenant does the same on the tenant's rows
  as on all rows.
-/

namespace Barqium.Native.ControlApi

open Program

/-! ## What the handlers of a tenant read -/

section Reads

variable {ext : Ext} {r : Request} {tenantParam idParam : String} {tenantId : UUID} {t : Table}

/-- A handler that parses its own tenant goes on with that tenant. -/
private theorem performs_parseOwn (hparse : ext.uuidParse tenantParam = some tenantId)
    {allowed : {β : Type} → Query β → Prop} {k : UUID → Handler}
    (hk : (k tenantId).Performs allowed) :
    (attempt (parseTenantID ext tenantParam) >>= k).Performs allowed := by
  rw [show parseTenantID ext tenantParam = .ok tenantId from parseID_eq_ok.mpr hparse]
  exact hk

/-- A row in the tenant carries the tenant's id. -/
private theorem rowIn_own {id : UUID} {row : t.Row} (h : rowIn t id tenantId row = true) :
    t.tenant row = some tenantId := (rowIn_eq_true.mp h).2

/-- The handlers that get a row of the tenant read the tenant's rows only. -/
private theorem getInTenant_readsOwn {invalid notFound : String}
    (hparse : ext.uuidParse tenantParam = some tenantId) :
    (getInTenant t invalid notFound ext tenantParam idParam).Performs
      (Query.ReadsOwn tenantId) := by
  apply performs_parseOwn hparse
  apply Performs.bind_attempt
  intro id _
  apply Performs.bind (orFail_performs fun row h => rowIn_own h)
  intro row
  exact Performs.pure _

/-- The handlers that list rows of the tenant read the tenant's rows only. -/
private theorem listInTenant_readsOwn {le : t.Row → t.Row → Bool}
    (hparse : ext.uuidParse tenantParam = some tenantId) :
    (listInTenant t le ext r tenantParam).Performs (Query.ReadsOwn tenantId) := by
  apply performs_parseOwn hparse
  apply Performs.bind (orFail_performs fun row h => of_decide_eq_true h)
  intro rows
  exact Performs.pure _

/-- The handlers that create a row read the tenant's rows only, if the checks on the body do. -/
private theorem createInTenant_readsOwn {conflict : String}
    {row : UUID → Program Query Response (UUID → Time → t.Row)}
    (hparse : ext.uuidParse tenantParam = some tenantId)
    (hrow : (row tenantId).Performs (Query.ReadsOwn tenantId)) :
    (createInTenant t conflict ext tenantParam row).Performs (Query.ReadsOwn tenantId) := by
  apply performs_parseOwn hparse
  apply Performs.bind hrow
  intro row
  apply Performs.bind (orFail_performs trivial)
  intro created
  exact Performs.pure _

/-- The handlers that patch a row read the tenant's rows only, if the checks on the body do. -/
private theorem updateInTenant_readsOwn {invalid notFound conflict : String}
    {patch : UUID → t.Row → Program Query Response (Time → t.Row → t.Row)}
    (hparse : ext.uuidParse tenantParam = some tenantId)
    (hpatch : ∀ existing, (patch tenantId existing).Performs (Query.ReadsOwn tenantId)) :
    (updateInTenant t invalid notFound conflict ext tenantParam idParam patch).Performs
      (Query.ReadsOwn tenantId) := by
  apply performs_parseOwn hparse
  apply Performs.bind_attempt
  intro id _
  -- the row is looked up by id and tenant
  apply Performs.bind (orFail_performs fun row h => rowIn_own h)
  intro existing
  apply Performs.bind (hpatch existing)
  intro set
  apply Performs.bind (orFail_performs trivial)
  intro updated
  exact Performs.pure _

/-- The handlers that delete a row read the tenant's rows only. -/
private theorem deleteInTenant_readsOwn {invalid : String}
    (hparse : ext.uuidParse tenantParam = some tenantId) :
    (deleteInTenant t invalid ext tenantParam idParam).Performs (Query.ReadsOwn tenantId) := by
  apply performs_parseOwn hparse
  apply Performs.bind_attempt
  intro id _
  apply Performs.bind (orFail_performs trivial)
  intro _
  exact Performs.pure _

/-- The check on a route's upstream reads the tenant's upstreams only. -/
private theorem checkUpstreamInTenant_readsOwn {upstreamId : UUID} :
    (checkUpstreamInTenant upstreamId tenantId).Performs (Query.ReadsOwn tenantId) := by
  apply Performs.bind (orFail_performs fun row h => rowIn_own h)
  intro _
  exact Performs.pure _

/-- The upstream that the patch of a route names, if any, is looked up. -/
theorem checkOptional_performs {allowed : {β : Type} → Query β → Prop} {patched : Option UUID}
    (h : ∀ id, (checkUpstreamInTenant id tenantId).Performs allowed) :
    (patched.forM fun id => checkUpstreamInTenant id tenantId).Performs allowed := by
  cases patched with
  | none => exact Performs.pure _
  | some id => exact h id

/-- The creation of a route, with its check on the upstream. -/
private theorem createRoute_readsOwn (hparse : ext.uuidParse tenantParam = some tenantId) :
    (createRoute ext r tenantParam).Performs (Query.ReadsOwn tenantId) := by
  apply createInTenant_readsOwn hparse
  apply Performs.bind_attempt
  intro req _
  apply Performs.bind checkUpstreamInTenant_readsOwn
  intro _
  exact Performs.pure _

/-- The patch of a route, with its check on the upstream. -/
private theorem updateRoute_readsOwn (hparse : ext.uuidParse tenantParam = some tenantId) :
    (updateRoute ext r tenantParam idParam).Performs (Query.ReadsOwn tenantId) := by
  apply updateInTenant_readsOwn hparse
  intro existing
  apply Performs.bind_attempt
  intro req _
  exact Performs.bind (checkOptional_performs fun _ => checkUpstreamInTenant_readsOwn) fun _ =>
    Performs.pure _

/-- The rollback to a checkpoint. -/
private theorem rollbackCheckpoint_readsOwn (hparse : ext.uuidParse tenantParam = some tenantId) :
    (rollbackCheckpoint ext r tenantParam).Performs (Query.ReadsOwn tenantId) := by
  apply performs_parseOwn hparse
  apply Performs.bind_attempt
  intro req _
  refine Performs.bind (orFail_performs ?_) fun checkpoint => Performs.pure _
  intro row h
  simp only [Bool.and_eq_true, decide_eq_true_eq] at h
  exact congrArg some h.1

/-- The list of a provider's policies joins on the tenant. -/
private theorem listAiModelPolicies_readsOwn {provider : String}
    (hparse : ext.uuidParse tenantParam = some tenantId) :
    (listAiModelPolicies ext r tenantParam provider).Performs (Query.ReadsOwn tenantId) := by
  apply performs_parseOwn hparse
  apply Performs.bind_attempt
  intro providerId _
  refine Performs.bind (orFail_performs ?_) fun rows => Performs.pure _
  intro row h
  simp only [Bool.and_eq_true, decide_eq_true_eq] at h
  exact congrArg some h.2

/-- The download of a plugin's module. -/
private theorem downloadWasmBinary_readsOwn (hparse : ext.uuidParse tenantParam = some tenantId) :
    (downloadWasmBinary ext tenantParam idParam).Performs (Query.ReadsOwn tenantId) := by
  apply performs_parseOwn hparse
  apply Performs.bind_attempt
  intro id _
  apply Performs.bind (orFail_performs fun row h => rowIn_own h)
  intro plugin
  exact Performs.pure _

/-- Below a tenant, every statement that reads names the tenant. -/
theorem TenantEndpoint.handler_readsOwn (endpoint : TenantEndpoint)
    (hparse : ext.uuidParse tenantParam = some tenantId) :
    (endpoint.handler ext r tenantParam).Performs (Query.ReadsOwn tenantId) := by
  -- one lemma for each shape of handler
  cases endpoint with
  | createUpstream | createCheckpoint | createAiProvider | createAiModelPolicy providerId
  | createRateLimitPolicy | createWasmPlugin => exact createInTenant_readsOwn hparse trivial
  | listUpstreams | listRoutes | listCheckpoints | listAiProviders | listRateLimitPolicies
  | listWasmPlugins => exact listInTenant_readsOwn hparse
  | getUpstream id | getRoute id | getAiProvider id | getAiModelPolicy providerId id
  | getRateLimitPolicy id | getWasmPlugin id => exact getInTenant_readsOwn hparse
  | updateUpstream id | updateAiProvider id | updateAiModelPolicy providerId id
  | updateRateLimitPolicy id | updateWasmPlugin id =>
    exact updateInTenant_readsOwn hparse fun _ => trivial
  | deleteUpstream id | deleteRoute id | deleteAiProvider id | deleteAiModelPolicy providerId id
  | deleteRateLimitPolicy id | deleteWasmPlugin id => exact deleteInTenant_readsOwn hparse
  | createRoute => exact createRoute_readsOwn hparse
  | updateRoute id => exact updateRoute_readsOwn hparse
  | rollbackCheckpoint => exact rollbackCheckpoint_readsOwn hparse
  | listAiModelPolicies providerId => exact listAiModelPolicies_readsOwn hparse
  | downloadWasmBinary id => exact downloadWasmBinary_readsOwn hparse

end Reads

/-! ## Between two statements -/

/-- What holds between two statements while no reference leaves its tenant: beside the
    constraints, the ids that the first `bound` statements are still to be given are new. -/
structure Apart (server : Postgres.Server) (bound : Nat) (s : Postgres) : Prop where
  consistent : s.db.Consistent server.types
  tenancy : Tenancy server s
  policies : s.db.PoliciesInTenant
  fresh : ∀ n, s.executed ≤ n → n < bound → ∀ t, (server.env n).newId ∉ s.db.ids t

/-- The key of a stored tenant. -/
theorem Db.mem_keys_tenants {db : Db} {tenantId : UUID} :
    (tenantId, some tenantId) ∈ db.keys .tenants ↔ tenantId ∈ db.ids .tenants := by
  rw [mem_keys, mem_ids]
  constructor
  · rintro ⟨tenant, hmem, hid, -⟩
    exact ⟨tenant, hmem, hid⟩
  · rintro ⟨tenant, hmem, hid⟩
    exact ⟨tenant, hmem, hid, congrArg some hid⟩

/-- A stored key carries a stored id. -/
theorem Db.mem_ids_of_mem_keys {db : Db} {t : Table} {k : UUID × Option UUID}
    (h : k ∈ db.keys t) : k.1 ∈ db.ids t := by
  obtain ⟨r, hr, hid, -⟩ := mem_keys.mp h
  exact mem_ids.mpr ⟨r, hr, hid⟩

/-- A row of the tenant is in its view. -/
theorem Db.mem_view_ids {db : Db} {t : Table} {id tenantId : UUID}
    (h : (id, some tenantId) ∈ db.keys t) : id ∈ (db.view tenantId).ids t := by
  obtain ⟨r, hr, hid, htenant⟩ := mem_keys.mp h
  exact mem_ids.mpr ⟨r, mem_view.mpr ⟨hr, htenant⟩, hid⟩

namespace Apart

variable {server : Postgres.Server} {bound : Nat} {s : Postgres} {tenantId : UUID}

/-- What a row references is there, and is of the row's tenant. -/
private theorem reference_mem_keys (h : Apart server bound s) {t : Table} {r : t.Row}
    (hr : r ∈ s.db.rows t) {ref : Table.Reference t} (href : ref ∈ t.references) :
    (ref.column r, t.tenant r) ∈ s.db.keys ref.target := by
  have hid := h.consistent.references t r hr ref href
  -- each table's references, to the tenant and within it
  cases t with
  | tenants | regions => cases href
  | upstreams | configCheckpoints | aiProviders | rateLimitPolicies | wasmPlugins =>
    rw [Table.references, List.mem_singleton] at href
    subst href
    exact Db.mem_keys_tenants.mpr hid
  | routes =>
    simp only [Table.references, List.mem_cons, List.not_mem_nil, or_false] at href
    rcases href with rfl | rfl
    · exact Db.mem_keys_tenants.mpr hid
    · exact h.tenancy.routes (List.mem_map.mpr ⟨r, hr, rfl⟩)
  | aiModelPolicies =>
    simp only [Table.references, List.mem_cons, List.not_mem_nil, or_false] at href
    rcases href with rfl | rfl
    · exact Db.mem_keys_tenants.mpr hid
    · obtain ⟨provider, hprovider, hid, htenant⟩ := h.policies r hr
      exact Db.mem_keys.mpr ⟨provider, hprovider, hid, congrArg some htenant⟩

/-- The references of such a state stay inside their tenants. -/
theorem references (h : Apart server bound s) : s.db.ReferencesInTenant := by
  intro t r hr ref href x hx hid
  have hkey : (ref.column r, ref.target.tenant x) ∈ s.db.keys ref.target :=
    Db.mem_keys.mpr ⟨x, hx, hid, rfl⟩
  exact h.consistent.ids.tenant_eq hkey (h.reference_mem_keys hr href) rfl

/-- A row that references what a row of the tenant does. -/
private theorem refsVisible_of_eq (h : Apart server bound s) {t : Table} {r row : t.Row}
    (hr : r ∈ s.db.rows t) (htenant : t.tenant r = some tenantId)
    (hcolumns : ∀ ref ∈ t.references, ref.column row = ref.column r) :
    s.db.RefsVisible tenantId row := by
  intro ref href _
  rw [hcolumns ref href]
  have hkey := h.reference_mem_keys hr href
  rw [htenant] at hkey
  exact Db.mem_view_ids hkey

end Apart

/-- A row of a table whose only reference is the tenant. -/
theorem Db.refsVisible_of_tenant {db : Db} {t : Table} {r : t.Row} {tenantId : UUID}
    (hroutes : t ≠ .routes) (hpolicies : t ≠ .aiModelPolicies)
    (htenant : t.tenant r = some tenantId) : db.RefsVisible tenantId r := by
  intro ref href hid
  cases t with
  | tenants | regions => cases href
  | routes => exact absurd rfl hroutes
  | aiModelPolicies => exact absurd rfl hpolicies
  | _ =>
    -- the only reference is that to the tenant
    rw [Table.references, List.mem_singleton] at href
    subst href
    have hkey := Db.mem_keys_tenants.mpr hid
    apply Db.mem_view_ids
    rw [← htenant]
    exact hkey

/-- The statements of the endpoints that write neither routes nor new policies. -/
theorem Query.Writes.storesVisible {server : Postgres.Server} {bound : Nat} {s : Postgres}
    {tenantId : UUID} {write : Option Write} {β : Type} {q : Query β} (hwrites : q.Writes write)
    (hinsert : write ≠ some (.insert .routes)) (hupdate : write ≠ some (.update .routes))
    (hpolicy : write ≠ some (.insert .aiModelPolicies)) (hlocal : q.Local tenantId)
    (hprovider : q.KeepsProvider) (h : Apart server bound s) :
    q.StoresVisible tenantId s.db := by
  cases q with
  | insertOne t row =>
    intro id now
    have hroutes : t ≠ .routes := fun ht => hinsert (by rw [hwrites, ht])
    have hpolicies : t ≠ .aiModelPolicies := fun ht => hpolicy (by rw [hwrites, ht])
    exact Db.refsVisible_of_tenant hroutes hpolicies (hlocal.writes id now)
  | updateOne t p set =>
    intro r hr hpr now
    obtain ⟨htenant, hset⟩ := hlocal.writes r now hpr
    have hroutes : t ≠ .routes := fun ht => hupdate (by rw [hwrites, ht])
    by_cases hpolicies : t = .aiModelPolicies
    · subst hpolicies
      -- a policy keeps its tenant and its provider
      apply h.refsVisible_of_eq hr htenant
      intro ref href
      simp only [Table.references, List.mem_cons, List.not_mem_nil, or_false] at href
      rcases href with rfl | rfl
      · exact Option.some.inj (hset.trans htenant.symm)
      · exact hprovider now r
    · exact Db.refsVisible_of_tenant hroutes hpolicies hset
  | _ => trivial

/-- A statement that keeps the tenants apart keeps the whole invariant. -/
theorem Apart.exec {server : Postgres.Server} {bound : Nat} {s : Postgres}
    (hids : ∀ m n, m < n → n < bound → (server.env m).newId ≠ (server.env n).newId)
    (h : Apart server bound s) {β : Type} {q : Query β} (hkeyed : q.Keyed)
    (htenant : q.KeepsTenant) (hprovider : q.KeepsProvider)
    (hroute : q.RouteKnown server s) (hforeign : ¬ q.StoresForeignPolicy server s) :
    Apart server bound (Postgres.exec server q s).2 where
  consistent := h.consistent.exec hkeyed
  tenancy := Postgres.tenancy_exec hkeyed htenant hroute h.tenancy
  policies := Postgres.policiesInTenant_exec hkeyed htenant hprovider hforeign h.policies
  fresh n hle hlt t hmem := by
    rw [Postgres.exec_executed] at hle
    obtain ⟨r, hr, hid⟩ := Db.mem_ids.mp hmem
    have hkey : ((server.env n).newId, t.tenant r) ∈ (Postgres.exec server q s).2.db.keys t :=
      Db.mem_keys.mpr ⟨r, hr, hid, rfl⟩
    -- the id was there before, or is the one just issued
    rcases Postgres.mem_keys_exec hkeyed htenant hkey with hbefore | hnew
    · exact h.fresh n (by omega) hlt t (Db.mem_ids_of_mem_keys hbefore)
    · exact hids s.executed n hle hlt hnew.symm

/-! ## Requests of the tenant -/

section Handlers

variable {server : Postgres.Server} {bound : Nat} {s : Postgres} {ext : Ext} {r : Request}
  {tenantParam : String} {tenantId : UUID}

/-- The statements below a tenant are the tenant's. -/
theorem TenantEndpoint.handler_local (endpoint : TenantEndpoint)
    (hparse : ext.uuidParse tenantParam = some tenantId) :
    (endpoint.handler ext r tenantParam).Performs fun q =>
      (q.Local tenantId ∧ q.KeepsTenant) ∧ q.KeepsProvider ∧ q.Writes endpoint.write := by
  have hprovider : (endpoint.handler ext r tenantParam).Performs Query.KeepsProvider :=
    Endpoint.handler_keepsProvider (.inTenant tenantParam endpoint) ext r
  apply (((endpoint.handler_owned ext r tenantParam).and (endpoint.handler_readsOwn hparse)).and
    hprovider).mono
  rintro β q ⟨⟨⟨hunder, hkeyed⟩, hreads⟩, hprovider⟩
  -- none of these endpoints writes the tenants
  have hbelow : ∀ w : Option Write, w = endpoint.write →
      w ≠ some (.insert .tenants) ∧ w ≠ some (.update .tenants) ∧ w ≠ some (.delete .tenants) := by
    rintro w rfl
    cases endpoint <;> simp [TenantEndpoint.write]
  have hkeeps := hunder.keepsTenant
  obtain ⟨parsed, hparsed, hwrites, hwithin⟩ := hunder
  obtain rfl : parsed = tenantId := Option.some.inj (hparsed.symm.trans hparse)
  refine ⟨⟨⟨hreads, hwithin, hkeyed, ?_⟩, hkeeps⟩, hprovider, hwrites⟩
  obtain ⟨hinsert, hupdate, hdelete⟩ := hbelow _ rfl
  cases q with
  | insertOne t row => exact fun ht => hinsert (by rw [hwrites, ht])
  | updateOne t p set => exact fun ht => hupdate (by rw [hwrites, ht])
  | deleteAll t p => exact fun ht => hdelete (by rw [hwrites, ht])
  | _ => trivial

/-- A statement of the tenant, on the tenant's rows. -/
theorem Apart.exec_view (h : Apart server bound s) (hbound : s.executed < bound) {β : Type}
    {q : Query β} (hlocal : q.Local tenantId) (hvisible : q.StoresVisible tenantId s.db) :
    Postgres.exec server q (s.view tenantId) =
      ((Postgres.exec server q s).1, (Postgres.exec server q s).2.view tenantId) :=
  Postgres.exec_view hlocal hvisible h.references h.consistent.ids
    (h.fresh s.executed le_rfl hbound)

variable (hids : ∀ m n, m < n → n < bound → (server.env m).newId ≠ (server.env n).newId)
include hids

/-- An endpoint that writes neither routes nor new policies. -/
private theorem commutes_of_write {endpoint : TenantEndpoint}
    (hparse : ext.uuidParse tenantParam = some tenantId)
    (hinsert : endpoint.write ≠ some (.insert .routes))
    (hupdate : endpoint.write ≠ some (.update .routes))
    (hpolicy : endpoint.write ≠ some (.insert .aiModelPolicies)) (h : Apart server bound s)
    (hbound :
      ((endpoint.handler ext r tenantParam).run (Postgres.exec server) s).2.executed ≤ bound) :
    (endpoint.handler ext r tenantParam).Commutes (Postgres.exec server) (Postgres.view tenantId)
      s := by
  refine Performs.commutes (P := Apart server bound) (L := fun s => s.executed ≤ bound)
    (fun op t ht => ?_) ?_ (endpoint.handler_local hparse) h hbound
  · rw [Postgres.exec_executed] at ht
    omega
  · rintro β q t ⟨⟨hlocal, htenant⟩, hprovider, hwrites⟩ ht hlimit
    rw [Postgres.exec_executed] at hlimit
    have hvisible := hwrites.storesVisible hinsert hupdate hpolicy hlocal hprovider ht
    exact ⟨ht.exec hids hlocal.keyed htenant hprovider (hwrites.routeKnown hinsert hupdate)
      (hwrites.not_storesForeignPolicy hpolicy), ht.exec_view hlimit hlocal hvisible⟩

omit hids

/-- Reading leaves the rows alone. -/
private theorem run_of_reads {α : Type} {x : Program Query Response α}
    (hx : x.Performs (Query.Writes none)) :
    (x.run (Postgres.exec server) s).2.db = s.db ∧
      s.executed ≤ (x.run (Postgres.exec server) s).2.executed := by
  apply hx.run (P := fun t : Postgres => t.db = s.db ∧ s.executed ≤ t.executed) _ ⟨rfl, le_rfl⟩
  rintro β q t hq ⟨hdb, hexecuted⟩
  rw [Postgres.exec_executed]
  refine ⟨?_, by omega⟩
  cases q with
  | selectOne u p => rw [Postgres.exec_selectOne_db, hdb]
  | selectMany u p le limit offset => rw [Postgres.exec_selectMany_db, hdb]
  | _ => cases hq

/-- Statements that only read keep it as well. -/
theorem Apart.of_reads (h : Apart server bound s) {s' : Postgres} (hdb : s'.db = s.db)
    (hexecuted : s.executed ≤ s'.executed) : Apart server bound s' where
  consistent := hdb ▸ h.consistent
  tenancy :=
    { routes := hdb ▸ h.tenancy.routes
      ids := hdb ▸ h.tenancy.ids
      issued := fun k hk => by
        rw [hdb] at hk
        obtain ⟨m, hm, hid⟩ := h.tenancy.issued k hk
        exact ⟨m, by omega, hid⟩ }
  policies := hdb ▸ h.policies
  fresh n hle := hdb ▸ h.fresh n (hexecuted.trans hle)

/-- Reading rows of the tenant gives the same on the tenant's rows. -/
private theorem commutes_of_reads {α : Type} {x : Program Query Response α}
    (hreads : x.Performs (Query.ReadsOwn tenantId)) (hwrites : x.Performs (Query.Writes none)) :
    x.Commutes (Postgres.exec server) (Postgres.view tenantId) s := by
  refine Performs.commutes (P := fun _ => True) (L := fun _ => True) (fun _ _ _ => trivial) ?_
    (hreads.and hwrites) trivial trivial
  rintro β q t ⟨hreads, hwrites⟩ - -
  refine ⟨trivial, ?_⟩
  -- without writes it executes `SELECT`s only
  cases q with
  | selectOne u p =>
    exact Postgres.statement_view (fun _ db => db.select u p) (Db.select_view hreads)
  | selectMany u p le limit offset =>
    exact Postgres.statement_view (fun _ db => db.selectPage u p le limit offset)
      (Db.selectPage_view hreads)
  | _ => cases hwrites

/-- The last statement of a request and the answer to it. -/
private theorem commutes_write {β : Type} {q : Query (Except DbError β)}
    {onError : DbError → Response}
    (answer : β → Response) (h : Apart server bound s) (hlocal : q.Local tenantId)
    (hvisible : q.StoresVisible tenantId s.db)
    (hbound : ((do let b ← orFail q onError; return answer b : Handler).run
      (Postgres.exec server) s).2.executed ≤ bound) :
    (do let b ← orFail q onError; return answer b : Handler).Commutes (Postgres.exec server)
      (Postgres.view tenantId) s := by
  -- the program executes this one statement
  have hexecuted : s.executed < bound := by
    have hstate : ((do let b ← orFail q onError; return answer b : Handler).run
        (Postgres.exec server) s).2 = (Postgres.exec server q s).2 := by
      rw [run_bind, run_orFail]
      cases (Postgres.exec server q s).1 with
      | ok b => rfl
      | error err => rfl
    rw [hstate, Postgres.exec_executed] at hbound
    exact hbound
  apply Commutes.call (h.exec_view hexecuted hlocal hvisible)
  cases (Postgres.exec server q s).1 with
  | ok b => exact .done _ _
  | error err => exact .done _ _

/-- A policy is created under a provider of the tenant, or of nobody. -/
private theorem createAiModelPolicy_commutes {provider : String}
    (hparse : ext.uuidParse tenantParam = some tenantId)
    (hown : ∀ u : AiProvider, u ∈ s.db.rows .aiProviders → ext.uuidParse provider = some u.id →
      u.tenantId = tenantId) (h : Apart server bound s)
    (hbound : ((createAiModelPolicy ext r tenantParam provider).run
      (Postgres.exec server) s).2.executed ≤ bound) :
    (createAiModelPolicy ext r tenantParam provider).Commutes (Postgres.exec server)
      (Postgres.view tenantId) s := by
  rcases createAiModelPolicy_cases ext r tenantParam provider with
    ⟨result, hdone⟩ | ⟨parsed, providerId, req, htenant, hprovider, hreq, hmodel⟩
  · rw [hdone]
    exact .done result s
  · obtain rfl : parsed = tenantId := Option.some.inj (htenant.symm.trans hparse)
    obtain ⟨k, hcall, hk⟩ := createAiModelPolicy_of_valid htenant hprovider hreq hmodel
    -- the one statement stays inside the tenant
    have hlocal :
        (Query.insertOne .aiModelPolicies (newPolicy parsed providerId req)).Local parsed :=
      ⟨trivial, fun _ _ => rfl, fun _ _ => rfl, nofun⟩
    -- and refers to a provider that the tenant sees
    have hvisible :
        (Query.insertOne .aiModelPolicies (newPolicy parsed providerId req)).StoresVisible
          parsed s.db := by
      intro id now ref href hid
      simp only [Table.references, List.mem_cons, List.not_mem_nil, or_false] at href
      rcases href with rfl | rfl
      · exact Db.mem_view_ids (Db.mem_keys_tenants.mpr hid)
      · obtain ⟨u, hu, huid⟩ := Db.mem_ids.mp hid
        have huid : u.id = providerId := huid
        have hutenant := hown u hu (by rw [hprovider, huid])
        exact Db.mem_view_ids (Db.mem_keys.mpr ⟨u, hu, huid, congrArg some hutenant⟩)
    rw [hcall] at hbound ⊢
    obtain ⟨result, hresult⟩ := hk (Postgres.exec server
      (.insertOne .aiModelPolicies (newPolicy parsed providerId req)) s).1
    have hexecuted : s.executed < bound := by
      simp only [Program.run, hresult, Postgres.exec_executed] at hbound
      exact hbound
    refine Commutes.call (h.exec_view hexecuted hlocal hvisible) ?_
    rw [hresult]
    exact .done result _

/-- An upstream that was looked up in the tenant is there. -/
private theorem mem_keys_of_checkUpstreamInTenant {upstreamId : UUID} {s' : Postgres}
    (h : (checkUpstreamInTenant upstreamId tenantId).run (Postgres.exec server) s = (.ok (), s')) :
    (upstreamId, some tenantId) ∈ s.db.keys .upstreams := by
  obtain ⟨u, t, hread, -⟩ := (run_bind_eq_ok _).mp h
  rw [run_orFail_eq_ok] at hread
  have hfind := Postgres.find?_of_exec_selectOne server s (congrArg Prod.fst hread)
  obtain ⟨hid, htenant⟩ := rowIn_eq_true.mp (List.find?_some hfind)
  exact Db.mem_keys.mpr ⟨u, List.mem_of_find?_eq_some hfind, hid, htenant⟩

/-- The check on a route's upstream writes nothing. -/
private theorem checkUpstreamInTenant_writes {upstreamId : UUID} :
    (checkUpstreamInTenant upstreamId tenantId).Performs (Query.Writes none) := by
  apply Performs.bind (orFail_performs trivial)
  intro _
  exact Performs.pure _

/-- After it the database is as before. -/
private theorem reads_of_checkUpstreamInTenant {upstreamId : UUID} {s' : Postgres}
    (h : (checkUpstreamInTenant upstreamId tenantId).run (Postgres.exec server) s = (.ok (), s')) :
    s'.db = s.db ∧ s.executed ≤ s'.executed := by
  have hreads : ((checkUpstreamInTenant upstreamId tenantId).run (Postgres.exec server) s).2.db =
      s.db ∧ s.executed ≤
        ((checkUpstreamInTenant upstreamId tenantId).run (Postgres.exec server) s).2.executed :=
    run_of_reads checkUpstreamInTenant_writes
  rwa [h] at hreads

/-- A route of the tenant whose upstream is there for the tenant. -/
theorem Apart.refsVisible_of_route {route : Route} (htenant : route.tenantId = tenantId)
    (hupstream : (route.upstreamId, some tenantId) ∈ s.db.keys .upstreams) :
    s.db.RefsVisible tenantId (t := .routes) route := by
  intro ref href hid
  simp only [Table.references, List.mem_cons, List.not_mem_nil, or_false] at href
  rcases href with rfl | rfl
  · rw [show (⟨"routes_tenant_id_fkey", .tenants, Route.tenantId⟩ : Table.Reference .routes).column
      route = tenantId from htenant] at hid ⊢
    exact Db.mem_view_ids (Db.mem_keys_tenants.mpr hid)
  · exact Db.mem_view_ids hupstream

/-- The creation of a route answers on the tenant's own rows as on all of them. -/
private theorem createRoute_commutes (hparse : ext.uuidParse tenantParam = some tenantId)
    (h : Apart server bound s)
    (hbound : ((createRoute ext r tenantParam).run (Postgres.exec server) s).2.executed ≤ bound) :
    (createRoute ext r tenantParam).Commutes (Postgres.exec server) (Postgres.view tenantId) s := by
  have htid : parseTenantID ext tenantParam = .ok tenantId := parseID_eq_ok.mpr hparse
  unfold createRoute createInTenant at hbound ⊢
  rw [htid, attempt_ok_bind] at hbound ⊢
  refine Commutes.bind (commutes_of_reads ?_ ?_) ?_
  · apply Performs.bind_attempt
    intro req _
    exact Performs.bind checkUpstreamInTenant_readsOwn fun _ => Performs.pure _
  · apply Performs.bind_attempt
    intro req _
    exact Performs.bind checkUpstreamInTenant_writes fun _ => Performs.pure _
  · intro row s' hrow
    rw [run_bind, hrow] at hbound
    obtain ⟨req, s₁, hreq, hcheck⟩ := (run_bind_eq_ok _).mp hrow
    obtain ⟨_, s₂, hcheck, hpure⟩ := (run_bind_eq_ok _).mp hcheck
    obtain rfl : s = s₁ := congrArg Prod.snd hreq
    cases hpure
    -- the check leaves the rows alone, so the upstream is still there
    obtain ⟨hdb, hexecuted⟩ := reads_of_checkUpstreamInTenant hcheck
    have hupstream := mem_keys_of_checkUpstreamInTenant hcheck
    rw [← hdb] at hupstream
    refine commutes_write (fun created => ⟨201, .row .routes created⟩) (h.of_reads hdb hexecuted)
      ⟨trivial, fun _ _ => rfl, fun _ _ => rfl, nofun⟩ ?_ hbound
    exact fun id now => Apart.refsVisible_of_route rfl hupstream

/-- The upstream that a patch of a route leaves it with. -/
private theorem mem_keys_of_forM {patched : Option UUID} {existing : Route} {s' : Postgres}
    (hexisting : (existing.upstreamId, some tenantId) ∈ s.db.keys .upstreams)
    (h : (patched.forM fun id => checkUpstreamInTenant id tenantId).run (Postgres.exec server) s =
      (.ok (), s')) :
    (patched.getD existing.upstreamId, some tenantId) ∈ s.db.keys .upstreams ∧ s'.db = s.db ∧
      s.executed ≤ s'.executed := by
  cases patched with
  | none =>
    cases h
    exact ⟨hexisting, rfl, le_rfl⟩
  | some upstreamId =>
    exact ⟨mem_keys_of_checkUpstreamInTenant h, reads_of_checkUpstreamInTenant h⟩

/-- The patch of a route answers on the tenant's own rows as on all of them. -/
private theorem updateRoute_commutes {idParam : String}
    (hparse : ext.uuidParse tenantParam = some tenantId) (h : Apart server bound s)
    (hbound : ((updateRoute ext r tenantParam idParam).run (Postgres.exec server) s).2.executed ≤
      bound) :
    (updateRoute ext r tenantParam idParam).Commutes (Postgres.exec server)
      (Postgres.view tenantId) s := by
  have htid : parseTenantID ext tenantParam = .ok tenantId := parseID_eq_ok.mpr hparse
  unfold updateRoute updateInTenant at hbound ⊢
  rw [htid, attempt_ok_bind] at hbound ⊢
  apply Commutes.bind_attempt
  intro id hid
  rw [hid, attempt_ok_bind] at hbound
  -- the row is read
  refine Commutes.bind (commutes_of_reads (orFail_performs fun row hrow => rowIn_own hrow)
    (orFail_performs trivial)) ?_
  intro existing s₁ hread
  rw [run_bind, hread] at hbound
  dsimp only at hbound
  have hexec := run_orFail_eq_ok.mp hread
  have hfind := Postgres.find?_of_exec_selectOne server s (congrArg Prod.fst hexec)
  have hdb₁ : s₁.db = s.db := by
    rw [← Postgres.exec_selectOne_db server s (t := .routes) (rowIn .routes id tenantId), hexec]
  have hexecuted₁ : s.executed ≤ s₁.executed := by
    have hcount := Postgres.exec_executed server s (.selectOne .routes (rowIn .routes id tenantId))
    rw [hexec] at hcount
    have hcount : s₁.executed = s.executed + 1 := hcount
    omega
  have hmem : existing ∈ s.db.rows .routes := List.mem_of_find?_eq_some hfind
  have htenant : some existing.tenantId = some tenantId :=
    (rowIn_eq_true.mp (List.find?_some hfind)).2
  have hexisting : (existing.upstreamId, some tenantId) ∈ s₁.db.keys .upstreams := by
    rw [hdb₁, ← htenant]
    exact h.tenancy.routes (List.mem_map.mpr ⟨existing, hmem, rfl⟩)
  -- the patch is decoded, and its upstream is looked up
  refine Commutes.bind (commutes_of_reads ?_ ?_) ?_
  · apply Performs.bind_attempt
    intro req _
    exact Performs.bind (checkOptional_performs fun _ => checkUpstreamInTenant_readsOwn) fun _ =>
      Performs.pure _
  · apply Performs.bind_attempt
    intro req _
    exact Performs.bind (checkOptional_performs fun _ => checkUpstreamInTenant_writes) fun _ =>
      Performs.pure _
  · intro set s₂ hset
    rw [run_bind, hset] at hbound
    obtain ⟨req, s₁', hreq, hcheck⟩ := (run_bind_eq_ok _).mp hset
    obtain ⟨_, s₂', hcheck, hpure⟩ := (run_bind_eq_ok _).mp hcheck
    obtain rfl : s₁ = s₁' := congrArg Prod.snd hreq
    cases hpure
    obtain ⟨hupstream, hdb₂, hexecuted₂⟩ := mem_keys_of_forM hexisting hcheck
    rw [← hdb₂] at hupstream
    refine commutes_write (fun updated => ⟨200, .row .routes updated⟩)
      (h.of_reads (hdb₂.trans hdb₁) (hexecuted₁.trans hexecuted₂)) ⟨trivial, ?_, ?_, nofun⟩ ?_
      hbound
    · intro row now hrow
      have htenant : some (Route.tenantId row) = some tenantId := rowIn_own hrow
      exact ⟨htenant, htenant⟩
    · exact ⟨⟨id, fun row hrow => (rowIn_eq_true.mp hrow).1⟩, fun _ _ => rfl⟩
    · intro row hmem hrow now
      have htenant : some (Route.tenantId row) = some tenantId := rowIn_own hrow
      exact Apart.refsVisible_of_route (Option.some.inj htenant) hupstream

/-- A request of the tenant does the same on the tenant's rows as on all rows. -/
theorem TenantEndpoint.handler_commutes
    (hids : ∀ m n, m < n → n < bound → (server.env m).newId ≠ (server.env n).newId)
    (endpoint : TenantEndpoint) (hparse : ext.uuidParse tenantParam = some tenantId)
    (hown : ∀ provider, endpoint = .createAiModelPolicy provider → ∀ u : AiProvider,
      u ∈ s.db.rows .aiProviders → ext.uuidParse provider = some u.id → u.tenantId = tenantId)
    (h : Apart server bound s)
    (hbound :
      ((endpoint.handler ext r tenantParam).run (Postgres.exec server) s).2.executed ≤ bound) :
    (endpoint.handler ext r tenantParam).Commutes (Postgres.exec server) (Postgres.view tenantId)
      s := by
  cases endpoint with
  | createRoute => exact createRoute_commutes hparse h hbound
  | updateRoute id => exact updateRoute_commutes hparse h hbound
  | createAiModelPolicy provider =>
    exact createAiModelPolicy_commutes hparse (hown provider rfl) h hbound
  | _ =>
    exact commutes_of_write hids hparse (by simp [TenantEndpoint.write])
      (by simp [TenantEndpoint.write]) (by simp [TenantEndpoint.write]) h hbound

end Handlers

end Barqium.Native.ControlApi
