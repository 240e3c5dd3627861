import Barqium.ForStd.Except
import Barqium.Spec.DatabaseCorrect

/-!
# What the handlers of the control API write

An endpoint makes at most one kind of write, to one table, and an endpoint below a
tenant writes rows of the tenant in its URL only. Both are read off the statements a
handler may perform, so they hold from every database state.

## Key results

- `TenantEndpoint.handler_performs`: the statements of an endpoint below a tenant.
- `Endpoint.handler_performs`: the writes of any endpoint.
- `Deployment.serve_failed`: a handler that ends with an error is answered as a failure.
-/

namespace Barqium.Native.ControlApi

open Program

/-! ## The writes of an endpoint -/

inductive Write where
  | insert (t : Table)
  | update (t : Table)
  | delete (t : Table)
  deriving Repr, DecidableEq

/-- The write that an endpoint below a tenant is for. -/
def TenantEndpoint.write : TenantEndpoint → Option Write
  | .createUpstream => some (.insert .upstreams)
  | .updateUpstream _ => some (.update .upstreams)
  | .deleteUpstream _ => some (.delete .upstreams)
  | .createRoute => some (.insert .routes)
  | .updateRoute _ => some (.update .routes)
  | .deleteRoute _ => some (.delete .routes)
  | .createCheckpoint => some (.insert .configCheckpoints)
  | .createAiProvider => some (.insert .aiProviders)
  | .updateAiProvider _ => some (.update .aiProviders)
  | .deleteAiProvider _ => some (.delete .aiProviders)
  | .createAiModelPolicy _ => some (.insert .aiModelPolicies)
  | .updateAiModelPolicy _ _ => some (.update .aiModelPolicies)
  | .deleteAiModelPolicy _ _ => some (.delete .aiModelPolicies)
  | .createRateLimitPolicy => some (.insert .rateLimitPolicies)
  | .updateRateLimitPolicy _ => some (.update .rateLimitPolicies)
  | .deleteRateLimitPolicy _ => some (.delete .rateLimitPolicies)
  | .createWasmPlugin => some (.insert .wasmPlugins)
  | .updateWasmPlugin _ => some (.update .wasmPlugins)
  | .deleteWasmPlugin _ => some (.delete .wasmPlugins)
  | _ => none

def Endpoint.write : Endpoint → Option Write
  | .createRegion => some (.insert .regions)
  | .updateRegion _ => some (.update .regions)
  | .deleteRegion _ => some (.delete .regions)
  | .createTenant => some (.insert .tenants)
  | .updateTenant _ => some (.update .tenants)
  | .deleteTenant _ => some (.delete .tenants)
  | .inTenant _ endpoint => endpoint.write
  | _ => none

namespace Query

/-- The statement writes nothing, or makes the given write. -/
def Writes (write : Option Write) : {β : Type} → Query β → Prop
  | _, .insertOne t _ => write = some (.insert t)
  | _, .selectOne _ _ => True
  | _, .selectMany _ _ _ _ _ => True
  | _, .updateOne t _ _ => write = some (.update t)
  | _, .deleteAll t _ => write = some (.delete t)

/-- The rows the statement writes are and stay rows of the tenant. -/
def Within (tenantId : UUID) : {β : Type} → Query β → Prop
  | _, .insertOne t row => ∀ id now, t.tenant (row id now) = some tenantId
  | _, .selectOne _ _ => True
  | _, .selectMany _ _ _ _ _ => True
  | _, .updateOne t p set => ∀ r now, p r = true →
      t.tenant r = some tenantId ∧ t.tenant (set now r) = some tenantId
  | _, .deleteAll t p => ∀ r, p r = true → t.tenant r = some tenantId

/-- A statement of an endpoint below the tenant in the URL. -/
def Under (ext : Ext) (tenantParam : String) (write : Option Write) {β : Type} (q : Query β) :
    Prop :=
  ∃ tenantId, ext.uuidParse tenantParam = some tenantId ∧ q.Writes write ∧ q.Within tenantId

/-- A new row gets the generated id. An update is of the row with one id, and keeps it. -/
def Keyed : {β : Type} → Query β → Prop
  | _, .insertOne t row => ∀ id now, t.id (row id now) = id
  | _, .selectOne _ _ => True
  | _, .selectMany _ _ _ _ _ => True
  | _, .updateOne t p set =>
      (∃ id, ∀ r, p r = true → t.id r = id) ∧ ∀ now r, t.id (set now r) = t.id r
  | _, .deleteAll _ _ => True

/-- A statement of an endpoint below the tenant in the URL, with the ids it writes. -/
def Owned (ext : Ext) (tenantParam : String) (write : Option Write) {β : Type} (q : Query β) :
    Prop :=
  q.Under ext tenantParam write ∧ q.Keyed

end Query

/-! ## Shapes of handlers -/

/-- An id is accepted as `uuid.Parse` reads it. -/
theorem parseID_eq_ok {ext : Ext} {invalid param : String} {id : UUID} :
    parseID ext invalid param = .ok id ↔ ext.uuidParse param = some id := by
  unfold parseID
  cases ext.uuidParse param with
  | none => simp
  | some id' => simp

/-- A row with the id, in the tenant. -/
theorem rowIn_eq_true {t : Table} {id tenantId : UUID} {r : t.Row} :
    rowIn t id tenantId r = true ↔ t.id r = id ∧ t.tenant r = some tenantId := by
  unfold rowIn
  rw [Bool.and_eq_true_iff, decide_eq_true_iff, decide_eq_true_iff]

/-- One statement. -/
theorem orFail_performs {allowed : {β : Type} → Query β → Prop} {β : Type}
    {q : Query (Except DbError β)} {onError : DbError → Response} (h : allowed q) :
    (orFail q onError).Performs allowed := by
  apply Performs.bind (Performs.perform h)
  intro result
  cases result with
  | ok b => exact Performs.pure b
  | error err => exact Performs.throw (onError err)

/-- The state a statement leaves does not depend on what becomes of its result. -/
theorem run_orFail (server : Postgres.Server) {β : Type} (q : Query (Except DbError β))
    (onError : DbError → Response) (s : Postgres) :
    (orFail q onError).run (Postgres.exec server) s =
      ((Postgres.exec server q s).1.mapError onError, (Postgres.exec server q s).2) := by
  unfold orFail
  rw [run_bind_perform]
  cases (Postgres.exec server q s).1 with
  | ok b => rfl
  | error err => rfl

/-- A statement run with `orFail` succeeds as the statement does. -/
theorem run_orFail_eq_ok {server : Postgres.Server} {β : Type} {q : Query (Except DbError β)}
    {onError : DbError → Response} {s s' : Postgres} {b : β} :
    (orFail q onError).run (Postgres.exec server) s = (.ok b, s') ↔
      Postgres.exec server q s = (.ok b, s') := by
  rw [run_orFail, Prod.mk.injEq, Except.mapError_eq_ok_iff, ← Prod.mk.injEq]

section Shapes

variable {ext : Ext} {tenantParam idParam : String} {t : Table} {write : Option Write}

/-- Every statement of an endpoint below a tenant comes after its id was parsed. -/
private theorem performs_parseTenantID {k : UUID → Handler}
    (hk : ∀ tenantId, ext.uuidParse tenantParam = some tenantId →
      (k tenantId).Performs (Query.Owned ext tenantParam write)) :
    (attempt (parseTenantID ext tenantParam) >>= k).Performs
      (Query.Owned ext tenantParam write) :=
  Performs.bind_attempt fun tenantId h => hk tenantId (parseID_eq_ok.mp h)

/-- A read in a tenant selects there. -/
private theorem getInTenant_performs {invalid notFound : String} :
    (getInTenant t invalid notFound ext tenantParam idParam).Performs
      (Query.Owned ext tenantParam write) := by
  apply performs_parseTenantID
  intro tenantId htenant
  apply Performs.bind_attempt
  intro id _
  apply Performs.bind (orFail_performs ⟨⟨tenantId, htenant, trivial, trivial⟩, trivial⟩)
  intro row
  exact Performs.pure _

/-- A list in a tenant selects there. -/
private theorem listInTenant_performs {le : t.Row → t.Row → Bool} {r : Request} :
    (listInTenant t le ext r tenantParam).Performs (Query.Owned ext tenantParam write) := by
  apply performs_parseTenantID
  intro tenantId htenant
  apply Performs.bind (orFail_performs ⟨⟨tenantId, htenant, trivial, trivial⟩, trivial⟩)
  intro rows
  exact Performs.pure _

/-- A creation in a tenant inserts a row of the tenant, with the id that it gets. -/
private theorem createInTenant_performs {conflict : String}
    {row : UUID → Program Query Response (UUID → Time → t.Row)}
    (hrow : ∀ tenantId, ext.uuidParse tenantParam = some tenantId →
      (row tenantId).Performs (Query.Owned ext tenantParam (some (.insert t))))
    (hreturns : ∀ tenantId, (row tenantId).Returns fun row =>
      ∀ id now, t.id (row id now) = id ∧ t.tenant (row id now) = some tenantId) :
    (createInTenant t conflict ext tenantParam row).Performs
      (Query.Owned ext tenantParam (some (.insert t))) := by
  apply performs_parseTenantID
  intro tenantId hparse
  -- the row may have been built after reading the database, as that of a route
  apply Performs.bind_returns (hrow tenantId hparse) (hreturns tenantId)
  intro row hrow
  have hunder : (Query.insertOne t row).Under ext tenantParam (some (.insert t)) :=
    ⟨tenantId, hparse, rfl, fun id now => (hrow id now).2⟩
  apply Performs.bind (orFail_performs ⟨hunder, fun id now => (hrow id now).1⟩)
  intro created
  exact Performs.pure _

/-- A row that is built without reading the database. -/
private theorem createInTenant_performs_attempt {conflict : String}
    {row : UUID → Except Response (UUID → Time → t.Row)}
    (hreturns : ∀ tenantId, (attempt (row tenantId) : Program Query Response _).Returns fun row =>
      ∀ id now, t.id (row id now) = id ∧ t.tenant (row id now) = some tenantId) :
    (createInTenant t conflict ext tenantParam fun tenantId => attempt (row tenantId)).Performs
      (Query.Owned ext tenantParam (some (.insert t))) :=
  createInTenant_performs (fun _ _ => trivial) hreturns

/-- A patch in a tenant updates a row there and keeps its id and tenant. -/
private theorem updateInTenant_performs {invalid notFound conflict : String}
    {patch : UUID → t.Row → Program Query Response (Time → t.Row → t.Row)}
    (hpatch : ∀ tenantId existing, ext.uuidParse tenantParam = some tenantId →
      (patch tenantId existing).Performs (Query.Owned ext tenantParam (some (.update t))))
    (hreturns : ∀ tenantId existing, (patch tenantId existing).Returns fun set =>
      ∀ now r, t.id (set now r) = t.id r ∧ t.tenant (set now r) = t.tenant r) :
    (updateInTenant t invalid notFound conflict ext tenantParam idParam patch).Performs
      (Query.Owned ext tenantParam (some (.update t))) := by
  apply performs_parseTenantID
  intro tenantId hparse
  apply Performs.bind_attempt
  intro id _
  apply Performs.bind (orFail_performs ⟨⟨tenantId, hparse, trivial, trivial⟩, trivial⟩)
  intro existing
  apply Performs.bind_returns (hpatch tenantId existing hparse) (hreturns tenantId existing)
  intro set hset
  have hwithin : (Query.updateOne t (rowIn t id tenantId) set).Within tenantId := by
    intro r now hr
    -- the `WHERE` clause names the tenant, and no `SET` clause changes it
    have hr : t.tenant r = some tenantId := (rowIn_eq_true.mp hr).2
    exact ⟨hr, (hset now r).2.trans hr⟩
  have hkeyed : (Query.updateOne t (rowIn t id tenantId) set).Keyed :=
    ⟨⟨id, fun r hr => (rowIn_eq_true.mp hr).1⟩, fun now r => (hset now r).1⟩
  apply Performs.bind (orFail_performs ⟨⟨tenantId, hparse, rfl, hwithin⟩, hkeyed⟩)
  intro updated
  exact Performs.pure _

/-- A patch that is built from the request and the existing row alone. -/
private theorem updateInTenant_performs_attempt {invalid notFound conflict : String}
    {patch : UUID → t.Row → Except Response (Time → t.Row → t.Row)}
    (hreturns : ∀ tenantId existing,
      (attempt (patch tenantId existing) : Program Query Response _).Returns fun set =>
        ∀ now r, t.id (set now r) = t.id r ∧ t.tenant (set now r) = t.tenant r) :
    (updateInTenant t invalid notFound conflict ext tenantParam idParam fun tenantId existing =>
      attempt (patch tenantId existing)).Performs
      (Query.Owned ext tenantParam (some (.update t))) :=
  updateInTenant_performs (fun _ _ _ => trivial) hreturns

/-- A deletion in a tenant deletes there. -/
private theorem deleteInTenant_performs {invalid : String} :
    (deleteInTenant t invalid ext tenantParam idParam).Performs
      (Query.Owned ext tenantParam (some (.delete t))) := by
  apply performs_parseTenantID
  intro tenantId hparse
  apply Performs.bind_attempt
  intro id _
  have hwithin : (Query.deleteAll t (rowIn t id tenantId)).Within tenantId :=
    fun r hr => (rowIn_eq_true.mp hr).2
  apply Performs.bind (orFail_performs ⟨⟨tenantId, hparse, rfl, hwithin⟩, trivial⟩)
  intro _
  exact Performs.pure _

/-- A deletion is a single statement. -/
theorem deleteInTenant_effect (server : Postgres.Server) (t : Table) (invalid : String) (ext : Ext)
    (tenantParam idParam : String) (s : Postgres) :
    let s' := ((deleteInTenant t invalid ext tenantParam idParam).run (Postgres.exec server) s).2
    s'.db = s.db ∨ ∃ tenantId id, ext.uuidParse tenantParam = some tenantId ∧
      ext.uuidParse idParam = some id ∧
      (Query.deleteAll t (rowIn t id tenantId)).Effect server.types s.db s'.db := by
  unfold deleteInTenant
  simp only [run_bind_attempt]
  cases htenant : parseTenantID ext tenantParam with
  | error response => exact .inl rfl
  | ok tenantId =>
    cases hid : parseID ext invalid idParam with
    | error response => exact .inl rfl
    | ok id =>
      right
      refine ⟨tenantId, id, parseID_eq_ok.mp htenant, parseID_eq_ok.mp hid, ?_⟩
      have heffect := Postgres.exec_effect server (.deleteAll t (rowIn t id tenantId)) s
      dsimp only
      rw [run_bind, run_orFail]
      -- what is answered does not matter for the database
      cases hresult : (Postgres.exec server (.deleteAll t (rowIn t id tenantId)) s).1 with
      | ok _ => exact heffect
      | error err => exact heffect

end Shapes

/-! ## Endpoints below a tenant -/

section Tenant

variable {ext : Ext} {r : Request} {tenantParam idParam : String} {write : Option Write}

/-- The creation of an upstream. -/
private theorem createUpstream_performs : (createUpstream ext r tenantParam).Performs
    (Query.Owned ext tenantParam (some (.insert .upstreams))) := by
  apply createInTenant_performs_attempt
  intro tenantId
  unfold upstreamRow
  apply Returns.attempt_bind
  intro req
  apply Returns.attempt_bind
  intro _
  apply Returns.attempt_bind
  -- the row has the id and the tenant that it is given
  intro _ id now
  exact ⟨rfl, rfl⟩

/-- The patch of an upstream. -/
private theorem updateUpstream_performs : (updateUpstream ext r tenantParam idParam).Performs
    (Query.Owned ext tenantParam (some (.update .upstreams))) := by
  apply updateInTenant_performs_attempt
  intro tenantId existing
  apply Returns.attempt_bind
  intro req
  dsimp only
  split
  · apply Returns.attempt_bind
    -- a patch writes neither the id nor the tenant
    intro _ now row
    exact ⟨rfl, rfl⟩
  · intro now row
    exact ⟨rfl, rfl⟩

/-- The check of an upstream selects in the tenant. -/
private theorem checkUpstreamInTenant_performs {upstreamId tenantId : UUID}
    (hparse : ext.uuidParse tenantParam = some tenantId) :
    (checkUpstreamInTenant upstreamId tenantId).Performs (Query.Owned ext tenantParam write) := by
  apply Performs.bind (orFail_performs ⟨⟨tenantId, hparse, trivial, trivial⟩, trivial⟩)
  intro _
  exact Performs.pure _

/-- The creation of a route, with its check. -/
private theorem createRoute_performs : (createRoute ext r tenantParam).Performs
    (Query.Owned ext tenantParam (some (.insert .routes))) := by
  apply createInTenant_performs
  · intro tenantId hparse
    apply Performs.bind_attempt
    intro req _
    -- the check of the upstream is the only statement before the `INSERT`
    apply Performs.bind (checkUpstreamInTenant_performs hparse)
    intro _
    exact Performs.pure _
  · intro tenantId
    apply Returns.bind
    intro req
    apply Returns.bind
    intro _ id now
    exact ⟨rfl, rfl⟩

/-- The patch of a route, with its check. -/
private theorem updateRoute_performs : (updateRoute ext r tenantParam idParam).Performs
    (Query.Owned ext tenantParam (some (.update .routes))) := by
  apply updateInTenant_performs
  · intro tenantId existing hparse
    apply Performs.bind_attempt
    intro req _
    -- the upstream is looked up only when the patch names one
    have hcheck : (req.upstreamId.forM fun id => checkUpstreamInTenant id tenantId).Performs
        (Query.Owned ext tenantParam (some (.update .routes))) := by
      cases req.upstreamId with
      | none => exact Performs.pure _
      | some upstreamId => exact checkUpstreamInTenant_performs hparse
    apply Performs.bind hcheck
    intro _
    exact Performs.pure _
  · intro tenantId existing
    apply Returns.bind
    intro req
    apply Returns.bind
    intro _ now row
    exact ⟨rfl, rfl⟩

/-- The creation of a checkpoint. -/
private theorem createCheckpoint_performs : (createCheckpoint ext r tenantParam).Performs
    (Query.Owned ext tenantParam (some (.insert .configCheckpoints))) := by
  apply createInTenant_performs_attempt
  intro tenantId
  apply Returns.attempt_bind
  intro req
  apply Returns.attempt_bind
  intro _ id now
  exact ⟨rfl, rfl⟩

/-- A rollback selects in the tenant. -/
private theorem rollbackCheckpoint_performs : (rollbackCheckpoint ext r tenantParam).Performs
    (Query.Owned ext tenantParam write) := by
  apply performs_parseTenantID
  intro tenantId hparse
  apply Performs.bind_attempt
  intro req _
  apply Performs.bind (orFail_performs ⟨⟨tenantId, hparse, trivial, trivial⟩, trivial⟩)
  intro checkpoint
  exact Performs.pure _

/-- The creation of a provider. -/
private theorem createAiProvider_performs : (createAiProvider ext r tenantParam).Performs
    (Query.Owned ext tenantParam (some (.insert .aiProviders))) := by
  apply createInTenant_performs_attempt
  intro tenantId
  apply Returns.attempt_bind
  intro req
  apply Returns.attempt_bind
  intro _
  apply Returns.attempt_bind
  intro _ id now
  exact ⟨rfl, rfl⟩

/-- The patch of a provider. -/
private theorem updateAiProvider_performs : (updateAiProvider ext r tenantParam idParam).Performs
    (Query.Owned ext tenantParam (some (.update .aiProviders))) := by
  apply updateInTenant_performs_attempt
  intro tenantId existing
  apply Returns.attempt_bind
  intro req
  dsimp only
  split
  · apply Returns.attempt_bind
    -- a patch writes neither the id nor the tenant
    intro _ now row
    exact ⟨rfl, rfl⟩
  · intro now row
    exact ⟨rfl, rfl⟩

/-- The creation of a model policy. -/
private theorem createAiModelPolicy_performs {provider : String} :
    (createAiModelPolicy ext r tenantParam provider).Performs
      (Query.Owned ext tenantParam (some (.insert .aiModelPolicies))) := by
  apply createInTenant_performs_attempt
  intro tenantId
  apply Returns.attempt_bind
  intro providerId
  apply Returns.attempt_bind
  intro req
  apply Returns.attempt_bind
  intro _ id now
  exact ⟨rfl, rfl⟩

/-- A list of model policies selects in the tenant. -/
private theorem listAiModelPolicies_performs {provider : String} :
    (listAiModelPolicies ext r tenantParam provider).Performs
      (Query.Owned ext tenantParam write) := by
  apply performs_parseTenantID
  intro tenantId hparse
  apply Performs.bind_attempt
  intro providerId _
  apply Performs.bind (orFail_performs ⟨⟨tenantId, hparse, trivial, trivial⟩, trivial⟩)
  intro rows
  exact Performs.pure _

/-- The patch of a model policy. -/
private theorem updateAiModelPolicy_performs :
    (updateAiModelPolicy ext r tenantParam idParam).Performs
    (Query.Owned ext tenantParam (some (.update .aiModelPolicies))) := by
  apply updateInTenant_performs_attempt
  intro tenantId existing
  apply Returns.attempt_bind
  intro req now row
  exact ⟨rfl, rfl⟩

/-- The creation of a rate limit. -/
private theorem createRateLimitPolicy_performs : (createRateLimitPolicy ext r tenantParam).Performs
    (Query.Owned ext tenantParam (some (.insert .rateLimitPolicies))) := by
  apply createInTenant_performs_attempt
  intro tenantId
  apply Returns.attempt_bind
  intro req
  apply Returns.attempt_bind
  intro _ id now
  exact ⟨rfl, rfl⟩

/-- The patch of a rate limit. -/
private theorem updateRateLimitPolicy_performs :
    (updateRateLimitPolicy ext r tenantParam idParam).Performs
      (Query.Owned ext tenantParam (some (.update .rateLimitPolicies))) := by
  apply updateInTenant_performs_attempt
  intro tenantId existing
  apply Returns.attempt_bind
  intro req
  apply Returns.attempt_bind
  intro _
  apply Returns.attempt_bind
  intro _ now row
  exact ⟨rfl, rfl⟩

/-- The creation of a plugin. -/
private theorem createWasmPlugin_performs : (createWasmPlugin ext r tenantParam).Performs
    (Query.Owned ext tenantParam (some (.insert .wasmPlugins))) := by
  apply createInTenant_performs_attempt
  intro tenantId
  apply Returns.attempt_bind
  intro source
  apply Returns.attempt_bind
  intro _
  apply Returns.attempt_bind
  intro _ id now
  exact ⟨rfl, rfl⟩

/-- The patch of a plugin. -/
private theorem updateWasmPlugin_performs : (updateWasmPlugin ext r tenantParam idParam).Performs
    (Query.Owned ext tenantParam (some (.update .wasmPlugins))) := by
  apply updateInTenant_performs_attempt
  intro tenantId existing
  apply Returns.attempt_bind
  intro req
  apply Returns.attempt_bind
  intro _ now row
  exact ⟨rfl, rfl⟩

/-- A download selects in the tenant. -/
private theorem downloadWasmBinary_performs : (downloadWasmBinary ext tenantParam idParam).Performs
    (Query.Owned ext tenantParam write) := by
  apply performs_parseTenantID
  intro tenantId hparse
  apply Performs.bind_attempt
  intro id _
  apply Performs.bind (orFail_performs ⟨⟨tenantId, hparse, trivial, trivial⟩, trivial⟩)
  intro plugin
  exact Performs.pure _

/-- Whatever the endpoint below a tenant, its statements stay in that tenant. -/
theorem TenantEndpoint.handler_owned (endpoint : TenantEndpoint) (ext : Ext) (r : Request)
    (tenantParam : String) :
    (endpoint.handler ext r tenantParam).Performs
      (Query.Owned ext tenantParam endpoint.write) := by
  -- one lemma for each handler
  cases endpoint with
  | createUpstream => exact createUpstream_performs
  | listUpstreams => exact listInTenant_performs
  | getUpstream id => exact getInTenant_performs
  | updateUpstream id => exact updateUpstream_performs
  | deleteUpstream id => exact deleteInTenant_performs
  | createRoute => exact createRoute_performs
  | listRoutes => exact listInTenant_performs
  | getRoute id => exact getInTenant_performs
  | updateRoute id => exact updateRoute_performs
  | deleteRoute id => exact deleteInTenant_performs
  | createCheckpoint => exact createCheckpoint_performs
  | listCheckpoints => exact listInTenant_performs
  | rollbackCheckpoint => exact rollbackCheckpoint_performs
  | createAiProvider => exact createAiProvider_performs
  | listAiProviders => exact listInTenant_performs
  | getAiProvider id => exact getInTenant_performs
  | updateAiProvider id => exact updateAiProvider_performs
  | deleteAiProvider id => exact deleteInTenant_performs
  | createAiModelPolicy providerId => exact createAiModelPolicy_performs
  | listAiModelPolicies providerId => exact listAiModelPolicies_performs
  | getAiModelPolicy providerId policyId => exact getInTenant_performs
  | updateAiModelPolicy providerId policyId => exact updateAiModelPolicy_performs
  | deleteAiModelPolicy providerId policyId => exact deleteInTenant_performs
  | createRateLimitPolicy => exact createRateLimitPolicy_performs
  | listRateLimitPolicies => exact listInTenant_performs
  | getRateLimitPolicy id => exact getInTenant_performs
  | updateRateLimitPolicy id => exact updateRateLimitPolicy_performs
  | deleteRateLimitPolicy id => exact deleteInTenant_performs
  | createWasmPlugin => exact createWasmPlugin_performs
  | listWasmPlugins => exact listInTenant_performs
  | getWasmPlugin id => exact getInTenant_performs
  | updateWasmPlugin id => exact updateWasmPlugin_performs
  | deleteWasmPlugin id => exact deleteInTenant_performs
  | downloadWasmBinary id => exact downloadWasmBinary_performs

/-- An endpoint below a tenant makes no write but its own, and writes only rows of the
    tenant in the URL. -/
theorem TenantEndpoint.handler_performs (endpoint : TenantEndpoint) (ext : Ext) (r : Request)
    (tenantParam : String) :
    (endpoint.handler ext r tenantParam).Performs
      (Query.Under ext tenantParam endpoint.write) :=
  (endpoint.handler_owned ext r tenantParam).mono fun _ hq => hq.1

end Tenant

/-! ## Tenants and regions -/

section TopLevel

variable {ext : Ext} {r : Request} {idParam : String} {t : Table} {write : Option Write}

/-- A read by id writes nothing. -/
theorem getById_performs {invalid notFound : String} :
    (getById t invalid notFound ext idParam).Performs (Query.Writes write) := by
  apply Performs.bind_attempt
  intro id _
  apply Performs.bind (orFail_performs trivial)
  intro row
  exact Performs.pure _

/-- A list writes nothing. -/
theorem listAll_performs {le : t.Row → t.Row → Bool} :
    (listAll t le r).Performs (Query.Writes write) := by
  apply Performs.bind (orFail_performs trivial)
  intro rows
  exact Performs.pure _

/-- A creation inserts into its table. -/
private theorem createRow_performs {conflict : String}
    {row : Except Response (UUID → Time → t.Row)} :
    (createRow t conflict row).Performs (Query.Writes (some (.insert t))) := by
  apply Performs.bind_attempt
  intro row _
  apply Performs.bind (orFail_performs rfl)
  intro created
  exact Performs.pure _

/-- A patch by id updates its table. -/
theorem updateById_performs {invalid notFound conflict : String}
    {patch : t.Row → Except Response (Time → t.Row → t.Row)} :
    (updateById t invalid notFound conflict ext idParam patch).Performs
      (Query.Writes (some (.update t))) := by
  apply Performs.bind_attempt
  intro id _
  apply Performs.bind (orFail_performs trivial)
  intro existing
  apply Performs.bind_attempt
  intro set _
  apply Performs.bind (orFail_performs rfl)
  intro updated
  exact Performs.pure _

/-- A deletion by id deletes from its table. -/
private theorem deleteById_performs {invalid : String} :
    (deleteById t invalid ext idParam).Performs (Query.Writes (some (.delete t))) := by
  apply Performs.bind_attempt
  intro id _
  apply Performs.bind (orFail_performs rfl)
  intro _
  exact Performs.pure _

/-- An endpoint makes no write but its own. -/
theorem Endpoint.handler_performs (endpoint : Endpoint) (ext : Ext) (r : Request) :
    (endpoint.handler ext r).Performs (Query.Writes endpoint.write) := by
  -- the handlers without a tenant, then those of a tenant
  cases endpoint with
  | createRegion => exact createRow_performs
  | listRegions => exact listAll_performs
  | getRegion id => exact getById_performs
  | updateRegion id => exact updateById_performs
  | deleteRegion id => exact deleteById_performs
  | createTenant => exact createRow_performs
  | deleteTenant id => exact deleteById_performs
  | listTenants => exact listAll_performs
  | getTenant id => exact getById_performs
  | updateTenant id => exact updateById_performs
  | inTenant tenantId endpoint =>
    apply (endpoint.handler_performs ext r tenantId).mono
    rintro β q ⟨-, -, hwrites, -⟩
    exact hwrites

/-- Reading and deleting keep the ids. -/
theorem Query.Writes.keyed {β : Type} {q : Query β} (h : q.Writes write)
    (hinsert : ∀ u, write ≠ some (.insert u)) (hupdate : ∀ u, write ≠ some (.update u)) :
    q.Keyed := by
  cases q with
  | insertOne u row => exact absurd h (hinsert u)
  | selectOne u p => trivial
  | selectMany u p le limit offset => trivial
  | updateOne u p set => exact absurd h (hupdate u)
  | deleteAll u p => trivial

/-- A creation stores the row under its id. -/
private theorem createRow_keyed {conflict : String} {row : Except Response (UUID → Time → t.Row)}
    (hrow : (attempt row : Program Query Response _).Returns fun row =>
      ∀ id now, t.id (row id now) = id) :
    (createRow t conflict row).Performs Query.Keyed := by
  refine Performs.bind_returns ?_ hrow ?_
  · trivial
  · intro row hid
    apply Performs.bind (orFail_performs hid)
    intro created
    exact Performs.pure _

/-- The statement reads, or updates the row with the given id and keeps its id. -/
def Query.KeepsRow (t : Table) (id : UUID) : {β : Type} → Query β → Prop
  | _, .selectOne _ _ => True
  | _, .updateOne u p set =>
    u = t ∧ (∀ row, p row = true → u.id row = id) ∧ ∀ now row, u.id (set now row) = u.id row
  | _, _ => False

/-- A statement that keeps a row keeps ids. -/
theorem Query.KeepsRow.keyed {id : UUID} {β : Type} {q : Query β} (h : q.KeepsRow t id) :
    q.Keyed := by
  cases q with
  | selectOne u p => trivial
  | updateOne u p set => exact ⟨⟨id, h.2.1⟩, h.2.2⟩
  | _ => exact nomatch h

/-- A tenant is its own tenant. -/
theorem Query.KeepsRow.under {id : UUID} {β : Type} {q : Query β}
    (h : q.KeepsRow .tenants id) (hparse : ext.uuidParse idParam = some id) :
    q.Under ext idParam (some (.update .tenants)) := by
  cases q with
  | selectOne u p => exact ⟨id, hparse, trivial, trivial⟩
  | updateOne u p set =>
    obtain ⟨rfl, hid, hset⟩ := h
    refine ⟨id, hparse, rfl, fun row now hrow => ?_⟩
    exact ⟨congrArg some (hid row hrow), congrArg some ((hset now row).trans (hid row hrow))⟩
  | _ => exact nomatch h

/-- A patch by id writes the row with that id, and keeps the id. -/
private theorem updateById_keepsRow {invalid notFound conflict : String}
    {patch : t.Row → Except Response (Time → t.Row → t.Row)}
    (hpatch : ∀ existing, (attempt (patch existing) : Program Query Response _).Returns fun set =>
      ∀ now row, t.id (set now row) = t.id row) :
    (updateById t invalid notFound conflict ext idParam patch).Performs fun q =>
      ∃ id, ext.uuidParse idParam = some id ∧ q.KeepsRow t id := by
  apply Performs.bind_attempt
  intro id hid
  have hparse : ext.uuidParse idParam = some id := parseID_eq_ok.mp hid
  apply Performs.bind (orFail_performs ⟨id, hparse, trivial⟩)
  intro existing
  refine Performs.bind_returns ?_ (hpatch existing) ?_
  · trivial
  · intro set hset
    -- the `UPDATE` is for that id and keeps it
    have hupdate : (Query.updateOne t (rowAt t id) set).KeepsRow t id :=
      ⟨rfl, fun row hrow => of_decide_eq_true hrow, hset⟩
    apply Performs.bind (orFail_performs ⟨id, hparse, hupdate⟩)
    intro updated
    exact Performs.pure _

/-- A new region is stored under its id. -/
private theorem createRegion_keyed : (createRegion r).Performs Query.Keyed := by
  apply createRow_keyed
  apply Returns.attempt_bind
  intro req
  apply Returns.attempt_bind
  intro _
  apply Returns.attempt_bind
  intro _ id now
  rfl

/-- A patch of a region keeps its id. -/
private theorem updateRegion_keepsRow :
    (updateRegion ext r idParam).Performs fun q =>
      ∃ id, ext.uuidParse idParam = some id ∧ q.KeepsRow .regions id := by
  apply updateById_keepsRow
  intro existing
  apply Returns.attempt_bind
  intro req now row
  rfl

/-- A new tenant is stored under its id. -/
theorem createTenant_keyed : (createTenant r).Performs Query.Keyed := by
  apply createRow_keyed
  apply Returns.attempt_bind
  intro req
  repeat apply Returns.attempt_bind; intro _
  intro id now
  rfl

/-- A patch of a tenant keeps its id. -/
private theorem updateTenant_keepsRow :
    (updateTenant ext r idParam).Performs fun q =>
      ∃ id, ext.uuidParse idParam = some id ∧ q.KeepsRow .tenants id := by
  apply updateById_keepsRow
  intro existing
  apply Returns.attempt_bind
  intro req
  dsimp only
  -- name and slug are each checked only when provided
  split <;> split
  all_goals
    repeat apply Returns.attempt_bind; intro _
    intro now row
    rfl

/-- The patch of a tenant writes the row in the URL. -/
theorem updateTenant_performs :
    (updateTenant ext r idParam).Performs (Query.Under ext idParam (some (.update .tenants))) :=
  updateTenant_keepsRow.mono fun _ ⟨_, hparse, hq⟩ => hq.under hparse

/-- No endpoint changes the id of a row. -/
theorem Endpoint.handler_keyed (endpoint : Endpoint) (ext : Ext) (r : Request) :
    (endpoint.handler ext r).Performs Query.Keyed := by
  cases endpoint with
  | createRegion => exact createRegion_keyed
  | updateRegion id => exact updateRegion_keepsRow.mono fun _ ⟨_, _, hq⟩ => hq.keyed
  | createTenant => exact createTenant_keyed
  | updateTenant id => exact updateTenant_keepsRow.mono fun _ ⟨_, _, hq⟩ => hq.keyed
  | inTenant tenantId endpoint =>
    exact (endpoint.handler_owned ext r tenantId).mono fun _ hq => hq.2
  | listRegions | getRegion id | listTenants | getTenant id | deleteRegion id | deleteTenant id =>
    exact (Endpoint.handler_performs _ ext r).mono fun _ hq => hq.keyed nofun nofun

end TopLevel

/-! ## Values of a decoding -/

/-- A requirement that is met. -/
theorem require_eq_ok {cond : Bool} {otherwise : Response} {u : Unit} :
    require cond otherwise = .ok u ↔ cond = true := by
  cases cond <;> simp [require]

/-- A positive default keeps the number positive. -/
theorem positiveOr_pos {default : Int32} (h : 0 < default) (n : Option Int32) :
    0 < positiveOr default n := by
  cases n with
  | none => exact h
  | some n =>
    show 0 < if 0 < n then n else default
    split
    · assumption
    · exact h

/-- A new plugin comes as a file, or with the place where it is stored. -/
theorem wasmSource_cases {ext : Ext} {r : Request} {source : WasmSource}
    (h : wasmSource ext r = .ok source) :
    ("multipart/form-data".toList.isPrefixOf r.contentType.toList = true ∧
      source.storageUrl = none ∧ ∃ form bytes, r.form = some form ∧
        form.wasmBinary = some (some bytes) ∧ source.wasmBytes = some bytes) ∨
    (∃ url, source.storageUrl = some url) ∧ source.wasmBytes = none := by
  unfold wasmSource at h
  split at h
  · -- an upload: the file's bytes are the source
    rename_i hmultipart
    unfold wasmSourceOfForm at h
    split at h
    · cases h
    · rename_i form hform
      split at h
      · cases h
      · cases h
      · rename_i bytes hbytes
        cases h
        exact .inl ⟨hmultipart, rfl, form, bytes, hform, hbytes, rfl⟩
  · -- otherwise the body is JSON and must have a storage URL
    obtain ⟨req, -, h⟩ := Except.bind_eq_ok_iff.mp h
    obtain ⟨_, hurl, h⟩ := Except.bind_eq_ok_iff.mp h
    cases h
    exact .inr ⟨Option.isSome_iff_exists.mp (require_eq_ok.mp hurl), rfl⟩

/-! ## Failures -/

/-- An answer with an error status. -/
def Response.Failed (response : Response) : Prop := 400 ≤ response.status

instance (response : Response) : Decidable response.Failed :=
  inferInstanceAs (Decidable (400 ≤ response.status))

/-- An error with a status from 400 on. -/
theorem writeError_failed {status : Nat} (h : 400 ≤ status) (msg : String) :
    (writeError status msg).Failed := h

private theorem internalError_failed (err : DbError) : (internalError err).Failed :=
  writeError_failed (by decide) _

/-- A row that is not found, or an internal error. -/
theorem notFoundOr_failed (msg : String) (err : DbError) : (notFoundOr msg err).Failed := by
  unfold notFoundOr
  split
  · exact writeError_failed (by decide) msg
  · exact internalError_failed err

/-- A key that is taken, or an internal error. -/
theorem conflictOr_failed (msg : String) (err : DbError) : (conflictOr msg err).Failed := by
  unfold conflictOr
  split
  · exact writeError_failed (by decide) msg
  · exact internalError_failed err

/-- An id that does not parse. -/
private theorem parseID_failed {ext : Ext} {invalid param : String} (e : Response)
    (h : parseID ext invalid param = .error e) : e.Failed := by
  unfold parseID at h
  split at h
  · cases h
  · cases h
    exact writeError_failed (by decide) invalid

/-- A body that does not decode. -/
theorem decodeBody_failed {α : Type} {set : α → String → Json → Option α} {zero : α} {r : Request}
    (e : Response) (h : decodeBody set zero r = .error e) : e.Failed := by
  simp only [decodeBody] at h
  split at h
  · cases h
  · cases h
    exact writeError_failed (by decide) _

/-- A requirement that is not met. -/
theorem require_failed {cond : Bool} {otherwise : Response} (hotherwise : otherwise.Failed)
    (e : Response) (h : require cond otherwise = .error e) : e.Failed := by
  unfold require at h
  split at h
  · cases h
  · cases h
    exact hotherwise

/-- A statement that fails. -/
private theorem orFail_raises {β : Type} {q : Query (Except DbError β)}
    {onError : DbError → Response}
    (h : ∀ err, (onError err).Failed) : (orFail q onError).Raises Response.Failed := by
  intro result
  cases result with
  | ok b => exact Raises.pure b
  | error err => exact h err

/-- A URL that is refused. -/
theorem validateURL_failed {ext : Ext} {rawURL : String} (e : Response)
    (h : validateURL ext rawURL = .error e) : e.Failed := by
  -- every check of the URL answers a 400
  have hraises : (attempt (validateURL ext rawURL) : Program Query Response Unit).Raises
      Response.Failed := by
    unfold validateURL
    apply Raises.attempt_bind (require_failed (writeError_failed (by decide) _))
    intro _
    split
    · exact writeError_failed (by decide) _
    · apply Raises.attempt_bind (require_failed (writeError_failed (by decide) _))
      intro _
      exact Raises.attempt (require_failed (writeError_failed (by decide) _))
  rw [h] at hraises
  exact hraises

/-- A creation in a tenant raises failures only. -/
private theorem createInTenant_raises {t : Table} {conflict : String} {ext : Ext}
    {tenantParam : String} {row : UUID → Program Query Response (UUID → Time → t.Row)}
    (hrow : ∀ tenantId, (row tenantId).Raises Response.Failed) :
    (createInTenant t conflict ext tenantParam row).Raises Response.Failed := by
  apply Raises.bind (Raises.attempt parseID_failed)
  intro tenantId
  apply Raises.bind (hrow tenantId)
  intro row
  apply Raises.bind (orFail_raises (conflictOr_failed conflict))
  intro created
  exact Raises.pure _

/-- A patch in a tenant raises failures only. -/
private theorem updateInTenant_raises {t : Table} {invalid notFound conflict : String} {ext : Ext}
    {tenantParam idParam : String}
    {patch : UUID → t.Row → Program Query Response (Time → t.Row → t.Row)}
    (hpatch : ∀ tenantId existing, (patch tenantId existing).Raises Response.Failed) :
    (updateInTenant t invalid notFound conflict ext tenantParam idParam patch).Raises
      Response.Failed := by
  apply Raises.bind (Raises.attempt parseID_failed)
  intro tenantId
  apply Raises.bind (Raises.attempt parseID_failed)
  intro id
  -- 404 if there is no such row
  apply Raises.bind (orFail_raises (notFoundOr_failed notFound))
  intro existing
  apply Raises.bind (hpatch tenantId existing)
  intro set
  -- 409 if a key is taken
  apply Raises.bind (orFail_raises (conflictOr_failed conflict))
  intro updated
  exact Raises.pure _

section Routes

variable {ext : Ext} {r : Request} {tenantParam idParam : String}

/-- The creation of an upstream. -/
theorem createUpstream_raises : (createUpstream ext r tenantParam).Raises Response.Failed := by
  apply createInTenant_raises
  intro tenantId
  apply Raises.attempt_bind decodeBody_failed
  intro req
  apply Raises.attempt_bind (require_failed (writeError_failed (by decide) _))
  intro _
  apply Raises.attempt_bind validateURL_failed
  intro _
  trivial

/-- The patch of an upstream. -/
theorem updateUpstream_raises :
    (updateUpstream ext r tenantParam idParam).Raises Response.Failed := by
  apply updateInTenant_raises
  intro tenantId existing
  apply Raises.attempt_bind decodeBody_failed
  intro req
  dsimp only
  split
  · -- the URL is checked only if it is patched
    apply Raises.attempt_bind validateURL_failed
    intro _
    trivial
  · trivial

/-- The check of an upstream. -/
theorem checkUpstreamInTenant_raises {upstreamId tenantId : UUID} :
    (checkUpstreamInTenant upstreamId tenantId).Raises Response.Failed := by
  apply Raises.bind
  · apply orFail_raises
    intro err
    split
    · exact writeError_failed (by decide) _
    · exact internalError_failed err
  · intro _
    exact Raises.pure _

/-- The creation of a route. -/
theorem createRoute_raises : (createRoute ext r tenantParam).Raises Response.Failed := by
  -- the checks on the body, then the check on the upstream
  apply createInTenant_raises
  intro tenantId
  apply Raises.bind
  · apply Raises.attempt_bind decodeBody_failed
    intro req
    apply Raises.attempt_bind (require_failed (writeError_failed (by decide) _))
    intro _
    apply Raises.attempt_bind (require_failed (writeError_failed (by decide) _))
    intro _
    trivial
  · intro req
    apply Raises.bind checkUpstreamInTenant_raises
    intro _
    exact Raises.pure _

/-- The patch of a route. -/
theorem updateRoute_raises : (updateRoute ext r tenantParam idParam).Raises Response.Failed := by
  apply updateInTenant_raises
  intro tenantId existing
  apply Raises.bind (Raises.attempt decodeBody_failed)
  intro req
  apply Raises.bind
  · -- the upstream is looked up only if it is patched
    cases req.upstreamId with
    | none => exact Raises.pure _
    | some upstreamId => exact checkUpstreamInTenant_raises
  · intro _
    exact Raises.pure _

end Routes

/-- A caller without the role. -/
private theorem requireRole_failed {roles : List String} {token : Option Token} (e : Response)
    (h : requireRole roles token = .error e) : e.Failed := by
  unfold requireRole at h
  split at h
  · cases h
  · dsimp only at h
    split at h
    · cases h
    · cases h
      decide

/-- A caller of another tenant. -/
private theorem ownTenant_failed {tenantParam : String} {token : Token} (e : Response)
    (h : tenantScope.ownTenant tenantParam token = .error e) : e.Failed := by
  unfold tenantScope.ownTenant at h
  split at h
  · cases h
  · dsimp only at h
    split at h
    · cases h
      decide
    · cases h

/-- A caller outside the scope. -/
private theorem tenantScope_failed {adminRoles : List String} {tenantParam : String}
    {token : Option Token}
    (e : Response) (h : tenantScope adminRoles tenantParam token = .error e) : e.Failed := by
  unfold tenantScope at h
  split at h
  · cases h
  · split at h
    · split at h
      · cases h
      · exact ownTenant_failed e h
    · -- a role that is not a string: the type assertion panics
      cases h
      decide
    · exact ownTenant_failed e h

/-- A caller without a valid token. -/
private theorem oidc_failed {mode : OidcMode} {auth : Authentication} (e : Response)
    (h : oidc mode auth = .error e) : e.Failed := by
  -- the gate lets everything through when it is off, and a valid token when it is on
  unfold oidc at h
  split at h
  · cases h
  · cases h
    decide
  · split at h
    · cases h
      decide
    · cases h
      decide
    · cases h
      decide
    · cases h

/-- The guard of an endpoint. -/
private theorem guard_failed {token : Option Token} {endpoint : Endpoint} (e : Response)
    (h : endpoint.guard token = .error e) : e.Failed := by
  cases endpoint with
  | createRegion | listRegions | getRegion id | updateRegion id | deleteRegion id
  | createTenant | deleteTenant id => exact requireRole_failed e h
  | listTenants | getTenant id | updateTenant id => cases h
  | inTenant tenantId endpoint => exact tenantScope_failed e h

/-- All middlewares together. -/
theorem middlewares_failed {mode : OidcMode} {r : Request} {endpoint : Endpoint} (e : Response)
    (h : middlewares mode r endpoint = .error e) : e.Failed := by
  unfold middlewares at h
  cases hoidc : oidc mode r.auth with
  | error response =>
    rw [hoidc] at h
    cases h
    exact oidc_failed e hoidc
  | ok token =>
    rw [hoidc] at h
    exact guard_failed e h

/-! ## One request -/

namespace Deployment

variable {api : Deployment} {s : Postgres} {endpoint : Endpoint} {r : Request}

/-- A rejected request leaves the server as it was. -/
private theorem serve_of_rejected {response : Response}
    (h : middlewares api.oidcMode r endpoint = .error response) :
    api.serve s (endpoint, r) = (response, s) := by
  simp only [serve, handle, run_bind_attempt, h]

/-- A request that is turned away changes nothing. -/
theorem step_of_rejected {response : Response}
    (h : middlewares api.oidcMode r endpoint = .error response) : api.step s (endpoint, r) = s := by
  rw [step, serve_of_rejected h]

/-- The answer to a request that its handler fails. -/
private theorem serve_of_error {response : Response} {s' : Postgres}
    (h : middlewares api.oidcMode r endpoint = .ok ())
    (hrun : (endpoint.handler api.ext r).run (Postgres.exec api.server) s = (.error response, s')) :
    api.serve s (endpoint, r) = (response, s') := by
  simp only [serve, handle, run_bind_attempt, h, hrun]

/-- A request that is let in is answered by its handler. -/
theorem serve_of_ok {response : Response} {s' : Postgres}
    (h : middlewares api.oidcMode r endpoint = .ok ())
    (hrun : (endpoint.handler api.ext r).run (Postgres.exec api.server) s = (.ok response, s')) :
    api.serve s (endpoint, r) = (response, s') := by
  simp only [serve, handle, run_bind_attempt, h, hrun]

/-- A request that is let in does what its handler does. -/
theorem step_of_admitted (h : middlewares api.oidcMode r endpoint = .ok ()) :
    api.step s (endpoint, r) =
      ((endpoint.handler api.ext r).run (Postgres.exec api.server) s).2 := by
  cases hrun : (endpoint.handler api.ext r).run (Postgres.exec api.server) s with
  | mk result s' =>
    cases result with
    | ok response => rw [step, serve_of_ok h hrun]
    | error response => rw [step, serve_of_error h hrun]

/-- A request whose handler ends with an error is answered with an error status. -/
theorem serve_failed
    (hraises : (endpoint.handler api.ext r).Raises Response.Failed)
    (hfails : middlewares api.oidcMode r endpoint = .ok () →
      (endpoint.handler api.ext r).Fails (Postgres.exec api.server) s) :
    (api.serve s (endpoint, r)).1.Failed := by
  cases hpass : middlewares api.oidcMode r endpoint with
  | error response =>
    rw [serve_of_rejected hpass]
    exact middlewares_failed response hpass
  | ok _ =>
    obtain ⟨response, s', hrun⟩ := hfails hpass
    rw [serve_of_error hpass hrun]
    exact hraises.run (congrArg Prod.fst hrun)

end Deployment

end Barqium.Native.ControlApi
