import Barqium.Native.ControlApi.PolicyHandlers

/-!
# Router of the control API

Model of the wiring in `services/control-api/main.go`: the endpoints under `/api/v1`,
the guards in front of them, and the server that answers one request after the other.
An endpoint is what the router makes of a method and a path, with the URL parameters
as they stand in the path.
-/

namespace Barqium.Native.ControlApi

open Program (attempt)

/-- The endpoints under `/tenants/{tenantId}`. -/
inductive TenantEndpoint where
  | createUpstream
  | listUpstreams
  | getUpstream (id : String)
  | updateUpstream (id : String)
  | deleteUpstream (id : String)
  | createRoute
  | listRoutes
  | getRoute (id : String)
  | updateRoute (id : String)
  | deleteRoute (id : String)
  | createCheckpoint
  | listCheckpoints
  | rollbackCheckpoint
  | createAiProvider
  | listAiProviders
  | getAiProvider (id : String)
  | updateAiProvider (id : String)
  | deleteAiProvider (id : String)
  | createAiModelPolicy (providerId : String)
  | listAiModelPolicies (providerId : String)
  | getAiModelPolicy (providerId policyId : String)
  | updateAiModelPolicy (providerId policyId : String)
  | deleteAiModelPolicy (providerId policyId : String)
  | createRateLimitPolicy
  | listRateLimitPolicies
  | getRateLimitPolicy (id : String)
  | updateRateLimitPolicy (id : String)
  | deleteRateLimitPolicy (id : String)
  | createWasmPlugin
  | listWasmPlugins
  | getWasmPlugin (id : String)
  | updateWasmPlugin (id : String)
  | deleteWasmPlugin (id : String)
  | downloadWasmBinary (id : String)
  deriving Repr, DecidableEq

/-- The endpoints under `/api/v1`. -/
inductive Endpoint where
  | createRegion
  | listRegions
  | getRegion (id : String)
  | updateRegion (id : String)
  | deleteRegion (id : String)
  | createTenant
  | deleteTenant (id : String)
  | listTenants
  | getTenant (id : String)
  | updateTenant (id : String)
  | inTenant (tenantId : String) (endpoint : TenantEndpoint)
  deriving Repr, DecidableEq

def TenantEndpoint.handler (ext : Ext) (r : Request) (tenantId : String) :
    TenantEndpoint → Handler
  | .createUpstream => ControlApi.createUpstream ext r tenantId
  | .listUpstreams => ControlApi.listUpstreams ext r tenantId
  | .getUpstream id => ControlApi.getUpstream ext tenantId id
  | .updateUpstream id => ControlApi.updateUpstream ext r tenantId id
  | .deleteUpstream id => ControlApi.deleteUpstream ext tenantId id
  | .createRoute => ControlApi.createRoute ext r tenantId
  | .listRoutes => ControlApi.listRoutes ext r tenantId
  | .getRoute id => ControlApi.getRoute ext tenantId id
  | .updateRoute id => ControlApi.updateRoute ext r tenantId id
  | .deleteRoute id => ControlApi.deleteRoute ext tenantId id
  | .createCheckpoint => ControlApi.createCheckpoint ext r tenantId
  | .listCheckpoints => ControlApi.listCheckpoints ext r tenantId
  | .rollbackCheckpoint => ControlApi.rollbackCheckpoint ext r tenantId
  | .createAiProvider => ControlApi.createAiProvider ext r tenantId
  | .listAiProviders => ControlApi.listAiProviders ext r tenantId
  | .getAiProvider id => ControlApi.getAiProvider ext tenantId id
  | .updateAiProvider id => ControlApi.updateAiProvider ext r tenantId id
  | .deleteAiProvider id => ControlApi.deleteAiProvider ext tenantId id
  | .createAiModelPolicy providerId => ControlApi.createAiModelPolicy ext r tenantId providerId
  | .listAiModelPolicies providerId => ControlApi.listAiModelPolicies ext r tenantId providerId
  | .getAiModelPolicy _ policyId => ControlApi.getAiModelPolicy ext tenantId policyId
  | .updateAiModelPolicy _ policyId => ControlApi.updateAiModelPolicy ext r tenantId policyId
  | .deleteAiModelPolicy _ policyId => ControlApi.deleteAiModelPolicy ext tenantId policyId
  | .createRateLimitPolicy => ControlApi.createRateLimitPolicy ext r tenantId
  | .listRateLimitPolicies => ControlApi.listRateLimitPolicies ext r tenantId
  | .getRateLimitPolicy id => ControlApi.getRateLimitPolicy ext tenantId id
  | .updateRateLimitPolicy id => ControlApi.updateRateLimitPolicy ext r tenantId id
  | .deleteRateLimitPolicy id => ControlApi.deleteRateLimitPolicy ext tenantId id
  | .createWasmPlugin => ControlApi.createWasmPlugin ext r tenantId
  | .listWasmPlugins => ControlApi.listWasmPlugins ext r tenantId
  | .getWasmPlugin id => ControlApi.getWasmPlugin ext tenantId id
  | .updateWasmPlugin id => ControlApi.updateWasmPlugin ext r tenantId id
  | .deleteWasmPlugin id => ControlApi.deleteWasmPlugin ext tenantId id
  | .downloadWasmBinary id => ControlApi.downloadWasmBinary ext tenantId id

def Endpoint.handler (ext : Ext) (r : Request) : Endpoint → Handler
  | .createRegion => ControlApi.createRegion r
  | .listRegions => ControlApi.listRegions r
  | .getRegion id => ControlApi.getRegion ext id
  | .updateRegion id => ControlApi.updateRegion ext r id
  | .deleteRegion id => ControlApi.deleteRegion ext id
  | .createTenant => ControlApi.createTenant r
  | .deleteTenant id => ControlApi.deleteTenant ext id
  | .listTenants => ControlApi.listTenants r
  | .getTenant id => ControlApi.getTenant ext id
  | .updateTenant id => ControlApi.updateTenant ext r id
  | .inTenant tenantId endpoint => endpoint.handler ext r tenantId

/-- The guard of an endpoint, which sees the token that the `OIDC` middleware put into
    the context. -/
def Endpoint.guard (token : Option Token) : Endpoint → Except Response Unit
  | .createRegion | .listRegions | .getRegion _ | .updateRegion _ | .deleteRegion _ =>
    requireRole ["admin"] token
  -- Create and delete tenant are admin-only; reads are open to any valid token.
  | .createTenant | .deleteTenant _ => requireRole ["admin"] token
  -- GET /tenants and GET /tenants/{id} and PATCH /tenants/{id} use no extra guard.
  | .listTenants | .getTenant _ | .updateTenant _ => .ok ()
  | .inTenant tenantId _ => tenantScope ["admin"] tenantId token

/-- The middlewares of an endpoint. -/
def middlewares (mode : OidcMode) (r : Request) (endpoint : Endpoint) : Except Response Unit := do
  let token ← oidc mode r.auth
  endpoint.guard token

def handle (ext : Ext) (mode : OidcMode) (endpoint : Endpoint) (r : Request) : Handler := do
  attempt (middlewares mode r endpoint)
  endpoint.handler ext r

/-! ## The running server -/

/-- The control API as it is deployed: the libraries, the OIDC configuration and the
    database server. -/
structure Deployment where
  ext : Ext
  oidcMode : OidcMode
  server : Postgres.Server

namespace Deployment

/-- Answer one request. -/
def serve (api : Deployment) (s : Postgres) (call : Endpoint × Request) : Response × Postgres :=
  match (handle api.ext api.oidcMode call.1 call.2).run (Postgres.exec api.server) s with
  | (.ok response, s') => (response, s')
  | (.error response, s') => (response, s')

/-- The database server after one request. -/
def step (api : Deployment) (s : Postgres) (call : Endpoint × Request) : Postgres :=
  (api.serve s call).2

/-- The database server after the requests, from the one that the migrations leave. -/
def run (api : Deployment) (calls : List (Endpoint × Request)) : Postgres :=
  calls.foldl api.step ⟨0, Db.empty⟩

end Deployment

end Barqium.Native.ControlApi
