import Mathlib.Logic.Function.Basic

/-!
# Database of the control API

The rows of `services/migrations` as `internal/sqlc/sqlcgen/models.go` reads them,
with the constraints the migrations put on them. A column that the handlers treat
as text stays text; what Postgres makes of it when the row is stored is in
`Table.coerce`.
-/

namespace Barqium.Native.ControlApi

abbrev UUID := BitVec 128

/-- Microseconds since the epoch. -/
abbrev Time := Int

abbrev Bytes := List UInt8

structure Tenant where
  id : UUID
  name : String
  slug : String
  enabled : Bool
  createdAt : Time
  updatedAt : Time
  deriving Repr, DecidableEq

structure Upstream where
  id : UUID
  tenantId : UUID
  name : String
  url : String
  timeoutMs : Int32
  enabled : Bool
  createdAt : Time
  updatedAt : Time
  deriving Repr, DecidableEq

structure Route where
  id : UUID
  tenantId : UUID
  method : String
  pathPrefix : String
  host : String
  upstreamId : UUID
  enabled : Bool
  createdAt : Time
  updatedAt : Time
  deriving Repr, DecidableEq

structure ConfigCheckpoint where
  id : UUID
  tenantId : UUID
  sequence : Int64
  outboxLastId : Option Int64
  note : Option String
  createdAt : Time
  deriving Repr, DecidableEq

structure AiProvider where
  id : UUID
  tenantId : UUID
  name : String
  provider : String
  baseUrl : Option String
  /-- Name of the environment variable holding the API key. -/
  apiKeyEnv : Option String
  enabled : Bool
  createdAt : Time
  updatedAt : Time
  deriving Repr, DecidableEq

structure AiModelPolicy where
  id : UUID
  tenantId : UUID
  providerId : UUID
  model : String
  maxTokensPerRequest : Int32
  /-- `NUMERIC(10,4)`, as text. -/
  budgetUsdPerDay : Option String
  fallbackModel : Option String
  enabled : Bool
  createdAt : Time
  updatedAt : Time
  deriving Repr, DecidableEq

structure Region where
  id : UUID
  name : String
  kafkaBrokers : String
  isPrimary : Bool
  mm2GroupId : Option String
  enabled : Bool
  createdAt : Time
  updatedAt : Time
  deriving Repr, DecidableEq

structure RateLimitPolicy where
  id : UUID
  tenantId : UUID
  name : String
  scope : String
  algorithm : String
  rateLimit : Int32
  windowSecs : Int32
  burstLimit : Option Int32
  enabled : Bool
  createdAt : Time
  updatedAt : Time
  deriving Repr, DecidableEq

structure WasmPlugin where
  id : UUID
  tenantId : UUID
  name : String
  version : String
  trigger : String
  sha256 : String
  storageUrl : Option String
  wasmBinary : Option Bytes
  /-- `JSONB`, as text. -/
  config : String
  enabled : Bool
  createdAt : Time
  updatedAt : Time
  deriving Repr, DecidableEq

/-- A row of the transactional outbox. -/
structure EventOutbox where
  id : Int64
  tenantId : UUID
  kafkaTopic : String
  payload : Bytes
  createdAt : Time
  sentAt : Option Time
  kafkaPartition : Option Int32
  kafkaOffset : Option Int64
  deriving Repr, DecidableEq

/-- The tables the handlers read and write. -/
inductive Table where
  | tenants
  | upstreams
  | routes
  | configCheckpoints
  | aiProviders
  | aiModelPolicies
  | regions
  | rateLimitPolicies
  | wasmPlugins
  deriving Repr, DecidableEq

namespace Table

abbrev Row : Table → Type
  | tenants => Tenant
  | upstreams => Upstream
  | routes => Route
  | configCheckpoints => ConfigCheckpoint
  | aiProviders => AiProvider
  | aiModelPolicies => AiModelPolicy
  | regions => Region
  | rateLimitPolicies => RateLimitPolicy
  | wasmPlugins => WasmPlugin

/-- The primary key. -/
def id : (t : Table) → t.Row → UUID
  | tenants, r => Tenant.id r
  | upstreams, r => Upstream.id r
  | routes, r => Route.id r
  | configCheckpoints, r => ConfigCheckpoint.id r
  | aiProviders, r => AiProvider.id r
  | aiModelPolicies, r => AiModelPolicy.id r
  | regions, r => Region.id r
  | rateLimitPolicies, r => RateLimitPolicy.id r
  | wasmPlugins, r => WasmPlugin.id r

/-- The tenant a row belongs to: itself for a tenant, none for a region. -/
def tenant : (t : Table) → t.Row → Option UUID
  | tenants, r => some (Tenant.id r)
  | upstreams, r => some (Upstream.tenantId r)
  | routes, r => some (Route.tenantId r)
  | configCheckpoints, r => some (ConfigCheckpoint.tenantId r)
  | aiProviders, r => some (AiProvider.tenantId r)
  | aiModelPolicies, r => some (AiModelPolicy.tenantId r)
  | regions, _ => none
  | rateLimitPolicies, r => some (RateLimitPolicy.tenantId r)
  | wasmPlugins, r => some (WasmPlugin.tenantId r)

/-- The name of the table in SQL. -/
def sqlName : Table → String
  | tenants => "tenants"
  | upstreams => "upstreams"
  | routes => "routes"
  | configCheckpoints => "config_checkpoints"
  | aiProviders => "ai_providers"
  | aiModelPolicies => "ai_model_policies"
  | regions => "regions"
  | rateLimitPolicies => "rate_limit_policies"
  | wasmPlugins => "wasm_plugins"

/-- The name of the table's unique constraint beside the primary key. -/
def uniqueName : Table → String
  | tenants => "tenants_slug_unique"
  | upstreams => "upstreams_tenant_name_unique"
  | routes => "routes_tenant_method_path_host_unique"
  | configCheckpoints => "config_checkpoints_tenant_sequence_uniq"
  | aiProviders => "ai_providers_tenant_id_name_key"
  | aiModelPolicies => "ai_model_policies_tenant_id_provider_id_model_key"
  | regions => "regions_name_key"
  | rateLimitPolicies => "rate_limit_policies_tenant_id_name_key"
  | wasmPlugins => "wasm_plugins_tenant_id_name_version_key"

/-- Two rows with the same values in the columns of that constraint. -/
def sameKey : (t : Table) → t.Row → t.Row → Bool
  | tenants, (a : Tenant), (b : Tenant) => a.slug = b.slug
  | upstreams, (a : Upstream), (b : Upstream) => a.tenantId = b.tenantId && a.name = b.name
  | routes, (a : Route), (b : Route) =>
    a.tenantId = b.tenantId && a.method = b.method && a.pathPrefix = b.pathPrefix && a.host = b.host
  | configCheckpoints, (a : ConfigCheckpoint), (b : ConfigCheckpoint) =>
    a.tenantId = b.tenantId && a.sequence = b.sequence
  | aiProviders, (a : AiProvider), (b : AiProvider) => a.tenantId = b.tenantId && a.name = b.name
  | aiModelPolicies, (a : AiModelPolicy), (b : AiModelPolicy) =>
    a.tenantId = b.tenantId && a.providerId = b.providerId && a.model = b.model
  | regions, (a : Region), (b : Region) => a.name = b.name
  | rateLimitPolicies, (a : RateLimitPolicy), (b : RateLimitPolicy) =>
    a.tenantId = b.tenantId && a.name = b.name
  | wasmPlugins, (a : WasmPlugin), (b : WasmPlugin) =>
    a.tenantId = b.tenantId && a.name = b.name && a.version = b.version

end Table

/-- A database: the rows of every table and the outbox, in the order of insertion. -/
structure Db where
  rows : (t : Table) → List t.Row
  eventOutbox : List EventOutbox

namespace Db

def empty : Db := ⟨fun _ => [], []⟩

def setRows (db : Db) (t : Table) (rows : List t.Row) : Db :=
  { db with rows := Function.update db.rows t rows }

end Db

end Barqium.Native.ControlApi
