import Barqium.Native.ControlApi.Schema
import Mathlib.Data.List.Infix
import Mathlib.Data.BitVec

/-!
# Statements of the control API

The statements of `internal/sqlc/sqlcgen` over the tables of the schema. They are of
five kinds, each written once with the table and the `WHERE` and `SET` clauses as
parameters. Postgres checks a row that is stored against the migrations' types and
constraints and applies the `ON DELETE` rules. A statement runs on its own, since the
handlers open no transaction.
-/

namespace Barqium.Native.ControlApi

/-- An error of a statement, as pgx reports it. -/
inductive DbError where
  | noRows
  | pg (message code : String)
  | other (text : String)
  deriving Repr, DecidableEq

/-- `err.Error()`. -/
def DbError.text : DbError → String
  | .noRows => "no rows in result set"
  | .pg message code => "ERROR: " ++ message ++ " (SQLSTATE " ++ code ++ ")"
  | .other text => text

/-- A postgres unique-constraint violation, recognised in the text of the error. -/
def isDuplicateKey (err : DbError) : Bool :=
  "23505".toList <:+: err.text.toList

/-- How Postgres reads the values of the columns that are not plain text or numbers:
    the stored form, or the error. -/
structure ColumnTypes where
  /-- Text into `NUMERIC(10,4)` and back. -/
  numeric : String → Except DbError String
  /-- Text into `JSONB` and back. -/
  jsonb : String → Except DbError String

/-! ## Constraints -/

namespace DbError

def invalidText : DbError := .pg "invalid byte sequence for encoding \"UTF8\": 0x00" "22021"

def invalidEnum (type value : String) : DbError :=
  .pg ("invalid input value for enum " ++ type ++ ": \"" ++ value ++ "\"") "22P02"

def checkViolation (table constraint : String) : DbError :=
  .pg ("new row for relation \"" ++ table ++ "\" violates check constraint \"" ++ constraint ++
    "\"") "23514"

def duplicateKey (constraint : String) : DbError :=
  .pg ("duplicate key value violates unique constraint \"" ++ constraint ++ "\"") "23505"

def missingReference (table constraint : String) : DbError :=
  .pg ("insert or update on table \"" ++ table ++ "\" violates foreign key constraint \"" ++
    constraint ++ "\"") "23503"

def stillReferenced (table constraint referencing : String) : DbError :=
  .pg ("update or delete on table \"" ++ table ++ "\" violates foreign key constraint \"" ++
    constraint ++ "\" on table \"" ++ referencing ++ "\"") "23503"

end DbError

namespace Table

/-- The text columns, in which Postgres accepts no NUL. -/
def texts : (t : Table) → t.Row → List String
  | tenants, (r : Tenant) => [r.name, r.slug]
  | upstreams, (r : Upstream) => [r.name, r.url]
  | routes, (r : Route) => [r.method, r.pathPrefix, r.host]
  | configCheckpoints, (r : ConfigCheckpoint) => r.note.toList
  | aiProviders, (r : AiProvider) =>
    [r.name, r.provider] ++ r.baseUrl.toList ++ r.apiKeyEnv.toList
  | aiModelPolicies, (r : AiModelPolicy) => [r.model] ++ r.fallbackModel.toList
  | regions, (r : Region) => [r.name, r.kafkaBrokers] ++ r.mm2GroupId.toList
  | rateLimitPolicies, (r : RateLimitPolicy) => [r.name]
  | wasmPlugins, (r : WasmPlugin) => [r.name, r.version, r.sha256] ++ r.storageUrl.toList

/-- The row as it is stored, if its values have the types of their columns. -/
def coerce (types : ColumnTypes) : (t : Table) → t.Row → Except DbError t.Row
  | aiModelPolicies, (r : AiModelPolicy) =>
    match r.budgetUsdPerDay with
    | none => .ok r
    | some budget =>
      (types.numeric budget).map fun b => { r with budgetUsdPerDay := some b }
  -- `scope`, `algorithm` and `trigger` are enumerations of the database
  | rateLimitPolicies, (r : RateLimitPolicy) =>
    if r.scope ∉ ["tenant", "consumer", "route", "ip"] then
      .error (.invalidEnum "rate_limit_scope" r.scope)
    else if r.algorithm ∉ ["token_bucket", "sliding_window", "fixed_window"] then
      .error (.invalidEnum "rate_limit_algorithm" r.algorithm)
    else .ok r
  | wasmPlugins, (r : WasmPlugin) =>
    if r.trigger ∉ ["on_request", "on_response", "both"] then
      .error (.invalidEnum "wasm_plugin_trigger" r.trigger)
    else
      (types.jsonb r.config).map fun c => { r with config := c }
  | _, r => .ok r

/-- The first `CHECK` constraint that a row violates. -/
def failedCheck : (t : Table) → t.Row → Option String
  | upstreams, (r : Upstream) => if r.timeoutMs ≤ 0 then some "upstreams_timeout_ms_check" else none
  -- Postgres checks the constraints of a table in the order of their names
  | rateLimitPolicies, (r : RateLimitPolicy) =>
    if r.burstLimit.any (· < r.rateLimit) then some "rate_limit_policies_check"
    else if r.rateLimit ≤ 0 then some "rate_limit_policies_rate_limit_check"
    else if r.windowSecs ≤ 0 then some "rate_limit_policies_window_secs_check"
    else none
  -- exactly one of the two sources is set
  | wasmPlugins, (r : WasmPlugin) =>
    if r.storageUrl.isSome = r.wasmBinary.isSome then some "wasm_source_check" else none
  | _, _ => none

/-- A column that references the primary key of another table. -/
structure Reference (t : Table) where
  constraint : String
  target : Table
  column : t.Row → UUID

/-- The foreign keys of a table. All are `ON DELETE CASCADE` but
    `routes_upstream_id_fkey`. -/
def references : (t : Table) → List (Reference t)
  | tenants => []
  | upstreams => [⟨"upstreams_tenant_id_fkey", tenants, Upstream.tenantId⟩]
  | routes =>
    [⟨"routes_tenant_id_fkey", tenants, Route.tenantId⟩,
      ⟨"routes_upstream_id_fkey", upstreams, Route.upstreamId⟩]
  | configCheckpoints =>
    [⟨"config_checkpoints_tenant_id_fkey", tenants, ConfigCheckpoint.tenantId⟩]
  | aiProviders => [⟨"ai_providers_tenant_id_fkey", tenants, AiProvider.tenantId⟩]
  | aiModelPolicies =>
    [⟨"ai_model_policies_tenant_id_fkey", tenants, AiModelPolicy.tenantId⟩,
      ⟨"ai_model_policies_provider_id_fkey", aiProviders, AiModelPolicy.providerId⟩]
  | regions => []
  | rateLimitPolicies =>
    [⟨"rate_limit_policies_tenant_id_fkey", tenants, RateLimitPolicy.tenantId⟩]
  | wasmPlugins => [⟨"wasm_plugins_tenant_id_fkey", tenants, WasmPlugin.tenantId⟩]

end Table

namespace Db

/-- What keeps `row` from being stored beside `others` in table `t`: its checks come
    first, then the keys, then the references. -/
def violation (db : Db) (t : Table) (others : List t.Row) (row : t.Row) : Option DbError :=
  match t.failedCheck row with
  | some constraint => some (.checkViolation t.sqlName constraint)
  | none =>
    if others.any fun r => t.id r = t.id row then
      some (.duplicateKey (t.sqlName ++ "_pkey"))
    else if others.any (t.sameKey row) then
      some (.duplicateKey t.uniqueName)
    else
      -- foreign keys are looked at last
      (t.references.find? fun ref =>
        !(db.rows ref.target).any fun r => ref.target.id r = ref.column row).map fun ref =>
        .missingReference t.sqlName ref.constraint

/-- The row Postgres would store for `row` beside `others`. -/
def stored (types : ColumnTypes) (db : Db) (t : Table) (others : List t.Row) (row : t.Row) :
    Except DbError t.Row :=
  if (t.texts row).any fun s => s.toList.contains '\x00' then .error .invalidText
  else
    match t.coerce types row with
    | .error e => .error e
    | .ok row =>
      match db.violation t others row with
      | some e => .error e
      | none => .ok row

/-- `INSERT INTO t ... RETURNING *`. -/
def insert (types : ColumnTypes) (db : Db) (t : Table) (row : t.Row) :
    Except DbError (t.Row × Db) :=
  match db.stored types t (db.rows t) row with
  | .error e => .error e
  | .ok row => .ok (row, db.setRows t (db.rows t ++ [row]))

/-- `SELECT * FROM t WHERE p`, of which the first row is read. -/
def select (db : Db) (t : Table) (p : t.Row → Bool) : Except DbError (t.Row × Db) :=
  match (db.rows t).find? p with
  | none => .error .noRows
  | some row => .ok (row, db)

/-- `SELECT * FROM t WHERE p ORDER BY le LIMIT limit OFFSET offset`. -/
def selectPage (db : Db) (t : Table) (p : t.Row → Bool) (le : t.Row → t.Row → Bool)
    (limit offset : Int32) : Except DbError (List t.Row × Db) :=
  if limit < 0 then .error (.pg "LIMIT must not be negative" "2201W")
  else if offset < 0 then .error (.pg "OFFSET must not be negative" "2201X")
  else .ok ((((db.rows t).filter p).mergeSort le).drop offset.toNatClampNeg |>.take
    limit.toNatClampNeg, db)

/-- `UPDATE t SET ... WHERE p RETURNING *`, where `p` fixes the primary key. -/
def update (types : ColumnTypes) (db : Db) (t : Table) (p : t.Row → Bool) (set : t.Row → t.Row) :
    Except DbError (t.Row × Db) :=
  match (db.rows t).find? p with
  | none => .error .noRows
  | some old =>
    -- the new row may share its keys with the one it replaces
    match db.stored types t ((db.rows t).filter fun r => !p r) (set old) with
    | .error e => .error e
    | .ok row => .ok (row, db.setRows t ((db.rows t).map fun r => if p r then row else r))

/-- The rows that `DELETE FROM t WHERE p` removes, those the references to `tenants`
    and to `ai_providers` cascade to included. -/
def deleted (db : Db) (t : Table) (p : t.Row → Bool) : (u : Table) → u.Row → Bool :=
  let direct (u : Table) (r : u.Row) : Bool := if h : u = t then p (h ▸ r) else false
  -- rows go with their tenant, and policies with their provider, whoever removed it
  let tenantIds := ((db.rows .tenants).filter (direct .tenants)).map Tenant.id
  let byTenant (u : Table) (r : u.Row) : Bool := (u.tenant r).any fun id => tenantIds.contains id
  let dead (u : Table) (r : u.Row) : Bool := direct u r || byTenant u r
  let providerIds := ((db.rows .aiProviders).filter (dead .aiProviders)).map AiProvider.id
  fun u r => dead u r ||
    match u, r with
    | .aiModelPolicies, (r : AiModelPolicy) => providerIds.contains r.providerId
    | _, _ => false

/-- `DELETE FROM t WHERE p`. No route may be left that references a removed upstream. -/
def delete (db : Db) (t : Table) (p : t.Row → Bool) : Except DbError (Unit × Db) :=
  let gone := db.deleted t p
  let rows (u : Table) := (db.rows u).filter fun r => !gone u r
  -- `routes_upstream_id_fkey` has no rule of its own, so it is checked at the end
  let upstreamIds := ((db.rows .upstreams).filter (gone .upstreams)).map Upstream.id
  if (rows .routes).any fun r => upstreamIds.contains (Route.upstreamId r) then
    .error (.stillReferenced "upstreams" "routes_upstream_id_fkey" "routes")
  else
    .ok ((), { db with rows := rows })

end Db

/-! ## Statements -/

/-- The kinds of statement, with what they return. -/
inductive Query : Type → Type where
  /-- `INSERT`: the row for a generated id and the statement's `now()`. -/
  | insertOne (t : Table) (row : UUID → Time → t.Row) : Query (Except DbError t.Row)
  | selectOne (t : Table) (p : t.Row → Bool) : Query (Except DbError t.Row)
  | selectMany (t : Table) (p : t.Row → Bool) (le : t.Row → t.Row → Bool) (limit offset : Int32) :
      Query (Except DbError (List t.Row))
  /-- `UPDATE`: the new row at the statement's `now()`. -/
  | updateOne (t : Table) (p : t.Row → Bool) (set : Time → t.Row → t.Row) :
      Query (Except DbError t.Row)
  | deleteAll (t : Table) (p : t.Row → Bool) : Query (Except DbError Unit)

/-- What the server decides for one statement: the generated id, the clock, and
    whether the statement fails for a reason outside the data. -/
structure StatementEnv where
  newId : UUID
  now : Time
  fault : Option String
  deriving Repr, DecidableEq

/-- The database server between two statements. -/
structure Postgres where
  executed : Nat
  db : Db

namespace Postgres

/-- The server: column types, and its choices for each statement in turn. -/
structure Server where
  types : ColumnTypes
  env : Nat → StatementEnv

/-- Run one statement. A failed statement leaves the database as it was. -/
def statement {β : Type} (server : Server) (s : Postgres)
    (effect : StatementEnv → Db → Except DbError (β × Db)) : Except DbError β × Postgres :=
  let env := server.env s.executed
  match env.fault with
  | some text => (.error (.other text), { s with executed := s.executed + 1 })
  | none =>
    match effect env s.db with
    | .error e => (.error e, { s with executed := s.executed + 1 })
    | .ok (b, db) => (.ok b, ⟨s.executed + 1, db⟩)

def exec (server : Server) {β : Type} : Query β → Postgres → β × Postgres
  | .insertOne t row, s =>
    s.statement server fun env db => db.insert server.types t (row env.newId env.now)
  | .selectOne t p, s => s.statement server fun _ db => db.select t p
  | .selectMany t p le limit offset, s =>
    s.statement server fun _ db => db.selectPage t p le limit offset
  | .updateOne t p set, s =>
    s.statement server fun env db => db.update server.types t p (set env.now)
  | .deleteAll t p, s => s.statement server fun _ db => db.delete t p

end Postgres

end Barqium.Native.ControlApi
