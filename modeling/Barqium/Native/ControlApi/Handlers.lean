import Barqium.Native.ControlApi.Http

/-!
# Handlers of the control API

Model of `internal/handler`. The handlers of a resource share the shape of the other
resources' handlers: each shape is written once, with the table, the texts of the
errors and what is particular to the resource as parameters.
-/

namespace Barqium.Native.ControlApi

open Program (attempt)

/-! ## Shapes of handlers -/

/-- `WHERE id = $1 AND tenant_id = $2`. -/
def rowIn (t : Table) (id tenantId : UUID) (r : t.Row) : Bool :=
  t.id r = id && t.tenant r = some tenantId

/-- `WHERE id = $1`. -/
def rowAt (t : Table) (id : UUID) (r : t.Row) : Bool := t.id r = id

def getInTenant (t : Table) (invalid notFound : String) (ext : Ext)
    (tenantParam idParam : String) : Handler := do
  let tenantId ← attempt (parseTenantID ext tenantParam)
  let id ← attempt (parseID ext invalid idParam)
  let row ← orFail (.selectOne t (rowIn t id tenantId)) (notFoundOr notFound)
  return ⟨200, .row t row⟩

def listInTenant (t : Table) (le : t.Row → t.Row → Bool) (ext : Ext) (r : Request)
    (tenantParam : String) : Handler := do
  let tenantId ← attempt (parseTenantID ext tenantParam)
  let (limit, offset) := parsePagination r
  let rows ← orFail
    (.selectMany t (fun row => t.tenant row = some tenantId) le limit offset) internalError
  return ⟨200, .rows t rows⟩

/-- Create a row of a tenant: `row` decodes and validates the request. -/
def createInTenant (t : Table) (conflict : String) (ext : Ext) (tenantParam : String)
    (row : UUID → Program Query Response (UUID → Time → t.Row)) : Handler := do
  let tenantId ← attempt (parseTenantID ext tenantParam)
  let row ← row tenantId
  let created ← orFail (.insertOne t row) (conflictOr conflict)
  return ⟨201, .row t created⟩

/-- Patch a row of a tenant: `patch` decodes and validates the request against the
    existing row, and gives the columns to set. -/
def updateInTenant (t : Table) (invalid notFound conflict : String) (ext : Ext)
    (tenantParam idParam : String)
    (patch : UUID → t.Row → Program Query Response (Time → t.Row → t.Row)) : Handler := do
  let tenantId ← attempt (parseTenantID ext tenantParam)
  let id ← attempt (parseID ext invalid idParam)
  let existing ← orFail (.selectOne t (rowIn t id tenantId)) (notFoundOr notFound)
  let set ← patch tenantId existing
  let updated ← orFail (.updateOne t (rowIn t id tenantId) set) (conflictOr conflict)
  return ⟨200, .row t updated⟩

def deleteInTenant (t : Table) (invalid : String) (ext : Ext)
    (tenantParam idParam : String) : Handler := do
  let tenantId ← attempt (parseTenantID ext tenantParam)
  let id ← attempt (parseID ext invalid idParam)
  orFail (.deleteAll t (rowIn t id tenantId)) internalError
  return ⟨204, .empty⟩

def getById (t : Table) (invalid notFound : String) (ext : Ext) (idParam : String) : Handler := do
  let id ← attempt (parseID ext invalid idParam)
  let row ← orFail (.selectOne t (rowAt t id)) (notFoundOr notFound)
  return ⟨200, .row t row⟩

def listAll (t : Table) (le : t.Row → t.Row → Bool) (r : Request) : Handler := do
  let (limit, offset) := parsePagination r
  let rows ← orFail (.selectMany t (fun _ => true) le limit offset) internalError
  return ⟨200, .rows t rows⟩

def createRow (t : Table) (conflict : String) (row : Except Response (UUID → Time → t.Row)) :
    Handler := do
  let row ← attempt row
  let created ← orFail (.insertOne t row) (conflictOr conflict)
  return ⟨201, .row t created⟩

def updateById (t : Table) (invalid notFound conflict : String) (ext : Ext) (idParam : String)
    (patch : t.Row → Except Response (Time → t.Row → t.Row)) : Handler := do
  let id ← attempt (parseID ext invalid idParam)
  let existing ← orFail (.selectOne t (rowAt t id)) (notFoundOr notFound)
  let set ← attempt (patch existing)
  let updated ← orFail (.updateOne t (rowAt t id) set) (conflictOr conflict)
  return ⟨200, .row t updated⟩

def deleteById (t : Table) (invalid : String) (ext : Ext) (idParam : String) : Handler := do
  let id ← attempt (parseID ext invalid idParam)
  orFail (.deleteAll t (rowAt t id)) internalError
  return ⟨204, .empty⟩

/-- A string field of a patch: empty means not provided. -/
def provided (value existing : String) : String := if value = "" then existing else value

/-- An optional number that counts only when it is positive. -/
def positiveOr (default : Int32) : Option Int32 → Int32
  | some n => if 0 < n then n else default
  | none => default

/-! ## Tenants -/

structure CreateTenantRequest where
  name : String := ""
  slug : String := ""
  enabled : Option Bool := none

abbrev UpdateTenantRequest := CreateTenantRequest

def CreateTenantRequest.set (req : CreateTenantRequest) (key : String) (v : Json) :
    Option CreateTenantRequest :=
  match key with
  | "name" => (goValue goString req.name v).map fun x => { req with name := x }
  | "slug" => (goValue goString req.slug v).map fun x => { req with slug := x }
  | "enabled" => (goPointer goBool v).map fun x => { req with enabled := x }
  | _ => some req

/-- `^[a-z0-9]([a-z0-9\-]{0,61}[a-z0-9])?$`. -/
def slugMatches (slug : String) : Bool :=
  let alnum (c : Char) : Bool := c.isLower || c.isDigit
  let cs := slug.toList
  -- the optional group makes a slug of one character match as well
  1 ≤ cs.length && cs.length ≤ 63 && cs.all (fun c => alnum c || c = '-') &&
    cs.head?.all alnum && cs.getLast?.all alnum

def validateSlug (slug : String) : Except Response Unit :=
  require (slugMatches slug)
    (writeError 422 "slug must be lowercase alphanumeric with hyphens, 2-63 chars")

def validateNameLength (name : String) : Except Response Unit :=
  require (name.utf8ByteSize ≤ 100) (writeError 422 "name must not exceed 100 characters")

def validateSlugLength (slug : String) : Except Response Unit :=
  require (slug.utf8ByteSize ≤ 63) (writeError 422 "slug must not exceed 63 characters")

def createTenant (r : Request) : Handler :=
  createRow .tenants "slug already exists" do
    let req ← decodeBody CreateTenantRequest.set {} r
    require (req.name ≠ "") (writeError 422 "name is required")
    validateNameLength req.name
    validateSlugLength req.slug
    validateSlug req.slug
    return fun id now =>
      ({ id, name := req.name, slug := req.slug, enabled := req.enabled.getD true
         createdAt := now, updatedAt := now } : Tenant)

/-- The reading of `limit` and `offset` in `listTenants`, in place of `parsePagination`. -/
def listTenantsPagination (r : Request) : Int32 × Int32 := Id.run do
  let mut limit : Int32 := 50
  let mut offset : Int32 := 0
  if r.query "limit" ≠ "" then
    if let some n := atoi (r.query "limit") then
      if 0 < n ∧ n ≤ 200 then limit := Int32.ofInt n
  if r.query "offset" ≠ "" then
    if let some n := atoi (r.query "offset") then
      if 0 ≤ n then offset := Int32.ofInt n
  return (limit, offset)

def listTenants (r : Request) : Handler :=
  listAll .tenants (fun (a b : Tenant) => b.createdAt ≤ a.createdAt) r

def getTenant (ext : Ext) (id : String) : Handler :=
  getById .tenants "invalid tenant id" "tenant not found" ext id

/-- The fields are checked only when they are provided. -/
def updateTenant (ext : Ext) (r : Request) (id : String) : Handler :=
  updateById .tenants "invalid tenant id" "tenant not found" "slug already exists" ext id
    fun (existing : Tenant) => do
      let req : UpdateTenantRequest ← decodeBody CreateTenantRequest.set {} r
      -- only what is sent is validated
      if req.name ≠ "" then validateNameLength req.name
      if req.slug ≠ "" then
        validateSlugLength req.slug
        validateSlug req.slug
      return fun now (row : Tenant) =>
        ({ row with
           name := provided req.name existing.name
           slug := provided req.slug existing.slug
           enabled := req.enabled.getD existing.enabled
           updatedAt := now } : Tenant)

def deleteTenant (ext : Ext) (id : String) : Handler :=
  deleteById .tenants "invalid tenant id" ext id

/-! ## Upstreams -/

/-- Host patterns that must not be used as upstream URLs. -/
def blockedHosts : List String :=
  ["localhost", "127.", "::1", "10.", "172.16.", "172.17.", "172.18.", "172.19.", "172.20.",
    "172.21.", "172.22.", "172.23.", "172.24.", "172.25.", "172.26.", "172.27.", "172.28.",
    "172.29.", "172.30.", "172.31.", "192.168.", "169.254.", "0.0.0.0"]

/-- A host starts with a blocked pattern, or is the pattern without its final dot. -/
def hostBlocked (host : String) : Bool :=
  blockedHosts.any fun blocked =>
    blocked.toList.isPrefixOf host.toList ||
      host.toList =
        (if blocked.toList.getLast? = some '.' then blocked.toList.dropLast else blocked.toList)

/-- An HTTP or HTTPS URL that does not point to a local or private address. -/
def validateURL (ext : Ext) (rawURL : String) : Except Response Unit := do
  require (rawURL ≠ "") (writeError 422 "url is required")
  match ext.parseRequestURI rawURL with
  | none => .error (writeError 422 "url must be a valid URL")
  | some parsed =>
    let scheme := ext.toLower parsed.scheme
    require (scheme = "http" || scheme = "https")
      (writeError 422 "url scheme must be http or https")
    require (!hostBlocked (ext.toLower parsed.hostname))
      (writeError 422 "url must not reference localhost or internal IP addresses")

structure CreateUpstreamRequest where
  name : String := ""
  url : String := ""
  timeoutMs : Option Int32 := none
  enabled : Option Bool := none

abbrev UpdateUpstreamRequest := CreateUpstreamRequest

def CreateUpstreamRequest.set (req : CreateUpstreamRequest) (key : String) (v : Json) :
    Option CreateUpstreamRequest :=
  match key with
  | "name" => (goValue goString req.name v).map fun x => { req with name := x }
  | "url" => (goValue goString req.url v).map fun x => { req with url := x }
  | "timeout_ms" => (goPointer goInt32 v).map fun x => { req with timeoutMs := x }
  | "enabled" => (goPointer goBool v).map fun x => { req with enabled := x }
  | _ => some req

/-- The new row for a creation request. -/
def CreateUpstreamRequest.row (req : CreateUpstreamRequest) (tenantId id : UUID) (now : Time) :
    Upstream :=
  { id, tenantId, name := req.name, url := req.url
    timeoutMs := positiveOr 5000 req.timeoutMs
    enabled := req.enabled.getD true
    createdAt := now, updatedAt := now }

/-- The row of a valid creation request. -/
def upstreamRow (ext : Ext) (r : Request) (tenantId : UUID) :
    Except Response (UUID → Time → Upstream) := do
  let req ← decodeBody CreateUpstreamRequest.set {} r
  require (req.name ≠ "") (writeError 422 "name is required")
  validateURL ext req.url
  return req.row tenantId

def createUpstream (ext : Ext) (r : Request) (tenant : String) : Handler :=
  createInTenant .upstreams "upstream name already exists in tenant" ext tenant
    fun tenantId => attempt (upstreamRow ext r tenantId)

def listUpstreams (ext : Ext) (r : Request) (tenant : String) : Handler :=
  listInTenant .upstreams (fun (a b : Upstream) => b.createdAt ≤ a.createdAt) ext r tenant

def getUpstream (ext : Ext) (tenant id : String) : Handler :=
  getInTenant .upstreams "invalid upstream id" "upstream not found" ext tenant id

def updateUpstream (ext : Ext) (r : Request) (tenant id : String) : Handler :=
  updateInTenant .upstreams "invalid upstream id" "upstream not found"
    "upstream name already exists in tenant" ext tenant id
    fun _ (existing : Upstream) => attempt do
      let req : UpdateUpstreamRequest ← decodeBody CreateUpstreamRequest.set {} r
      if req.url ≠ "" then validateURL ext req.url
      return fun now (row : Upstream) =>
        ({ row with
           name := provided req.name existing.name
           url := provided req.url existing.url
           -- zero and negative timeouts keep the old one
           timeoutMs := positiveOr existing.timeoutMs req.timeoutMs
           enabled := req.enabled.getD existing.enabled
           updatedAt := now } : Upstream)

def deleteUpstream (ext : Ext) (tenant id : String) : Handler :=
  deleteInTenant .upstreams "invalid upstream id" ext tenant id

/-! ## Routes -/

structure CreateRouteRequest where
  method : String := ""
  pathPrefix : String := ""
  host : String := ""
  upstreamId : UUID := 0
  enabled : Option Bool := none

def CreateRouteRequest.set (ext : Ext) (req : CreateRouteRequest) (key : String) (v : Json) :
    Option CreateRouteRequest :=
  match key with
  | "method" => (goValue goString req.method v).map fun x => { req with method := x }
  | "path_prefix" => (goValue goString req.pathPrefix v).map fun x => { req with pathPrefix := x }
  | "host" => (goValue goString req.host v).map fun x => { req with host := x }
  | "upstream_id" =>
    (goValue (goUuid ext) req.upstreamId v).map fun x => { req with upstreamId := x }
  | "enabled" => (goPointer goBool v).map fun x => { req with enabled := x }
  | _ => some req

structure UpdateRouteRequest where
  method : String := ""
  pathPrefix : String := ""
  host : String := ""
  upstreamId : Option UUID := none
  enabled : Option Bool := none

def UpdateRouteRequest.set (ext : Ext) (req : UpdateRouteRequest) (key : String) (v : Json) :
    Option UpdateRouteRequest :=
  match key with
  | "method" => (goValue goString req.method v).map fun x => { req with method := x }
  | "path_prefix" => (goValue goString req.pathPrefix v).map fun x => { req with pathPrefix := x }
  | "host" => (goValue goString req.host v).map fun x => { req with host := x }
  | "upstream_id" => (goPointer (goUuid ext) v).map fun x => { req with upstreamId := x }
  | "enabled" => (goPointer goBool v).map fun x => { req with enabled := x }
  | _ => some req

/-- Validates that the upstream belongs to the tenant. -/
def checkUpstreamInTenant (upstreamId tenantId : UUID) : Program Query Response Unit := do
  let _ ← orFail (.selectOne .upstreams (rowIn .upstreams upstreamId tenantId)) fun err =>
    if err = .noRows then writeError 422 "upstream_id not found in tenant" else internalError err

def createRoute (ext : Ext) (r : Request) (tenant : String) : Handler :=
  createInTenant .routes "route with same method, path_prefix, and host already exists in tenant"
    ext tenant fun tenantId => do
      let req ← attempt do
        let req ← decodeBody (CreateRouteRequest.set ext) {} r
        require (req.pathPrefix ≠ "") (writeError 422 "path_prefix is required")
        -- `uuid.Nil`, which an absent field leaves
        require (req.upstreamId ≠ 0) (writeError 422 "upstream_id is required")
        return req
      checkUpstreamInTenant req.upstreamId tenantId
      return fun id now =>
        ({ id, tenantId
           method := provided (ext.toUpper req.method) "*"
           pathPrefix := req.pathPrefix, host := req.host, upstreamId := req.upstreamId
           enabled := req.enabled.getD true
           createdAt := now, updatedAt := now } : Route)

def listRoutes (ext : Ext) (r : Request) (tenant : String) : Handler :=
  listInTenant .routes (fun (a b : Route) => b.createdAt ≤ a.createdAt) ext r tenant

def getRoute (ext : Ext) (tenant id : String) : Handler :=
  getInTenant .routes "invalid route id" "route not found" ext tenant id

def updateRoute (ext : Ext) (r : Request) (tenant id : String) : Handler :=
  updateInTenant .routes "invalid route id" "route not found"
    "route with same method, path_prefix, and host already exists in tenant" ext tenant id
    fun tenantId (existing : Route) => do
      let req ← attempt (decodeBody (UpdateRouteRequest.set ext) {} r)
      req.upstreamId.forM fun upstreamId => checkUpstreamInTenant upstreamId tenantId
      return fun now (row : Route) =>
        ({ row with
           -- the method is upper-cased only when the patch provides one
           method := if req.method = "" then existing.method else ext.toUpper req.method
           pathPrefix := provided req.pathPrefix existing.pathPrefix
           host := provided req.host existing.host
           upstreamId := req.upstreamId.getD existing.upstreamId
           enabled := req.enabled.getD existing.enabled
           updatedAt := now } : Route)

def deleteRoute (ext : Ext) (tenant id : String) : Handler :=
  deleteInTenant .routes "invalid route id" ext tenant id

/-! ## Checkpoints -/

structure CreateCheckpointRequest where
  sequence : Int64 := 0
  outboxLastId : Option Int64 := none
  note : Option String := none

def CreateCheckpointRequest.set (req : CreateCheckpointRequest) (key : String) (v : Json) :
    Option CreateCheckpointRequest :=
  match key with
  | "sequence" => (goValue goInt64 req.sequence v).map fun x => { req with sequence := x }
  | "outbox_last_id" => (goPointer goInt64 v).map fun x => { req with outboxLastId := x }
  | "note" => (goPointer goString v).map fun x => { req with note := x }
  | _ => some req

def createCheckpoint (ext : Ext) (r : Request) (tenant : String) : Handler :=
  createInTenant .configCheckpoints "checkpoint for this sequence already exists" ext tenant
    fun tenantId => attempt do
      let req ← decodeBody CreateCheckpointRequest.set {} r
      require (0 < req.sequence) (writeError 422 "sequence must be a positive integer")
      return fun id now =>
        ({ id, tenantId, sequence := req.sequence, outboxLastId := req.outboxLastId
           note := req.note, createdAt := now } : ConfigCheckpoint)

def listCheckpoints (ext : Ext) (r : Request) (tenant : String) : Handler :=
  listInTenant .configCheckpoints (fun (a b : ConfigCheckpoint) => b.createdAt ≤ a.createdAt)
    ext r tenant

structure RollbackRequest where
  targetSequence : Int64 := 0

def RollbackRequest.set (req : RollbackRequest) (key : String) (v : Json) :
    Option RollbackRequest :=
  match key with
  | "target_sequence" =>
    (goValue goInt64 req.targetSequence v).map fun x => { req with targetSequence := x }
  | _ => some req

/-- Marks the intent only: the checkpoint is returned and nothing is changed. -/
def rollbackCheckpoint (ext : Ext) (r : Request) (tenant : String) : Handler := do
  let tenantId ← attempt (parseTenantID ext tenant)
  let req ← attempt (decodeBody RollbackRequest.set {} r)
  let checkpoint ← orFail
    (.selectOne .configCheckpoints fun (c : ConfigCheckpoint) =>
      c.tenantId = tenantId && c.sequence = req.targetSequence)
    fun _ => writeError 404 "checkpoint not found for the given sequence"
  return ⟨202, .rollback "accepted" checkpoint
    "rollback accepted; use the outbox_last_id to replay from Kafka offset"⟩

end Barqium.Native.ControlApi
