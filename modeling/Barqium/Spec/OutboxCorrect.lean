import Barqium.ForStd.Run
import Barqium.Native.TenantState
import Barqium.Spec.HandlersCorrect

/-!
# The transactional outbox of the control API

The outbox is meant to hold one event for every change to a route or an upstream, so that
replaying a tenant's events through the snapshot compiler gives the tenant's routes and
upstreams. No handler writes it. A run of the API therefore keeps the promise as long as
there is nothing to promise: until the first upstream is created.

## Key results

- `Deployment.step_eventOutbox`: no request writes the outbox.
- `Deployment.CreatesUpstream.serve_eq`, `Deployment.createUpstream_fails`: when the
  creation of an upstream succeeds.
- `Deployment.step_noConfig`: until then there are no upstreams and no routes.
- `Deployment.outboxComplete_iff`: the runs that keep the outbox complete.
- `Deployment.created_upstream_not_recorded`: a run that does not.
-/

namespace Barqium.Native.ControlApi

open Program

/-! ## What the outbox is for -/

/-- A change to a route or an upstream. -/
inductive Change where
  | upstreamUpserted (upstream : Upstream)
  | upstreamDeleted (id : UUID)
  | routeUpserted (route : Route)
  | routeDeleted (id : UUID)
  deriving Repr, DecidableEq

/-- The row of the tenant that a deletion names, if it is there. -/
def deletedRow (ext : Ext) (db : Db) (t : Table) (tenantParam idParam : String) :
    Option (UUID × UUID) := do
  let tenantId ← ext.uuidParse tenantParam
  let id ← ext.uuidParse idParam
  if (db.rows t).any (rowIn t id tenantId) then some (tenantId, id) else none

/-- The upstream that a successful creation or patch answers with. -/
def upsertedUpstream (response : Response) : Option (UUID × Change) :=
  match response.body with
  | .row .upstreams upstream =>
    some (Upstream.tenantId upstream, .upstreamUpserted upstream)
  | _ => none

def upsertedRoute (response : Response) : Option (UUID × Change) :=
  match response.body with
  | .row .routes route => some (Route.tenantId route, .routeUpserted route)
  | _ => none

/-- The change that a request to the database `db` made according to its answer, with the
    tenant. A deletion that finds no row is answered in the same way and changes nothing. -/
def changed (ext : Ext) (db : Db) (endpoint : Endpoint) (response : Response) :
    Option (UUID × Change) :=
  match endpoint with
  | .inTenant _ .createUpstream =>
    if response.status = 201 then upsertedUpstream response else none
  | .inTenant _ (.updateUpstream _) =>
    if response.status = 200 then upsertedUpstream response else none
  | .inTenant tenantParam (.deleteUpstream id) =>
    if response.status = 204 then
      (deletedRow ext db .upstreams tenantParam id).map fun row => (row.1, .upstreamDeleted row.2)
    else none
  | .inTenant _ .createRoute =>
    if response.status = 201 then upsertedRoute response else none
  | .inTenant _ (.updateRoute _) =>
    if response.status = 200 then upsertedRoute response else none
  | .inTenant tenantParam (.deleteRoute id) =>
    if response.status = 204 then
      (deletedRow ext db .routes tenantParam id).map fun row => (row.1, .routeDeleted row.2)
    else none
  | _ => none

/-- How events are written: ids as text, and the protobuf messages. -/
structure EventCodec where
  uuidString : UUID → String
  decode : Bytes → Option ConfigEvent

namespace EventCodec

variable (codec : EventCodec)

/-- The entry shows the columns of the route. The table has no policies of a route. -/
structure ShowsRoute (route : Route) (entry : RouteEntry) : Prop where
  id : entry.id = codec.uuidString route.id
  tenantId : entry.tenantId = codec.uuidString route.tenantId
  method : entry.method = route.method
  pathPrefix : entry.pathPrefix = route.pathPrefix
  host : entry.host = route.host
  upstreamId : entry.upstreamId = codec.uuidString route.upstreamId
  enabled : entry.enabled = route.enabled

structure ShowsUpstream (upstream : Upstream) (entry : UpstreamEntry) : Prop where
  id : entry.id = codec.uuidString upstream.id
  name : entry.name = upstream.name
  url : entry.url = upstream.url
  timeoutMs : (entry.timeoutMs.toNat : Int) = upstream.timeoutMs.toInt
  enabled : entry.enabled = upstream.enabled

/-- The event of the outbox row tells of the change. -/
def Carries (row : EventOutbox) (change : Change) : Prop :=
  ∃ event, codec.decode row.payload = some event ∧
    match change with
    | .upstreamUpserted upstream => ∃ proto,
      event.payload = some (.upstreamUpserted (some proto)) ∧
        codec.ShowsUpstream upstream (TenantState.upstreamEntry proto)
    | .upstreamDeleted id => event.payload = some (.upstreamDeleted (codec.uuidString id))
    | .routeUpserted route => ∃ proto,
      event.payload = some (.routeUpserted (some proto)) ∧
        codec.ShowsRoute route (TenantState.routeEntry proto)
    | .routeDeleted id => event.payload = some (.routeDeleted (codec.uuidString id))

/-- The snapshot compiler's state after the tenant's outbox rows in the order of ids. -/
def replay (db : Db) (tenantId : UUID) : TenantState :=
  let rows := (db.eventOutbox.filter (·.tenantId = tenantId)).mergeSort fun a b => a.id ≤ b.id
  (TenantState.new (codec.uuidString tenantId)).run
    (rows.filterMap fun row => codec.decode row.payload)

end EventCodec

/-- The map holds an entry for every row, and no others. -/
structure Mirrors {α V : Type} (rows : List α) (map : HashMap V) (displays : α → V → Prop) :
    Prop where
  row : ∀ r ∈ rows, ∃ key v, map.lookup key = some v ∧ displays r v
  entry : ∀ key v, map.lookup key = some v → ∃ r ∈ rows, displays r v

/-- Replaying the tenant's events gives the routes and upstreams of its tables. -/
def OutboxReflects (codec : EventCodec) (db : Db) (tenantId : UUID) : Prop :=
  Mirrors (db.rowsOf .routes tenantId) (codec.replay db tenantId).routes codec.ShowsRoute ∧
    Mirrors (db.rowsOf .upstreams tenantId) (codec.replay db tenantId).upstreams
      codec.ShowsUpstream

namespace Deployment

/-- The request, if it changes a route or an upstream, appends exactly one row to the
    outbox, which is of the tenant and carries the change. -/
def Recorded (codec : EventCodec) (api : Deployment) (s : Postgres)
    (call : Endpoint × Request) : Prop :=
  ∀ tenantId change, changed api.ext s.db call.1 (api.serve s call).1 = some (tenantId, change) →
    ∃ row, (api.step s call).db.eventOutbox = s.db.eventOutbox ++ [row] ∧
      row.tenantId = tenantId ∧ codec.Carries row change

/-- Every change of the run is recorded, and in every state it passes through the outbox
    of each tenant reflects the tables. -/
def OutboxComplete (codec : EventCodec) (api : Deployment) (calls : List (Endpoint × Request)) :
    Prop :=
  (∀ pre call post, calls = pre ++ call :: post → api.Recorded codec (api.run pre) call) ∧
    ∀ pre, pre <+: calls → ∀ tenantId, OutboxReflects codec (api.run pre).db tenantId

/-- A well-formed creation of an upstream that the guard lets through: the tenant exists
    and has no upstream of this name. -/
def CreatesUpstream (api : Deployment) (s : Postgres) (call : Endpoint × Request) : Prop :=
  ∃ tenantParam tenantId req,
    call.1 = .inTenant tenantParam .createUpstream ∧
    middlewares api.oidcMode call.2 call.1 = .ok () ∧
    api.ext.uuidParse tenantParam = some tenantId ∧
    decodeBody CreateUpstreamRequest.set {} call.2 = .ok req ∧
    req.name ≠ "" ∧
    validateURL api.ext req.url = .ok () ∧
    '\x00' ∉ req.name.toList ∧ '\x00' ∉ req.url.toList ∧
    (∃ tenant ∈ s.db.rows .tenants, Tenant.id tenant = tenantId) ∧
    (∀ upstream ∈ s.db.rows .upstreams,
      Upstream.id upstream ≠ (api.server.env s.executed).newId ∧
        ¬ (Upstream.tenantId upstream = tenantId ∧ Upstream.name upstream = req.name)) ∧
    (api.server.env s.executed).fault = none

/-! ## The outbox stays as it is -/

/-- A request leaves the outbox as it is. -/
theorem step_eventOutbox (api : Deployment) (s : Postgres) (call : Endpoint × Request) :
    (api.step s call).db.eventOutbox = s.db.eventOutbox := by
  obtain ⟨endpoint, r⟩ := call
  cases hpass : middlewares api.oidcMode r endpoint with
  | error response => rw [step_of_rejected hpass]
  | ok _ =>
    rw [step_of_admitted hpass]
    apply run_keeps_db (I := fun db => db.eventOutbox = s.db.eventOutbox) _
      (endpoint.handler_performs api.ext r) s rfl
    intro β q db db' _ heffect hdb
    rw [heffect.eventOutbox_eq, hdb]

end Deployment

/-! ## Before the first upstream -/

/-- There is no upstream, and so no route. -/
structure NoConfig (db : Db) : Prop where
  upstreams : db.rows .upstreams = []
  routes : db.rows .routes = []

private theorem noConfig_empty : NoConfig Db.empty := ⟨rfl, rfl⟩

/-- Other tables may be written. -/
theorem NoConfig.setRows {db : Db} (h : NoConfig db) {t : Table} (hupstreams : t ≠ .upstreams)
    (hroutes : t ≠ .routes) (rows : List t.Row) : NoConfig (db.setRows t rows) where
  upstreams := by rw [Db.setRows_rows_of_ne db rows hupstreams.symm, h.upstreams]
  routes := by rw [Db.setRows_rows_of_ne db rows hroutes.symm, h.routes]

/-- Without upstreams, only an insertion into `upstreams` stores an upstream or a route:
    a route would reference an upstream. -/
theorem Query.Effect.noConfig {types : ColumnTypes} {db db' : Db} {β : Type} {q : Query β}
    {write : Option Write} (h : q.Effect types db db') (hq : q.Writes write)
    (hwrite : write ≠ some (.insert .upstreams)) (hdb : NoConfig db) : NoConfig db' := by
  -- only an insertion of an upstream could fill the two tables
  cases q with
  | selectOne t p => rwa [show db' = db from h]
  | selectMany t p le limit offset => rwa [show db' = db from h]
  | insertOne t row =>
    rcases h with rfl | ⟨id, now, r, hstored, rfl⟩
    · exact hdb
    · have hupstreams : t ≠ .upstreams := fun heq => hwrite (by rw [hq, heq])
      have hroutes : t ≠ .routes := by
        rintro rfl
        -- the foreign key of a route asks for an upstream
        obtain ⟨-, -, hrefs⟩ := Db.violation_eq_none.mp (Db.stored_eq_ok.mp hstored).2.2
        obtain ⟨upstream, hmem, -⟩ :=
          hrefs ⟨"routes_upstream_id_fkey", .upstreams, Route.upstreamId⟩
            (by simp [Table.references])
        rw [hdb.upstreams] at hmem
        cases hmem
      exact hdb.setRows hupstreams hroutes _
  | updateOne t p set =>
    rcases h with rfl | ⟨now, old, r, hold, -, rfl⟩
    · exact hdb
    · -- the table holds the row that is updated, so it is neither of the two
      have hmem := List.mem_of_find?_eq_some hold
      have hupstreams : t ≠ .upstreams := by
        rintro rfl
        rw [hdb.upstreams] at hmem
        cases hmem
      have hroutes : t ≠ .routes := by
        rintro rfl
        rw [hdb.routes] at hmem
        cases hmem
      exact hdb.setRows hupstreams hroutes _
  | deleteAll t p =>
    rcases h with rfl | rfl
    · exact hdb
    · constructor
      · simp only [hdb.upstreams, List.filter_nil]
      · simp only [hdb.routes, List.filter_nil]

/-! ## The creation of an upstream -/

/-- The row of a creation request, and what the handler checks. -/
private theorem upstreamRow_eq_ok {ext : Ext} {r : Request} {tenantId : UUID}
    {row : UUID → Time → Upstream} :
    upstreamRow ext r tenantId = .ok row ↔
      ∃ req, decodeBody CreateUpstreamRequest.set {} r = .ok req ∧ req.name ≠ "" ∧
        validateURL ext req.url = .ok () ∧ req.row tenantId = row := by
  unfold upstreamRow
  cases hdecode : decodeBody CreateUpstreamRequest.set {} r with
  | error response => simp [bind, Except.bind]
  | ok req =>
    by_cases hname : req.name = ""
    · simp [bind, Except.bind, require, hname]
    · cases hurl : validateURL ext req.url with
      | error response => simp [bind, Except.bind, require, hname, hurl]
      | ok _ => simp [bind, Except.bind, pure, Except.pure, require, hname, hurl]

/-- The constraints on a new upstream. -/
private theorem stored_upstream {types : ColumnTypes} {db : Db} {req : CreateUpstreamRequest}
    {tenantId id : UUID} {now : Time} {r : Upstream} :
    db.stored types .upstreams (db.rows .upstreams) (req.row tenantId id now) = .ok r ↔
      r = req.row tenantId id now ∧ '\x00' ∉ req.name.toList ∧ '\x00' ∉ req.url.toList ∧
        (∃ tenant ∈ db.rows .tenants, Tenant.id tenant = tenantId) ∧
        ∀ upstream ∈ db.rows .upstreams, Upstream.id upstream ≠ id ∧
          ¬ (Upstream.tenantId upstream = tenantId ∧ Upstream.name upstream = req.name) := by
  let row := req.row tenantId id now
  have hcoerce : Table.coerce types .upstreams row = .ok r ↔ r = row := by
    show Except.ok row = Except.ok r ↔ r = row
    rw [Except.ok.injEq, eq_comm]
  have htexts : ((Table.texts .upstreams row).any fun s => s.toList.contains '\x00') = false ↔
      '\x00' ∉ row.name.toList ∧ '\x00' ∉ row.url.toList := by
    simp [Table.texts]
  -- the default and the test in the handler keep the timeout positive
  have hcheck : Table.failedCheck .upstreams row = none :=
    if_neg (Int32.not_le.mpr (positiveOr_pos (by decide) req.timeoutMs))
  have hkey : ∀ upstream : Upstream, Table.sameKey .upstreams row upstream = false ↔
      ¬ (upstream.tenantId = row.tenantId ∧ upstream.name = row.name) := by
    intro upstream
    simp [Table.sameKey, @eq_comm _ row.tenantId, @eq_comm _ row.name]
  have hrefs : (∀ ref ∈ Table.references .upstreams,
      ∃ x ∈ db.rows ref.target, ref.target.id x = ref.column row) ↔
        ∃ tenant ∈ db.rows .tenants, Tenant.id tenant = row.tenantId := by
    simp [Table.references, Table.id]
  rw [Db.stored_eq_ok, htexts, hcoerce, Db.violation_eq_none]
  constructor
  · rintro ⟨⟨hname, hurl⟩, rfl, -, hkeys, htenant⟩
    exact ⟨rfl, hname, hurl, hrefs.mp htenant,
      fun u hu => ⟨(hkeys u hu).1, (hkey u).mp (hkeys u hu).2⟩⟩
  · rintro ⟨rfl, hname, hurl, htenant, hkeys⟩
    exact ⟨⟨hname, hurl⟩, rfl, hcheck,
      fun u hu => ⟨(hkeys u hu).1, (hkey u).mpr (hkeys u hu).2⟩, hrefs.mpr htenant⟩

/-- The creation of a valid upstream ends with the insertion of the row. -/
private theorem run_createUpstream {ext : Ext} {r : Request} {tenantParam : String}
    {tenantId : UUID}
    {row : UUID → Time → Upstream} (htenant : ext.uuidParse tenantParam = some tenantId)
    (hrow : upstreamRow ext r tenantId = .ok row) (server : Postgres.Server) (s : Postgres) :
    (createUpstream ext r tenantParam).run (Postgres.exec server) s =
      match Postgres.exec server (.insertOne .upstreams row) s with
      | (.ok created, s') => (.ok ⟨201, .row .upstreams created⟩, s')
      | (.error err, s') =>
        (.error (conflictOr "upstream name already exists in tenant" err), s') := by
  have hparse : parseTenantID ext tenantParam = .ok tenantId := parseID_eq_ok.mpr htenant
  unfold createUpstream createInTenant
  rw [run_bind_attempt, hparse]
  dsimp only
  rw [run_bind_attempt, hrow]
  dsimp only
  -- nothing is executed before the `INSERT`
  rw [run_bind, run_orFail]
  cases Postgres.exec server (.insertOne .upstreams row) s with
  | mk result s' =>
    cases result with
    | ok created => rfl
    | error err => rfl

namespace Deployment

variable {api : Deployment} {s : Postgres}

/-- A well-formed creation of an upstream is answered with the new row. -/
theorem CreatesUpstream.serve_eq {call : Endpoint × Request} (h : api.CreatesUpstream s call) :
    ∃ upstream s', api.serve s call = (⟨201, .row .upstreams upstream⟩, s') := by
  obtain ⟨endpoint, r⟩ := call
  obtain ⟨tenantParam, tenantId, req, hendpoint, hpass, htenant, hdecode, hname, hurl, hnul,
    hnul', hexists, hkeys, hfault⟩ := h
  dsimp only at hendpoint hpass hdecode
  subst hendpoint
  -- the body passes the checks
  have hrow : upstreamRow api.ext r tenantId = .ok (req.row tenantId) :=
    upstreamRow_eq_ok.mpr ⟨req, hdecode, hname, hurl, rfl⟩
  -- and the row passes the constraints
  have hstored : s.db.stored api.server.types .upstreams (s.db.rows .upstreams)
      (req.row tenantId (api.server.env s.executed).newId (api.server.env s.executed).now) =
        .ok (req.row tenantId _ _) :=
    stored_upstream.mpr ⟨rfl, hnul, hnul', hexists, hkeys⟩
  have hrun := run_createUpstream htenant hrow api.server s
  rw [Postgres.exec_insertOne_ok hfault hstored] at hrun
  exact ⟨_, _, serve_of_ok hpass hrun⟩

/-- Any other creation of an upstream fails and stores nothing. -/
theorem createUpstream_fails {tenantParam : String} {r : Request}
    (h : ¬ api.CreatesUpstream s (.inTenant tenantParam .createUpstream, r))
    (hpass : middlewares api.oidcMode r (.inTenant tenantParam .createUpstream) = .ok ()) :
    ∃ response s', (createUpstream api.ext r tenantParam).run (Postgres.exec api.server) s =
      (.error response, s') ∧ s'.db = s.db := by
  cases htenant : parseTenantID api.ext tenantParam with
  | error response =>
    refine ⟨response, s, ?_, rfl⟩
    simp only [createUpstream, createInTenant, run_bind_attempt, htenant]
  | ok tenantId =>
    cases hrow : upstreamRow api.ext r tenantId with
    | error response =>
      refine ⟨response, s, ?_, rfl⟩
      simp only [createUpstream, createInTenant, run_bind_attempt, htenant, hrow]
    | ok row =>
      have htenant := parseID_eq_ok.mp htenant
      obtain ⟨req, hdecode, hname, hurl, rfl⟩ := upstreamRow_eq_ok.mp hrow
      -- if the row could be stored, the request would be a creation after all
      have hrejected : ∃ err,
          Postgres.exec api.server (.insertOne .upstreams (req.row tenantId)) s =
            (.error err, ⟨s.executed + 1, s.db⟩) := by
        apply Postgres.exec_insertOne_error
        intro hfault stored hstored
        obtain ⟨-, hnul, hnul', hexists, hkeys⟩ := stored_upstream.mp hstored
        exact h ⟨tenantParam, tenantId, req, rfl, hpass, htenant, hdecode, hname, hurl, hnul,
          hnul', hexists, hkeys, hfault⟩
      obtain ⟨err, hexec⟩ := hrejected
      have hrun := run_createUpstream htenant hrow api.server s
      rw [hexec] at hrun
      exact ⟨_, _, hrun, rfl⟩

/-! ## Requests before the first upstream -/

/-- An answer with an error status tells of no change. -/
private theorem changed_of_failed {ext : Ext} {db : Db} {endpoint : Endpoint} {response : Response}
    (h : response.Failed) : changed ext db endpoint response = none := by
  have hne : ∀ status < 400, response.status ≠ status := fun status hstatus =>
    Nat.ne_of_gt (Nat.lt_of_lt_of_le hstatus h)
  unfold changed
  split
  all_goals first | exact if_neg (hne _ (by decide)) | rfl

/-- Nothing is deleted from an empty table. -/
private theorem deletedRow_of_empty {ext : Ext} {db : Db} {t : Table} (h : db.rows t = [])
    (tenantParam idParam : String) : deletedRow ext db t tenantParam idParam = none := by
  simp [deletedRow, h]

/-- Reading from an empty table fails the request. -/
private theorem orFail_fails {server : Postgres.Server} {t : Table} {p : t.Row → Bool}
    {onError : DbError → Response} {s : Postgres} (h : s.db.rows t = []) :
    (orFail (.selectOne t p) onError).Fails (Postgres.exec server) s := by
  obtain ⟨err, hexec⟩ := Postgres.exec_selectOne_empty server p h
  exact ⟨onError err, _, by rw [run_orFail, hexec]; rfl⟩

/-- A patch of a row of an empty table fails. -/
private theorem updateInTenant_fails {server : Postgres.Server} {t : Table}
    {invalid notFound conflict : String} {ext : Ext} {tenantParam idParam : String}
    {patch : UUID → t.Row → Program Query Response (Time → t.Row → t.Row)} {s : Postgres}
    (h : s.db.rows t = []) :
    (updateInTenant t invalid notFound conflict ext tenantParam idParam patch).Fails
      (Postgres.exec server) s := by
  apply Fails.bind_attempt
  intro tenantId _
  apply Fails.bind_attempt
  intro id _
  exact (orFail_fails h).bind _

/-- Without upstreams the creation of a route fails. -/
private theorem createRoute_fails {server : Postgres.Server} {ext : Ext} {r : Request}
    {tenantParam : String} {s : Postgres} (h : s.db.rows .upstreams = []) :
    (createRoute ext r tenantParam).Fails (Postgres.exec server) s := by
  apply Fails.bind_attempt
  intro tenantId _
  apply Fails.bind
  apply Fails.bind_attempt
  intro req _
  -- the upstream is looked up before the row is inserted
  apply Fails.bind
  exact (orFail_fails h).bind _

/-- Before the first upstream, a request that does not create one tells of no change. -/
private theorem changed_eq_none {call : Endpoint × Request} (h : ¬ api.CreatesUpstream s call)
    (hs : NoConfig s.db) : changed api.ext s.db call.1 (api.serve s call).1 = none := by
  obtain ⟨endpoint, r⟩ := call
  -- every other change needs a row that is not there
  cases endpoint with
  | inTenant tenantParam endpoint =>
    cases endpoint with
    | createUpstream =>
      apply changed_of_failed
      apply serve_failed
      · exact createUpstream_raises
      · intro hpass
        obtain ⟨response, s', hrun, -⟩ := createUpstream_fails h hpass
        exact ⟨response, s', hrun⟩
    | updateUpstream id =>
      apply changed_of_failed
      apply serve_failed
      · exact updateUpstream_raises
      · intro _
        exact updateInTenant_fails hs.upstreams
    | createRoute =>
      apply changed_of_failed
      apply serve_failed
      · exact createRoute_raises
      · intro _
        exact createRoute_fails hs.upstreams
    | updateRoute id =>
      apply changed_of_failed
      apply serve_failed
      · exact updateRoute_raises
      · intro _
        exact updateInTenant_fails hs.routes
    | deleteUpstream id =>
      simp only [changed, deletedRow_of_empty hs.upstreams, Option.map_none, ite_self]
    | deleteRoute id =>
      simp only [changed, deletedRow_of_empty hs.routes, Option.map_none, ite_self]
    | _ => rfl
  | _ => rfl

/-- One endpoint inserts upstreams. -/
private theorem write_insert_upstreams {endpoint : Endpoint}
    (h : endpoint.write = some (.insert .upstreams)) :
    ∃ tenantParam, endpoint = .inTenant tenantParam .createUpstream := by
  cases endpoint with
  | inTenant tenantParam endpoint =>
    cases endpoint <;> simp_all [Endpoint.write, TenantEndpoint.write]
  | _ => simp [Endpoint.write] at h

/-- As long as no upstream is created there is no configuration. -/
theorem step_noConfig {call : Endpoint × Request} (h : ¬ api.CreatesUpstream s call)
    (hs : NoConfig s.db) : NoConfig (api.step s call).db := by
  obtain ⟨endpoint, r⟩ := call
  -- a refused request does nothing
  cases hpass : middlewares api.oidcMode r endpoint with
  | error response => rwa [step_of_rejected hpass]
  | ok _ =>
    rw [step_of_admitted hpass]
    by_cases hwrite : endpoint.write = some (.insert .upstreams)
    · -- the creation of an upstream, which fails by hypothesis
      obtain ⟨tenantParam, rfl⟩ := write_insert_upstreams hwrite
      obtain ⟨response, s', hrun, hdb⟩ := createUpstream_fails h hpass
      simp only [Endpoint.handler, TenantEndpoint.handler, hrun, hdb]
      exact hs
    · apply run_keeps_db _ (endpoint.handler_performs api.ext r) s hs
      intro β q db db' hq heffect hdb
      exact heffect.noConfig hq hwrite hdb

/-! ## Runs -/

/-- The outbox is empty at every point of a run. -/
private theorem run_eventOutbox (calls : List (Endpoint × Request)) :
    (api.run calls).db.eventOutbox = [] := by
  apply List.foldl_keeps (P := fun s : Postgres => s.db.eventOutbox = [])
  · rfl
  · intro pre call post _ hpre
    rw [step_eventOutbox, hpre]

/-- Before the first upstream there is no configuration. -/
private theorem run_noConfig {pre calls : List (Endpoint × Request)} (hpre : pre <+: calls)
    (h : ∀ pre call post, calls = pre ++ call :: post →
      ¬ api.CreatesUpstream (api.run pre) call) : NoConfig (api.run pre).db := by
  obtain ⟨rest, rfl⟩ := hpre
  apply List.foldl_keeps (P := fun s : Postgres => NoConfig s.db)
  · exact noConfig_empty
  · intro before call after hsplit hbefore
    apply step_noConfig _ hbefore
    exact h before call (after ++ rest) (by rw [hsplit]; simp)

end Deployment

/-- An empty outbox reflects empty tables. -/
private theorem outboxReflects_of_noConfig {codec : EventCodec} {db : Db}
    (houtbox : db.eventOutbox = [])
    (h : NoConfig db) (tenantId : UUID) : OutboxReflects codec db tenantId := by
  -- the replay of no rows is the state of a new tenant
  have hreplay : codec.replay db tenantId = TenantState.new (codec.uuidString tenantId) := by
    simp [EventCodec.replay, houtbox, TenantState.run]
  unfold OutboxReflects Db.rowsOf
  rw [hreplay, h.upstreams, h.routes]
  constructor
  all_goals
    constructor
    · simp
    · intro key v hv
      simp [TenantState.new] at hv

namespace Deployment

variable {api : Deployment}

/-- A run keeps the outbox complete exactly when it creates no upstream. -/
theorem outboxComplete_iff (codec : EventCodec) (api : Deployment)
    (calls : List (Endpoint × Request)) :
    api.OutboxComplete codec calls ↔
      ∀ pre call post, calls = pre ++ call :: post →
        ¬ api.CreatesUpstream (api.run pre) call := by
  constructor
  · rintro ⟨hrecorded, -⟩ pre call post hsplit hcreates
    obtain ⟨upstream, s', hserve⟩ := hcreates.serve_eq
    have hchanged : changed api.ext (api.run pre).db call.1 (api.serve (api.run pre) call).1 =
        some (upstream.tenantId, .upstreamUpserted upstream) := by
      obtain ⟨tenantParam, -, -, hendpoint, -⟩ := hcreates
      rw [hserve, hendpoint]
      rfl
    -- the upstream is there, but the outbox did not grow
    obtain ⟨row, hrow, -⟩ := hrecorded pre call post hsplit _ _ hchanged
    rw [step_eventOutbox] at hrow
    simp at hrow
  · intro h
    -- nothing is ever stored, so there is nothing to record and nothing to reflect
    constructor
    · intro pre call post hsplit tenantId change hchanged
      have hpre : NoConfig (api.run pre).db := run_noConfig ⟨call :: post, hsplit.symm⟩ h
      rw [changed_eq_none (h pre call post hsplit) hpre] at hchanged
      cases hchanged
    · intro pre hpre tenantId
      exact outboxReflects_of_noConfig (run_eventOutbox pre) (run_noConfig hpre h) tenantId

/-- A deployment without OIDC whose database numbers the rows. -/
def development : Deployment where
  ext :=
    { uuidParse := fun s => if s = "00000000-0000-0000-0000-000000000001" then some 1 else none
      toUpper := fun s => String.ofList (s.toList.map Char.toUpper)
      toLower := fun s => String.ofList (s.toList.map Char.toLower)
      parseRequestURI := fun s =>
        if s = "https://api.example.com" then some ⟨"https", "api.example.com"⟩ else none
      rawMessage := fun _ => "null"
      sha256Hex := fun _ => "" }
  oidcMode := .disabled
  server := { types := ⟨.ok, .ok⟩, env := fun n => ⟨BitVec.ofNat 128 (n + 1), n, none⟩ }

def postRequest (members : List (String × Json)) : Request where
  auth := .missing
  query := fun _ => ""
  contentType := "application/json"
  body := some (.obj members)
  form := none

def createAcme : Endpoint × Request :=
  (.createTenant, postRequest [("name", .str "Acme"), ("slug", .str "acme")])

def createApi : Endpoint × Request :=
  (.inTenant "00000000-0000-0000-0000-000000000001" .createUpstream,
    postRequest [("name", .str "api"), ("url", .str "https://api.example.com")])

def plainCodec : EventCodec where
  uuidString := fun id => if id = 1 then "00000000-0000-0000-0000-000000000001" else ""
  decode := fun _ => none

/-- A tenant and its first upstream are created, and the outbox stays empty. -/
theorem created_upstream_not_recorded :
    (development.serve ⟨0, Db.empty⟩ createAcme).1.status = 201 ∧
      (development.serve (development.run [createAcme]) createApi).1.status = 201 ∧
      (development.run [createAcme, createApi]).db.eventOutbox = [] ∧
      ¬ development.OutboxComplete plainCodec [createAcme, createApi] := by
  refine ⟨by decide, by decide, by decide, ?_⟩
  rintro ⟨hrecorded, -⟩
  have hchanged : changed development.ext (development.run [createAcme]).db createApi.1
      (development.serve (development.run [createAcme]) createApi).1 = some (1, .upstreamUpserted
        ⟨2, 1, "api", "https://api.example.com", 5000, true, 1, 1⟩) := by decide
  obtain ⟨row, hrow, -⟩ := hrecorded [createAcme] createApi [] rfl _ _ hchanged
  rw [step_eventOutbox] at hrow
  simp at hrow

end Deployment

end Barqium.Native.ControlApi
