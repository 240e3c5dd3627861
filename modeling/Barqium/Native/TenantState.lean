import Barqium.Native.Config

/-!
# Per-tenant state of the snapshot compiler

Model of `crates/barqium-snapshot/src/state.rs` over the messages of
`proto/config_event.proto`. Log output is left out.
-/

namespace Barqium.Native

/-! ## Messages on `config.changes` -/

namespace Proto

structure Route where
  id : String
  tenantId : String
  method : String
  pathPrefix : String
  host : String
  upstreamId : String
  policyIds : List String
  enabled : Bool
  createdAt : Int64
  updatedAt : Int64
  deriving Repr, DecidableEq

structure Upstream where
  id : String
  tenantId : String
  name : String
  url : String
  timeoutMs : UInt32
  enabled : Bool
  deriving Repr, DecidableEq

end Proto

/-- The `payload` oneof. An upsert message may leave its entity out. -/
inductive Payload where
  | routeUpserted (route : Option Proto.Route)
  | routeDeleted (routeId : String)
  | upstreamUpserted (upstream : Option Proto.Upstream)
  | upstreamDeleted (upstreamId : String)
  deriving Repr, DecidableEq

/-- Carried on the `config.changes` Kafka topic. -/
structure ConfigEvent where
  /-- Monotonically increasing sequence number within the tenant. -/
  sequence : UInt64
  tenantId : String
  occurredAt : Int64
  /-- The enumeration's number as it is on the wire. -/
  eventType : Int32
  payload : Option Payload
  deriving Repr, DecidableEq

/-! ## The state -/

/-- Per-tenant in-memory state. Entries are stored under their own id. -/
structure TenantState where
  tenantId : String
  sequence : UInt64
  routes : HashMap RouteEntry
  upstreams : HashMap UpstreamEntry
  routes_keyed : HashMap.Keyed RouteEntry.id routes
  upstreams_keyed : HashMap.Keyed UpstreamEntry.id upstreams

namespace TenantState

/-- The state before the first event of a tenant. -/
def new (tenantId : String) : TenantState where
  tenantId := tenantId
  sequence := 0
  routes := ∅
  upstreams := ∅
  routes_keyed := HashMap.keyed_empty _
  upstreams_keyed := HashMap.keyed_empty _

/-- The entry stored for an upserted route. -/
def routeEntry (proto : Proto.Route) : RouteEntry where
  id := proto.id
  tenantId := proto.tenantId
  method := proto.method
  pathPrefix := proto.pathPrefix
  host := proto.host
  upstreamId := proto.upstreamId
  policyIds := proto.policyIds
  enabled := proto.enabled

/-- The entry stored for an upserted upstream. -/
def upstreamEntry (proto : Proto.Upstream) : UpstreamEntry where
  id := proto.id
  name := proto.name
  url := proto.url
  timeoutMs := proto.timeoutMs
  enabled := proto.enabled

def insertRoute (s : TenantState) (entry : RouteEntry) : TenantState :=
  { s with
    routes := s.routes.insert entry.id entry
    routes_keyed := s.routes_keyed.insert entry }

def removeRoute (s : TenantState) (id : String) : TenantState :=
  { s with
    routes := s.routes.erase id
    routes_keyed := s.routes_keyed.erase id }

def insertUpstream (s : TenantState) (entry : UpstreamEntry) : TenantState :=
  { s with
    upstreams := s.upstreams.insert entry.id entry
    upstreams_keyed := s.upstreams_keyed.insert entry }

def removeUpstream (s : TenantState) (id : String) : TenantState :=
  { s with
    upstreams := s.upstreams.erase id
    upstreams_keyed := s.upstreams_keyed.erase id }

/-- The guarded update of the sequence field. -/
def raiseSequence (s : TenantState) (sequence : UInt64) : TenantState :=
  if sequence > s.sequence then { s with sequence := sequence } else s

/-- The update of the maps, whatever the sequence number of the event. -/
def applyPayload (s : TenantState) : Option Payload → TenantState
  | some (.routeUpserted (some proto)) => s.insertRoute (routeEntry proto)
  | some (.routeUpserted none) => s
  | some (.routeDeleted routeId) => s.removeRoute routeId
  | some (.upstreamUpserted (some proto)) => s.insertUpstream (upstreamEntry proto)
  | some (.upstreamUpserted none) => s
  | some (.upstreamDeleted upstreamId) => s.removeUpstream upstreamId
  | none => s

/-- Applies a ConfigEvent, updating the in-memory state. -/
def apply (s : TenantState) (event : ConfigEvent) : TenantState :=
  (s.raiseSequence event.sequence).applyPayload event.payload

/-- The state after a list of events. -/
def run (s : TenantState) (events : List ConfigEvent) : TenantState :=
  events.foldl apply s

/-- Compiles the current state into a snapshot, with the clock read at `nowMs` and
    the entries in the order the two maps are walked. -/
def toSnapshot (s : TenantState) (nowMs : Int64) (routes : HashMap.Values s.routes)
    (upstreams : HashMap.Values s.upstreams) : RouteSnapshot where
  tenantId := s.tenantId
  sequence := s.sequence
  snapshotAt := nowMs
  routes := routes.val
  upstreams := upstreams.val

end TenantState

/-- The events of one tenant as they arrive: in any order, with duplicates. Two
    arrivals with the same sequence number are the same event. -/
structure Deliveries where
  tenantId : String
  events : List ConfigEvent
  tenant : ∀ e ∈ events, e.tenantId = tenantId
  sequenced : ∀ e ∈ events, ∀ f ∈ events, e.sequence = f.sequence → e = f

end Barqium.Native
