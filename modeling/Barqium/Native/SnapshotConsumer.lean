import Barqium.Native.TenantState
import Mathlib.Logic.Function.Basic

/-!
# Snapshot compiler process

Model of `crates/barqium-snapshot/src/consumer.rs` and `main.rs` as a state machine:
the loop of `run`, cut at the points where the process can be killed, together
with the consumer group's committed offset on the broker and the snapshot files.

`config.changes` has one partition. Decoding a message is prost's and stays a
parameter. In `step` every write of a snapshot succeeds; `Fallible.step` adds the
writes that fail.
-/

namespace Barqium.Native

/-- A message of the topic; `none` is a message without a payload. -/
structure KafkaMessage where
  payload : Option (List UInt8)
  deriving Repr, DecidableEq

namespace SnapshotConsumer

/-- Where the loop of `run` stands. -/
inductive Phase where
  /-- Waiting in `consumer.recv()`. -/
  | polling
  /-- The event at `offset` is applied and the snapshot compiled. -/
  | writing (offset : Nat) (snapshot : RouteSnapshot)
  /-- The message at `offset` is handled, its commit not yet requested. -/
  | committing (offset : Nat)

/-- The process, the broker and the snapshot store. -/
structure World where
  phase : Phase
  /-- The offset at which the running process resumed. -/
  resumed : Nat
  /-- The offset of the next message to receive. -/
  position : Nat
  /-- The shared state of the process. -/
  tenants : HashMap TenantState
  /-- The last snapshot written for each tenant. -/
  store : String → Option RouteSnapshot
  /-- The committed offset of the consumer group. -/
  committed : Option Nat
  /-- Commit requests sent with `CommitMode::Async` that the broker has not applied. -/
  inFlight : List Nat

/-- What can happen next. The two orders are those in which the maps of the
    tenant are walked when the snapshot is compiled. -/
inductive Action where
  | recv (nowMs : Int64) (routeOrder : ∀ m : HashMap RouteEntry, HashMap.Values m)
      (upstreamOrder : ∀ m : HashMap UpstreamEntry, HashMap.Values m)
  | recvError
  | write
  /-- `commit_message`, which may fail to queue the request. -/
  | commit (queued : Bool)
  /-- The broker applies a request in flight. -/
  | commitApplied (offset : Nat)
  /-- The process dies, at any point, and is started again. -/
  | restart

section

variable (decode : List UInt8 → Except String ConfigEvent)

/-- The event a message carries, if it has a payload that decodes. -/
def messageEvent (msg : KafkaMessage) : Option ConfigEvent :=
  msg.payload.bind fun bytes => (decode bytes).toOption

/-- The body of the loop up to the compiled snapshot. -/
def receive (w : World) (msg : KafkaMessage) (nowMs : Int64)
    (routeOrder : ∀ m : HashMap RouteEntry, HashMap.Values m)
    (upstreamOrder : ∀ m : HashMap UpstreamEntry, HashMap.Values m) : World :=
  let offset := w.position
  let w := { w with position := offset + 1 }
  match msg.payload with
  -- a tombstone
  | none => { w with phase := .committing offset }
  | some bytes =>
    match decode bytes with
    -- a payload that is no event is logged and committed
    | .error _ => { w with phase := .committing offset }
    | .ok event =>
      let tenantId := event.tenantId
      let tenant := ((w.tenants.lookup tenantId).getD (TenantState.new tenantId)).apply event
      let snapshot := tenant.toSnapshot nowMs (routeOrder _) (upstreamOrder _)
      { w with
        tenants := w.tenants.insert tenantId tenant
        phase := .writing offset snapshot }

/-- One step over the topic `log`. An action that is not possible in the current
    phase changes nothing. -/
def step (log : List KafkaMessage) (w : World) : Action → World
  | .recv nowMs routeOrder upstreamOrder =>
    match w.phase, log[w.position]? with
    | .polling, some msg => receive decode w msg nowMs routeOrder upstreamOrder
    | _, _ => w
  | .recvError => w
  | .write =>
    match w.phase with
    | .writing offset snapshot =>
      { w with
        store := Function.update w.store snapshot.tenantId (some snapshot)
        phase := .committing offset }
    | _ => w
  | .commit queued =>
    match w.phase with
    | .committing offset =>
      { w with
        inFlight := if queued then w.inFlight ++ [offset + 1] else w.inFlight
        phase := .polling }
    | _ => w
  | .commitApplied offset =>
    if offset ∈ w.inFlight then
      { w with committed := some offset, inFlight := w.inFlight.erase offset }
    else w
  | .restart =>
    -- `auto.offset.reset` is `earliest`
    let offset := w.committed.getD 0
    { w with phase := .polling, resumed := offset, position := offset, tenants := ∅ }

/-- The first start of the process, before anything was committed or written. -/
def initial : World where
  phase := .polling
  resumed := 0
  position := 0
  tenants := ∅
  store := fun _ => none
  committed := none
  inFlight := []

/-- The world after a run. -/
def run (log : List KafkaMessage) (actions : List Action) : World :=
  actions.foldl (step decode log) initial

end

/-! ## Failing writes

`store.write` returns an error when the snapshot cannot be serialised or the
mapping cannot be swapped. `run` logs the error and goes on to the commit. -/

/-- What can happen next when a write may fail. -/
inductive FallibleAction where
  | act (a : Action)
  /-- `store.write` returns an error. -/
  | writeFailed

/-- The world together with what became of the writes. -/
structure Fallible where
  world : World
  /-- The tenants whose last write by the running process was logged as failed. -/
  failed : List String
  /-- The snapshots written successfully so far. -/
  written : List RouteSnapshot

namespace Fallible

variable (decode : List UInt8 → Except String ConfigEvent)

def step (log : List KafkaMessage) (f : Fallible) : FallibleAction → Fallible
  | .writeFailed =>
    match f.world.phase with
    | .writing offset snapshot =>
      -- the error is logged, and the offset is committed all the same
      { f with
        world := { f.world with phase := .committing offset }
        failed := snapshot.tenantId :: f.failed }
    | _ => f
  | .act .write =>
    match f.world.phase with
    | .writing _ snapshot =>
      { world := SnapshotConsumer.step decode log f.world .write
        failed := f.failed.filter (· ≠ snapshot.tenantId)
        written := f.written ++ [snapshot] }
    | _ => f
  | .act .restart =>
    { f with world := SnapshotConsumer.step decode log f.world .restart, failed := [] }
  | .act a => { f with world := SnapshotConsumer.step decode log f.world a }

/-- The first start of the process. -/
def initial : Fallible := ⟨SnapshotConsumer.initial, [], []⟩

/-- The world after a run in which writes may fail. -/
def run (log : List KafkaMessage) (actions : List FallibleAction) : Fallible :=
  actions.foldl (step decode log) initial

end Fallible

end SnapshotConsumer

end Barqium.Native
