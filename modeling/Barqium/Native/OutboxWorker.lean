import Barqium.Native.ControlApi.Schema

/-!
# Outbox worker

Model of `services/outbox-worker/internal/worker/worker.go` and its queries: any
number of replicas run `processBatch` against one `event_outbox` table and one
Kafka cluster, cut at the calls to Postgres and to Kafka. Each of these calls may
fail, and a replica may be killed between any two of them.

A statement of Postgres is atomic, and `FOR UPDATE SKIP LOCKED` skips the rows
another transaction has locked. A transaction ends with a commit, whether or not
the reply reaches the worker, or it is rolled back.
-/

namespace Barqium.Native

open ControlApi

namespace OutboxWorker

/-! ## The table -/

/-- The committed rows of `event_outbox` in the order of their primary key. -/
structure EventTable where
  rows : List EventOutbox
  ordered : rows.Pairwise fun a b => a.id < b.id

/-- The columns that `MarkEventSent` sets. -/
def markRow (now : Time) (ids : List Int64) (row : EventOutbox) : EventOutbox :=
  if row.id ∈ ids then { row with sentAt := some now, kafkaPartition := none, kafkaOffset := none }
  else row

@[simp] theorem markRow_id (now : Time) (ids : List Int64) (row : EventOutbox) :
    (markRow now ids row).id = row.id := by
  unfold markRow; split <;> rfl

namespace EventTable

/-- The table once a transaction that began at `now` and marked `ids` commits. -/
def markSent (table : EventTable) (now : Time) (ids : List Int64) : EventTable where
  rows := table.rows.map (markRow now ids)
  ordered := by
    rw [List.pairwise_map]
    simpa using table.ordered

/-- The rows of `FetchPendingEvents`: unsent, not locked, in insertion order. -/
def pending {W : Type} (table : EventTable) (locks : Int64 → Option W) : List EventOutbox :=
  table.rows.filter fun row => row.sentAt.isNone && (locks row.id).isNone

end EventTable

/-- `FetchPendingEvents`; a negative limit is an error in Postgres. -/
def fetchPendingEvents {W : Type} (table : EventTable) (locks : Int64 → Option W)
    (limit : Int32) : Option (List EventOutbox) :=
  if limit < 0 then none else some ((table.pending locks).take limit.toInt.toNat)

/-! ## Messages -/

/-- A `kafka.Message` on its topic, with the id of the row it was made from, which
    does not go over the wire. -/
structure Message where
  rowId : Int64
  topic : String
  /-- The tenant, so that all events of a tenant go to one partition. -/
  key : UUID
  value : Bytes
  deriving Repr, DecidableEq

def message (row : EventOutbox) : Message :=
  ⟨row.id, row.kafkaTopic, row.tenantId, row.payload⟩

@[simp] theorem message_markRow (now : Time) (ids : List Int64) (row : EventOutbox) :
    message (markRow now ids row) = message row := by
  unfold markRow; split <;> rfl

/-! ## The replicas -/

/-- Where `processBatch` of a replica stands. -/
inductive Phase where
  /-- Waiting for the ticker. -/
  | idle
  /-- The transaction is open since `now`. -/
  | begun (now : Time)
  /-- At the head of the loop: `done` is published and marked, `rest` is to come. -/
  | writing (now : Time) (done rest : List EventOutbox)
  /-- The write of `row` is acknowledged. -/
  | marking (now : Time) (done : List EventOutbox) (row : EventOutbox) (rest : List EventOutbox)

namespace Phase

/-- The rows the transaction fetched. -/
def batch : Phase → List EventOutbox
  | idle | begun _ => []
  | writing _ done rest => done ++ rest
  | marking _ done row rest => done ++ row :: rest

/-- The rows of the batch whose write was acknowledged. -/
def written : Phase → List EventOutbox
  | idle | begun _ => []
  | writing _ done _ => done
  | marking _ done row _ => done ++ [row]

end Phase

/-- Postgres, Kafka and the replicas, which are named by `W`. -/
structure World (W : Type) where
  table : EventTable
  /-- The replica whose transaction has locked a row. -/
  locks : Int64 → Option W
  workers : W → Phase
  /-- Every message Kafka received, in the order of arrival. -/
  published : List Message
  /-- Every message whose write was acknowledged to a writer. -/
  acked : List Message
  /-- Requests without an acknowledgement that Kafka may still receive. -/
  inFlight : List Message

/-- The next call of a replica and how it ends. -/
inductive Call where
  /-- The ticker fires and `pool.Begin` succeeds at `now`, or fails. -/
  | begin (now : Option Time)
  | fetch (ok : Bool)
  /-- `WriteMessages`, with the number of its attempts that were not acknowledged
      but may still arrive. -/
  | write (acked : Bool) (unacked : Nat)
  | mark (ok : Bool)
  | commit (ok : Bool)
  /-- The process is killed; a new one takes its place. -/
  | crash
  deriving Repr, DecidableEq

/-- What can happen next. -/
inductive Action (W : Type) where
  | call (w : W) (c : Call)
  /-- A request in flight reaches Kafka. -/
  | arrive (m : Message)
  deriving Repr, DecidableEq

section

variable {W : Type} [DecidableEq W]

namespace World

def setPhase (s : World W) (w : W) (p : Phase) : World W :=
  { s with workers := Function.update s.workers w p }

/-- The transaction of `w` is over: its row locks are gone and `processBatch`
    returns. -/
def endTx (s : World W) (w : W) : World W :=
  { s with
    workers := Function.update s.workers w .idle
    locks := fun id => if s.locks id = some w then none else s.locks id }

/-- `SELECT ... FOR UPDATE` locks the rows it returns. -/
def lock (s : World W) (w : W) (rows : List EventOutbox) : World W :=
  { s with locks := fun id => if id ∈ rows.map EventOutbox.id then some w else s.locks id }

def send (s : World W) (m : Message) (acked : Bool) (unacked : Nat) : World W :=
  { s with
    published := if acked then s.published ++ [m] else s.published
    acked := if acked then s.acked ++ [m] else s.acked
    inFlight := s.inFlight ++ List.replicate unacked m }

end World

/-- One call of replica `w` with batch size `batch`. A call that is not the next
    one of `processBatch` changes nothing. -/
def call (batch : Int64) (s : World W) (w : W) : Call → World W
  | .begin now =>
    match s.workers w, now with
    | .idle, some now => s.setPhase w (.begun now)
    | _, _ => s
  | .fetch ok =>
    match s.workers w with
    | .begun now =>
      match ok, fetchPendingEvents s.table s.locks batch.toInt32 with
      | true, some rows =>
        -- without rows `processBatch` returns, and its deferred rollback runs
        if rows = [] then s.endTx w
        else (s.lock w rows).setPhase w (.writing now [] rows)
      | _, _ => s.endTx w
    | _ => s
  | .write acked unacked =>
    match s.workers w with
    | .writing now done (row :: rest) =>
      let s := s.send (message row) acked unacked
      if acked then s.setPhase w (.marking now done row rest) else s.endTx w
    | _ => s
  | .mark ok =>
    match s.workers w with
    | .marking now done row rest =>
      if ok then s.setPhase w (.writing now (done ++ [row]) rest) else s.endTx w
    | _ => s
  | .commit ok =>
    match s.workers w with
    | .writing now done [] =>
      let table := if ok then s.table.markSent now (done.map EventOutbox.id) else s.table
      { s with table }.endTx w
    | _ => s
  | .crash => s.endTx w

/-- One step of the system; `batch` is the configured batch size of each replica. -/
def step (batch : W → Int64) (s : World W) : Action W → World W
  | .call w c => call (batch w) s w c
  | .arrive m =>
    if m ∈ s.inFlight then
      { s with published := s.published ++ [m], inFlight := s.inFlight.erase m }
    else s

/-- Replicas that have not done anything yet, over a table with any content. -/
def initial (table : EventTable) : World W where
  table := table
  locks := fun _ => none
  workers := fun _ => .idle
  published := []
  acked := []
  inFlight := []

/-- The world after a run. -/
def run (batch : W → Int64) (table : EventTable) (actions : List (Action W)) : World W :=
  actions.foldl (step batch) (initial table)

end

end OutboxWorker

end Barqium.Native
