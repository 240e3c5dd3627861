import Barqium.Native.ControlApi.Schema

/-!
# Audit consumer

Model of `services/audit-consumer/internal/consumer/consumer.go`: the loop of `Run`
as a state machine over the reader's group offsets and the `audit_log` table, cut
at the arms of its `select` and at the calls it makes. How each call ends is part
of the action.

Go's `json.Unmarshal` and `time.Parse` stay parameters. `CommitMessages` commits
exactly the messages it is given. Log output is left out.
-/

namespace Barqium.Native.AuditConsumer

open ControlApi (Time Bytes)

/-- The fields of a `kafka.Message` the consumer reads. -/
structure Message where
  topic : String
  partition : Int
  offset : Int
  value : Bytes
  deriving Repr, DecidableEq

/-- The shape of an audit message on the Kafka topic. -/
structure AuditEvent where
  tenantId : String
  eventType : String
  actorId : String
  actorRole : String
  resourceId : String
  resourceType : String
  action : String
  payload : Bytes
  occurredAt : String
  deriving Repr, DecidableEq

/-- A row of `audit_log` as the `INSERT` gives it. -/
structure AuditRow where
  tenantId : String
  eventType : String
  actorId : String
  actorRole : String
  resourceId : String
  resourceType : String
  action : String
  payloadJson : Option Bytes
  kafkaTopic : String
  kafkaPartition : Int
  kafkaOffset : Int
  createdAt : Time
  deriving Repr, DecidableEq

/-- The columns of the unique index. -/
def AuditRow.key (row : AuditRow) : String × Int × Int :=
  (row.kafkaTopic, row.kafkaPartition, row.kafkaOffset)

def Message.key (msg : Message) : String × Int × Int :=
  (msg.topic, msg.partition, msg.offset)

/-- The decoders of Go's standard library. -/
structure Decoders where
  /-- `json.Unmarshal` into an `AuditEvent`; none on an error. -/
  unmarshal : Bytes → Option AuditEvent
  /-- `time.Parse` with the layout `RFC3339Nano`; none on an error. -/
  parseTime : String → Option Time

/-- How the calls of one `insertBatch` end. Under a cancelled context pgx fails the
    first one. -/
structure Outcome where
  begins : Bool
  /-- Whether `tx.Exec` inserts the row (or finds its key taken) without an error. -/
  accepts : AuditRow → Bool
  commits : Bool
  /-- The clock when a message is handled. -/
  now : Message → Time

section

variable (decoders : Decoders)

/-- The row inserted for a decoded message. -/
def auditRow (msg : Message) (ev : AuditEvent) (now : Time) : AuditRow where
  tenantId := ev.tenantId
  eventType := ev.eventType
  actorId := ev.actorId
  actorRole := ev.actorRole
  resourceId := ev.resourceId
  resourceType := ev.resourceType
  action := ev.action
  payloadJson := if ev.payload.length > 0 then some ev.payload else none
  kafkaTopic := msg.topic
  kafkaPartition := msg.partition
  kafkaOffset := msg.offset
  -- a time that cannot be parsed falls back to the clock
  createdAt :=
    if ev.occurredAt ≠ "" then (decoders.parseTime ev.occurredAt).getD now else now

/-- `INSERT ... ON CONFLICT (kafka_topic, kafka_partition, kafka_offset) DO NOTHING`. -/
def insertRow (log : List AuditRow) (row : AuditRow) : List AuditRow :=
  if log.any (·.key = row.key) then log else log ++ [row]

/-- The loop of `insertBatch` over the messages: a message that cannot be decoded
    is skipped, a failed `INSERT` ends it. -/
def insertAll (o : Outcome) : List AuditRow → List Message → Option (List AuditRow)
  | log, [] => some log
  | log, msg :: msgs =>
    match decoders.unmarshal msg.value with
    | none => insertAll o log msgs
    | some ev =>
      let row := auditRow decoders msg ev (o.now msg)
      if o.accepts row then insertAll o (insertRow log row) msgs else none

/-- The table after `insertBatch`; none when it returns an error, in which case the
    transaction is rolled back. -/
def insertBatch (o : Outcome) (log : List AuditRow) (msgs : List Message) :
    Option (List AuditRow) :=
  if o.begins then
    (insertAll decoders o log msgs).bind fun log => if o.commits then some log else none
  else none

end

/-- Where the loop of `Run` stands. -/
inductive Phase where
  /-- At the `select`. -/
  | selecting
  /-- Waiting in `FetchMessage`. -/
  | fetching
  /-- The fetched message is appended. -/
  | appended
  /-- The full batch was flushed, successfully or not; `CommitMessages` is next. -/
  | committing
  /-- `Run` has returned. -/
  | stopped
  /-- A negative batch size makes the allocation of the batch panic. -/
  | panicked
  deriving Repr, DecidableEq

/-- The process, the consumer group and the database. -/
structure World where
  phase : Phase
  /-- Whether the context is cancelled. -/
  cancelled : Bool
  batch : List Message
  auditLog : List AuditRow
  /-- The committed offset of each partition: the first one not yet covered. -/
  committed : Int → Int

/-- What can happen next. -/
inductive Action where
  /-- SIGINT or SIGTERM. -/
  | cancel
  /-- The arm `<-ctx.Done()`. -/
  | done (o : Outcome)
  /-- The arm `<-ticker.C`. -/
  | tick (o : Outcome)
  /-- The default arm calls `FetchMessage`. -/
  | poll
  | fetched (msg : Message)
  /-- `FetchMessage` returns an error: its timeout, or the cancelled context. -/
  | fetchError
  /-- The check of the batch size after a message was appended. -/
  | checkSize (o : Outcome)
  | commit (ok : Bool)

/-- `CommitMessages`: the offset of a partition moves past the messages. -/
def commitMessages (committed : Int → Int) (msgs : List Message) : Int → Int :=
  msgs.foldl (fun c msg =>
    Function.update c msg.partition (max (c msg.partition) (msg.offset + 1))) committed

section

variable (decoders : Decoders) (batchSize : Int)

/-- The closure `flush`, which empties the batch whether or not it was inserted. -/
def flush (w : World) (o : Outcome) : World :=
  if w.batch = [] then w
  else
    match insertBatch decoders o w.auditLog w.batch with
    | some log => { w with auditLog := log, batch := [] }
    | none => { w with batch := [] }

/-- One step. An action that is not possible in the current phase changes nothing. -/
def step (w : World) : Action → World
  | .cancel => { w with cancelled := true }
  | .done o =>
    match w.phase, w.cancelled with
    | .selecting, true => { flush decoders w o with phase := .stopped }
    | _, _ => w
  | .tick o =>
    match w.phase with
    | .selecting => flush decoders w o
    | _ => w
  | .poll =>
    match w.phase, w.cancelled with
    | .selecting, false => { w with phase := .fetching }
    | _, _ => w
  | .fetched msg =>
    match w.phase with
    | .fetching =>
      -- the group never receives a message from before its committed offset
      if w.committed msg.partition ≤ msg.offset then
        { w with batch := w.batch ++ [msg], phase := .appended }
      else w
    | _ => w
  | .fetchError =>
    match w.phase with
    | .fetching =>
      -- the return drops the local batch
      if w.cancelled then { w with batch := [], phase := .stopped }
      else { w with phase := .selecting }
    | _ => w
  | .checkSize o =>
    match w.phase with
    | .appended =>
      if batchSize ≤ w.batch.length then { flush decoders w o with phase := .committing }
      else { w with phase := .selecting }
    | _ => w
  | .commit ok =>
    match w.phase with
    | .committing =>
      -- `flush` has emptied the slice that is passed here
      let committed := if ok then commitMessages w.committed w.batch else w.committed
      { w with committed, phase := .selecting }
    | _ => w

/-- `Run` with any table and any committed offsets. -/
def initial (auditLog : List AuditRow) (committed : Int → Int) : World where
  phase := if batchSize < 0 then .panicked else .selecting
  cancelled := false
  batch := []
  auditLog := auditLog
  committed := committed

/-- The world after a run. -/
def run (auditLog : List AuditRow) (committed : Int → Int) (actions : List Action) : World :=
  actions.foldl (step decoders batchSize) (initial batchSize auditLog committed)

end

end Barqium.Native.AuditConsumer
