import Mathlib.Logic.Function.Basic
import Barqium.ForStd.Text
import Barqium.Native.Serde
import Barqium.Native.ToolRegistry

/-!
# MCP client over stdin and stdout

Model of `rpc` and `write_line` in `crates/barqium-mcp/src/client/stdio.rs` as a state
machine: the calls of one client, cut at the points where they wait for a lock or
for the pipe, together with the subprocess. A call is known by its request id.

The subprocess answers each request once, in any order, and writes notifications
in between. Parsing a line is serde_json's and stays a parameter.
-/

namespace Barqium.Native.StdioClient

abbrev Line := List Char

/-- Where a call of `rpc` stands. -/
inductive Phase where
  /-- No call has the id yet. -/
  | absent
  /-- In `write_line`, before the request is on the pipe. -/
  | writing (request : Json)
  /-- The request is written; the call waits for the lock of stdout, or holds it
      and reads. -/
  | awaiting
  | returned (result : Except McpError Json)

/-- The client and the subprocess. -/
structure World where
  idCounter : Nat
  calls : Nat → Phase
  /-- The call that holds the lock of stdout. -/
  reader : Option Nat
  /-- The requests on stdin. -/
  stdin : List Json
  /-- The ids of the requests that the subprocess has still to answer. -/
  unanswered : List Nat
  /-- The lines on stdout that nobody has read. -/
  stdout : List Line
  /-- The subprocess has closed stdout. -/
  closed : Bool

inductive Action where
  /-- `rpc` is called, with the next id. -/
  | call (method : String) (params : Option Json)
  | write (id : Nat)
  | writeFailed (id : Nat) (message : String)
  /-- The subprocess answers a request. -/
  | answer (id : Nat) (line : Line)
  /-- The subprocess sends a notification. -/
  | notify (line : Line)
  | close
  /-- A call acquires the lock of stdout. -/
  | lock (id : Nat)
  /-- The holder of the lock reads a line. -/
  | read

/-- The request of a call. -/
def request (id : Nat) (method : String) (params : Option Json) : Json :=
  .obj ([("jsonrpc", .str "2.0"), ("id", .num id.repr), ("method", .str method)] ++
    (params.map fun p => ("params", p)).toList)

/-- `v["id"] == json!(id)`. -/
def idMatches (v : Json) (id : Nat) : Bool :=
  match v.index "id" with
  | .num literal => literal = id.repr
  | _ => false

/-- `serde_json::from_str(line.trim())`. -/
def parse (serde : SerdeJson) (line : Line) : Except serde.Error Json :=
  serde.fromStr (Text.trim line)

/-- The line is a response to the request. -/
def carries (serde : SerdeJson) (line : Line) (id : Nat) : Bool :=
  match parse serde line with
  | .ok v => idMatches v id
  | .error _ => false

/-- The line is a notification: a message without an id. -/
def isNotification (serde : SerdeJson) (line : Line) : Bool :=
  match parse serde line with
  | .ok v =>
    match v.index "id" with
    | .null => true
    | _ => false
  | .error _ => false

/-- `Value::as_i64`. -/
def asI64 : Json → Option Int
  | .num literal =>
    literal.toInt?.filter fun n => -9223372036854775808 ≤ n ∧ n < 9223372036854775808
  | _ => none

/-- What `rpc` returns for the response with its id. -/
def outcome (v : Json) : Except McpError Json :=
  match v.index "error" with
  | .obj err =>
    let code := ((err.lookup "code").bind asI64).getD (-32603)
    let message := ((err.lookup "message").bind Json.asStr).getD "unknown"
    .error (.rpc (Int32.ofInt code) message)
  | _ => .ok (v.index "result")

namespace World

def setPhase (w : World) (id : Nat) (phase : Phase) : World :=
  { w with calls := Function.update w.calls id phase }

/-- The call returns, and the lock of stdout is released. -/
def leave (w : World) (id : Nat) (result : Except McpError Json) : World :=
  { w.setPhase id (.returned result) with reader := none }

/-- One pass of the loop of `rpc` by the call that holds the lock. -/
def readLine (serde : SerdeJson) (errorText : serde.Error → String) (w : World) (id : Nat) :
    World :=
  match w.stdout with
  | [] =>
    if w.closed then w.leave id (.error (.rpc (-32700) "subprocess closed stdout")) else w
  | line :: rest =>
    let w := { w with stdout := rest }
    match parse serde line with
    | .error e => w.leave id (.error (.serialization (errorText e)))
    | .ok v =>
      if idMatches v id then w.leave id (outcome v)
      -- Skip notifications and responses for other ids.
      else w

end World

section

variable (serde : SerdeJson) (errorText : serde.Error → String)

/-- One step. An action that is not possible changes nothing. -/
def step (w : World) : Action → World
  | .call method params =>
    { w.setPhase w.idCounter (.writing (request w.idCounter method params)) with
      idCounter := w.idCounter + 1 }
  | .write id =>
    match w.calls id with
    | .writing req =>
      { w.setPhase id .awaiting with
        stdin := w.stdin ++ [req], unanswered := w.unanswered ++ [id] }
    | _ => w
  | .writeFailed id message =>
    match w.calls id with
    | .writing _ => w.setPhase id (.returned (.error (.io message)))
    | _ => w
  | .answer id line =>
    -- the server answers each request once
    if id ∈ w.unanswered ∧ carries serde line id then
      { w with stdout := w.stdout ++ [line], unanswered := w.unanswered.erase id }
    else w
  | .notify line =>
    if isNotification serde line then { w with stdout := w.stdout ++ [line] } else w
  | .close => { w with closed := true }
  | .lock id =>
    match w.reader, w.calls id with
    -- the reader lock is free
    | none, .awaiting => { w with reader := some id }
    | _, _ => w
  | .read =>
    match w.reader with
    | some id => w.readLine serde errorText id
    | none => w

/-- The client of a subprocess that has been spawned; `initialize` is its first call. -/
def initial : World where
  idCounter := 1
  calls := fun _ => .absent
  reader := none
  stdin := []
  unanswered := []
  stdout := []
  closed := false

def run (actions : List Action) : World := actions.foldl (step serde errorText) initial

end

end Barqium.Native.StdioClient
