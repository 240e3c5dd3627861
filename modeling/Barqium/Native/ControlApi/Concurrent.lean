import Barqium.ForStd.Pool
import Barqium.Native.ControlApi.Router

/-!
# Requests that are served at the same time

`net/http` runs the handler of every request in a goroutine of its own, and a handler
runs its statements one by one on the connection pool, outside of a transaction. So
between two statements of one request those of any other may run; a single statement is
what Postgres executes as a whole.
-/

namespace Barqium.Native.ControlApi.Deployment

/-- The requests in progress and the database server they share. -/
abbrev Serving := Pool Query Response Response Postgres

inductive Action where
  /-- A request arrives. -/
  | request (endpoint : Endpoint) (r : Request)
  /-- The request at `i`, in the order of their arrival, runs its next statement. -/
  | statement (i : Nat)

def act (api : Deployment) (serving : Serving) : Action → Serving
  | .request endpoint r => serving.start (handle api.ext api.oidcMode endpoint r)
  | .statement i => serving.step (Postgres.exec api.server) i

/-- The requests and the database after the actions, from the database that the
    migrations leave. -/
def interleave (api : Deployment) (actions : List Action) : Serving :=
  actions.foldl api.act ⟨⟨0, Db.empty⟩, []⟩

end Barqium.Native.ControlApi.Deployment
