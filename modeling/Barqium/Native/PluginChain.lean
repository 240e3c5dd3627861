import Barqium.Native.WasmPlugin

/-!
# A chain of plugins

Model of `PluginRuntime::on_request` of `crates/barqium-wasm/src/runtime.rs`: the plugins take
their turns on one context. The host calls of a chain are listed with the host state that each of
them is made in.
-/

namespace Barqium.Native.WasmPlugin

variable {http : Http}

/-- A plugin of a chain: what becomes of the call of its export, and the host calls that its
    start function makes if the module fails to be instantiated or has no such export. -/
structure Turn where
  execution : Execution
  startCalls : List HostCall

namespace Turn

/-- All host calls of the plugin. -/
def calls (t : Turn) : List HostCall :=
  match t.execution with
  | .instantiateFails _ => t.startCalls
  | .noExport => t.startCalls
  | .traps calls _ => calls
  | .returns calls _ => calls

/-- The export returns, so that what the plugin writes goes back to the context. -/
def returned (t : Turn) : Bool :=
  match t.execution with
  | .returns _ _ => true
  | .instantiateFails _ => false
  | .noExport => false
  | .traps _ _ => false

end Turn

/-- The next plugin has its turn: the chain short-circuits on the first other action. -/
def goesOn : Except WasmError Action → Bool
  | .ok action => action = .continue
  | .error _ => false

/-- Runs the export of all plugins against the context. -/
def onRequest (orders : Orders http) :
    List Turn → RequestContext http → Except WasmError Action × RequestContext http
  | [], ctx => (.ok .continue, ctx)
  | t :: turns, ctx =>
    let (result, ctx) := callOnRequest orders t.execution ctx
    if goesOn result then onRequest orders turns ctx else (result, ctx)

/-- A host call of a chain. -/
structure Step where
  /-- The position of the plugin in the chain. -/
  plugin : Nat
  /-- The export of the plugin returns. -/
  returned : Bool
  /-- The host state before the call. -/
  state : HostState
  call : HostCall

namespace Step

def result (s : Step) : Option Int32 := (hostCall s.state s.call).1

/-- What the host function writes to the linear memory of the plugin: addresses and bytes.
    There is nothing: of the memory the host only uses `data`, which reads. -/
def memoryWrites (_ : Step) : List (Nat × UInt8) := []

/-- The linear memory that the plugin goes on with. -/
def memoryAfter (s : Step) : List UInt8 :=
  s.memoryWrites.foldl (fun memory w => memory.set w.1 w.2) (s.call.memory.getD [])

end Step

/-- The host calls of one plugin, from the state on. -/
def stepsOf (plugin : Nat) (returned : Bool) (s : HostState) : List HostCall → List Step
  | [] => []
  | c :: calls => ⟨plugin, returned, s, c⟩ :: stepsOf plugin returned (hostCall s c).2 calls

/-- The host calls of a chain of which the first plugin has the given position. -/
def chainSteps (orders : Orders http) (plugin : Nat) :
    List Turn → RequestContext http → List Step
  | [], _ => []
  | t :: turns, ctx =>
    let (result, next) := callOnRequest orders t.execution ctx
    stepsOf plugin t.returned (startState orders ctx.headers ctx.vars) t.calls ++
      if goesOn result then chainSteps orders (plugin + 1) turns next else []

end Barqium.Native.WasmPlugin
