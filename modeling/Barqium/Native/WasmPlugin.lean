import Barqium.ForStd.Utf8
import Barqium.ForStd.Walk
import Barqium.Native.Config

/-!
# WASM plugin calls

Model of `crates/barqium-wasm/src/runtime.rs` and `host.rs`: the host functions a
plugin imports, and the call of its export with the conversion of the headers to
strings before it and back after it.

The plugin is foreign code. What counts is which host calls it makes and how its
export ends, so an `Execution` is any list of calls with any end. The types of the
`http` crate stay parameters. Log output is left out.
-/

namespace Barqium.Native

/-- `to_ascii_lowercase`. -/
def asciiLower (s : String) : String := String.ofList (s.toList.map Char.toLower)

/-- What is used of the `http` crate: header names are case-insensitive and kept in
    lower case, and a value made of visible ASCII converts to text and back. -/
structure Http where
  HeaderName : Type
  decEq : DecidableEq HeaderName
  asStr : HeaderName → String
  /-- `HeaderName::from_bytes`. -/
  nameFromBytes : String → Option HeaderName
  nameFromBytes_asStr : ∀ name, nameFromBytes (asStr name) = some name
  asStr_nameFromBytes : ∀ k name, nameFromBytes k = some name → asStr name = asciiLower k
  HeaderValue : Type
  /-- `HeaderValue::to_str`; none unless every byte is visible ASCII. -/
  toStr : HeaderValue → Option String
  /-- `HeaderValue::from_str`. -/
  valueFromStr : String → Option HeaderValue
  valueFromStr_toStr : ∀ value s, toStr value = some s → valueFromStr s = some value

instance (http : Http) : DecidableEq http.HeaderName := http.decEq

/-- A header map: the values of every name that has any, in their order. -/
abbrev HeaderMap (http : Http) :=
  Finmap fun _ : http.HeaderName => { vs : List http.HeaderValue // vs ≠ [] }

namespace HeaderMap

variable {http : Http}

/-- `get_all`. -/
def getAll (headers : HeaderMap http) (name : http.HeaderName) : List http.HeaderValue :=
  ((headers.lookup name).map Subtype.val).getD []

/-- `insert` replaces every value of the name. -/
def insert (headers : HeaderMap http) (name : http.HeaderName) (value : http.HeaderValue) :
    HeaderMap http :=
  Finmap.insert name ⟨[value], by simp⟩ headers

/-- `remove` removes every value of the name. -/
def remove (headers : HeaderMap http) (name : http.HeaderName) : HeaderMap http :=
  Finmap.erase name headers

end HeaderMap

namespace WasmPlugin

/-- The action a plugin returns after inspecting a request or response. -/
inductive Action where
  | «continue»
  | respond (status : UInt16) (body : List UInt8)
  | deny
  deriving Repr, DecidableEq

inductive WasmError where
  | instantiate (message : String)
  | call (message : String)
  deriving Repr, DecidableEq

/-- Mutable view of an HTTP request handed to a plugin. -/
structure RequestContext (http : Http) where
  method : String
  path : String
  headers : HeaderMap http
  vars : HashMap String

/-- Mutable view of an HTTP response handed to a plugin. -/
structure ResponseContext (http : Http) where
  status : UInt16
  headers : HeaderMap http
  vars : HashMap String

/-- Host state threaded through wasmtime `Store` calls. -/
structure HostState where
  headers : HashMap String
  vars : HashMap String
  logBuf : List String
  action : Action

/-! ## Host functions -/

/-- The imports of the `barqium` namespace with their arguments. -/
inductive HostFn where
  | getHeader (ptr len : Int32)
  | setHeader (kptr klen vptr vlen : Int32)
  | removeHeader (ptr len : Int32)
  | getVar (ptr len : Int32)
  | setVar (kptr klen vptr vlen : Int32)
  | log (ptr len level : Int32)
  deriving Repr, DecidableEq

/-- A call of a host function, with the linear memory of the plugin at that moment;
    none when the plugin exports no memory. -/
structure HostCall where
  memory : Option (List UInt8)
  fn : HostFn
  deriving Repr, DecidableEq

/-- The string at `[ptr, ptr+len)`, empty if the region is out of bounds. -/
def readStr (memory : Option (List UInt8)) (ptr len : Int32) : String :=
  if ptr < 0 ∨ len ≤ 0 then ""
  else
    match memory with
    | none => ""
    | some data =>
      let start := ptr.toInt.toNat
      let stop := start + len.toInt.toNat
      if stop > data.length then ""
      else String.ofList (Utf8.fromLossy ((data.take stop).drop start))

/-- The length of an entry as the plugin gets it, or -1. -/
def lengthOrMissing (map : HashMap String) (key : String) : Int32 :=
  match map.lookup key with
  | some v => Int32.ofNat v.utf8ByteSize
  | none => -1

/-- The result of a host call, if it has one, and the state it leaves. -/
def hostCall (s : HostState) (c : HostCall) : Option Int32 × HostState :=
  let read := readStr c.memory
  match c.fn with
  -- the length is returned, and nothing is written into the memory of the plugin
  | .getHeader ptr len => (some (lengthOrMissing s.headers (read ptr len)), s)
  | .setHeader kptr klen vptr vlen =>
    (none, { s with headers := s.headers.insert (read kptr klen) (read vptr vlen) })
  | .removeHeader ptr len => (none, { s with headers := s.headers.erase (read ptr len) })
  | .getVar ptr len => (some (lengthOrMissing s.vars (read ptr len)), s)
  | .setVar kptr klen vptr vlen =>
    (none, { s with vars := s.vars.insert (read kptr klen) (read vptr vlen) })
  | .log ptr len _ => (none, { s with logBuf := s.logBuf ++ [read ptr len] })

/-- The state after the host calls of a plugin. -/
def runCalls (s : HostState) (calls : List HostCall) : HostState :=
  calls.foldl (fun s c => (hostCall s c).2) s

/-! ## Calling an export -/

/-- What becomes of the call of an export. The calls include those of the module's
    start function. -/
inductive Execution where
  | instantiateFails (message : String)
  /-- The module has no export of that name and type. -/
  | noExport
  | traps (calls : List HostCall) (message : String)
  | returns (calls : List HostCall) (code : Int32)
  deriving Repr, DecidableEq

/-- The orders in which the loops over the two kinds of maps visit their entries. -/
structure Orders (http : Http) where
  headers : ∀ m : HeaderMap http, Finmap.Walk m
  strings : ∀ m : HashMap String, Finmap.Walk m

section

variable {http : Http}

/-- The pairs `HeaderMap::iter` yields that are text, each value of a name in turn. -/
def headerStrings (entries : List (http.HeaderName × { vs : List http.HeaderValue // vs ≠ [] })) :
    List (String × String) :=
  entries.flatMap fun e =>
    e.2.val.filterMap fun v => (http.toStr v).map fun s => (http.asStr e.1, s)

/-- Collecting pairs into a `HashMap`: a later pair replaces an earlier one. -/
def collect (pairs : List (String × String)) : HashMap String :=
  pairs.foldl (fun m p => m.insert p.1 p.2) ∅

def headerMapToStrings (map : HeaderMap http) (walk : Finmap.Walk map) : HashMap String :=
  collect (headerStrings walk.val)

/-- One pass of the write-back loop; a pair that is no header is skipped. -/
def insertString (out : HeaderMap http) (p : String × String) : HeaderMap http :=
  match http.nameFromBytes p.1, http.valueFromStr p.2 with
  | some name, some value => out.insert name value
  | _, _ => out

def stringsToHeaderMap (map : HashMap String) (walk : Finmap.Walk map) (out : HeaderMap http) :
    HeaderMap http :=
  walk.val.foldl insertString out

def actionFromCode (code : Int32) (state : HostState) : Action :=
  if code = 0 then .continue else if code = 1 then .deny else state.action

/-- The host state an export starts from. -/
def startState (orders : Orders http) (headers : HeaderMap http) (vars : HashMap String) :
    HostState where
  headers := headerMapToStrings headers (orders.headers headers)
  vars := vars
  logBuf := []
  action := .continue

/-- The body of `call_on_request` and `call_on_response`: the result, and the headers
    and variables of the context afterwards. -/
def callExport (orders : Orders http) (headers : HeaderMap http) (vars : HashMap String) :
    Execution → Except WasmError Action × HeaderMap http × HashMap String
  | .instantiateFails message => (.error (.instantiate message), headers, vars)
  | .noExport => (.ok .continue, headers, vars)
  | .traps _ message => (.error (.call message), headers, vars)
  | .returns calls code =>
    let state := runCalls (startState orders headers vars) calls
    (.ok (actionFromCode code state),
      stringsToHeaderMap state.headers (orders.strings state.headers) headers, state.vars)

def callOnRequest (orders : Orders http) (e : Execution) (ctx : RequestContext http) :
    Except WasmError Action × RequestContext http :=
  let (result, headers, vars) := callExport orders ctx.headers ctx.vars e
  (result, { ctx with headers, vars })

def callOnResponse (orders : Orders http) (e : Execution) (ctx : ResponseContext http) :
    Except WasmError Action × ResponseContext http :=
  let (result, headers, vars) := callExport orders ctx.headers ctx.vars e
  (result, { ctx with headers, vars })

end

end WasmPlugin

end Barqium.Native
