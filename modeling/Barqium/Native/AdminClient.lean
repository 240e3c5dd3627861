import Barqium.Native.ControlApi.Handlers

/-!
# Admin client

Model of the upstream types of `ui/admin/src/api/client.ts`, with what
`JSON.stringify` makes of a request body and what `res.json() as Promise<T>` gives
for a response; and of the JSON that `writeJSON` makes of an upstream row
(`internal/sqlc/sqlcgen/models.go`). The texts of UUIDs and of times are the
libraries' and stay parameters.
-/

namespace Barqium.Native.AdminClient

open ControlApi

/-- A number of JavaScript, by how `JSON.stringify` writes it. -/
inductive JsNumber where
  /-- In digits, with a sign if it is negative. -/
  | integer (n : Int)
  /-- With a fraction or an exponent. -/
  | decimal (literal : String) (not_integer : literal.toInt? = none)
  /-- `NaN` and the infinities, which are written as null. -/
  | nonFinite

def JsNumber.toJson : JsNumber → Json
  | .integer n => .num n.repr
  | .decimal literal _ => .num literal
  | .nonFinite => .null

structure CreateUpstreamBody where
  name : String
  baseUrl : String
  timeoutMs : Option JsNumber
  enabled : Option Bool

structure UpdateUpstreamBody where
  name : Option String
  baseUrl : Option String
  timeoutMs : Option JsNumber
  enabled : Option Bool

/-- A member of an object; an undefined one is left out. -/
def member (key : String) (value : Option Json) : List (String × Json) :=
  (value.map fun v => (key, v)).toList

/-- `JSON.stringify` of an upstream body. -/
def stringifyUpstream (name baseUrl : Option String) (timeoutMs : Option JsNumber)
    (enabled : Option Bool) : Json :=
  .obj (member "name" (name.map .str) ++ member "base_url" (baseUrl.map .str) ++
    member "timeout_ms" (timeoutMs.map JsNumber.toJson) ++ member "enabled" (enabled.map .bool))

def CreateUpstreamBody.toJson (body : CreateUpstreamBody) : Json :=
  stringifyUpstream (some body.name) (some body.baseUrl) body.timeoutMs body.enabled

def UpdateUpstreamBody.toJson (body : UpdateUpstreamBody) : Json :=
  stringifyUpstream body.name body.baseUrl body.timeoutMs body.enabled

/-- The client's `Upstream`. The response is cast to the type without a check, so
    each property is whatever the object has under its name; none is undefined. -/
structure Upstream where
  id : Option Json
  tenantId : Option Json
  name : Option Json
  baseUrl : Option Json
  timeoutMs : Option Json
  enabled : Option Json
  createdAt : Option Json
  updatedAt : Option Json

def property (value : Json) (key : String) : Option Json :=
  match value with
  | .obj members => members.lookup key
  | _ => none

/-- `res.json() as Promise<Upstream>`. -/
def Upstream.ofJson (value : Json) : Upstream where
  id := property value "id"
  tenantId := property value "tenant_id"
  name := property value "name"
  baseUrl := property value "base_url"
  timeoutMs := property value "timeout_ms"
  enabled := property value "enabled"
  createdAt := property value "created_at"
  updatedAt := property value "updated_at"

/-- How Go writes UUIDs and times in JSON. -/
structure GoText where
  uuid : UUID → String
  time : Time → String

/-- An upstream row as the control API writes it. -/
def upstreamJson (text : GoText) (u : ControlApi.Upstream) : Json :=
  .obj [("id", .str (text.uuid u.id)), ("tenant_id", .str (text.uuid u.tenantId)),
    ("name", .str u.name), ("url", .str u.url), ("timeout_ms", .num u.timeoutMs.toInt.repr),
    ("enabled", .bool u.enabled), ("created_at", .str (text.time u.createdAt)),
    ("updated_at", .str (text.time u.updatedAt))]

end Barqium.Native.AdminClient
