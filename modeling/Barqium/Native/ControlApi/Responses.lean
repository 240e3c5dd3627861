import Barqium.ForStd.Base64
import Barqium.Native.AdminClient
import Barqium.Native.ControlApi.PolicyHandlers

/-!
# JSON of WASM plugins

What `writeJSON` makes of a plugin row (`internal/sqlc/sqlcgen/wasm_plugins.sql.go`). The
config is a `[]byte` there, although it holds JSON, and encoding/json writes the bytes of
a `[]byte` as a base64 string.
-/

namespace Barqium.Native.ControlApi

open AdminClient (GoText member)

/-- `[]byte(s)`. -/
def utf8Bytes (s : String) : Bytes := s.toList.flatMap String.utf8EncodeChar

/-- The JSON of a `[]byte` that is not nil. -/
def bytesJson (bytes : Bytes) : Json := .str (String.ofList (Base64.encode bytes))

/-- A plugin row as the control API writes it; the binary is left out. -/
def wasmPluginJson (text : GoText) (p : WasmPlugin) : Json :=
  .obj ([("id", .str (text.uuid p.id)), ("tenant_id", .str (text.uuid p.tenantId)),
      ("name", .str p.name), ("version", .str p.version), ("trigger", .str p.trigger),
      ("sha256", .str p.sha256)] ++
    member "storage_url" (p.storageUrl.map .str) ++
    [("config", bytesJson (utf8Bytes p.config)), ("enabled", .bool p.enabled),
      ("created_at", .str (text.time p.createdAt)), ("updated_at", .str (text.time p.updatedAt))])

end Barqium.Native.ControlApi
