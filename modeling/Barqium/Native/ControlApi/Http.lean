import Barqium.ForStd.Program
import Barqium.Native.Json
import Barqium.Native.ControlApi.Database

/-!
# Requests and responses of the control API

What a handler sees of a request, the decoding of JSON bodies by Go's encoding/json,
and the middlewares of `internal/middleware`. Validating a token and routing a request
are the libraries' and stay outside: a request carries the outcome of the first, an
endpoint (in the router) that of the second.
-/

namespace Barqium.Native.ControlApi

/-- A URL as `url.ParseRequestURI` returns it. -/
structure RequestUri where
  scheme : String
  hostname : String
  deriving Repr, DecidableEq

/-- Functions of Go's and other libraries the handlers call. -/
structure Ext where
  uuidParse : String → Option UUID
  toUpper : String → String
  toLower : String → String
  parseRequestURI : String → Option RequestUri
  /-- The text of a JSON value in the body, as a `json.RawMessage` keeps it. -/
  rawMessage : Json → String
  /-- SHA-256 in lower-case hexadecimal. -/
  sha256Hex : Bytes → String

/-! ## Responses -/

inductive Body where
  | empty
  /-- Plain text written by `http.Error`. -/
  | text (s : String)
  /-- `errorResponse`. -/
  | error (msg : String)
  | row (t : Table) (r : t.Row)
  | rows (t : Table) (rs : List t.Row)
  /-- The answer to an accepted rollback. -/
  | rollback (status : String) (checkpoint : ConfigCheckpoint) (message : String)
  | redirect (url : String)
  /-- The binary of a plugin, with the headers taken from its row. -/
  | wasm (disposition sha256 : String) (binary : Bytes)

structure Response where
  status : Nat
  body : Body

def writeError (status : Nat) (msg : String) : Response := ⟨status, .error msg⟩

def httpError (msg : String) (status : Nat) : Response := ⟨status, .text msg⟩

/-- The answer of the `Recoverer` middleware to a panic. -/
def panicked : Response := ⟨500, .empty⟩

def internalError (_ : DbError) : Response := writeError 500 "internal error"

/-- The answer to a failed read of one row. -/
def notFoundOr (msg : String) (err : DbError) : Response :=
  if err = .noRows then writeError 404 msg else internalError err

/-- The answer to a failed write. -/
def conflictOr (msg : String) (err : DbError) : Response :=
  if isDuplicateKey err then writeError 409 msg else internalError err

/-! ## Requests -/

/-- The claims of a validated token. -/
structure Token where
  claims : List (String × Json)

/-- `token.Get`; a null claim is a nil value, like an absent one. -/
def Token.get (token : Token) (name : String) : Option Json :=
  match token.claims.lookup name with
  | none | some .null => none
  | some v => some v

/-- What the validation of the `Authorization` header yields. -/
inductive Authentication where
  | missing
  | keyStoreUnavailable
  | invalid
  | token (token : Token)

/-- A parsed multipart form. The file of the plugin may be absent (`none`) or
    unreadable (`some none`). -/
structure MultipartForm where
  value : String → String
  wasmBinary : Option (Option Bytes)

structure Request where
  auth : Authentication
  /-- `r.URL.Query().Get`. -/
  query : String → String
  contentType : String
  /-- The first JSON value of the body, if it starts with one. -/
  body : Option Json
  /-- The result of `ParseMultipartForm`. -/
  form : Option MultipartForm

/-- The programs of the handlers: they end with a response either way. -/
abbrev Handler := Program Query Response Response

/-- Run a statement, and end with the response to its error if it fails. -/
def orFail {β : Type} (q : Query (Except DbError β)) (onError : DbError → Response) :
    Program Query Response β := do
  match ← Program.perform q with
  | .ok b => pure b
  | .error err => throw (onError err)

/-- Reject the request with the response unless the condition holds. -/
def require (cond : Bool) (otherwise : Response) : Except Response Unit :=
  if cond then .ok () else .error otherwise

/-! ## URL parameters -/

def parseID (ext : Ext) (invalid : String) (param : String) : Except Response UUID :=
  match ext.uuidParse param with
  | some id => .ok id
  | none => .error (writeError 400 invalid)

def parseTenantID (ext : Ext) (param : String) : Except Response UUID :=
  parseID ext "invalid tenant id" param

def parseProviderID (ext : Ext) (param : String) : Except Response UUID :=
  parseID ext "invalid provider id" param

/-- `strconv.Atoi`: an optional sign and decimal digits, within 64 bits. -/
def atoi (s : String) : Option Int :=
  let value (digits : List Char) : Option Nat :=
    if digits ≠ [] ∧ digits.all Char.isDigit then
      some (digits.foldl (fun n c => 10 * n + (c.toNat - '0'.toNat)) 0)
    else none
  let signed : Option Int :=
    match s.toList with
    -- a sign needs a digit after it
    | '-' :: digits => (value digits).map fun n => -(n : Int)
    | '+' :: digits => (value digits).map Int.ofNat
    | digits => (value digits).map Int.ofNat
  signed.filter fun n => -(2 ^ 63) ≤ n ∧ n < 2 ^ 63

/-- `limit` and `offset` of a listing, the offset converted to 32 bits. -/
def parsePagination (r : Request) : Int32 × Int32 :=
  let limit :=
    match atoi (r.query "limit") with
    | some n => if 0 < n ∧ n ≤ 200 then Int32.ofInt n else 50
    | none => 50
  -- `int32(v)` keeps the low 32 bits of an offset that does not fit
  let offset :=
    match atoi (r.query "offset") with
    | some n => if 0 ≤ n then Int32.ofInt n else 0
    | none => 0
  (limit, offset)

/-! ## JSON bodies -/

/-- The key under which encoding/json looks up a struct field: letters are compared
    without case, with the long s and the Kelvin sign as `s` and `k`. -/
def foldName (key : String) : String :=
  String.ofList (key.toList.map fun c =>
    if c = Char.ofNat 0x017F then 's' else if c = Char.ofNat 0x212A then 'k' else c.toLower)

/-- Decode the members of an object into a struct one after the other; null leaves the
    struct as it is, and unknown members are ignored by `set`. -/
def decodeBody {α : Type} (set : α → String → Json → Option α) (zero : α) (r : Request) :
    Except Response α :=
  let decoded :=
    match r.body with
    | some .null => some zero
    -- a later member of the same name overwrites an earlier one
    | some (.obj members) => members.foldlM (fun a m => set a (foldName m.1) m.2) zero
    | _ => none
  match decoded with
  | some a => .ok a
  | none => .error (writeError 400 "invalid request body")

/-- Decode into a field that is not a pointer; null changes nothing. -/
def goValue {α : Type} (decode : Json → Option α) (current : α) : Json → Option α
  | .null => some current
  | v => decode v

/-- Decode into a pointer field; null makes it nil. -/
def goPointer {α : Type} (decode : Json → Option α) : Json → Option (Option α)
  | .null => some none
  | v => (decode v).map some

def goString : Json → Option String
  | .str s => some s
  | _ => none

def goBool : Json → Option Bool
  | .bool b => some b
  | _ => none

/-- An integer literal within the signed range of `bits`. -/
def goInteger (bits : Nat) : Json → Option Int
  | .num literal =>
    literal.toInt?.filter fun n => -(2 ^ (bits - 1)) ≤ n ∧ n < 2 ^ (bits - 1)
  | _ => none

def goInt32 (v : Json) : Option Int32 := (goInteger 32 v).map Int32.ofInt

def goInt64 (v : Json) : Option Int64 := (goInteger 64 v).map Int64.ofInt

/-- A `uuid.UUID`, which is decoded from text. -/
def goUuid (ext : Ext) : Json → Option UUID
  | .str s => ext.uuidParse s
  | _ => none

/-! ## Middlewares -/

/-- How the `OIDC` middleware was set up. -/
inductive OidcMode where
  /-- No JWKS URL is configured. -/
  | disabled
  /-- The JWKS URL could not be registered. -/
  | unregistered
  | enabled
  deriving Repr, DecidableEq

/-- `OIDC`: the token put into the context, or the rejection. -/
def oidc (mode : OidcMode) (auth : Authentication) : Except Response (Option Token) :=
  match mode with
  | .disabled => .ok none
  | .unregistered => .error (httpError "oidc: JWKS registration failed" 503)
  | .enabled =>
    match auth with
    | .missing => .error (httpError "missing or malformed Authorization header" 401)
    | .keyStoreUnavailable => .error (httpError "oidc: key store unavailable" 503)
    | .invalid => .error (httpError "invalid or expired token" 401)
    | .token token => .ok (some token)

/-- `TenantScope`. A role claim that is not a string makes the type assertion panic. -/
def tenantScope (adminRoles : List String) (tenantParam : String) :
    Option Token → Except Response Unit
  | none => .ok ()
  | some token =>
    match token.get "role" with
    -- admins bypass tenant scoping
    | some (.str role) => if adminRoles.contains role then .ok () else ownTenant token
    | some _ => .error panicked
    | none => ownTenant token
where
  ownTenant (token : Token) : Except Response Unit :=
    if tenantParam = "" then .ok ()
    else
      let claimTenantID := ((token.get "tenant_id").bind Json.asStr).getD ""
      if claimTenantID = "" || claimTenantID ≠ tenantParam then
        .error (httpError "forbidden: tenant mismatch" 403)
      else .ok ()

/-- `RequireRole`. -/
def requireRole (roles : List String) : Option Token → Except Response Unit
  | none => .ok ()
  | some token =>
    let roleStr := ((token.get "role").bind Json.asStr).getD ""
    if roles.contains roleStr then .ok ()
    else .error (httpError "forbidden: insufficient role" 403)

end Barqium.Native.ControlApi
