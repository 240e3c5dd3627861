import Barqium.Native.ListPages

/-!
# Forms of the admin UI

Model of the forms in `ui/admin/src/components`: the tenant form with the slug it derives from a
name, the route form, the plugin form and the region form. A form has a state, its fields change
it one edit at a time, and a submission that the browser and the form let through is the body of
a request to the control API. Texts are sequences of characters: a lone surrogate is none.

What a form shows while a request is in progress is left out.
-/

namespace Barqium.Native.AdminUi

open AdminClient (member)

/-! ## Texts -/

/-- The white space and the line terminators of JavaScript. -/
def isJsSpace (c : Char) : Bool :=
  let n := c.toNat
  (0x09 ≤ n && n ≤ 0x0D) || n = 0x20 || n = 0xA0 || n = 0x1680 || (0x2000 ≤ n && n ≤ 0x200A) ||
    n = 0x2028 || n = 0x2029 || n = 0x202F || n = 0x205F || n = 0x3000 || n = 0xFEFF

/-- `s.trim()`. -/
def trim (s : String) : String :=
  String.ofList ((s.toList.dropWhile isJsSpace).reverse.dropWhile isJsSpace).reverse

/-- `trim(s) || undefined`. -/
def trimmedOrUndefined (s : String) : Option String := if trim s = "" then none else some (trim s)

/-! ## Tenants -/

/-- `[a-z0-9]`. -/
def isSlugChar (c : Char) : Bool := c.isLower || c.isDigit

/-- `s.replace(/[^a-z0-9]+/g, '-')`, inside a run of other characters or not. -/
def hyphenate : Bool → List Char → List Char
  | _, [] => []
  | inRun, c :: cs =>
    if isSlugChar c then c :: hyphenate false cs
    else if inRun then hyphenate true cs
    else '-' :: hyphenate true cs

/-- `s.replace(/(^-|-$)/g, '')`: one hyphen at each end, which may be the same one. -/
def stripHyphens (s : List Char) : List Char :=
  let s := if s.head? = some '-' then s.tail else s
  if s.getLast? = some '-' then s.dropLast else s

def slugify (text : JsText) (s : String) : String :=
  String.ofList (stripHyphens (hyphenate false (text.toLowerCase s).toList))

structure TenantForm where
  name : String
  slug : String
  enabled : Bool
  slugEdited : Bool
  deriving Repr, DecidableEq

inductive TenantEdit where
  | name (value : String)
  | slug (value : String)
  | enabled (value : Bool)

/-- The body of a creation and of a patch. -/
structure TenantBody where
  name : String
  slug : String
  enabled : Bool
  deriving Repr, DecidableEq

def TenantBody.toJson (body : TenantBody) : Json :=
  .obj [("name", .str body.name), ("slug", .str body.slug), ("enabled", .bool body.enabled)]

namespace TenantForm

/-- An empty form, or the form of an existing tenant. -/
def initial : Option Tenant → TenantForm
  | none => ⟨"", "", true, false⟩
  | some tenant => ⟨tenant.name, tenant.slug, tenant.enabled, tenant.slug ≠ ""⟩

/-- The slug follows the name until it is edited itself. -/
def edit (text : JsText) (form : TenantForm) : TenantEdit → TenantForm
  | .name v =>
    { form with
      name := v
      slug := if form.slugEdited then form.slug else slugify text v }
  | .slug v => { form with slug := v, slugEdited := true }
  | .enabled v => { form with enabled := v }

def run (text : JsText) (tenant : Option Tenant) (edits : List TenantEdit) : TenantForm :=
  edits.foldl (edit text) (initial tenant)

/-- The `pattern` of the input: `[a-z0-9][a-z0-9\-]*`. -/
def slugPattern (slug : String) : Bool :=
  match slug.toList with
  | [] => false
  | c :: cs => isSlugChar c && cs.all fun c => isSlugChar c || c = '-'

/-- What the browser checks before it submits: `required` and `pattern`. -/
def checkValidity (form : TenantForm) : Bool :=
  form.name ≠ "" && form.slug ≠ "" && slugPattern form.slug

/-- `handleSubmit`. -/
def submit (form : TenantForm) : Option TenantBody :=
  if form.checkValidity then
    if trim form.name = "" || trim form.slug = "" then none
    else some ⟨trim form.name, trim form.slug, form.enabled⟩
  else none

end TenantForm

/-! ## Routes -/

/-- `[a-zA-Z0-9/_\-.:*{}]`. -/
def isPathChar (c : Char) : Bool :=
  c.isAlphanum || c = '/' || c = '_' || c = '-' || c = '.' || c = ':' || c = '*' ||
    c = Char.ofNat 0x7B || c = Char.ofNat 0x7D

def validatePathPrefix (path : String) : Option String :=
  let trimmed := trim path
  if trimmed = "" then some "Path prefix is required"
  else if trimmed.toList.head? ≠ some '/' then some "Path prefix must start with /"
  else if trimmed.toList.contains ' ' then some "Path prefix must not contain spaces"
  else if trimmed.toList.any fun c => !isPathChar c then
    some "Path prefix contains invalid characters"
  else none

/-- `HTTP_METHODS`. -/
inductive HttpMethod where
  | any
  | get
  | post
  | put
  | delete
  | patch
  deriving Repr, DecidableEq

def HttpMethod.text : HttpMethod → String
  | .any => "ANY"
  | .get => "GET"
  | .post => "POST"
  | .put => "PUT"
  | .delete => "DELETE"
  | .patch => "PATCH"

/-- The method is an option of the select, or what an existing route has. -/
structure RouteForm where
  method : String
  pathPrefix : String
  host : String
  upstreamId : String
  enabled : Bool
  pathError : Option String
  deriving Repr, DecidableEq

inductive RouteEdit where
  | method (value : HttpMethod)
  | pathPrefix (value : String)
  | host (value : String)
  | upstreamId (value : String)
  | enabled (value : Bool)

/-- The body of a creation and of a patch. -/
structure RouteBody where
  method : String
  pathPrefix : String
  host : Option String
  upstreamId : String
  enabled : Bool
  deriving Repr, DecidableEq

def RouteBody.toJson (body : RouteBody) : Json :=
  .obj ([("method", .str body.method), ("path_prefix", .str body.pathPrefix)] ++
    member "host" (body.host.map .str) ++
    [("upstream_id", .str body.upstreamId), ("enabled", .bool body.enabled)])

namespace RouteForm

def normalizeMethod (text : JsText) (m : String) : String :=
  if m = "*" || m = "" then "ANY" else text.toUpperCase m

/-- An empty form, or the form of an existing route with the id of its upstream. -/
def initial (text : JsText) : Option (Route × String) → RouteForm
  | none => ⟨normalizeMethod text "ANY", "/", "", "", true, none⟩
  | some (route, upstreamId) =>
    ⟨normalizeMethod text route.method, route.pathPrefix, route.host.getD "", upstreamId,
      route.enabled, none⟩

def edit (form : RouteForm) : RouteEdit → RouteForm
  | .method v => { form with method := v.text }
  | .pathPrefix v => { form with pathPrefix := v, pathError := validatePathPrefix v }
  | .host v => { form with host := v }
  | .upstreamId v => { form with upstreamId := v }
  | .enabled v => { form with enabled := v }

def run (text : JsText) (route : Option (Route × String)) (edits : List RouteEdit) : RouteForm :=
  edits.foldl edit (initial text route)

/-- The method in the API: any method is a star. -/
def apiMethod (form : RouteForm) : String := if form.method = "ANY" then "*" else form.method

/-- `handleSubmit`, behind the `required` fields and a button that an error disables. -/
def submit (form : RouteForm) : Option RouteBody :=
  if form.pathPrefix ≠ "" && form.upstreamId ≠ "" && form.pathError.isNone then
    match validatePathPrefix form.pathPrefix with
    | some _ => none
    | none =>
      some { method := form.apiMethod, pathPrefix := trim form.pathPrefix
             host := trimmedOrUndefined form.host, upstreamId := form.upstreamId
             enabled := form.enabled }
  else none

end RouteForm

/-! ## Plugins -/

/-- `[a-fA-F0-9]`. -/
def isHexDigit (c : Char) : Bool :=
  c.isDigit || (0x61 ≤ c.toNat && c.toNat ≤ 0x66) || (0x41 ≤ c.toNat && c.toNat ≤ 0x46)

/-- The `length` of a string, in UTF-16 code units: a character beyond U+FFFF takes two. -/
def codeUnits (s : String) : Nat :=
  s.toList.foldl (fun n c => n + if c.toNat < 0x10000 then 1 else 2) 0

def validateSha256 (sha : String) : Option String :=
  if sha = "" then none
  else if codeUnits sha < 64 then
    some ("SHA256 needs " ++ toString (64 - codeUnits sha) ++ " more hex characters")
  else if 64 < codeUnits sha then some "SHA256 must be exactly 64 hex characters"
  else if sha.toList.all isHexDigit then none
  else some "SHA256 must contain only hex characters (0-9, a-f)"

inductive Trigger where
  | onRequest
  | onResponse
  | both
  deriving Repr, DecidableEq

def Trigger.text : Trigger → String
  | .onRequest => "on_request"
  | .onResponse => "on_response"
  | .both => "both"

structure PluginForm where
  name : String := ""
  version : String := "1.0.0"
  trigger : Trigger := .onRequest
  storageUrl : String := ""
  sha256 : String := ""
  enabled : Bool := true
  shaError : Option String := none
  deriving Repr, DecidableEq

inductive PluginEdit where
  | name (value : String)
  | version (value : String)
  | trigger (value : Trigger)
  | storageUrl (value : String)
  | sha256 (value : String)
  | enabled (value : Bool)

/-- The digest is not part of the body. -/
structure PluginBody where
  name : String
  version : String
  trigger : Trigger
  storageUrl : Option String
  enabled : Bool
  deriving Repr, DecidableEq

def PluginBody.toJson (body : PluginBody) : Json :=
  .obj ([("name", .str body.name), ("version", .str body.version),
      ("trigger", .str body.trigger.text)] ++
    member "storage_url" (body.storageUrl.map .str) ++ [("enabled", .bool body.enabled)])

namespace PluginForm

def edit (form : PluginForm) : PluginEdit → PluginForm
  | .name v => { form with name := v }
  | .version v => { form with version := v }
  | .trigger v => { form with trigger := v }
  | .storageUrl v => { form with storageUrl := v }
  | .sha256 v => { form with sha256 := v, shaError := validateSha256 v }
  | .enabled v => { form with enabled := v }

/-- A plugin is only created, never edited. -/
def run (edits : List PluginEdit) : PluginForm := edits.foldl edit {}

def submit (form : PluginForm) : Option PluginBody :=
  if form.name ≠ "" && form.version ≠ "" && form.shaError.isNone then
    match validateSha256 form.sha256 with
    | some _ => none
    | none =>
      if trim form.name = "" || trim form.version = "" then none
      else
        some { name := trim form.name, version := trim form.version, trigger := form.trigger
               storageUrl := trimmedOrUndefined form.storageUrl, enabled := form.enabled }
  else none

end PluginForm

/-! ## Regions -/

structure RegionForm where
  name : String := ""
  kafkaBrokers : String := ""
  isPrimary : Bool := false
  deriving Repr, DecidableEq

def RegionForm.toJson (body : RegionForm) : Json :=
  .obj [("name", .str body.name), ("kafka_brokers", .str body.kafkaBrokers),
    ("is_primary", .bool body.isPrimary)]

/-- The body has the fields of the form. -/
def RegionForm.submit (form : RegionForm) : Option RegionForm :=
  if form.name ≠ "" && form.kafkaBrokers ≠ "" then
    if trim form.name = "" || trim form.kafkaBrokers = "" then none
    else some ⟨trim form.name, trim form.kafkaBrokers, form.isPrimary⟩
  else none

/-! ## Requests -/

/-- The client sends every body as JSON. -/
def sent (r : ControlApi.Request) (body : Json) : ControlApi.Request :=
  { r with contentType := "application/json", body := some body }

end Barqium.Native.AdminUi
